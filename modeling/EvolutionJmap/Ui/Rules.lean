import EvolutionJmap.Text

/-!
# Filter rules and their Sieve script (`jmap-ui/src/filters/rules.rs`, `script.rs`)

The managed script has a header, then each rule as a comment with its JSON and, for an
enabled rule, the Sieve that it generates.  The branches of the source that panic on a
rule that was not validated give nothing here.
-/

namespace EvolutionJmap.Ui

/-! ## Rules -/

/-- How the conditions of a rule combine. -/
inductive Combine where
  | all
  | any
  deriving DecidableEq, Repr

/-- The message field a condition tests. -/
inductive Field where
  | «from»
  | «to»
  | cc
  | toOrCc
  | subject
  | header (name : String)
  | size
  deriving DecidableEq, Repr

/-- How a condition compares its field to its value. The value of `over` and
`under` is a whole number of kilobytes. -/
inductive Op where
  | contains
  | notContains
  | is
  | «matches»
  | over
  | under
  deriving DecidableEq, Repr

structure Condition where
  field : Field
  op : Op
  value : String
  deriving DecidableEq, Repr

/-- A mailbox: an id for `:mailboxid` and a path for plain `fileinto`. -/
structure Folder where
  id : String
  name : String
  deriving DecidableEq, Repr

inductive Action where
  | moveTo (folder : Folder)
  | copyTo (folder : Folder)
  | markRead
  | flag
  | redirect (address : String) (keep : Bool)
  | discard
  deriving DecidableEq, Repr

/-- A rule of the filter editor. -/
structure Rule where
  name : String
  enabled : Bool
  combine : Combine
  conditions : List Condition
  actions : List Action
  stop : Bool
  deriving DecidableEq, Repr

def managedScriptName : String := "evolution-jmap"

/-! ## Validation -/

def noAction : String := "Add at least one action."
def badValue : String := "The value cannot contain a newline, carriage return or NUL character."
def badHeaderName : String :=
  "A header name cannot contain a colon, space, control or non-ASCII character."
def badSizeValue : String := "Size must be a whole number of kilobytes greater than zero."
def sizeOpMismatch : String := "'More than' and 'Less than' compare the message size only."
def badAddress : String := "The address must contain exactly one '@'."
def discardWithOther : String := "Discard cannot be combined with Move to, Copy to or Redirect."

def noNewlineOrNul (value : String) : Bool :=
  !containsChar value '\n' && !containsChar value '\r' && !containsChar value '\x00'

/-- One or more printable ASCII characters other than a colon. Every byte of
another character is above 126. -/
def isValidHeaderName (name : String) : Bool :=
  name ≠ "" && name.toList.all fun char =>
    (33 ≤ char.toNat && char.toNat ≤ 57) || (59 ≤ char.toNat && char.toNat ≤ 126)

/-- The value as a `u64` above zero. -/
def isPositiveSize (value : String) : Bool :=
  (Text.parseUnsigned 64 value.toList).any (0 < ·)

/-- A header whose name is not valid. -/
def Field.isBadHeader : Field → Bool
  | .header name => !isValidHeaderName name
  | _ => false

def Condition.validate (condition : Condition) : Except String Unit :=
  let isSize := condition.field = .size
  let isSizeOp := condition.op = .over ∨ condition.op = .under
  if !noNewlineOrNul condition.value then .error badValue
  else if condition.field.isBadHeader then .error badHeaderName
  else if ¬(isSize ↔ isSizeOp) then .error sizeOpMismatch
  else if isSize ∧ !isPositiveSize condition.value then .error badSizeValue
  else .ok ()

def Folder.validate (folder : Folder) : Except String Unit :=
  if !noNewlineOrNul folder.id || !noNewlineOrNul folder.name then .error badValue else .ok ()

def Action.validate : Action → Except String Unit
  | .moveTo folder | .copyTo folder => folder.validate
  | .redirect address _ =>
    if !noNewlineOrNul address then .error badValue
    else if address.toList.count '@' ≠ 1 then .error badAddress
    else .ok ()
  | .markRead | .flag | .discard => .ok ()

def Action.delivers : Action → Bool
  | .moveTo _ | .copyTo _ | .redirect _ _ => true
  | _ => false

/-- Check a rule against the constraints that the script relies on. -/
def Rule.validate (rule : Rule) : Except String Unit := do
  if !noNewlineOrNul rule.name then throw badValue
  if rule.actions = [] then throw noAction
  rule.conditions.forM Condition.validate
  rule.actions.forM Action.validate
  if rule.actions.contains .discard && rule.actions.any Action.delivers then throw discardWithOther

/-! ## The script -/

def headerLine1 : String :=
  "# Generated by Evolution (JMAP). Edit it in Evolution's account editor."

/-- The format version. -/
def headerLine2 : String := "# evolution-jmap-rules 1"

def rulePrefix : String := "# rule "

def escape (value : String) : String :=
  let backslashes := value.toList.flatMap fun char => if char = '\\' then ['\\', '\\'] else [char]
  String.ofList (backslashes.flatMap fun char => if char = '"' then ['\\', '"'] else [char])

def Action.extensions (hasMailboxid : Bool) : Action → List String
  | .moveTo _ => "fileinto" :: if hasMailboxid then ["mailboxid"] else []
  | .copyTo _ => "fileinto" :: "copy" :: if hasMailboxid then ["mailboxid"] else []
  | .markRead | .flag => ["imap4flags"]
  | .redirect _ true => ["copy"]
  | .redirect _ false | .discard => []

/-- The extensions that the actions of the enabled rules need, sorted. -/
def requiredExtensions (rules : List Rule) (hasMailboxid : Bool) : List String :=
  let needed := (rules.filter Rule.enabled).flatMap fun rule =>
    rule.actions.flatMap (Action.extensions hasMailboxid)
  needed.dedup.insertionSort (· ≤ ·)

def Field.headerArg : Field → Option String
  | .«from» => some "\"from\""
  | .«to» => some "\"to\""
  | .cc => some "\"cc\""
  | .toOrCc => some "[\"to\",\"cc\"]"
  | .subject => some "\"subject\""
  | .header name => some ("\"" ++ escape name ++ "\"")
  | .size => none

def Op.matchType : Op → Option (String × Bool)
  | .contains => some (":contains", false)
  | .notContains => some (":contains", true)
  | .is => some (":is", false)
  | .«matches» => some (":matches", false)
  | .over | .under => none

def Op.sizeTag : Op → Option String
  | .over => some ":over"
  | .under => some ":under"
  | _ => none

def Field.testName : Field → String
  | .subject | .header _ => "header "
  | _ => "address :all "

def conditionTest (condition : Condition) : Option String :=
  if condition.field = .size then do
    let tag ← condition.op.sizeTag
    some ("size " ++ tag ++ " " ++ condition.value ++ "K")
  else do
    let headerArg ← condition.field.headerArg
    let (tag, negate) ← condition.op.matchType
    let test := condition.field.testName ++ tag ++ " " ++ headerArg ++ " \"" ++
      escape condition.value ++ "\""
    some (if negate then "not " ++ test else test)

def testExpr (rule : Rule) : Option String :=
  match rule.conditions with
  | [] => some "true"
  | [only] => conditionTest only
  | many => do
      let verb := match rule.combine with
        | .all => "allof"
        | .any => "anyof"
      let tests ← many.mapM conditionTest
      some (verb ++ "(" ++ ", ".intercalate tests ++ ")")

/-- The `fileinto` statement without its semicolon. -/
def fileinto (folder : Folder) (copy hasMailboxid : Bool) : String :=
  "fileinto " ++ (if copy then ":copy " else "") ++
    (if hasMailboxid then ":mailboxid \"" ++ escape folder.id ++ "\" " else "") ++
    "\"" ++ escape folder.name ++ "\""

def generateAction (hasMailboxid : Bool) : Action → String
  | .moveTo folder => fileinto folder false hasMailboxid ++ ";"
  | .copyTo folder => fileinto folder true hasMailboxid ++ ";"
  | .markRead => "addflag \"\\\\Seen\";"
  | .flag => "addflag \"\\\\Flagged\";"
  | .redirect address keep =>
    if keep then "redirect :copy \"" ++ escape address ++ "\";"
    else "redirect \"" ++ escape address ++ "\";"
  | .discard => "discard;"

def Action.isFlag : Action → Bool
  | .markRead | .flag => true
  | _ => false

/-- The actions with those that set a flag in front: a flag reaches a message only
before it is filed. -/
def Rule.orderedActions (rule : Rule) : List Action :=
  rule.actions.filter Action.isFlag ++ rule.actions.filter (!Action.isFlag ·)

/-- The `if` command of an enabled rule. -/
def generateRuleBody (rule : Rule) (hasMailboxid : Bool) : Option String := do
  let test ← testExpr rule
  let actions := rule.orderedActions.map fun action =>
    "    " ++ generateAction hasMailboxid action ++ "\n"
  some ("if " ++ test ++ " \x7b\n" ++ "".intercalate actions ++
    (if rule.stop then "    stop;\n" else "") ++ "\x7d\n")

section

-- What `serde_json::to_string` writes for a rule.
variable (json : Rule → String)

/-- A rule as a comment line that states it, and the command of an enabled rule. -/
def generateRule (hasMailboxid : Bool) (rule : Rule) : Option String :=
  let body := if rule.enabled then generateRuleBody rule hasMailboxid else some ""
  body.map fun body => "\n" ++ rulePrefix ++ json rule ++ "\n" ++ body

/-- The script of some rules. -/
def generateScript (rules : List Rule) (hasMailboxid : Bool) : Option String := do
  let extensions := requiredExtensions rules hasMailboxid
  let bodies ← rules.mapM (generateRule json hasMailboxid)
  some (headerLine1 ++ "\n" ++ headerLine2 ++ "\n" ++
    (if extensions = [] then ""
      else "require [" ++ ", ".intercalate (extensions.map fun extension =>
        "\"" ++ extension ++ "\"") ++ "];\n") ++
    "".intercalate bodies)

end

end EvolutionJmap.Ui
