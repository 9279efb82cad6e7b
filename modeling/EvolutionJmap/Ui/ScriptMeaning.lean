import EvolutionJmap.Sieve.Parser
import EvolutionJmap.Ui.Rules

/-!
# What a generated script means

The rules as Sieve commands, independent of any text.  The generated text is read in
parts: each part gives its tokens wherever it stands, and the tokens of the parts are
commands.
-/

namespace EvolutionJmap.Ui

open Sieve List

/-! ## The rules as commands -/

def Field.headers : Field → List String
  | .«from» => ["from"]
  | .«to» => ["to"]
  | .cc => ["cc"]
  | .toOrCc => ["to", "cc"]
  | .subject => ["subject"]
  | .header name => [name]
  | .size => []

def Op.comparison : Op → String
  | .contains | .notContains => "contains"
  | .is => "is"
  | .«matches» => "matches"
  | .over => "over"
  | .under => "under"

/-- The number of kilobytes that a size is compared with. -/
def kilobytes (value : String) : Nat := (Text.parseUnsigned 64 value.toList).getD 0

def Field.test (field : Field) (comparison value : String) : Test :=
  match field with
  | .size => .mk "size" [.tag comparison, .number (kilobytes value * 2 ^ 10)] []
  | .subject | .header _ =>
    .mk "header" [.tag comparison, .strings field.headers, .strings [value]] []
  | _ => .mk "address" [.tag "all", .tag comparison, .strings field.headers, .strings [value]] []

def Condition.test (condition : Condition) : Test :=
  let test := condition.field.test condition.op.comparison condition.value
  if condition.op = .notContains then .mk "not" [] [test] else test

def Combine.name : Combine → String
  | .all => "allof"
  | .any => "anyof"

/-- A rule without conditions always holds, and one condition needs no combination. -/
def Rule.test (rule : Rule) : Test :=
  match rule.conditions with
  | [] => .mk "true" [] []
  | [only] => only.test
  | many => .mk rule.combine.name [] (many.map Condition.test)

def Folder.fileinto (folder : Folder) (copy hasMailboxid : Bool) : Command :=
  .mk "fileinto" ((if copy then [.tag "copy"] else []) ++
    (if hasMailboxid then [.tag "mailboxid", .strings [folder.id]] else []) ++
    [.strings [folder.name]]) [] none

variable (hasMailboxid : Bool)

def Action.command : Action → Command
  | .moveTo folder => folder.fileinto false hasMailboxid
  | .copyTo folder => folder.fileinto true hasMailboxid
  | .markRead => .mk "addflag" [.strings ["\\Seen"]] [] none
  | .flag => .mk "addflag" [.strings ["\\Flagged"]] [] none
  | .redirect address keep =>
    .mk "redirect" ((if keep then [.tag "copy"] else []) ++ [.strings [address]]) [] none
  | .discard => .mk "discard" [] [] none

def Rule.command (hasMailboxid : Bool) (rule : Rule) : Command :=
  .mk "if" [] [rule.test] (some (rule.orderedActions.map (Action.command hasMailboxid) ++
    if rule.stop then [.mk "stop" [] [] none] else []))

def require : List String → List Command
  | [] => []
  | names => [.mk "require" [.strings names] [] none]

/-- The commands are the enabled rules in their order, behind a requirement of
exactly the extensions that they use. -/
def Means (rules : List Rule) (hasMailboxid : Bool) (commands : List Command) : Prop :=
  ∃ names : List String, names.Nodup ∧
    (∀ name, name ∈ names ↔
      ∃ rule ∈ rules, rule.enabled = true ∧ name ∈ (rule.command hasMailboxid).extensions) ∧
    commands = require names ++ (rules.filter Rule.enabled).map (Rule.command hasMailboxid)

/-- The size is written with a plus sign, which is no number in Sieve. -/
def Condition.SignedSize (condition : Condition) : Prop :=
  condition.field = .size ∧ startsWith condition.value '+' = true

instance (condition : Condition) : Decidable condition.SignedSize :=
  inferInstanceAs (Decidable (_ ∧ _))

/-! ## Tokens -/

def headerTokens : List String → List Token
  | [name] => [.string name]
  | names => .leftBracket :: listedTokens names

def Field.tokens (field : Field) (comparison value : String) : List Token :=
  match field with
  | .size => [.identifier "size", .tag comparison, .number (kilobytes value * 2 ^ 10)]
  | .subject | .header _ =>
    .identifier "header" :: .tag comparison :: headerTokens field.headers ++ [.string value]
  | _ => .identifier "address" :: .tag "all" :: .tag comparison :: headerTokens field.headers ++
      [.string value]

def Condition.tokens (condition : Condition) : List Token :=
  let tokens := condition.field.tokens condition.op.comparison condition.value
  if condition.op = .notContains then .identifier "not" :: tokens else tokens

def Rule.testTokens (rule : Rule) : List Token :=
  match rule.conditions with
  | [] => [.identifier "true"]
  | [only] => only.tokens
  | many => .identifier rule.combine.name :: .leftParen ::
      separated .rightParen (many.map Condition.tokens)

def Folder.tokens (folder : Folder) (copy hasMailboxid : Bool) : List Token :=
  (if copy then [.tag "copy"] else []) ++
    (if hasMailboxid then [.tag "mailboxid", .string folder.id] else []) ++ [.string folder.name]

def Action.tokens (hasMailboxid : Bool) : Action → List Token
  | .moveTo folder => .identifier "fileinto" :: folder.tokens false hasMailboxid ++ [.semicolon]
  | .copyTo folder => .identifier "fileinto" :: folder.tokens true hasMailboxid ++ [.semicolon]
  | .markRead => .identifier "addflag" :: [.string "\\Seen"] ++ [.semicolon]
  | .flag => .identifier "addflag" :: [.string "\\Flagged"] ++ [.semicolon]
  | .redirect address keep =>
    .identifier "redirect" :: ((if keep then [.tag "copy"] else []) ++ [.string address]) ++
      [.semicolon]
  | .discard => .identifier "discard" :: [] ++ [.semicolon]

def Rule.blockTokens (rule : Rule) : List Token :=
  rule.orderedActions.flatMap (Action.tokens hasMailboxid) ++
    if rule.stop then [.identifier "stop", .semicolon] else []

def Rule.tokens (rule : Rule) : List Token :=
  .identifier "if" :: rule.testTokens ++ .leftBrace :: rule.blockTokens hasMailboxid ++
    [.rightBrace]

def requireTokens : List String → List Token
  | [] => []
  | names => .identifier "require" :: (.leftBracket :: listedTokens names) ++ [.semicolon]

/-! ## The tokens are the commands -/

theorem spells_headers {names : List String} (nonempty : names ≠ []) {tokens : List Token}
    {arguments : List Argument} (rest : Spells tokens arguments) :
    Spells (headerTokens names ++ tokens) (.strings names :: arguments) := by
  cases names with
  | nil => exact absurd rfl nonempty
  | cons name others =>
    cases others with
    | nil => exact .string name rest
    | cons other others => exact .list nonempty rest

theorem Field.headers_ne_nil {field : Field} (notSize : field ≠ .size) : field.headers ≠ [] := by
  cases field <;> simp_all [headers]

theorem Field.isTest (field : Field) (comparison value : String) :
    IsTest (field.tokens comparison value) (field.test comparison value) := by
  have compared (notSize : field ≠ .size) : Spells (headerTokens field.headers ++ [.string value])
      [.strings field.headers, .strings [value]] :=
    spells_headers (headers_ne_nil notSize) (.string value .nil)
  cases field with
  | size => exact isTest_leaf _ (.tag _ (.number _ .nil))
  | subject | header name => exact isTest_leaf _ (.tag _ (compared (by simp)))
  | «from» | «to» | cc | toOrCc => exact isTest_leaf _ (.tag _ (.tag _ (compared (by simp))))

variable (condition : Condition)

theorem Condition.isTest : IsTest condition.tokens condition.test := by
  have isTest := condition.field.isTest condition.op.comparison condition.value
  rw [tokens, test]
  split
  · exact isTest_nested "not" isTest
  · exact isTest

variable (rule : Rule)

theorem Rule.isTest : IsTest rule.testTokens rule.test := by
  rw [testTokens, test]
  split
  · exact isTest_leaf "true" .nil
  · exact Condition.isTest _
  · next notNil _ =>
    exact isTest_list _ (fun none => notNil none) fun condition _ => condition.isTest

theorem Action.isCommand (action : Action) :
    IsCommand (action.tokens hasMailboxid) (action.command hasMailboxid) := by
  have folderSpells (folder : Folder) (copy : Bool) : Spells (folder.tokens copy hasMailboxid)
      ((if copy then [.tag "copy"] else []) ++
        (if hasMailboxid then [.tag "mailboxid", .strings [folder.id]] else []) ++
        [.strings [folder.name]]) := by
    rw [Folder.tokens]
    cases copy <;> cases hasMailboxid <;> simp <;> repeat constructor
  cases action with
  | moveTo folder => exact isCommand_plain _ (folderSpells folder false)
  | copyTo folder => exact isCommand_plain _ (folderSpells folder true)
  | markRead | flag => exact isCommand_plain _ (.string _ .nil)
  | redirect address keep =>
    cases keep
    · exact isCommand_plain _ (.string _ .nil)
    · exact isCommand_plain _ (.tag _ (.string _ .nil))
  | discard => exact isCommand_plain _ .nil

theorem Rule.isCommand : IsCommand (rule.tokens hasMailboxid) (rule.command hasMailboxid) := by
  apply isCommand_block "if" rule.isTest
  rw [blockTokens]
  apply IsCommands.append
  · exact IsCommands.flatMap fun action _ => action.isCommand hasMailboxid
  · cases rule.stop
    · exact .nil
    · exact IsCommands.cons (isCommand_plain "stop" .nil) .nil

theorem isCommands_require (names : List String) :
    IsCommands (requireTokens names) (require names) := by
  cases names with
  | nil => exact .nil
  | cons name names =>
    have spells : Spells (.leftBracket :: listedTokens (name :: names) ++ [])
        [.strings (name :: names)] := .list (cons_ne_nil name names) .nil
    rw [append_nil] at spells
    simpa [requireTokens, require] using IsCommands.cons (isCommand_plain "require" spells) .nil

def scriptTokens (rules : List Rule) (hasMailboxid : Bool) : List Token :=
  requireTokens (requiredExtensions rules hasMailboxid) ++
    (rules.filter Rule.enabled).flatMap (Rule.tokens hasMailboxid)

theorem isCommands_script (rules : List Rule) (hasMailboxid : Bool) :
    IsCommands (scriptTokens rules hasMailboxid)
      (require (requiredExtensions rules hasMailboxid) ++
        (rules.filter Rule.enabled).map (Rule.command hasMailboxid)) :=
  (isCommands_require _).append (IsCommands.flatMap fun rule _ => rule.isCommand hasMailboxid)

/-! ## The extensions -/

theorem Field.extensions_test (field : Field) {comparison : String} (op : Op)
    (isComparison : op.comparison = comparison) (value : String) :
    (field.test comparison value).extensions = [] := by
  subst isComparison
  cases field <;> cases op <;> rfl

theorem Condition.extensions_test : condition.test.extensions = [] := by
  have none := condition.field.extensions_test condition.op rfl condition.value
  rw [test]
  split
  · simp [Test.extensions, testsExtensions, none, nameExtension]
  · exact none

theorem Rule.extensions_test : rule.test.extensions = [] := by
  rw [test]
  split
  · rfl
  · exact Condition.extensions_test _
  · rw [eq_nil_iff_forall_not_mem]
    intro name
    have none : nameExtension rule.combine.name = none := by cases rule.combine <;> rfl
    simp [Test.extensions, none, mem_testsExtensions, Condition.extensions_test]

theorem Action.extensions_command (action : Action) (name : String) :
    name ∈ (action.command hasMailboxid).extensions ↔ name ∈ action.extensions hasMailboxid := by
  cases action with
  | redirect address keep => cases keep <;> rfl
  | moveTo folder | copyTo folder => cases hasMailboxid <;> simp [command, Folder.fileinto,
      extensions, Command.extensions, nameExtension, Argument.extension, testsExtensions,
      blockExtensions]
  | markRead | flag | discard => rfl

theorem Rule.extensions_command (name : String) :
    name ∈ (rule.command hasMailboxid).extensions ↔
      ∃ action ∈ rule.actions, name ∈ action.extensions hasMailboxid := by
  have stops : commandsExtensions (if rule.stop then [.mk "stop" [] [] none] else []) = [] := by
    cases rule.stop <;> rfl
  have unnamed : nameExtension "if" = none := rfl
  have ordered : ∀ action, action ∈ rule.orderedActions ↔ action ∈ rule.actions := by
    intro action
    cases isFlag : action.isFlag <;> simp [orderedActions, isFlag]
  simp [command, Command.extensions, testsExtensions, extensions_test, blockExtensions,
    commandsExtensions_append, stops, unnamed, mem_commandsExtensions, Action.extensions_command,
    ordered]

theorem mem_requiredExtensions {rules : List Rule} {hasMailboxid : Bool} {name : String} :
    name ∈ requiredExtensions rules hasMailboxid ↔
      ∃ rule ∈ rules, rule.enabled = true ∧ name ∈ (rule.command hasMailboxid).extensions := by
  simp only [requiredExtensions, mem_insertionSort, mem_dedup, mem_flatMap,
    mem_filter, Rule.extensions_command, and_assoc]

theorem nodup_requiredExtensions (rules : List Rule) (hasMailboxid : Bool) :
    (requiredExtensions rules hasMailboxid).Nodup :=
  (perm_insertionSort _ _).nodup_iff.mpr (nodup_dedup _)

end EvolutionJmap.Ui
