import EvolutionJmap.Ui.ScriptMeaning

/-!
# The text of a generated script

Each part of the text is read to the tokens of its part of the rule.  What a user or
a server chose cannot leave its quoted string, comment or number, with one exception: a
size with a plus sign.
-/

namespace EvolutionJmap.Ui

open Sieve List

/-! ## Valid rules -/

variable {value : String}

theorem noNewlineOrNul_iff : noNewlineOrNul value = true ↔ OneLine value.toList := by
  simp only [noNewlineOrNul, containsChar, Bool.and_eq_true, Bool.not_eq_true',
    contains_eq_mem, decide_eq_false_iff_not, OneLine]
  constructor
  · rintro ⟨⟨newline, carriage⟩, zero⟩ char mem
    refine ⟨?_, ?_, ?_⟩ <;> rintro rfl <;> contradiction
  · intro each
    exact ⟨⟨fun mem => (each _ mem).1 rfl, fun mem => (each _ mem).2.1 rfl⟩,
      fun mem => (each _ mem).2.2 rfl⟩

theorem oneLine_of_isValidHeaderName {name : String} (valid : isValidHeaderName name = true) :
    OneLine name.toList := by
  rw [isValidHeaderName, Bool.and_eq_true, all_eq_true] at valid
  intro char mem
  have range := valid.2 char mem
  refine ⟨?_, ?_, ?_⟩ <;> rintro rfl <;> exact absurd range (by decide)

/-- What `validate` accepts of a condition. -/
structure Condition.Valid (condition : Condition) : Prop where
  value : OneLine condition.value.toList
  header : ∀ name, condition.field = .header name → OneLine name.toList
  size : condition.field = .size ↔ condition.op = .over ∨ condition.op = .under
  number : condition.field = .size → ∃ number,
    Text.parseUnsigned 64 condition.value.toList = some number

variable {condition : Condition}

theorem Condition.valid (ok : condition.validate = .ok ()) :
    condition.Valid := by
  simp only [validate] at ok
  split at ok
  · cases ok
  · next value =>
    split at ok
    · cases ok
    · next header =>
      split at ok
      · cases ok
      · next size =>
        split at ok
        · cases ok
        · next number =>
          simp only [Bool.not_eq_true', Bool.not_eq_false] at value
          constructor
          · exact noNewlineOrNul_iff.mp value
          · intro name isHeader
            rw [isHeader] at header
            apply oneLine_of_isValidHeaderName
            simpa [Field.isBadHeader] using header
          · simpa using size
          · intro isSize
            simp only [isSize, true_and, Bool.not_eq_true', Bool.not_eq_false,
              isPositiveSize] at number
            cases parsed : Text.parseUnsigned 64 condition.value.toList with
            | none => rw [parsed] at number; nomatch number
            | some value => exact ⟨value, rfl⟩

def Action.texts : Action → List String
  | .moveTo folder | .copyTo folder => [folder.id, folder.name]
  | .redirect address _ => [address]
  | .markRead | .flag | .discard => []

variable {action : Action}

theorem Action.oneLine (ok : action.validate = .ok ()) :
    ∀ text ∈ action.texts, OneLine text.toList := by
  cases action with
  | moveTo folder | copyTo folder =>
    simp only [validate, Folder.validate] at ok
    split at ok
    · cases ok
    · next valid => simpa [texts, noNewlineOrNul_iff] using valid
  | redirect address keep =>
    simp only [validate] at ok
    split at ok
    · cases ok
    · next valid => simpa [texts, noNewlineOrNul_iff] using valid
  | markRead | flag | discard => simp [texts]

theorem forM_ok {Item : Type*} {check : Item → Except String Unit} {items : List Item}
    (ok : items.forM check = .ok ()) : ∀ item ∈ items, check item = .ok () := by
  induction items with
  | nil => simp
  | cons item items ih =>
    rw [List.forM] at ok
    cases first : check item with
    | error message => rw [first] at ok; nomatch ok
    | ok _ =>
      rw [first] at ok
      exact forall_mem_cons.mpr ⟨first, ih ok⟩

/-- All conditions are valid. -/
def Rule.Checked (rule : Rule) : Prop := ∀ condition ∈ rule.conditions, condition.Valid

/-- What `validate` accepts of a rule. -/
structure Rule.Valid (rule : Rule) : Prop where
  checked : rule.Checked
  texts : ∀ action ∈ rule.actions, ∀ text ∈ action.texts, OneLine text.toList

variable {rule : Rule}

theorem Rule.valid (ok : rule.validate = .ok ()) : rule.Valid := by
  simp only [validate, bind, Except.bind] at ok
  split at ok
  · cases ok
  · split at ok
    · cases ok
    · split at ok
      · cases ok
      · next conditions =>
        split at ok
        · cases ok
        · next actions =>
          exact ⟨fun condition mem => Condition.valid (forM_ok conditions condition mem),
            fun action mem => Action.oneLine (forM_ok actions action mem)⟩

/-! ## Conditions -/

theorem toList_escape (value : String) :
    (escape value).toList = value.toList.flatMap quotedChar := by
  rw [escape, String.toList_ofList, flatMap_assoc]
  congr 1
  funext char
  by_cases backslash : char = '\\'
  · simp [quotedChar, backslash]
  · by_cases quote : char = '"' <;> simp [quotedChar, backslash, quote]

theorem reads_escape (oneLine : OneLine value.toList) :
    Reads .blank ("\"" ++ escape value ++ "\"").toList [.string value] .blank := by
  have quoted := reads_quoted oneLine
  simpa [String.toList_append, toList_escape] using quoted

theorem reads_headerArg {field : Field} {text : String} (isText : field.headerArg = some text)
    (oneLine : ∀ name, field = .header name → OneLine name.toList) :
    Reads .blank text.toList (headerTokens field.headers) .blank := by
  cases field <;> cases isText
  case header name => exact reads_escape (oneLine name rfl)
  all_goals decide

theorem digit?_some {char : Char} {digit : Nat} (isDigit : Text.digit? char = some digit) :
    char ∈ "0123456789".toList ∧ digit = char.toNat - '0'.toNat := by
  rw [Text.digit?] at isDigit
  split at isDigit
  · next range =>
    cases isDigit
    refine ⟨?_, rfl⟩
    have lower : 48 ≤ char.toNat := range.1
    have upper : char.toNat ≤ 57 := range.2
    have isChar : char = Char.ofNat char.toNat := (Char.ofNat_toNat char).symm
    generalize char.toNat = code at lower upper isChar
    subst isChar
    interval_cases code <;> decide
  · cases isDigit

theorem reads_digits {text : List Char} {number value : Nat}
    (parsed : Text.digitsFrom number text = some value) :
    Reads (.number number) text [] (.number value) := by
  induction text generalizing number with
  | nil =>
    cases parsed
    exact .nil
  | cons char text ih =>
    rw [Text.digitsFrom] at parsed
    cases isDigit : Text.digit? char with
    | none => rw [isDigit] at parsed; nomatch parsed
    | some digit =>
      rw [isDigit] at parsed
      obtain ⟨listed, rfl⟩ := digit?_some isDigit
      have digits : ("0123456789".toList.all fun char =>
          char.isDigit = true ∧ char ≠ '\r' ∧ char ≠ '\x00') = true := by decide
      obtain ⟨isDigit, carriage, zero⟩ := of_decide_eq_true (all_eq_true.mp digits char listed)
      have here : Reads (.number number) [char] []
          (.number (number * 10 + (char.toNat - '0'.toNat))) := by
        simp [Reads, run, step, isDigit, carriage, zero]
      exact here.append (ih parsed)

theorem reads_number {text : List Char} {value : Nat}
    (parsed : Text.parseDigits text = some value) :
    Reads .blank text [] (.number value) := by
  cases text with
  | nil => cases parsed
  | cons char text =>
    rw [Text.parseDigits, Text.digitsFrom] at parsed
    · cases isDigit : Text.digit? char with
      | none => rw [isDigit] at parsed; nomatch parsed
      | some digit =>
        rw [isDigit] at parsed
        obtain ⟨listed, rfl⟩ := digit?_some isDigit
        have digits : ("0123456789".toList.all fun char =>
            Reads .blank [char] [] (.number (char.toNat - '0'.toNat))) = true := by decide
        have rest := reads_digits parsed
        rw [Nat.zero_mul, Nat.zero_add] at rest
        exact (of_decide_eq_true (all_eq_true.mp digits char listed)).append rest
    · simp

variable {op : Op} {tag : String}

theorem lex_size {number : Nat} (isTag : op.sizeTag = some tag)
    (parsed : Text.parseUnsigned 64 value.toList = some number)
    (unsigned : ¬ startsWith value '+' = true) :
    lex ("size " ++ tag ++ " " ++ value ++ "K") =
      some [.identifier "size", .tag op.comparison, .number (number * 2 ^ 10)] := by
  have lead : Reads .blank ("size " ++ tag ++ " ").toList
      [.identifier "size", .tag op.comparison] .blank := by
    cases op <;> cases isTag <;> decide
  have digits : Text.parseDigits value.toList = some number := by
    rw [Text.parseUnsigned] at parsed
    · exact (Option.filter_eq_some_iff.mp parsed).1
    · intro rest plus
      simp [startsWith, plus] at unsigned
  have quantified : Reads (.number number) "K".toList [] (.quantified (number * 2 ^ 10)) := by
    simp [Reads, run, step, quantifier?]
  have reads := (lead.append (reads_number digits)).append quantified
  rw [← String.toList_append, ← String.toList_append] at reads
  exact reads.lex rfl

theorem refuses_size (isTag : op.sizeTag = some tag) (signed : startsWith value '+' = true) :
    Refuses .blank ("size " ++ tag ++ " " ++ value ++ "K").toList := by
  have lead : Reads .blank ("size " ++ tag ++ " ").toList
      [.identifier "size", .tag op.comparison] .blank := by
    cases op <;> cases isTag <;> decide
  rw [String.toList_append, String.toList_append]
  apply Refuses.before
  apply lead.refuses
  rw [startsWith, beq_iff_eq] at signed
  obtain ⟨rest, isValue⟩ := head?_eq_some_iff.mp signed
  rw [isValue]
  rfl

theorem reads_comparison {field : Field} {headerArg : String} {negate : Bool}
    (isArg : field.headerArg = some headerArg) (isType : op.matchType = some (tag, negate))
    (header : ∀ name, field = .header name → OneLine name.toList) (oneLine : OneLine value.toList) :
    Reads .blank (field.testName ++ tag ++ " " ++ headerArg ++ " \"" ++ escape value ++ "\"").toList
      (field.tokens op.comparison value) .blank := by
  have names := reads_headerArg isArg header
  have blank : Reads .blank " ".toList [] .blank := rfl
  have quoted := reads_escape oneLine
  have split : field.testName ++ tag ++ " " ++ headerArg ++ " \"" ++ escape value ++ "\"" =
      (field.testName ++ tag ++ " ") ++ headerArg ++ " " ++ ("\"" ++ escape value ++ "\"") := by
    apply String.toList_inj.mp
    simp [String.toList_append]
  rw [split, String.toList_append, String.toList_append, String.toList_append]
  cases field with
  | size => cases isArg
  | subject | header name =>
    have lead : Reads .blank ("header " ++ tag ++ " ").toList
        [.identifier "header", .tag op.comparison] .blank := by
      cases op <;> cases isType <;> decide
    simpa [Field.tokens, Field.testName] using ((lead.append names).append blank).append quoted
  | «from» | «to» | cc | toOrCc =>
    have lead : Reads .blank ("address :all " ++ tag ++ " ").toList
        [.identifier "address", .tag "all", .tag op.comparison] .blank := by
      cases op <;> cases isType <;> decide
    simpa [Field.tokens, Field.testName] using ((lead.append names).append blank).append quoted

def Condition.text (condition : Condition) : String := (conditionTest condition).getD ""

section

variable (valid : condition.Valid)

include valid

theorem Condition.Valid.conditionTest_size (isSize : condition.field = .size) :
    ∃ tag, condition.op.sizeTag = some tag ∧
      conditionTest condition = some ("size " ++ tag ++ " " ++ condition.value ++ "K") := by
  rcases valid.size.mp isSize with isOp | isOp <;> simp [conditionTest, isSize, isOp, Op.sizeTag]

theorem Condition.Valid.conditionTest_text (notSize : condition.field ≠ .size) :
    ∃ headerArg tag negate,
      condition.field.headerArg = some headerArg ∧ condition.op.matchType = some (tag, negate) ∧
        conditionTest condition = some (let test := condition.field.testName ++ tag ++ " " ++
            headerArg ++ " \"" ++ escape condition.value ++ "\""
          if negate then "not " ++ test else test) := by
  obtain ⟨headerArg, isArg⟩ : ∃ headerArg, condition.field.headerArg = some headerArg := by
    cases isField : condition.field <;> simp_all [Field.headerArg]
  obtain ⟨tag, negate, isType⟩ : ∃ tag negate, condition.op.matchType = some (tag, negate) := by
    have notSizeOp := mt valid.size.mpr notSize
    cases isOp : condition.op <;> simp_all [Op.matchType]
  refine ⟨headerArg, tag, negate, isArg, isType, ?_⟩
  simp [conditionTest, notSize, isArg, isType]

theorem Condition.Valid.isSome : conditionTest condition = some condition.text := by
  rw [text]
  by_cases isSize : condition.field = .size
  · obtain ⟨tag, -, isTest⟩ := valid.conditionTest_size isSize
    simp [isTest]
  · obtain ⟨headerArg, tag, negate, -, -, isTest⟩ := valid.conditionTest_text isSize
    simp [isTest]

theorem Condition.Valid.lex (unsigned : ¬ condition.SignedSize) :
    Sieve.lex condition.text = some condition.tokens := by
  by_cases isSize : condition.field = .size
  · obtain ⟨tag, isTag, isTest⟩ := valid.conditionTest_size isSize
    obtain ⟨number, parsed⟩ := valid.number isSize
    have plain : condition.op ≠ .notContains := by
      rcases valid.size.mp isSize with isOp | isOp <;> simp [isOp]
    rw [text, isTest, Option.getD_some,
      lex_size isTag parsed fun signed => unsigned ⟨isSize, signed⟩]
    simp [tokens, plain, isSize, Field.tokens, kilobytes, parsed]
  · obtain ⟨headerArg, tag, negate, isArg, isType, isTest⟩ := valid.conditionTest_text isSize
    have reads := reads_comparison isArg isType valid.header valid.value
    apply Reads.lex_blank
    rw [text, isTest, Option.getD_some, tokens]
    cases isOp : condition.op with
    | notContains =>
      have not : Reads .blank "not ".toList [.identifier "not"] .blank := by decide
      rw [isOp] at isType reads
      cases isType
      simpa [String.toList_append] using not.append reads
    | contains | is | «matches» | «over» | under =>
      rw [isOp] at isType reads
      cases isType <;> simpa using reads

theorem Condition.Valid.refuses (signed : condition.SignedSize) :
    Refuses .blank condition.text.toList := by
  obtain ⟨tag, isTag, isTest⟩ := valid.conditionTest_size signed.1
  rw [text, isTest, Option.getD_some]
  exact refuses_size isTag signed.2

end

/-! ## Rules -/

theorem mapM_eq_some {Item Result : Type*} {f : Item → Option Result} {result : Item → Result}
    {items : List Item} (each : ∀ item ∈ items, f item = some (result item)) :
    items.mapM f = some (items.map result) := by
  induction items with
  | nil => rfl
  | cons item items ih =>
    rw [forall_mem_cons] at each
    simp [mapM_cons, each.1, ih each.2]

/-- Some size is written with a sign. -/
def Rule.SignedSize (rule : Rule) : Prop := ∃ condition ∈ rule.conditions, condition.SignedSize

theorem Rule.Checked.testExpr_many (checked : rule.Checked)
    {one other : Condition} {others : List Condition}
    (isMany : rule.conditions = one :: other :: others) :
    testExpr rule = some (rule.combine.name ++ "(" ++
      ", ".intercalate (rule.conditions.map Condition.text) ++ ")") := by
  have mapped := mapM_eq_some fun condition mem => (checked condition mem).isSome
  rw [isMany] at mapped
  rw [testExpr, isMany]
  simp only [mapped, Option.bind_eq_bind, Option.bind_some]
  cases rule.combine <;> rfl

theorem reads_combine (combine : Combine) : Reads .blank (combine.name ++ "(").toList
    [.identifier combine.name, .leftParen] .blank := by
  cases combine <;> decide

theorem Rule.Checked.lex_testExpr (checked : rule.Checked)
    (unsigned : ¬ rule.SignedSize) :
    ∃ text, testExpr rule = some text ∧ lex text = some rule.testTokens := by
  have each : ∀ condition ∈ rule.conditions, lex condition.text = some condition.tokens :=
    fun condition mem => (checked condition mem).lex fun signed =>
      unsigned ⟨condition, mem, signed⟩
  rw [testTokens]
  cases isList : rule.conditions with
  | nil =>
    refine ⟨"true", by rw [testExpr, isList], ?_⟩
    change lex "true" = some [.identifier "true"]
    decide
  | cons one rest =>
    rw [isList] at each
    cases rest with
    | nil =>
      refine ⟨one.text, ?_, each one mem_cons_self⟩
      rw [testExpr, isList]
      exact (checked one (isList ▸ mem_cons_self)).isSome
    | cons other others =>
      refine ⟨_, checked.testExpr_many isList, ?_⟩
      have tests := reads_separated (cons_ne_nil one (other :: others)) each
        (by decide : Delimits ')') rfl
      apply Reads.lex_blank
      simpa [String.toList_append, isList] using (reads_combine rule.combine).append tests

theorem Rule.Checked.refuses_testExpr (checked : rule.Checked)
    (signed : rule.SignedSize) :
    ∃ text, testExpr rule = some text ∧ Refuses .blank text.toList := by
  have each : ∀ condition ∈ rule.conditions,
      lex condition.text = some condition.tokens ∨ Refuses .blank condition.text.toList := by
    intro condition mem
    by_cases signed : condition.SignedSize
    · exact .inr ((checked condition mem).refuses signed)
    · exact .inl ((checked condition mem).lex signed)
  have refused : ∃ condition ∈ rule.conditions, Refuses .blank condition.text.toList := by
    obtain ⟨condition, mem, signed⟩ := signed
    exact ⟨condition, mem, (checked condition mem).refuses signed⟩
  have refuses := refuses_separated each refused
  cases isList : rule.conditions with
  | nil => simp [isList] at refused
  | cons one rest =>
    cases rest with
    | nil =>
      refine ⟨one.text, ?_, ?_⟩
      · rw [testExpr, isList]
        exact (checked one (isList ▸ mem_cons_self)).isSome
      · simpa [isList, String.toList_intercalate] using refuses
    | cons other others =>
      refine ⟨_, checked.testExpr_many isList, ?_⟩
      rw [String.toList_append, String.toList_append]
      exact ((reads_combine rule.combine).refuses refuses).before

theorem reads_fileinto {folder : Folder} (id : OneLine folder.id.toList)
    (name : OneLine folder.name.toList) (copy hasMailboxid : Bool) :
    Reads .blank (fileinto folder copy hasMailboxid).toList
      (.identifier "fileinto" :: folder.tokens copy hasMailboxid) .blank := by
  have lead : Reads .blank ("fileinto " ++ if copy then ":copy " else "").toList
      (.identifier "fileinto" :: if copy then [.tag "copy"] else []) .blank := by
    cases copy <;> decide
  have quoted := reads_escape name
  cases hasMailboxid with
  | false =>
    simpa [fileinto, Folder.tokens, String.toList_append] using lead.append quoted
  | true =>
    have tag : Reads .blank ":mailboxid ".toList [.tag "mailboxid"] .blank := by decide
    have blank : Reads .blank " ".toList [] .blank := rfl
    simpa [fileinto, Folder.tokens, String.toList_append] using
      (((lead.append tag).append (reads_escape id)).append blank).append quoted

theorem reads_generateAction (hasMailboxid : Bool)
    (oneLine : ∀ text ∈ action.texts, OneLine text.toList) :
    Reads .blank (generateAction hasMailboxid action).toList
      (action.tokens hasMailboxid) .blank := by
  have semicolon : Reads .blank ";".toList [.semicolon] .blank := rfl
  cases action with
  | moveTo folder | copyTo folder =>
    simp only [Action.texts, forall_mem_cons] at oneLine
    rw [generateAction, String.toList_append]
    exact (reads_fileinto oneLine.1 oneLine.2.1 _ hasMailboxid).append semicolon
  | markRead | flag | discard => cases hasMailboxid <;> decide
  | redirect address keep =>
    simp only [Action.texts, forall_mem_cons] at oneLine
    have lead : Reads .blank ("redirect " ++ if keep then ":copy " else "").toList
        (.identifier "redirect" :: if keep then [.tag "copy"] else []) .blank := by
      cases keep <;> decide
    have reads := (lead.append (reads_escape oneLine.1)).append semicolon
    cases keep <;> simpa [generateAction, Action.tokens, String.toList_append] using reads

theorem toList_concat (texts : List String) :
    ("".intercalate texts).toList = texts.flatMap String.toList := by
  rw [String.toList_intercalate, show "".toList = [] from rfl]
  induction texts with
  | nil => rfl
  | cons text texts ih =>
    cases texts with
    | nil => simp
    | cons other texts =>
      rw [map_cons] at ih
      simp [intercalate_cons_cons, ih]

theorem Rule.Valid.reads_block (valid : rule.Valid) (hasMailboxid : Bool) :
    Reads .blank ("".intercalate (rule.orderedActions.map fun action =>
        "    " ++ generateAction hasMailboxid action ++ "\n") ++
        if rule.stop then "    stop;\n" else "").toList
      (rule.blockTokens hasMailboxid) .blank := by
  have indent : Reads .blank "    ".toList [] .blank := by decide
  have newline : Reads .blank "\n".toList [] .blank := by decide
  have actions : Reads .blank (rule.orderedActions.flatMap fun action =>
      ("    " ++ generateAction hasMailboxid action ++ "\n").toList)
      (rule.orderedActions.flatMap (Action.tokens hasMailboxid)) .blank := by
    apply Reads.flatMap
    intro action mem
    have listed : action ∈ rule.actions := by
      rcases mem_append.mp mem with mem | mem
      · exact (mem_filter.mp mem).1
      · exact (mem_filter.mp mem).1
    have statement := reads_generateAction hasMailboxid (valid.texts action listed)
    have reads := (indent.append statement).append newline
    rw [String.toList_append, String.toList_append]
    simpa using reads
  have stops : Reads .blank (if rule.stop then "    stop;\n" else "").toList
      (if rule.stop then [.identifier "stop", .semicolon] else []) .blank := by
    cases rule.stop <;> decide
  rw [String.toList_append, toList_concat, flatMap_map]
  exact actions.append stops

theorem generateRuleBody_eq {test : String} (isTest : testExpr rule = some test)
    (hasMailboxid : Bool) : generateRuleBody rule hasMailboxid =
      some ("if " ++ test ++ " \x7b\n" ++ ("".intercalate (rule.orderedActions.map fun action =>
        "    " ++ generateAction hasMailboxid action ++ "\n") ++
        (if rule.stop then "    stop;\n" else "")) ++ "\x7d\n") := by
  simp [generateRuleBody, isTest, String.append_assoc]

theorem Rule.Valid.reads_body (valid : rule.Valid) (unsigned : ¬ rule.SignedSize)
    (hasMailboxid : Bool) : ∃ text, generateRuleBody rule hasMailboxid = some text ∧
      Reads .blank text.toList (rule.tokens hasMailboxid) .blank := by
  obtain ⟨test, isTest, lexed⟩ := valid.checked.lex_testExpr unsigned
  refine ⟨_, generateRuleBody_eq isTest hasMailboxid, ?_⟩
  have lead : Reads .blank "if ".toList [.identifier "if"] .blank := by decide
  have tested := reads_of_lex lexed (by decide : Delimits ' ') rfl
  have opened : Reads .blank "\x7b\n".toList [.leftBrace] .blank := by decide
  have closed : Reads .blank "\x7d\n".toList [.rightBrace] .blank := by decide
  have reads := (((lead.append tested).append opened).append
    (valid.reads_block hasMailboxid)).append
    closed
  simpa [tokens, String.toList_append] using reads

theorem Rule.Valid.refuses_body (valid : rule.Valid) (signed : rule.SignedSize)
    (hasMailboxid : Bool) : ∃ text, generateRuleBody rule hasMailboxid = some text ∧
      Refuses .blank text.toList := by
  obtain ⟨test, isTest, refuses⟩ := valid.checked.refuses_testExpr signed
  refine ⟨_, generateRuleBody_eq isTest hasMailboxid, ?_⟩
  have lead : Reads .blank "if ".toList [.identifier "if"] .blank := by decide
  simp only [String.toList_append]
  exact (lead.refuses refuses).before.before.before

/-! ## Scripts -/

theorem reads_ruleLine {written : String} (oneLine : OneLine written.toList) :
    Reads .blank ("\n" ++ rulePrefix ++ written ++ "\n").toList [] .blank := by
  have newline : Reads .blank "\n".toList [] .blank := by decide
  have keyword : OneLine " rule ".toList := by simp [OneLine]
  have comment := reads_comment (keyword.append oneLine)
  simpa [rulePrefix, String.toList_append] using newline.append comment

def Rule.text (json : Rule → String) (hasMailboxid : Bool) (rule : Rule) : String :=
  (generateRule json hasMailboxid rule).getD ""

/-- The command of the rule has a size that Sieve cannot read. -/
def Rule.Unreadable (rule : Rule) : Prop := rule.enabled = true ∧ rule.SignedSize

section Script

variable {json : Rule → String} {rule : Rule} {rules : List Rule} {hasMailboxid : Bool}

theorem generateRule_eq {body : String}
    (isBody : (if rule.enabled then generateRuleBody rule hasMailboxid else some "") = some body) :
    generateRule json hasMailboxid rule =
      some ("\n" ++ rulePrefix ++ json rule ++ "\n" ++ body) := by
  rw [generateRule, isBody]
  rfl

theorem Rule.Valid.reads_rule (valid : rule.Valid) (oneLine : OneLine (json rule).toList)
    (readable : ¬ rule.Unreadable) :
    generateRule json hasMailboxid rule = some (rule.text json hasMailboxid) ∧
      Reads .blank (rule.text json hasMailboxid).toList
        (if rule.enabled then rule.tokens hasMailboxid else []) .blank := by
  obtain ⟨body, isBody, reads⟩ : ∃ body,
      (if rule.enabled then generateRuleBody rule hasMailboxid else some "") = some body ∧
        Reads .blank body.toList
          (if rule.enabled then rule.tokens hasMailboxid else []) .blank := by
    cases enabled : rule.enabled with
    | false => exact ⟨"", rfl, rfl⟩
    | true => exact valid.reads_body (fun signed => readable ⟨enabled, signed⟩) hasMailboxid
  rw [text, generateRule_eq isBody, Option.getD_some, String.toList_append]
  exact ⟨rfl, (reads_ruleLine oneLine).append reads⟩

theorem Rule.Valid.refuses_rule (valid : rule.Valid) (oneLine : OneLine (json rule).toList)
    (unreadable : rule.Unreadable) :
    generateRule json hasMailboxid rule = some (rule.text json hasMailboxid) ∧
      Refuses .blank (rule.text json hasMailboxid).toList := by
  obtain ⟨body, isBody, refuses⟩ := valid.refuses_body unreadable.2 hasMailboxid
  have isRule := @generateRule_eq json _ _ _ (by rw [if_pos unreadable.1, isBody])
  rw [text, isRule, Option.getD_some, String.toList_append]
  exact ⟨rfl, (reads_ruleLine oneLine).refuses refuses⟩

def scriptHead (rules : List Rule) (hasMailboxid : Bool) : String :=
  let extensions := requiredExtensions rules hasMailboxid
  headerLine1 ++ "\n" ++ headerLine2 ++ "\n" ++
    (if extensions = [] then ""
      else "require [" ++ ", ".intercalate (extensions.map fun extension =>
        "\"" ++ extension ++ "\"") ++ "];\n")

section

variable {name : String} (required : name ∈ requiredExtensions rules hasMailboxid)

include required

theorem extension_mem : name ∈ ["fileinto", "mailboxid", "copy", "imap4flags"] := by
  obtain ⟨rule, -, -, used⟩ := mem_requiredExtensions.mp required
  obtain ⟨action, -, needs⟩ := (Rule.extensions_command hasMailboxid rule name).mp used
  cases action with
  | moveTo folder | copyTo folder =>
    cases hasMailboxid <;> simp [Action.extensions] at needs <;> grind
  | redirect address keep => cases keep <;> simp_all [Action.extensions]
  | markRead | flag | discard => simp_all [Action.extensions]

theorem lex_extension : lex ("\"" ++ name ++ "\"") = some [.string name] := by
  have each : ∀ name ∈ ["fileinto", "mailboxid", "copy", "imap4flags"],
      lex ("\"" ++ name ++ "\"") = some [.string name] := by decide
  exact each name (extension_mem required)

end

theorem reads_scriptHead (rules : List Rule) (hasMailboxid : Bool) :
    Reads .blank (scriptHead rules hasMailboxid).toList
      (requireTokens (requiredExtensions rules hasMailboxid)) .blank := by
  have header : Reads .blank (headerLine1 ++ "\n" ++ headerLine2 ++ "\n").toList [] .blank := by
    decide +kernel
  rw [scriptHead, String.toList_append]
  apply header.append
  have each := fun name => @lex_extension rules hasMailboxid name
  generalize requiredExtensions rules hasMailboxid = extensions at each
  cases extensions with
  | nil => rfl
  | cons name names =>
    have lead : Reads .blank "require [".toList [.identifier "require", .leftBracket] .blank := by
      decide
    have listed := reads_separated (cons_ne_nil name names) each (by decide : Delimits ']') rfl
    have closed : Reads .blank ";\n".toList [.semicolon] .blank := by decide
    simpa [requireTokens, listedTokens, String.toList_append] using
      (lead.append listed).append closed

theorem flatMap_enabled (rules : List Rule) (hasMailboxid : Bool) :
    (rules.flatMap fun rule => if rule.enabled then rule.tokens hasMailboxid else []) =
      (rules.filter Rule.enabled).flatMap (Rule.tokens hasMailboxid) := by
  induction rules with
  | nil => rfl
  | cons rule rules ih => cases enabled : rule.enabled <;> simp [enabled, ih]

section

variable (valid : ∀ rule ∈ rules, rule.Valid)
  (oneLine : ∀ rule ∈ rules, OneLine (json rule).toList)

include valid oneLine

theorem generateScript_eq :
    generateScript json rules hasMailboxid = some (scriptHead rules hasMailboxid ++
      "".intercalate (rules.map (Rule.text json hasMailboxid))) := by
  have mapped : rules.mapM (generateRule json hasMailboxid) =
      some (rules.map (Rule.text json hasMailboxid)) := by
    apply mapM_eq_some
    intro rule mem
    by_cases unreadable : rule.Unreadable
    · exact ((valid rule mem).refuses_rule (oneLine rule mem) unreadable).1
    · exact ((valid rule mem).reads_rule (oneLine rule mem) unreadable).1
  simp [generateScript, mapped, scriptHead]

theorem lex_script (readable : ∀ rule ∈ rules, ¬ rule.Unreadable) :
    lex (scriptHead rules hasMailboxid ++
      "".intercalate (rules.map (Rule.text json hasMailboxid))) =
      some (scriptTokens rules hasMailboxid) := by
  apply Reads.lex_blank
  rw [String.toList_append, toList_concat, flatMap_map, scriptTokens, ← flatMap_enabled]
  apply (reads_scriptHead rules hasMailboxid).append
  apply Reads.flatMap
  intro rule mem
  exact ((valid rule mem).reads_rule (oneLine rule mem) (readable rule mem)).2

theorem lex_script_none (unreadable : ∃ rule ∈ rules, rule.Unreadable) :
    lex (scriptHead rules hasMailboxid ++
      "".intercalate (rules.map (Rule.text json hasMailboxid))) =
      none := by
  apply lex_eq_none
  rw [String.toList_append, toList_concat, flatMap_map]
  apply (reads_scriptHead rules hasMailboxid).refuses
  apply @Refuses.flatMap _ _ fun rule => if rule.enabled then rule.tokens hasMailboxid else []
  · intro rule mem
    by_cases unreadable : rule.Unreadable
    · exact .inr ((valid rule mem).refuses_rule (oneLine rule mem) unreadable).2
    · exact .inl ((valid rule mem).reads_rule (oneLine rule mem) unreadable).2
  · obtain ⟨rule, mem, unreadable⟩ := unreadable
    exact ⟨rule, mem, ((valid rule mem).refuses_rule (oneLine rule mem) unreadable).2⟩

end

/-- For every list of valid rules the script is Sieve that means the rules, exactly if
no enabled rule compares the size with a number that has a plus sign. -/
theorem generateScript_means_iff (valid : ∀ rule ∈ rules, rule.validate = .ok ())
    (oneLine : ∀ rule ∈ rules, OneLine (json rule).toList) :
    (∃ script commands, generateScript json rules hasMailboxid = some script ∧
        parse script = some commands ∧ Means rules hasMailboxid commands) ↔
      ∀ rule ∈ rules, rule.enabled = true → ∀ condition ∈ rule.conditions,
        ¬(condition.field = .size ∧ startsWith condition.value '+' = true) := by
  have checked : ∀ rule ∈ rules, rule.Valid := fun rule mem => Rule.valid (valid rule mem)
  constructor
  · rintro ⟨script, commands, generated, parsed, -⟩ rule mem enabled condition listed signed
    rw [generateScript_eq checked oneLine, Option.some.injEq] at generated
    rw [← generated, parse_eq_none (lex_script_none checked oneLine
      ⟨rule, mem, enabled, condition, listed, signed⟩)] at parsed
    cases parsed
  · intro unsigned
    have readable : ∀ rule ∈ rules, ¬ rule.Unreadable := by
      rintro rule mem ⟨enabled, condition, listed, signed⟩
      exact unsigned rule mem enabled condition listed signed
    refine ⟨_, _, generateScript_eq checked oneLine,
      parse_eq (lex_script checked oneLine readable) (isCommands_script rules hasMailboxid), ?_⟩
    exact ⟨_, nodup_requiredExtensions rules hasMailboxid,
      fun name => mem_requiredExtensions, rfl⟩

end Script

def sizeRule (value : String) : Rule :=
  { name := "Large", enabled := true, combine := .all, conditions := [⟨.size, .over, value⟩]
    actions := [.moveTo ⟨"M1", "Large"⟩], stop := true }

theorem generateScript_means_size :
    ∃ script commands, generateScript (fun _ => "\x7b\x7d") [sizeRule "5"] false = some script ∧
      parse script = some commands ∧ Means [sizeRule "5"] false commands := by
  refine (generateScript_means_iff ?_ ?_).mpr ?_
  · decide
  · simp [OneLine]
  · decide

/-- The size `+5` passes the validation, and no Sieve comes of it, however the JSON of the rule
is spelled in its line. -/
theorem generateScript_signedSize :
    (sizeRule "+5").validate = .ok () ∧
      ∀ json : Rule → String, OneLine (json (sizeRule "+5")).toList →
        ∃ script, generateScript json [sizeRule "+5"] false = some script ∧
          parse script = none := by
  refine ⟨by decide, fun json isLine => ?_⟩
  have oneLine : ∀ rule ∈ [sizeRule "+5"], OneLine (json rule).toList := by simpa using isLine
  have valid : ∀ rule ∈ [sizeRule "+5"], rule.validate = .ok () := by decide
  have checked : ∀ rule ∈ [sizeRule "+5"], rule.Valid := fun rule mem =>
    Rule.valid (valid rule mem)
  refine ⟨_, generateScript_eq checked oneLine,
    parse_eq_none (lex_script_none checked oneLine ?_)⟩
  exact ⟨_, mem_cons_self, rfl, ⟨.size, .over, "+5"⟩, mem_cons_self, rfl, by decide⟩

end EvolutionJmap.Ui
