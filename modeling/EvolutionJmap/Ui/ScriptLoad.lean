import EvolutionJmap.Ui.ScriptText

/-!
# Loading a managed script (`jmap-ui/src/filters/script.rs`)

The rules are read from the comment lines of the script.  A value of a rule cannot break
a line, and no other line of a script begins as a comment, so a generated script loads.
-/

namespace EvolutionJmap.Ui

open Sieve List

/-- The lines of a text (`str::lines`), with what is read of the first one. -/
def linesFrom (line : List Char) : List Char → List (List Char)
  | [] => if line = [] then [] else [line]
  | char :: rest =>
    if char = '\n' then
      (if line.getLast? = some '\r' then line.dropLast else line) :: linesFrom [] rest
    else linesFrom (line ++ [char]) rest

def ruleText (line : List Char) : Option String :=
  if rulePrefix.toList.isPrefixOf line then
    some (String.ofList (line.drop rulePrefix.toList.length))
  else none

def ruleTexts (text : List Char) : List String := (linesFrom [] text).filterMap ruleText

section

-- `serde_json::from_str` and `serde_json::to_string` for a rule.
variable (fromStr : String → Option Rule) (json : Rule → String)

/-- The rules of a text with this header. -/
def parseScript (text : String) : Option (List Rule) :=
  match linesFrom [] text.toList with
  | first :: second :: lines =>
    if first = headerLine1.toList ∧ second = headerLine2.toList then
      (lines.filterMap ruleText).mapM fromStr
    else none
  | _ => none

/-- The rules of a script that is just what they generate. -/
def load (serverText : String) (hasMailboxid : Bool) : Option (List Rule) := do
  let rules ← parseScript fromStr serverText
  if rules.any fun rule => rule.validate.toOption.isNone then none
  else if generateScript json rules hasMailboxid = some serverText then some rules
  else none

end

/-! ## Lines -/

variable {text line rest : List Char} {value : String}

theorem linesFrom_line (oneLine : OneLine line) (rest : List Char) :
    linesFrom [] (line ++ '\n' :: rest) = line :: linesFrom [] rest := by
  have step : ∀ front, OneLine (front ++ line) →
      linesFrom front (line ++ '\n' :: rest) = (front ++ line) :: linesFrom [] rest := by
    clear oneLine
    induction line with
    | nil =>
      intro front oneLine
      rw [append_nil] at oneLine
      have last : front.getLast? ≠ some '\r' := fun last =>
        (oneLine _ (mem_of_getLast? last)).2.1 rfl
      simp [linesFrom, last]
    | cons char line ih =>
      intro front oneLine
      have broken : char ≠ '\n' := (oneLine char (by simp)).1
      rw [append_cons] at oneLine
      rw [cons_append, linesFrom, if_neg broken, ih _ oneLine, ← append_cons]
  exact step [] oneLine

/-- The text is lines that hold no rule. -/
def Skips (text : List Char) : Prop :=
  ∀ rest, ruleTexts (text ++ rest) = ruleTexts rest

theorem Skips.append {front back : List Char} (first : Skips front) (second : Skips back) :
    Skips (front ++ back) := by
  intro rest
  rw [append_assoc, first, second]

theorem Skips.flatMap {Item : Type} {items : List Item} {image : Item → List Char}
    (each : ∀ item ∈ items, Skips (image item)) : Skips (items.flatMap image) := by
  induction items with
  | nil => exact fun _ => rfl
  | cons item items ih =>
    rw [forall_mem_cons] at each
    exact each.1.append (ih each.2)

theorem skips_line (oneLine : OneLine value.toList) (plain : value.toList.head? ≠ some '#') :
    Skips (value.toList ++ ['\n']) := by
  intro rest
  have other : ruleText value.toList = none := by
    cases isText : value.toList with
    | nil => rfl
    | cons char line =>
      rw [isText] at plain
      simp [ruleText, rulePrefix, isPrefixOf, Ne.symm (fun same => plain (congrArg some same))]
  rw [append_assoc, singleton_append, ruleTexts, linesFrom_line oneLine, filterMap_cons, other]
  rfl

/-! ## The lines of a rule -/

@[simp] theorem oneLine_append {front back : List Char} :
    OneLine (front ++ back) ↔ OneLine front ∧ OneLine back := by
  simp only [OneLine, forall_mem_append]

@[simp] theorem oneLine_nil : OneLine [] := nofun

@[simp] theorem oneLine_cons {char : Char} :
    OneLine (char :: line) ↔ (char ≠ '\n' ∧ char ≠ '\r' ∧ char ≠ '\x00') ∧ OneLine line := by
  simp only [OneLine, forall_mem_cons]

theorem oneLine_escape (oneLine : OneLine value.toList) : OneLine (escape value).toList := by
  rw [toList_escape]
  intro char mem
  obtain ⟨source, isSource, written⟩ := mem_flatMap.mp mem
  have each := oneLine source isSource
  rw [quotedChar] at written
  split at written <;> simp at written
  · rcases written with rfl | rfl
    · decide
    · exact each
  · exact written ▸ each

theorem Condition.Valid.oneLine {condition : Condition} (valid : condition.Valid) :
    OneLine condition.text.toList := by
  have value := oneLine_escape valid.value
  rw [text]
  by_cases isSize : condition.field = .size
  · obtain ⟨tag, isTag, isTest⟩ := valid.conditionTest_size isSize
    have oneTag : OneLine tag.toList := by
      cases isOp : condition.op <;> rw [isOp] at isTag <;> cases isTag <;> simp
    simp [isTest, oneTag, valid.value]
  · obtain ⟨headerArg, tag, negate, isArg, isType, isTest⟩ := valid.conditionTest_text isSize
    have oneTag : OneLine tag.toList := by
      cases isOp : condition.op <;> rw [isOp] at isType <;> cases isType <;> simp
    have oneArg : OneLine headerArg.toList := by
      cases isField : condition.field <;> rw [isField] at isArg <;> cases isArg <;> simp
      exact oneLine_escape (valid.header _ isField)
    have oneName : OneLine condition.field.testName.toList := by
      cases condition.field <;> simp [Field.testName]
    cases negate <;> simp [isTest, oneTag, oneArg, oneName, value]

theorem oneLine_intercalate {separator : List Char} (separates : OneLine separator)
    {texts : List (List Char)} (each : ∀ text ∈ texts, OneLine text) :
    OneLine (separator.intercalate texts) := by
  induction texts with
  | nil => simp
  | cons text texts ih =>
    rw [forall_mem_cons] at each
    cases texts with
    | nil => simpa using each.1
    | cons other texts => simp [intercalate_cons_cons, each.1, separates, ih each.2]

theorem Rule.Checked.oneLine_testExpr {rule : Rule} (checked : rule.Checked) :
    ∃ test, testExpr rule = some test ∧ OneLine test.toList := by
  have each : ∀ condition ∈ rule.conditions, OneLine condition.text.toList :=
    fun condition mem => (checked condition mem).oneLine
  cases isList : rule.conditions with
  | nil => exact ⟨"true", by rw [testExpr, isList], by simp⟩
  | cons one rest =>
    cases rest with
    | nil =>
      have mem : one ∈ rule.conditions := isList ▸ mem_cons_self
      refine ⟨one.text, ?_, each one mem⟩
      rw [testExpr, isList]
      exact (checked one mem).isSome
    | cons other others =>
      refine ⟨_, checked.testExpr_many isList, ?_⟩
      have tests := @oneLine_intercalate ", ".toList (by simp)
        (rule.conditions.map fun condition => condition.text.toList) (by simpa using each)
      cases rule.combine <;>
        simpa [Combine.name, String.toList_intercalate, Function.comp_def] using tests

theorem oneLine_generateAction {action : Action} (hasMailboxid : Bool)
    (oneLine : ∀ text ∈ action.texts, OneLine text.toList) :
    OneLine (generateAction hasMailboxid action).toList := by
  have each := fun text mem => oneLine_escape (oneLine text mem)
  cases action with
  | moveTo folder | copyTo folder =>
    simp only [Action.texts, forall_mem_cons] at each
    cases hasMailboxid <;> simp [generateAction, fileinto, each.1, each.2.1]
  | markRead | flag | discard => simp [generateAction]
  | redirect address keep =>
    simp only [Action.texts, forall_mem_cons] at each
    cases keep <;> simp [generateAction, each.1]

section

variable {json : Rule → String} {rule : Rule} (valid : rule.Valid) {hasMailboxid : Bool}

include valid

theorem Rule.Valid.skips_body :
    ∃ body, generateRuleBody rule hasMailboxid = some body ∧ Skips body.toList := by
  obtain ⟨test, isTest, oneLine⟩ := valid.checked.oneLine_testExpr
  refine ⟨_, generateRuleBody_eq isTest hasMailboxid, ?_⟩
  have opened := @skips_line ("if " ++ test ++ " \x7b")
    (by simp [oneLine]) (by simp)
  have stops : Skips (if rule.stop then "    stop;\n" else "").toList := by
    cases rule.stop with
    | true => exact @skips_line "    stop;" (by simp) (by decide)
    | false => exact fun _ => rfl
  have closed := @skips_line "\x7d" (by simp) (by decide)
  have actions : Skips (rule.orderedActions.flatMap fun action =>
      ("    " ++ generateAction hasMailboxid action ++ "\n").toList) := by
    refine .flatMap fun action mem => ?_
    have listed : action ∈ rule.actions := by
      rcases mem_append.mp mem with mem | mem
      · exact (mem_filter.mp mem).1
      · exact (mem_filter.mp mem).1
    have statement := oneLine_generateAction hasMailboxid (valid.texts action listed)
    have line := @skips_line ("    " ++ generateAction hasMailboxid action)
      (by simp [statement]) (by simp)
    rw [String.toList_append]
    exact line
  rw [← flatMap_map, ← toList_concat] at actions
  have whole := (opened.append (actions.append stops)).append closed
  simpa [String.toList_append] using whole

theorem Rule.Valid.ruleTexts_rule (isLine : OneLine (json rule).toList) (rest : List Char) :
    ruleTexts ((rule.text json hasMailboxid).toList ++ rest) = json rule :: ruleTexts rest := by
  obtain ⟨body, isBody, skips⟩ : ∃ body,
      (if rule.enabled then generateRuleBody rule hasMailboxid else some "") = some body ∧
        Skips body.toList := by
    cases rule.enabled with
    | false => exact ⟨"", rfl, fun _ => rfl⟩
    | true => exact valid.skips_body
  have oneLine : OneLine (rulePrefix.toList ++ (json rule).toList) :=
    .append (by simp [rulePrefix]) isLine
  have isText : (rule.text json hasMailboxid).toList ++ rest = [] ++ '\n' :: (rulePrefix.toList ++
      (json rule).toList ++ '\n' :: (body.toList ++ rest)) := by
    rw [text, generateRule_eq isBody]
    simp [String.toList_append]
  have isJson : ruleText (rulePrefix.toList ++ (json rule).toList) = some (json rule) := by
    simp [ruleText]
  rw [isText, ruleTexts, linesFrom_line oneLine_nil, linesFrom_line oneLine,
    filterMap_cons_none rfl, filterMap_cons_some isJson, ← ruleTexts, skips]

end

variable {json : Rule → String} {rules : List Rule} {hasMailboxid : Bool}

theorem ruleTexts_rules (valid : ∀ rule ∈ rules, rule.Valid)
    (oneLine : ∀ rule ∈ rules, OneLine (json rule).toList) :
    ruleTexts (rules.flatMap fun rule => (rule.text json hasMailboxid).toList) =
      rules.map json := by
  induction rules with
  | nil => rfl
  | cons rule rules ih =>
    rw [forall_mem_cons] at valid oneLine
    rw [flatMap_cons, valid.1.ruleTexts_rule oneLine.1, ih valid.2 oneLine.2, map_cons]

theorem skips_require : Skips (if requiredExtensions rules hasMailboxid = [] then ""
    else "require [" ++ ", ".intercalate ((requiredExtensions rules hasMailboxid).map
      fun extension => "\"" ++ extension ++ "\"") ++ "];\n").toList := by
  split
  · exact fun _ => rfl
  · have each : ∀ name ∈ requiredExtensions rules hasMailboxid,
        OneLine ("\"" ++ name ++ "\"").toList := by
      intro name required
      have known := extension_mem required
      simp only [mem_cons, not_mem_nil, or_false] at known
      rcases known with rfl | rfl | rfl | rfl <;> simp
    have listed := @oneLine_intercalate ", ".toList (by simp)
      ((requiredExtensions rules hasMailboxid).map fun name => ("\"" ++ name ++ "\"").toList)
      (by simpa using each)
    have line := @skips_line ("require [" ++ ", ".intercalate
      ((requiredExtensions rules hasMailboxid).map fun name => "\"" ++ name ++ "\"") ++ "];")
      (by simpa [String.toList_intercalate, Function.comp_def] using listed) (by simp)
    simpa using line

theorem parseScript_generated {fromStr : String → Option Rule}
    (valid : ∀ rule ∈ rules, rule.Valid) (oneLine : ∀ rule ∈ rules, OneLine (json rule).toList)
    (roundTrips : ∀ rule ∈ rules, fromStr (json rule) = some rule) :
    parseScript fromStr (scriptHead rules hasMailboxid ++
      "".intercalate (rules.map (Rule.text json hasMailboxid))) = some rules := by
  have read : (rules.map json).mapM fromStr = some rules := by
    rw [mapM_map]
    exact (mapM_eq_some roundTrips).trans (congrArg some (map_id rules))
  have texts := (@skips_require rules hasMailboxid _).trans
    (@ruleTexts_rules json rules hasMailboxid valid oneLine)
  rw [← flatMap_map, ← toList_concat, ruleTexts] at texts
  have newline : "\n".toList = ['\n'] := rfl
  rw [parseScript, scriptHead]
  simp only [String.toList_append, append_assoc, newline, cons_append, nil_append]
  rw [linesFrom_line (by simp [headerLine1]), linesFrom_line (by simp [headerLine2])]
  simp only [and_self, if_true]
  rw [texts, read]

/-- Managed scripts load back, and a text loads only as the script of its rules. -/
theorem load_generateScript (fromStr : String → Option Rule) (json : Rule → String)
    (hasMailboxid : Bool) :
    (∀ rules, (∀ rule ∈ rules, rule.validate = .ok ()) →
      (∀ rule ∈ rules, OneLine (json rule).toList) →
      (∀ rule ∈ rules, fromStr (json rule) = some rule) →
      ∃ script, generateScript json rules hasMailboxid = some script ∧
        load fromStr json script hasMailboxid = some rules) ∧
    ∀ text rules, load fromStr json text hasMailboxid = some rules →
      (∀ rule ∈ rules, rule.validate = .ok ()) ∧
        generateScript json rules hasMailboxid = some text := by
  have accepted : ∀ rules : List Rule,
      (rules.any fun rule => rule.validate.toOption.isNone) = false ↔
        ∀ rule ∈ rules, rule.validate = .ok () := by
    intro rules
    rw [any_eq_false]
    refine forall₂_congr fun rule _ => ?_
    cases rule.validate <;> simp [Except.toOption]
  constructor
  · intro rules valid oneLine roundTrips
    have checked : ∀ rule ∈ rules, rule.Valid := fun rule mem => Rule.valid (valid rule mem)
    refine ⟨_, generateScript_eq checked oneLine, ?_⟩
    rw [load, parseScript_generated checked oneLine roundTrips, Option.bind_eq_bind,
      Option.bind_some,
      (accepted rules).mpr valid, generateScript_eq checked oneLine]
    simp
  · intro text rules loaded
    obtain ⟨found, -, checks⟩ := Option.bind_eq_some_iff.mp loaded
    split at checks
    · cases checks
    · next valid =>
      split at checks
      · next same =>
        cases checks
        exact ⟨(accepted _).mp (Bool.eq_false_iff.mpr valid), same⟩
      · cases checks

theorem load_generateScript_size :
    ∃ script, generateScript (fun _ => "\x7b\x7d") [sizeRule "5"] false = some script ∧
      load (fun _ => some (sizeRule "5")) (fun _ => "\x7b\x7d") script false =
        some [sizeRule "5"] := by
  refine (load_generateScript _ _ false).1 _ ?_ ?_ ?_
  · decide
  · simp
  · simp

end EvolutionJmap.Ui
