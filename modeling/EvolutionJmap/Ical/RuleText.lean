import EvolutionJmap.MapM
import EvolutionJmap.Digits
import EvolutionJmap.Ical.Rule

/-!
# The parts of a recurrence rule

Every part of an `RRULE` is a name and a list of tokens.  A part that is written is read
as the values that the rule states, and it has neither of the characters that separate
parts and tokens.
-/

namespace EvolutionJmap.Ical

open Text List

/-! ## Tokens -/

/-- The token does not break the list or the rule. -/
def Safe (token : String) : Prop := ',' ∉ token.toList ∧ ';' ∉ token.toList

instance (token : String) : Decidable (Safe token) :=
  inferInstanceAs (Decidable (_ ∧ _))

theorem safe_of_isDigit {token : String} (all : ∀ char ∈ token.toList, char.isDigit = true) :
    Safe token :=
  ⟨fun mem => ne_of_isDigit ',' (all _ mem) rfl rfl,
    fun mem => ne_of_isDigit ';' (all _ mem) rfl rfl⟩

theorem Safe.append {front back : String} (front_safe : Safe front) (back_safe : Safe back) :
    Safe (front ++ back) := by
  constructor
  · rw [String.toList_append, mem_append, not_or]
    exact ⟨front_safe.1, back_safe.1⟩
  · rw [String.toList_append, mem_append, not_or]
    exact ⟨front_safe.2, back_safe.2⟩

theorem safe_natToString (number : Nat) : Safe (toString number) :=
  safe_of_isDigit (isDigit_toString number)

theorem toList_intToString (number : Int) :
    (toString number).toList = (if number < 0 then ['-'] else []) ++
      (toString number.natAbs).toList := by
  cases number with
  | ofNat number =>
    rw [if_neg (by simp)]
    rfl
  | negSucc number =>
    rw [if_pos (Int.negSucc_lt_zero number)]
    change (("-" ++ toString (number + 1) : String)).toList = _
    rw [String.toList_append]
    rfl

theorem safe_intToString (number : Int) : Safe (toString number) := by
  have digits := safe_natToString number.natAbs
  rw [Safe, toList_intToString, mem_append, mem_append, not_or, not_or]
  split
  · exact ⟨⟨by decide, digits.1⟩, ⟨by decide, digits.2⟩⟩
  · exact ⟨⟨nofun, digits.1⟩, ⟨nofun, digits.2⟩⟩

/-! ## One part -/

/-- A part is written exactly if the values are stated, and is read as them. -/
def Spelled {β : Type} (name : String) (read : String → β) (values : Option (List β))
    (part : Option String) : Prop :=
  (values = none ∧ part = none) ∨
    ∃ tokens, tokens ≠ [] ∧ (∀ token ∈ tokens, Safe token) ∧
      values = some (tokens.map read) ∧ part = some (rulePart name tokens)

variable {name : String}

theorem spelled_timeOfDay {values : Option (List Nat)} {largest : Nat} (small : largest < 2 ^ 32)
    (stated : statedIs values (timeOfDayPart name values largest) = true) :
    Spelled name toTimeOfDay values (timeOfDayPart name values largest) := by
  cases values with
  | none => exact .inl ⟨rfl, rfl⟩
  | some values =>
    unfold timeOfDayPart statedIs at stated
    rw [timeOfDayPart]
    simp only [Option.isNone_some, Bool.false_or, Option.bind_some] at stated ⊢
    split
    · next refused =>
      rw [if_pos refused] at stated
      cases stated
    · next accepted =>
      rw [Bool.or_eq_true, not_or, List.isEmpty_iff, List.any_eq_true] at accepted
      refine .inr ⟨values.map toString, ?_, ?_, ?_, rfl⟩
      · exact fun empty => accepted.1 (map_eq_nil_iff.mp empty)
      · intro token mem
        obtain ⟨value, -, rfl⟩ := mem_map.mp mem
        exact safe_natToString value
      · congr 1
        have each : ∀ value ∈ values, (toTimeOfDay ∘ toString) value = id value := by
          intro value mem
          have fits : value < 2 ^ 32 := by
            by_contra large
            exact accepted.2 ⟨value, mem, decide_eq_true (by omega)⟩
          rw [Function.comp_apply, toTimeOfDay, parseUnsigned_toString fits]
          rfl
        rw [map_map, map_congr_left each, map_id]

variable {head value : String} {part : Option String} {writes : Ends} {asADate : Bool}

section

variable {α β : Type} {token : α → Option String} {image : α → β} {read : String → β}
  {values : List α}
  (each : ∀ value ∈ values, ∀ text, token value = some text → Safe text ∧ read text = image value)

include each

theorem read_of_mapM {tokens : List String} (mapped : values.mapM token = some tokens) :
    (∀ token ∈ tokens, Safe token) ∧ tokens.map read = values.map image ∧
      (tokens = [] → values = []) := by
  rw [mapM_eq_some_iff] at mapped
  induction mapped with
  | nil => exact ⟨nofun, rfl, fun _ => rfl⟩
  | cons here _ ih =>
    rw [forall_mem_cons] at each
    have head := each.1 _ here
    have tail := ih each.2
    refine ⟨forall_mem_cons.mpr ⟨head.1, tail.1⟩, ?_, nofun⟩
    rw [map_cons, map_cons, head.2, tail.2.1]

theorem spelled_tokens (written : (tokensPart name token values).isSome = true) :
    Spelled name read (some (values.map image)) (tokensPart name token values) := by
  rw [tokensPart] at written ⊢
  split at written
  · cases written
  · next nonempty =>
    rw [if_neg nonempty]
    obtain ⟨part, isPart⟩ := Option.isSome_iff_exists.mp written
    obtain ⟨tokens, mapped, -⟩ := Option.map_eq_some_iff.mp isPart
    have facts := read_of_mapM each mapped
    refine .inr ⟨tokens, ?_, facts.1, congrArg some facts.2.1.symm, ?_⟩
    · exact fun empty => nonempty (isEmpty_iff.mpr (facts.2.2 empty))
    · rw [mapped]
      rfl

end

variable {largest : Int} {text : String}

theorem ordinalToken_read (small : largest ≤ 366) {number : Int}
    (written : ordinalToken largest number = some text) : Safe text ∧ toMonthDay text = number := by
  rw [ordinalToken] at written
  split at written
  · next inRange =>
    cases written
    refine ⟨safe_intToString number, ?_⟩
    rw [toMonthDay, parseSigned_toString (by omega)]
    rfl
  · cases written

theorem monthToken_read {month : String} (written : monthToken month = some text) :
    Safe text ∧ id text = month := by
  rw [monthToken] at written
  split at written
  · split at written
    · next number _ valid =>
      cases written
      refine ⟨?_, rfl⟩
      rw [valid.2.2]
      exact safe_natToString number
    · cases written
  · cases written

/-! ## Days -/

def readDay (day : NDay) : NDay :=
  { day with dayType := some "NDay", day := toAsciiLowercase day.day }

theorem weekdays_letters : ∀ weekday ∈ weekdays, Safe weekday ∧
    ∃ first rest, weekday.toList = first :: rest ∧ first.isDigit = false ∧ first ≠ '+' ∧
      first ≠ '-' := by
  intro weekday mem
  simp only [weekdays, mem_cons, not_mem_nil, or_false] at mem
  rcases mem with rfl | rfl | rfl | rfl | rfl | rfl | rfl <;>
    exact ⟨by decide, _, _, rfl, by decide, by decide, by decide⟩

theorem stripFirst_cons {kind : Char → Bool} {first : Char} (rest : List Char) :
    stripFirst kind (first :: rest) = if kind first then some rest else none := rfl

variable {weekday : String}

theorem toNday_weekday (mem : weekday ∈ weekdays) :
    toNday weekday = NDay.new (toAsciiLowercase weekday) := by
  rcases (weekdays_letters weekday mem).2 with
    ⟨first, rest, isWeekday, noDigit, noPlus, noMinus⟩
  have unsigned : (stripFirst (fun char => char == '+' || char == '-') weekday.toList).getD
      weekday.toList = first :: rest := by
    rw [isWeekday, stripFirst_cons, if_neg (by simp [noPlus, noMinus]), Option.getD_none]
  unfold toNday
  simp only [unsigned, takeWhile_cons, noDigit]
  rfl

theorem toNday_ordinal {nth : Int} (nonzero : nth ≠ 0) (fits : -2 ^ 31 ≤ nth ∧ nth < 2 ^ 31)
    (mem : weekday ∈ weekdays) :
    toNday (toString nth ++ weekday) =
      { NDay.new (toAsciiLowercase weekday) with nthOfPeriod := some nth } := by
  obtain ⟨first, rest, isWeekday, noDigit, -, -⟩ := (weekdays_letters weekday mem).2
  let digits := (toString nth.natAbs).toList
  let sign : List Char := if nth < 0 then ['-'] else []
  have allDigits : ∀ char ∈ digits, char.isDigit = true := isDigit_toString _
  have nonempty : digits ≠ [] := toString_ne_nil _
  have chars : (toString nth ++ weekday).toList = sign ++ (digits ++ first :: rest) := by
    rw [String.toList_append, toList_intToString, isWeekday, append_assoc]
  have unsigned : (stripFirst (fun char => char == '+' || char == '-')
      (toString nth ++ weekday).toList).getD (toString nth ++ weekday).toList =
        digits ++ first :: rest := by
    rw [chars]
    by_cases negative : nth < 0
    · rw [show sign = ['-'] from if_pos negative]
      rfl
    · rw [show sign = [] from if_neg negative, nil_append]
      cases isDigits : digits with
      | nil => exact absurd isDigits nonempty
      | cons digit others =>
        have isDigit := allDigits digit (isDigits ▸ mem_cons_self)
        rw [cons_append, stripFirst_cons, if_neg, Option.getD_none]
        simp [ne_of_isDigit '+' isDigit rfl, ne_of_isDigit '-' isDigit rfl]
  have counted : ((digits ++ first :: rest).takeWhile Char.isDigit).length = digits.length := by
    rw [takeWhile_append_of_pos allDigits, takeWhile_cons_of_neg (by simp [noDigit]),
      append_nil]
  have ordinalLength : (toString nth ++ weekday).toList.length - (digits ++ first :: rest).length +
      digits.length = (toString nth).toList.length := by
    rw [chars, show (toString nth).toList = sign ++ digits from toList_intToString nth]
    simp only [length_append]
    omega
  have ordinal : (toString nth ++ weekday).toList.take (toString nth).toList.length =
      (toString nth).toList := by
    rw [String.toList_append, take_left]
  have behind : (toString nth ++ weekday).toList.drop (toString nth).toList.length =
      weekday.toList := by
    rw [String.toList_append, drop_left]
  have digitsLength : digits.length ≠ 0 := fun empty => nonempty (length_eq_zero_iff.mp empty)
  unfold toNday
  simp only [unsigned, counted, ordinalLength, ordinal, behind, if_neg digitsLength,
    @parseSigned_toString 32 nth fits]
  rw [if_pos nonzero, String.ofList_toList]

/-- The ordinal is a 32-bit number. -/
def NDay.Fits (day : NDay) : Prop :=
  ∀ nth, day.nthOfPeriod = some nth → -2 ^ 31 ≤ nth ∧ nth < 2 ^ 31

variable {frequency : String}

theorem byDayToken_read {day : NDay} (fits : NDay.Fits day)
    (written : byDayToken frequency day = some text) : Safe text ∧ toNday text = readDay day := by
  rw [byDayToken] at written
  split at written
  · cases written
  · next noExtra =>
    rw [Bool.not_eq_true', Bool.not_eq_false, BTreeMap.isEmpty_iff] at noExtra
    obtain ⟨weekday, found, written⟩ := Option.bind_eq_some_iff.mp written
    have mem := mem_of_find?_eq_some found
    have sameName : toAsciiLowercase weekday = toAsciiLowercase day.day := by
      have same := find?_some found
      rwa [eqIgnoreAsciiCase, beq_iff_eq] at same
    have safe := (weekdays_letters weekday mem).1
    cases ordinal : day.nthOfPeriod with
    | none =>
      rw [ordinal] at written
      cases written
      exact ⟨safe, by rw [toNday_weekday mem, readDay, sameName, noExtra, ordinal]; rfl⟩
    | some nth =>
      rw [ordinal] at written
      dsimp only at written
      split at written
      · next valid =>
        cases written
        refine ⟨(safe_intToString nth).append safe, ?_⟩
        rw [toNday_ordinal valid.1 (fits nth ordinal) mem, readDay, sameName, noExtra,
          ordinal]
        rfl
      · cases written

/-! ## Reading the parts of a rule -/

section

variable {ends : Ends} {rule : RecurrenceRule} {rest : List String}

theorem readRuleParts_cons (name : String) (isHead : head = name ++ "=")
    (noEquals : '=' ∉ name.toList)
    (goesOn : toAsciiUppercase name = "UNTIL" → (dateTimeDigits value.toList).isSome = true) :
    readRuleParts ends ((head ++ value) :: rest) rule =
      readRuleParts ends rest (readRulePart ends rule name value) := by
  have split : splitTextOnce '=' (head ++ value) = some (name, value) := by
    rw [isHead]
    exact splitTextOnce_append noEquals
  rw [readRuleParts, split]
  dsimp only
  rw [if_neg]
  rintro ⟨isUntil, noDigits⟩
  rw [Option.isNone_iff_eq_none] at noDigits
  have some_ := goesOn isUntil
  rw [noDigits] at some_
  cases some_

theorem readRuleParts_option {α : Type} (name : String)
    (set : RecurrenceRule → Option α → RecurrenceRule) {stated : Option α} {token : α → String}
    (isHead : head = name ++ "=") (noEquals : '=' ∉ name.toList)
    (goesOn : toAsciiUppercase name = "UNTIL" → ∀ value, stated = some value →
      (dateTimeDigits (token value).toList).isSome = true)
    (sets : ∀ rule value, stated = some value →
      readRulePart ends rule name (token value) = set rule (some value))
    (unset : set rule none = rule) :
    readRuleParts ends ((stated.map fun value => head ++ token value).toList ++ rest) rule =
      readRuleParts ends rest (set rule stated) := by
  cases stated with
  | none =>
    rw [unset]
    rfl
  | some value =>
    rw [← sets rule value rfl]
    exact readRuleParts_cons name isHead noEquals fun isUntil => goesOn isUntil value rfl

theorem readRuleParts_spelled {β : Type} (set : RecurrenceRule → Option (List β) → RecurrenceRule)
    {read : String → β} {values : Option (List β)} (spelled : Spelled name read values part)
    (noEquals : '=' ∉ name.toList) (notUntil : toAsciiUppercase name ≠ "UNTIL")
    (sets : ∀ rule value, readRulePart ends rule name value =
      set rule (some ((splitText ',' value).map read))) (unset : set rule none = rule) :
    readRuleParts ends (part.toList ++ rest) rule = readRuleParts ends rest (set rule values) := by
  rcases spelled with ⟨rfl, rfl⟩ | ⟨tokens, nonempty, safe, rfl, rfl⟩
  · rw [unset]
    rfl
  · have tokensRead := sets rule (joined ',' tokens)
    rw [splitText_joined nonempty fun token mem => (safe token mem).1] at tokensRead
    rw [← tokensRead]
    exact readRuleParts_cons name rfl noEquals fun isUntil => absurd isUntil notUntil

end

/-! ## Parts are kept apart -/

theorem mem_joined {separator char : Char} {texts : List String}
    (mem : char ∈ (joined separator texts).toList) :
    char = separator ∨ ∃ text ∈ texts, char ∈ text.toList := by
  rw [joined, String.toList_ofList] at mem
  induction texts with
  | nil => cases mem
  | cons first rest ih =>
    cases rest with
    | nil =>
      right
      exact ⟨first, mem_singleton_self first, by simpa using mem⟩
    | cons second rest =>
      simp only [map_cons, intercalate_cons_cons, mem_append,
        mem_singleton] at mem
      rcases mem with (inFirst | isSeparator) | inRest
      · exact .inr ⟨first, mem_cons_self, inFirst⟩
      · exact .inl isSeparator
      · rcases ih inRest with isSeparator | ⟨text, inTexts, inText⟩
        · exact .inl isSeparator
        · exact .inr ⟨text, mem_cons_of_mem _ inTexts, inText⟩

theorem Spelled.noSemicolon {β : Type} {read : String → β} {values : Option (List β)}
    (spelled : Spelled name read values part) (safeName : ';' ∉ name.toList) :
    ∀ text ∈ part.toList, ';' ∉ text.toList := by
  intro text mem
  rcases spelled with ⟨-, rfl⟩ | ⟨tokens, -, safe, -, rfl⟩
  · cases mem
  · rw [Option.mem_toList, Option.some.injEq] at mem
    subst mem
    rw [rulePart, String.toList_append, String.toList_append, mem_append, mem_append]
    rintro ((inName | inEquals) | inTokens)
    · exact safeName inName
    · exact absurd inEquals (by decide)
    · rcases mem_joined inTokens with isComma | ⟨token, isToken, inToken⟩
      · exact absurd isComma (by decide)
      · exact (safe token isToken).2 inToken

/-! ## The parts that a rule states -/

theorem spelled_bind {α β : Type} (image : α → β) {token : α → Option String} {read : String → β}
    {values : Option (List α)} {part : List α → Option String}
    (gated : ∀ values, (part values).isSome = true → part values = tokensPart name token values)
    (each : ∀ stated, values = some stated → ∀ value ∈ stated, ∀ text,
      token value = some text → Safe text ∧ read text = image value)
    (stated : statedIs values (values.bind part) = true) :
    Spelled name read (values.map (List.map image)) (values.bind part) := by
  cases values with
  | none => exact .inl ⟨rfl, rfl⟩
  | some values =>
    have written : (part values).isSome = true := stated
    rw [Option.bind_some, gated values written]
    exact spelled_tokens (each values rfl) (gated values written ▸ written)

/-- The numbers of a rule that no part limits fit into their machine types. -/
structure RuleFits (rule : RecurrenceRule) : Prop where
  interval : ∀ interval, rule.interval = some interval → interval < 2 ^ 32
  count : ∀ count, rule.count = some count → count < 2 ^ 32
  byDay : ∀ days, rule.byDay = some days → ∀ day ∈ days, NDay.Fits day

/-- Each `BY` part of the text reads as the rule has it. -/
structure PartsSpelled (rule : RecurrenceRule) : Prop where
  bySecond : Spelled "BYSECOND" toTimeOfDay rule.bySecond (bySecondPart rule)
  byMinute : Spelled "BYMINUTE" toTimeOfDay rule.byMinute (byMinutePart rule)
  byHour : Spelled "BYHOUR" toTimeOfDay rule.byHour (byHourPart rule)
  byDay : Spelled "BYDAY" toNday (rule.byDay.map (List.map readDay)) (byDayPart rule)
  byMonthDay : Spelled "BYMONTHDAY" toMonthDay rule.byMonthDay (byMonthDayPart rule)
  byYearDay : Spelled "BYYEARDAY" toMonthDay rule.byYearDay (byYearDayPart rule)
  byWeekNo : Spelled "BYWEEKNO" toMonthDay rule.byWeekNo (byWeekNoPart rule)
  byMonth : Spelled "BYMONTH" id rule.byMonth (byMonthPart rule)
  bySetPosition : Spelled "BYSETPOS" toMonthDay rule.bySetPosition
    (bySetPositionPart rule !(namedByParts rule).isEmpty)

theorem spelled_ordinals (small : largest ≤ 366) {values : Option (List Int)}
    {part : List Int → Option String} (gated : ∀ values, (part values).isSome = true →
      part values = tokensPart name (ordinalToken largest) values)
    (stated : statedIs values (values.bind part) = true) :
    Spelled name toMonthDay values (values.bind part) := by
  have spelled := spelled_bind id gated
    (fun _ _ _ _ _ written => ordinalToken_read small written) stated
  rwa [map_id_fun, Option.map_id, id] at spelled

variable {rule : RecurrenceRule}

theorem partsSpelled_of_maps (maps : mapsRecurrenceRule rule = true)
    (fits : RuleFits rule) : PartsSpelled rule := by
  simp only [mapsRecurrenceRule, Bool.and_eq_true] at maps
  rcases maps with ⟨⟨⟨⟨⟨⟨⟨⟨⟨⟨-, byDay⟩, byMonthDay⟩, byYearDay⟩, byWeekNo⟩, byMonth⟩, bySecond⟩,
    byMinute⟩, byHour⟩, bySetPosition⟩, -⟩
  -- a part that is written is not held back by the frequency
  have unlessClosed : ∀ {closed : Bool} {part : Option String},
      (if closed then none else part).isSome = true → (if closed then none else part) = part := by
    intro closed part written
    cases closed with
    | true => cases written
    | false => rfl
  have ifOpened : ∀ {opened : Bool} {part : Option String},
      (if opened then part else none).isSome = true → (if opened then part else none) = part := by
    intro opened part written
    cases opened with
    | true => rfl
    | false => cases written
  constructor
  · exact spelled_timeOfDay (by decide) bySecond
  · exact spelled_timeOfDay (by decide) byMinute
  · exact spelled_timeOfDay (by decide) byHour
  · exact spelled_bind readDay (fun _ _ => rfl)
      (fun days isDays day mem text written =>
        byDayToken_read (fits.byDay days isDays day mem) written) byDay
  · exact spelled_ordinals (by decide) (fun _ written => unlessClosed written) byMonthDay
  · exact spelled_ordinals (by decide) (fun _ written => ifOpened written) byYearDay
  · exact spelled_ordinals (by decide) (fun _ written => ifOpened written) byWeekNo
  · have spelled := spelled_bind id (fun _ _ => rfl)
      (fun _ _ _ _ _ written => monthToken_read written) byMonth
    rwa [map_id_fun, Option.map_id, id] at spelled
  · exact spelled_ordinals (by decide) (fun _ written => ifOpened written) bySetPosition

/-! ## The first day of the week -/

theorem toAsciiLowercase_of_isLower (isLower : text.toList.all Char.isLower = true) :
    toAsciiLowercase text = text := by
  have same : text.toList.map Char.toLower = text.toList.map id :=
    map_congr_left fun char mem => Char.toLower_eq_of_not_isUpper
      (Char.not_isUpper_of_isLower (all_eq_true.mp isLower char mem))
  rw [toAsciiLowercase, same, map_id, String.ofList_toList]

variable {day : String}

theorem weekdayToken_read {token : String} (written : weekdayToken day = some token) :
    toAsciiLowercase token = day ∧ token ∈ weekdays := by
  rw [weekdayToken] at written
  split at written
  · next isLower =>
    have same := find?_some written
    rw [eqIgnoreAsciiCase, beq_iff_eq, toAsciiLowercase_of_isLower isLower] at same
    exact ⟨same, mem_of_find?_eq_some written⟩
  · cases written

/-- Monday is the default and is not written. -/
theorem firstDayOfWeekPart_eq
    (valid : rule.firstDayOfWeek.all (fun day => (weekdayToken day).isSome) = true) :
    firstDayOfWeekPart rule =
      (rule.firstDayOfWeek.filter (· ≠ "mo")).map fun day => "WKST=" ++ toAsciiUppercase day := by
  rw [firstDayOfWeekPart]
  cases stated : rule.firstDayOfWeek with
  | none => rfl
  | some day =>
    rw [stated] at valid
    obtain ⟨token, isToken⟩ := Option.isSome_iff_exists.mp valid
    have sameToken := weekdayToken_read isToken
    have upper : ∀ weekday ∈ weekdays,
        toAsciiUppercase (toAsciiLowercase weekday) = weekday ∧
          (weekday = "MO" ↔ toAsciiLowercase weekday = "mo") := by decide
    have isUpper := upper token sameToken.2
    rw [sameToken.1] at isUpper
    rw [Option.bind_some, isToken, Option.bind_some, Option.filter_some]
    by_cases monday : token = "MO"
    · rw [if_pos monday, if_neg (by simp [isUpper.2.mp monday])]
      rfl
    · rw [if_neg monday, if_pos (by simpa using fun isMonday => monday (isUpper.2.mpr isMonday)),
        Option.map_some, isUpper.1]

theorem noSemicolon_weekday (written : (weekdayToken day).isSome = true) :
    ';' ∉ (toAsciiUppercase day).toList := by
  obtain ⟨token, isToken⟩ := Option.isSome_iff_exists.mp written
  have sameToken := weekdayToken_read isToken
  have safe : ∀ weekday ∈ weekdays, ';' ∉ (toAsciiUppercase (toAsciiLowercase weekday)).toList := by
    decide
  rw [← sameToken.1]
  exact safe token sameToken.2

/-! ## The whole rule -/

/-- The end that is read is the one that was written. -/
def UntilReads (writes : Ends) (asADate : Bool) (reads : Ends)
    (stated read : Option String) : Prop :=
  (stated = none ∧ read = none) ∨
    ∃ «until» value, stated = some «until» ∧
      untilPart writes asADate «until» = some ("UNTIL=" ++ value) ∧ ';' ∉ value.toList ∧
      (dateTimeDigits value.toList).isSome = true ∧ read = some (readUntil value reads)

def readBack (rule : RecurrenceRule) («until» : Option String) : RecurrenceRule where
  ruleType := some "RecurrenceRule"
  frequency := toAsciiLowercase rule.frequency
  interval := rule.interval.filter (· ≠ 1)
  count := rule.count
  «until» := «until»
  bySecond := rule.bySecond
  byMinute := rule.byMinute
  byHour := rule.byHour
  byDay := rule.byDay.map (List.map readDay)
  byMonthDay := rule.byMonthDay
  byYearDay := rule.byYearDay
  byWeekNo := rule.byWeekNo
  byMonth := rule.byMonth
  bySetPosition := rule.bySetPosition
  firstDayOfWeek := rule.firstDayOfWeek.filter (· ≠ "mo")

def partsOf (rule : RecurrenceRule) («until» : Option String) : List String :=
  ["FREQ=" ++ toAsciiUppercase rule.frequency] ++
    (rule.count.map fun count => "COUNT=" ++ toString count).toList ++
    («until».map fun value => "UNTIL=" ++ value).toList ++
    ((rule.interval.filter (· ≠ 1)).map fun interval => "INTERVAL=" ++ toString interval).toList ++
    namedByParts rule ++ (bySetPositionPart rule !(namedByParts rule).isEmpty).toList ++
    ((rule.firstDayOfWeek.filter (· ≠ "mo")).map fun day =>
      "WKST=" ++ toAsciiUppercase day).toList

theorem filterMap_id_cons {α : Type} (first : Option α) (rest : List (Option α)) :
    (first :: rest).filterMap id = first.toList ++ rest.filterMap id := by
  cases first <;> rfl

theorem namedByParts_eq (rule : RecurrenceRule) : namedByParts rule =
    (bySecondPart rule).toList ++ ((byMinutePart rule).toList ++ ((byHourPart rule).toList ++
      ((byDayPart rule).toList ++ ((byMonthDayPart rule).toList ++
        ((byYearDayPart rule).toList ++ ((byWeekNoPart rule).toList ++
          ((byMonthPart rule).toList ++ []))))))) := by
  rw [namedByParts]
  simp only [filterMap_id_cons]
  rfl

theorem readRuleParts_named {rule before : RecurrenceRule} {ends : Ends}
    (spelled : PartsSpelled rule) (rest : List String)
    (isBefore : before =
      { frequency := before.frequency, interval := before.interval
        count := before.count, «until» := before.«until» }) :
    readRuleParts ends (namedByParts rule ++
        ((bySetPositionPart rule (!(namedByParts rule).isEmpty)).toList ++ rest)) before =
      readRuleParts ends rest
        { before with
          bySecond := rule.bySecond, byMinute := rule.byMinute, byHour := rule.byHour
          byDay := rule.byDay.map (List.map readDay), byMonthDay := rule.byMonthDay
          byYearDay := rule.byYearDay, byWeekNo := rule.byWeekNo, byMonth := rule.byMonth
          bySetPosition := rule.bySetPosition } := by
  generalize isPositions : bySetPositionPart rule (!(namedByParts rule).isEmpty) = positions
  have positionsSpelled := spelled.bySetPosition
  rw [isPositions] at positionsSpelled
  rw [namedByParts_eq]
  simp only [append_assoc, nil_append]
  rw [isBefore,
    readRuleParts_spelled (fun rule values => { rule with bySecond := values })
      spelled.bySecond (by decide) (by decide) fun _ _ => rfl,
    readRuleParts_spelled (fun rule values => { rule with byMinute := values })
      spelled.byMinute (by decide) (by decide) fun _ _ => rfl,
    readRuleParts_spelled (fun rule values => { rule with byHour := values })
      spelled.byHour (by decide) (by decide) fun _ _ => rfl,
    readRuleParts_spelled (fun rule values => { rule with byDay := values })
      spelled.byDay (by decide) (by decide) fun _ _ => rfl,
    readRuleParts_spelled (fun rule values => { rule with byMonthDay := values })
      spelled.byMonthDay (by decide) (by decide) fun _ _ => rfl,
    readRuleParts_spelled (fun rule values => { rule with byYearDay := values })
      spelled.byYearDay (by decide) (by decide) fun _ _ => rfl,
    readRuleParts_spelled (fun rule values => { rule with byWeekNo := values })
      spelled.byWeekNo (by decide) (by decide) fun _ _ => rfl,
    readRuleParts_spelled (fun rule values => { rule with byMonth := values })
      spelled.byMonth (by decide) (by decide) (fun _ _ => by rw [map_id]; rfl),
    readRuleParts_spelled (fun rule values => { rule with bySetPosition := values })
      positionsSpelled (by decide) (by decide) fun _ _ => rfl]
  all_goals rfl

section

variable {ends : Ends} {rule before : RecurrenceRule} {rest : List String}

theorem readRuleParts_frequency : readRuleParts ends
    (("FREQ=" ++ toAsciiUppercase rule.frequency) :: rest) {} =
      readRuleParts ends rest { frequency := toAsciiLowercase rule.frequency } := by
  rw [readRuleParts_cons "FREQ" (show "FREQ=" = "FREQ" ++ "=" from rfl) (by decide)
    fun isUntil => absurd isUntil (by decide)]
  change readRuleParts ends rest
    { frequency := toAsciiLowercase (toAsciiUppercase rule.frequency) } = _
  rw [toAsciiLowercase_uppercase]

theorem readRuleParts_count (fits : RuleFits rule) (unset : before.count = none) :
    readRuleParts ends
        ((rule.count.map fun count => "COUNT=" ++ toString count).toList ++ rest) before =
      readRuleParts ends rest { before with count := rule.count } := by
  apply readRuleParts_option "COUNT" (fun before count => { before with count := count }) rfl
    (by decide) (fun isUntil => absurd isUntil (by decide))
  · intro before count stated
    rw [← @parseUnsigned_toString 32 count (fits.count count stated)]
    rfl
  · rw [← unset]

theorem readRuleParts_interval (fits : RuleFits rule) (unset : before.interval = none) :
    readRuleParts ends (((rule.interval.filter (· ≠ 1)).map fun interval =>
        "INTERVAL=" ++ toString interval).toList ++ rest) before =
      readRuleParts ends rest { before with interval := rule.interval.filter (· ≠ 1) } := by
  apply readRuleParts_option "INTERVAL"
    (fun before interval => { before with interval := interval }) rfl (by decide)
    (fun isUntil => absurd isUntil (by decide))
  · intro before interval stated
    have fitting := fits.interval interval (Option.filter_eq_some_iff.mp stated).1
    rw [← @parseUnsigned_toString 32 interval fitting]
    rfl
  · rw [← unset]

theorem readRuleParts_until {«until» : Option String} (unset : before.«until» = none)
    (digits : ∀ value, «until» = some value → (dateTimeDigits value.toList).isSome = true) :
    readRuleParts ends ((«until».map fun value => "UNTIL=" ++ value).toList ++ rest) before =
      readRuleParts ends rest { before with «until» := «until».map (readUntil · ends) } := by
  apply readRuleParts_option "UNTIL"
    (fun before stated => { before with «until» := stated.map (readUntil · ends) }) rfl
    (by decide) (fun _ => digits) (fun _ _ _ => rfl)
  rw [Option.map_none, ← unset]

theorem readRuleParts_firstDayOfWeek
    (valid : rule.firstDayOfWeek.all (fun day => (weekdayToken day).isSome) = true)
    (unset : before.firstDayOfWeek = none) :
    readRuleParts ends (((rule.firstDayOfWeek.filter (· ≠ "mo")).map fun day =>
        "WKST=" ++ toAsciiUppercase day).toList ++ rest) before =
      readRuleParts ends rest
        { before with firstDayOfWeek := rule.firstDayOfWeek.filter (· ≠ "mo") } := by
  apply readRuleParts_option "WKST" (fun before day => { before with firstDayOfWeek := day }) rfl
    (by decide) (fun isUntil => absurd isUntil (by decide))
  · intro before day stated
    rw [(Option.filter_eq_some_iff.mp stated).1] at valid
    obtain ⟨token, isToken⟩ := Option.isSome_iff_exists.mp valid
    have same : toAsciiLowercase (toAsciiUppercase day) = day := by
      rw [toAsciiLowercase_uppercase, ← (weekdayToken_read isToken).1, toAsciiLowercase_lowercase]
    change { before with firstDayOfWeek := some (toAsciiLowercase (toAsciiUppercase day)) } = _
    rw [same]
  · rw [← unset]

end

theorem readRuleParts_partsOf {ends : Ends} {«until» : Option String}
    (spelled : PartsSpelled rule) (fits : RuleFits rule)
    (valid : rule.firstDayOfWeek.all (fun day => (weekdayToken day).isSome) = true)
    (digits : ∀ value, «until» = some value → (dateTimeDigits value.toList).isSome = true) :
    readRuleParts ends (partsOf rule «until») {} =
      { readBack rule («until».map (readUntil · ends)) with ruleType := none } := by
  rw [partsOf, ← append_nil (Option.map _ (rule.firstDayOfWeek.filter _)).toList]
  simp only [append_assoc, cons_append, nil_append]
  rw [readRuleParts_frequency, readRuleParts_count fits rfl, readRuleParts_until rfl digits,
    readRuleParts_interval fits rfl, readRuleParts_named spelled _ rfl,
    readRuleParts_firstDayOfWeek valid rfl]
  rfl

theorem noSemicolon_append (safeHead : ';' ∉ head.toList) (safeText : ';' ∉ text.toList) :
    ';' ∉ (head ++ text).toList := by
  rw [String.toList_append, mem_append, not_or]
  exact ⟨safeHead, safeText⟩

theorem noSemicolon_frequency (known : toAsciiLowercase frequency ∈ frequencies) :
    ';' ∉ (toAsciiUppercase frequency).toList := by
  have safe : ∀ name ∈ frequencies, ';' ∉ (toAsciiUppercase name).toList := by decide
  rw [← toAsciiUppercase_lowercase]
  exact safe _ known

theorem noSemicolon_partsOf {«until» : Option String}
    (spelled : PartsSpelled rule) (known : toAsciiLowercase rule.frequency ∈ frequencies)
    (valid : rule.firstDayOfWeek.all (fun day => (weekdayToken day).isSome) = true)
    (safeUntil : ∀ value, «until» = some value → ';' ∉ value.toList) :
    ∀ part ∈ partsOf rule «until», ';' ∉ part.toList := by
  have option : ∀ {α : Type} {stated : Option α} {head : String} {token : α → String},
      ';' ∉ head.toList → (∀ value, stated = some value → ';' ∉ (token value).toList) →
      ∀ part ∈ (stated.map fun value => head ++ token value).toList, ';' ∉ part.toList := by
    intro α stated head token safeHead safeToken part mem
    obtain ⟨value, isStated, rfl⟩ := Option.map_eq_some_iff.mp (Option.mem_toList.mp mem)
    exact noSemicolon_append safeHead (safeToken value isStated)
  rw [partsOf, namedByParts_eq]
  simp only [forall_mem_append, forall_mem_singleton]
  refine ⟨⟨⟨⟨⟨⟨?_, ?_⟩, ?_⟩, ?_⟩, ?_⟩, ?_⟩, ?_⟩
  · exact noSemicolon_append (by decide) (noSemicolon_frequency known)
  · exact option (by decide) fun count _ => (safe_natToString count).2
  · exact option (by decide) safeUntil
  · exact option (by decide) fun interval _ => (safe_natToString interval).2
  · exact ⟨spelled.bySecond.noSemicolon (by decide), spelled.byMinute.noSemicolon (by decide),
      spelled.byHour.noSemicolon (by decide), spelled.byDay.noSemicolon (by decide),
      spelled.byMonthDay.noSemicolon (by decide), spelled.byYearDay.noSemicolon (by decide),
      spelled.byWeekNo.noSemicolon (by decide), spelled.byMonth.noSemicolon (by decide), nofun⟩
  · rw [← namedByParts_eq]
    exact spelled.bySetPosition.noSemicolon (by decide)
  · refine option (by decide) fun day stated => noSemicolon_weekday ?_
    rw [(Option.filter_eq_some_iff.mp stated).1] at valid
    exact valid

section

variable {rule : RecurrenceRule} (maps : mapsRecurrenceRule rule = true) (fits : RuleFits rule)

include maps

theorem writable_of_maps : writable rule = true := by
  simp only [mapsRecurrenceRule, Bool.and_eq_true] at maps
  exact maps.1.1.1.1.1.1.1.1.1.1.2

theorem weekday_of_maps :
    rule.firstDayOfWeek.all (fun day => (weekdayToken day).isSome) = true := by
  simp only [mapsRecurrenceRule, Bool.and_eq_true] at maps
  exact maps.2

theorem ruleToRrule_none (endless : rule.«until» = none) :
    ruleToRrule rule writes asADate = some (joined ';' (partsOf rule none)) := by
  rw [ruleToRrule, writable_of_maps maps, endless, firstDayOfWeekPart_eq (weekday_of_maps maps)]
  rfl

theorem ruleToRrule_some {«until» : String} (ends : rule.«until» = some «until»)
    (written : untilPart writes asADate «until» = some ("UNTIL=" ++ value)) :
    ruleToRrule rule writes asADate = some (joined ';' (partsOf rule (some value))) := by
  rw [ruleToRrule, writable_of_maps maps, ends, firstDayOfWeekPart_eq (weekday_of_maps maps)]
  simp only [written]
  rfl

include fits

section

variable {«until» : Option String} (known : toAsciiLowercase rule.frequency ∈ frequencies)

include known

theorem rruleToRule_partsOf {ends : Ends}
    (safe : ∀ value, «until» = some value → ';' ∉ value.toList)
    (digits : ∀ value, «until» = some value → (dateTimeDigits value.toList).isSome = true) :
    rruleToRule (joined ';' (partsOf rule «until»)) ends =
      some (readBack rule («until».map (readUntil · ends))) := by
  have spelled := partsSpelled_of_maps maps fits
  have valid := weekday_of_maps maps
  have nonempty : partsOf rule «until» ≠ [] := by
    rw [partsOf]
    simp
  rw [rruleToRule, splitText_joined nonempty (noSemicolon_partsOf spelled known valid safe),
    readRuleParts_partsOf spelled fits valid digits]
  exact if_pos known

theorem rruleToRule_ruleToRrule {reads : Ends}
    (ends : UntilReads writes asADate reads rule.«until» «until») :
    ∃ text, ruleToRrule rule writes asADate = some text ∧
      rruleToRule text reads = some (readBack rule «until») := by
  rcases ends with ⟨endless, rfl⟩ | ⟨stated, value, isEnd, written, safe, digits, rfl⟩
  · exact ⟨_, ruleToRrule_none maps endless, rruleToRule_partsOf maps fits known nofun nofun⟩
  · refine ⟨_, ruleToRrule_some maps isEnd written, rruleToRule_partsOf maps fits known ?_ ?_⟩
    · rintro _ ⟨⟩
      exact safe
    · rintro _ ⟨⟩
      exact digits

end

end

end EvolutionJmap.Ical
