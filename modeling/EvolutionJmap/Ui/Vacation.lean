import EvolutionJmap.Digits
import EvolutionJmap.Json

/-!
# The vacation page (`jmap-ui/src/vacation/form.rs`)

The form has a first and a last day, both included.  The server answers from the instant
`fromDate` up to but not including `toDate` (RFC 8621 §8).  An instant is a day of the
calendar and a time on that day, in UTC.
-/

namespace EvolutionJmap.Ui

open List

/-! ## The form -/

/-- The widget values. A date is `YYYY-MM-DD`, or empty. -/
structure VacationForm where
  enabled : Bool := false
  (fromDate toDate subject body : String := "")
  deriving DecidableEq, Repr

/-- Why a form is refused. -/
inductive VacationError where
  | badDate
  | backwards
  deriving DecidableEq, Repr

def VacationError.message : VacationError → String
  | .badDate => "Dates take the form YYYY-MM-DD; leave one empty for no limit."
  | .backwards =>
    "The last day is before the first day — swap them, or clear one to leave it open."

/-- Whether a `YYYY-MM-DD` text names a day that the Gregorian calendar has. -/
def isCalendarDate (entry : List Char) : Bool :=
  match Text.parseUnsigned 32 (entry.take 4), Text.parseUnsigned 32 ((entry.drop 5).take 2),
    Text.parseUnsigned 32 ((entry.drop 8).take 2) with
  | some year, some month, some day =>
    let leap := year % 4 = 0 && (year % 100 ≠ 0 || year % 400 = 0)
    let last :=
      if month ∈ [1, 3, 5, 7, 8, 10, 12] then 31
      else if month ∈ [4, 6, 9, 11] then 30
      else if month = 2 then if leap then 29 else 28
      else 0
    1 ≤ day && day ≤ last
  | _, _, _ => false

/-- Digits with a dash at 4 and 7. -/
def hasDateShape (entry : List Char) : Bool :=
  Text.byteLength entry = 10 && entry.zipIdx.all fun (char, index) =>
    if index = 4 || index = 7 then char = '-' else char.isDigit

/-- A date of the form as the value of the patch: midnight in UTC, or `null`. -/
def dateValue (entry : String) : Except VacationError Value :=
  let entry := Text.trim entry.toList
  if entry = [] then .ok .null
  else if !hasDateShape entry || !isCalendarDate entry then .error .badDate
  else .ok (.string (String.ofList (entry ++ "T00:00:00Z".toList)))

def nullable (text : String) : Value :=
  if trimText text = "" then .null else .string (trimText text)

/-- Whether a range ends before it starts. Both bounds have the same form, so the
texts are compared. -/
def isBackwards : Value → Value → Bool
  | .string first, .string last => last < first
  | _, _ => false

namespace VacationForm

def patch (form : VacationForm) : Except VacationError Value := do
  let first ← dateValue form.fromDate
  let last ← dateValue form.toDate
  if isBackwards first last then .error .backwards
  else .ok (.ofMembers [("isEnabled", .bool form.enabled), ("fromDate", first), ("toDate", last),
    ("subject", nullable form.subject), ("textBody", nullable form.body)])

end VacationForm

/-! ## Days and instants -/

structure CalendarDay where
  (year month day : Nat)
  deriving DecidableEq, Repr

namespace CalendarDay

/-- The order of days. -/
def Before (one other : CalendarDay) : Prop :=
  one.year < other.year ∨ one.year = other.year ∧
    (one.month < other.month ∨ one.month = other.month ∧ one.day < other.day)

instance (one other : CalendarDay) : Decidable (one.Before other) :=
  inferInstanceAs (Decidable (_ ∨ _))

theorem not_before_self (day : CalendarDay) : ¬ day.Before day := by
  simp [Before]

end CalendarDay

/-- An instant in UTC: a day and the seconds since its midnight. -/
structure Instant where
  day : CalendarDay
  time : ℚ
  nonneg : 0 ≤ time

/-- The order of instants. -/
def Instant.Before (one other : Instant) : Prop :=
  one.day.Before other.day ∨ one.day = other.day ∧ one.time < other.time

/-- The day of a text `YYYY-MM-DD`. -/
def readCalendarDay : List Char → Option CalendarDay
  | [y1, y2, y3, y4, '-', m1, m2, '-', d1, d2] => do
      let year ← Text.parseDigits [y1, y2, y3, y4]
      let month ← Text.parseDigits [m1, m2]
      let day ← Text.parseDigits [d1, d2]
      some ⟨year, month, day⟩
  | _ => none

/-- The instant of a `UTCDate` (RFC 8620 §1.4) without a fraction of a second. -/
def readInstant (text : String) : Option Instant :=
  match Text.splitOnce 'T' text.toList with
  | some (date, [h1, h2, ':', m1, m2, ':', s1, s2, 'Z']) => do
      let day ← readCalendarDay date
      let hour ← Text.parseDigits [h1, h2]
      let minute ← Text.parseDigits [m1, m2]
      let second ← Text.parseDigits [s1, s2]
      some ⟨day, ((3600 * hour + 60 * minute + second : Nat) : ℚ), Nat.cast_nonneg _⟩
  | _ => none

/-- A bound of the server, which `null` leaves open. -/
def Bound (response : Value) (name : String) (within : Instant → Prop) : Prop :=
  ∀ text, response.get? name = some (.string text) →
    ∃ instant, readInstant text = some instant ∧ within instant

/-- The server sends the answer at this instant. -/
def Answers (response : Value) (now : Instant) : Prop :=
  Bound response "fromDate" (fun first => ¬ now.Before first) ∧
    Bound response "toDate" fun last => now.Before last

def shownDay (entry : String) : Option CalendarDay := readCalendarDay (Text.trim entry.toList)

/-- The dates of the form include the instant. -/
def VacationForm.Covers (form : VacationForm) (now : Instant) : Prop :=
  (∀ first, shownDay form.fromDate = some first → ¬ now.day.Before first) ∧
    ∀ last, shownDay form.toDate = some last → ¬ last.Before now.day

/-! ## The texts of accepted dates -/

open Text (numberOf parseDigits_eq splitOnce_append toNat_of_isDigit utf8Size_of_isDigit
  byteLength_of_ascii)

structure DateText where
  (y1 y2 y3 y4 m1 m2 d1 d2 : Char)
  digits : ∀ char ∈ [y1, y2, y3, y4, m1, m2, d1, d2], char.isDigit = true

def DateText.chars (date : DateText) : List Char :=
  [date.y1, date.y2, date.y3, date.y4, '-', date.m1, date.m2, '-', date.d1, date.d2]

theorem hasDateShape_eq {entry : List Char} (shape : hasDateShape entry = true) :
    ∃ date : DateText, entry = date.chars := by
  rw [hasDateShape, Bool.and_eq_true, decide_eq_true_eq] at shape
  have ascii : ∀ char ∈ entry, char.utf8Size = 1 := by
    intro char mem
    obtain ⟨index, inside, rfl⟩ := getElem_of_mem mem
    have each := all_eq_true.mp shape.2 (entry[index], index)
      (mem_zipIdx_iff_getElem?.mpr (by simp [inside]))
    dsimp only at each
    split at each
    · rw [of_decide_eq_true each]
      rfl
    · exact utf8Size_of_isDigit each
  have length : entry.length = 10 := (byteLength_of_ascii ascii).symm.trans shape.1
  match entry, length with
  | [y1, y2, y3, y4, s1, m1, m2, s2, d1, d2], _ =>
    have each := shape.2
    simp only [zipIdx_cons, zipIdx_nil, all_cons, all_nil, Bool.and_true,
      Bool.and_eq_true, Nat.reduceAdd, Nat.reduceEqDiff, decide_false, decide_true,
      Bool.or_self, Bool.false_or, Bool.or_false, Bool.false_eq_true, if_true, if_false,
      decide_eq_true_eq] at each
    obtain ⟨hy1, hy2, hy3, hy4, rfl, hm1, hm2, rfl, hd1, hd2⟩ := each
    exact ⟨⟨y1, y2, y3, y4, m1, m2, d1, d2,
      by simp [hy1, hy2, hy3, hy4, hm1, hm2, hd1, hd2]⟩, rfl⟩

namespace DateText

variable (date other : DateText)

def day : CalendarDay :=
  ⟨numberOf [date.y1, date.y2, date.y3, date.y4], numberOf [date.m1, date.m2],
    numberOf [date.d1, date.d2]⟩

theorem each : date.y1.isDigit = true ∧ date.y2.isDigit = true ∧ date.y3.isDigit = true ∧
    date.y4.isDigit = true ∧ date.m1.isDigit = true ∧ date.m2.isDigit = true ∧
    date.d1.isDigit = true ∧ date.d2.isDigit = true := by
  simpa using date.digits

theorem readCalendarDay_chars : readCalendarDay date.chars = some date.day := by
  simp [chars, readCalendarDay, parseDigits_eq, day, date.each]

/-- The time of midnight on the wire. -/
def midnight : List Char := "T00:00:00Z".toList

theorem noT : ∀ char ∈ date.chars, char ≠ 'T' := by
  have other : ∀ {char : Char}, char.isDigit = true → char ≠ 'T' :=
    fun isDigit => Text.ne_of_isDigit 'T' isDigit rfl
  simp only [chars, forall_mem_cons, not_mem_nil, false_implies, implies_true, and_true]
  have each := date.each
  exact ⟨other each.1, other each.2.1, other each.2.2.1, other each.2.2.2.1, by decide,
    other each.2.2.2.2.1, other each.2.2.2.2.2.1, by decide, other each.2.2.2.2.2.2.1,
    other each.2.2.2.2.2.2.2⟩

theorem readInstant_midnight :
    readInstant (String.ofList (date.chars ++ midnight)) = some ⟨date.day, 0, le_refl 0⟩ := by
  have parts : Text.splitOnce 'T' (date.chars ++ midnight) =
      some (date.chars, ['0', '0', ':', '0', '0', ':', '0', '0', 'Z']) :=
    splitOnce_append date.noT
  have zero : Text.parseDigits ['0', '0'] = some 0 := by decide
  simp [readInstant, parts, readCalendarDay_chars, zero]

theorem bounds : (48 ≤ date.y1.toNat ∧ date.y1.toNat ≤ 57) ∧
    (48 ≤ date.y2.toNat ∧ date.y2.toNat ≤ 57) ∧ (48 ≤ date.y3.toNat ∧ date.y3.toNat ≤ 57) ∧
    (48 ≤ date.y4.toNat ∧ date.y4.toNat ≤ 57) ∧ (48 ≤ date.m1.toNat ∧ date.m1.toNat ≤ 57) ∧
    (48 ≤ date.m2.toNat ∧ date.m2.toNat ≤ 57) ∧ (48 ≤ date.d1.toNat ∧ date.d1.toNat ≤ 57) ∧
    (48 ≤ date.d2.toNat ∧ date.d2.toNat ≤ 57) := by
  simp [toNat_of_isDigit, date.each]

theorem lt_of_before (before : date.day.Before other.day) :
    String.ofList (date.chars ++ midnight) < String.ofList (other.chars ++ midnight) := by
  have lt_iff : ∀ {left right : Char}, left < right ↔ left.toNat < right.toNat := by
    intro left right
    exact UInt32.lt_iff_toNat_lt
  rw [String.lt_iff_toList_lt, String.toList_ofList, String.toList_ofList]
  simp only [chars, cons_append, cons_lt_cons_iff, lt_iff, ← Char.toNat_inj,
    lt_self_iff_false, true_and, false_or]
  simp only [CalendarDay.Before, day, numberOf, foldl_cons, foldl_nil] at before
  have one := date.bounds
  have two := other.bounds
  omega

end DateText

/-! ## What the patch says -/

theorem dateValue_ok {entry : String} {value : Value} (accepted : dateValue entry = .ok value) :
    (Text.trim entry.toList = [] ∧ value = .null) ∨
      ∃ date : DateText, Text.trim entry.toList = date.chars ∧
        value = .string (String.ofList (date.chars ++ DateText.midnight)) := by
  rw [dateValue] at accepted
  split at accepted
  · next blank =>
    cases accepted
    exact .inl ⟨blank, rfl⟩
  · split at accepted
    · cases accepted
    · next valid =>
      cases accepted
      rw [Bool.or_eq_true, not_or, Bool.not_eq_true', Bool.not_eq_false] at valid
      obtain ⟨date, isDate⟩ := hasDateShape_eq valid.1
      rw [isDate]
      exact .inr ⟨date, rfl, rfl⟩

theorem patch_ok {form : VacationForm} {response : Value} (accepted : form.patch = .ok response) :
    ∃ first last, dateValue form.fromDate = .ok first ∧ dateValue form.toDate = .ok last ∧
      response.get? "fromDate" = some first ∧ response.get? "toDate" = some last ∧
      ∀ firstText lastText, first = .string firstText → last = .string lastText →
        ¬ lastText < firstText := by
  cases firstEq : dateValue form.fromDate with
  | error error =>
    rw [VacationForm.patch, firstEq] at accepted
    cases accepted
  | ok first =>
    cases lastEq : dateValue form.toDate with
    | error error =>
      rw [VacationForm.patch, firstEq, lastEq] at accepted
      cases accepted
    | ok last =>
      rw [VacationForm.patch, firstEq, lastEq] at accepted
      simp only [bind, Except.bind] at accepted
      refine ⟨first, last, rfl, rfl, ?_⟩
      split at accepted
      · cases accepted
      · next ordered =>
        cases accepted
        simp only [Value.get?_ofMembers, reverse_cons, reverse_nil,
          nil_append, cons_append, Entries.get?_cons]
        refine ⟨rfl, rfl, ?_⟩
        rintro firstText lastText rfl rfl
        simpa [isBackwards] using ordered

theorem bound_first {entry : String} {value response : Value} (now : Instant)
    (accepted : dateValue entry = .ok value) (sent : response.get? "fromDate" = some value) :
    Bound response "fromDate" (fun first => ¬ now.Before first) ↔
      ∀ first, shownDay entry = some first → ¬ now.day.Before first := by
  rcases dateValue_ok accepted with ⟨blank, rfl⟩ | ⟨date, isDate, rfl⟩
  · constructor
    · intro _ first shown
      rw [shownDay, blank] at shown
      cases shown
    · intro _ text isText
      rw [sent] at isText
      cases isText
  · have midnight : now.Before ⟨date.day, 0, le_refl 0⟩ ↔ now.day.Before date.day := by
      constructor
      · rintro (earlier | ⟨-, negative⟩)
        · exact earlier
        · exact absurd now.nonneg (not_le.mpr negative)
      · exact .inl
    rw [shownDay, isDate, date.readCalendarDay_chars]
    constructor
    · rintro bound first shown
      cases shown
      obtain ⟨instant, isInstant, after⟩ := bound _ sent
      rw [date.readInstant_midnight] at isInstant
      cases isInstant
      rwa [midnight] at after
    · intro notBefore text isText
      rw [sent] at isText
      cases isText
      exact ⟨_, date.readInstant_midnight, fun before => notBefore _ rfl (midnight.mp before)⟩

/-- The days that a server answers on are those of the form just when the form has
no last day. A last day ends the answers at its first instant. -/
theorem answers_covered_iff {form : VacationForm} {response : Value}
    (accepted : form.patch = .ok response) :
    (∀ now, Answers response now ↔ form.Covers now) ↔ Text.trim form.toDate.toList = [] := by
  obtain ⟨first, last, firstOk, lastOk, firstSent, lastSent, ordered⟩ := patch_ok accepted
  constructor
  · intro agrees
    rcases dateValue_ok lastOk with ⟨blank, -⟩ | ⟨date, isDate, rfl⟩
    · exact blank
    · -- midnight of the last day is on a day of the form, but not before the bound
      exfalso
      have shown : shownDay form.toDate = some date.day := by
        rw [shownDay, isDate, date.readCalendarDay_chars]
      have covered : form.Covers ⟨date.day, 0, le_refl 0⟩ := by
        constructor
        · intro firstDay isFirst
          rcases dateValue_ok firstOk with ⟨blank, -⟩ | ⟨firstDate, isFirstDate, rfl⟩
          · rw [shownDay, blank] at isFirst
            cases isFirst
          · rw [shownDay, isFirstDate, firstDate.readCalendarDay_chars] at isFirst
            cases isFirst
            exact fun before => ordered _ _ rfl rfl (date.lt_of_before firstDate before)
        · intro lastDay isLast
          rw [shown] at isLast
          cases isLast
          exact date.day.not_before_self
      obtain ⟨instant, isInstant, before⟩ := ((agrees _).mpr covered).2 _ lastSent
      rw [date.readInstant_midnight] at isInstant
      cases isInstant
      rcases before with earlier | ⟨-, negative⟩
      · exact date.day.not_before_self earlier
      · exact lt_irrefl 0 negative
  · intro blank now
    have isNull : last = .null := by
      rcases dateValue_ok lastOk with ⟨-, isNull⟩ | ⟨date, isDate, -⟩
      · exact isNull
      · rw [isDate] at blank
        cases blank
    have openEnd : Bound response "toDate" fun last => now.Before last := by
      intro text isText
      rw [lastSent, isNull] at isText
      cases isText
    have noLast : ∀ lastDay, shownDay form.toDate = some lastDay → ¬ lastDay.Before now.day := by
      intro lastDay shown
      rw [shownDay, blank] at shown
      cases shown
    exact and_congr (bound_first now firstOk firstSent) (iff_of_true openEnd noLast)

theorem answers_covered_openEnd :
    ∃ response, VacationForm.patch { enabled := true, fromDate := "2026-09-10" } = .ok response ∧
      ∀ now, Answers response now ↔
        VacationForm.Covers { enabled := true, fromDate := "2026-09-10" } now :=
  ⟨_, rfl, (answers_covered_iff rfl).mpr rfl⟩

/-- An accepted form of one day gets no answer at noon of that day. -/
theorem oneDay_unanswered :
    ∃ response, VacationForm.patch
        { enabled := true, fromDate := "2026-09-10", toDate := "2026-09-10" } = .ok response ∧
      VacationForm.Covers { enabled := true, fromDate := "2026-09-10", toDate := "2026-09-10" }
        ⟨⟨2026, 9, 10⟩, 43200, by decide⟩ ∧
      ¬ Answers response ⟨⟨2026, 9, 10⟩, 43200, by decide⟩ := by
  refine ⟨_, rfl, ⟨?_, ?_⟩, ?_⟩
  · intro first shown
    cases shown
    decide
  · intro last shown
    cases shown
    decide
  · intro answers
    obtain ⟨instant, isInstant, before⟩ := answers.2 "2026-09-10T00:00:00Z" (by decide)
    have isText : "2026-09-10T00:00:00Z" = String.ofList
        (DateText.chars ⟨'2', '0', '2', '6', '0', '9', '1', '0', all_eq_true.mp (by decide)⟩ ++
          DateText.midnight) := by
      decide
    rw [isText, DateText.readInstant_midnight] at isInstant
    cases isInstant
    rcases before with earlier | ⟨-, negative⟩
    · exact absurd earlier (by decide)
    · exact absurd negative (by decide)

end EvolutionJmap.Ui
