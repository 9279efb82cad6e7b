import EvolutionJmap.Digits
import EvolutionJmap.Ical.DateTime

/-!
# The texts of a date-time

Eight digits of a date and six digits of a time that name an instant have one spelling in
each format.  The two conversions are inverse on these spellings; the conversion to
iCalendar also accepts a date-time with other separators.
-/

namespace EvolutionJmap.Ical

open Text List

/-- The digits of a date and of a time that exist. -/
@[ext] structure Moment where
  date : List Char
  time : List Char
  dateDigits : ∀ char ∈ date, char.isDigit = true
  timeDigits : ∀ char ∈ time, char.isDigit = true
  dateLength : date.length = 8
  timeLength : time.length = 6
  isInstant : «exists» date time = true

namespace Moment

variable (moment : Moment)

def ical : String := String.ofList (moment.date ++ 'T' :: moment.time)

/-- The JSCalendar spelling. -/
def local_ : String := localText moment.date moment.time

/-- The iCalendar spelling of the date alone. -/
def day : String := String.ofList moment.date

theorem toList_ical : moment.ical.toList = moment.date ++ 'T' :: moment.time := by
  simp [ical]

theorem date_ascii : ∀ char ∈ moment.date, char.utf8Size = 1 :=
  fun char mem => utf8Size_of_isDigit (moment.dateDigits char mem)

theorem time_ascii : ∀ char ∈ moment.time, char.utf8Size = 1 :=
  fun char mem => utf8Size_of_isDigit (moment.timeDigits char mem)

theorem date_noT : ∀ char ∈ moment.date, char ≠ 'T' :=
  fun char mem => ne_of_isDigit 'T' (moment.dateDigits char mem) rfl

theorem all_isDigit : (moment.date ++ moment.time).all Char.isDigit = true := by
  rw [all_eq_true]
  intro char mem
  cases mem_append.mp mem with
  | inl inDate => exact moment.dateDigits char inDate
  | inr inTime => exact moment.timeDigits char inTime

/-! ## Reading iCalendar -/

theorem slice_time : slice 0 6 moment.time = some moment.time := by
  have front := slice_front moment.time_ascii []
  rwa [append_nil, moment.timeLength] at front

theorem dateTimeDigits_eq {value : List Char}
    (plain : (stripLast (fun char => char == 'Z' || char == 'z') value).getD value =
      moment.date ++ 'T' :: moment.time) :
    dateTimeDigits value = some (moment.date, moment.time) := by
  have length : byteLength moment.date = 8 := by
    rw [byteLength_of_ascii moment.date_ascii, moment.dateLength]
  simp only [dateTimeDigits, plain, splitOnce_append moment.date_noT, Option.getD_some,
    moment.slice_time, Option.bind_eq_bind, Option.bind_some]
  rw [if_pos ⟨length, moment.all_isDigit⟩]

theorem stripLast_of_isDigit {text : List Char} {last : Char} {kind : Char → Bool}
    (isLast : text.getLast? = some last) (other : kind last = false) :
    stripLast kind text = none := by
  rw [stripLast]
  rw [getLast?_eq_head?_reverse] at isLast
  cases reversed : text.reverse with
  | nil => rfl
  | cons first rest =>
    rw [reversed] at isLast
    cases isLast
    simp [stripFirst, other]

theorem noZulu {digits : List Char} (all : ∀ char ∈ digits, char.isDigit = true) (front : List Char)
    (nonempty : digits ≠ []) :
    stripLast (fun char => char == 'Z' || char == 'z') (front ++ digits) = none := by
  have last := getLast?_eq_some_getLast nonempty
  apply stripLast_of_isDigit
  · rw [getLast?_append, last]
    rfl
  · have isDigit := all _ (getLast_mem nonempty)
    have upper := ne_of_isDigit 'Z' isDigit rfl
    have lower := ne_of_isDigit 'z' isDigit rfl
    simp [upper, lower]

theorem time_ne_nil : moment.time ≠ [] := by
  intro empty
  have length := moment.timeLength
  rw [empty] at length
  cases length

theorem date_ne_nil : moment.date ≠ [] := by
  intro empty
  have length := moment.dateLength
  rw [empty] at length
  cases length

theorem ical_noZulu :
    stripLast (fun char => char == 'Z' || char == 'z') moment.ical.toList = none := by
  have split : moment.ical.toList = (moment.date ++ ['T']) ++ moment.time := by
    rw [toList_ical, append_assoc]
    rfl
  rw [split]
  exact noZulu moment.timeDigits _ moment.time_ne_nil

theorem dateTimeDigits_ical :
    dateTimeDigits moment.ical.toList = some (moment.date, moment.time) := by
  apply moment.dateTimeDigits_eq
  rw [ical_noZulu, Option.getD_none, toList_ical]

theorem toLocalDateTime_ical : toLocalDateTime moment.ical = some moment.local_ := by
  rw [toLocalDateTime, dateTimeDigits_ical, Option.bind_eq_bind, Option.bind_some]
  exact if_pos moment.isInstant

theorem dateTimeDigits_zulu :
    dateTimeDigits (moment.ical ++ "Z").toList = some (moment.date, moment.time) := by
  apply moment.dateTimeDigits_eq
  rw [String.toList_append, stripLast, show "Z".toList = ['Z'] from rfl, reverse_append]
  change ((some moment.ical.toList.reverse).map List.reverse).getD _ = _
  rw [Option.map_some, Option.getD_some, reverse_reverse, toList_ical]

theorem toLocalDateTime_zulu : toLocalDateTime (moment.ical ++ "Z") = some moment.local_ := by
  rw [toLocalDateTime, dateTimeDigits_zulu, Option.bind_eq_bind, Option.bind_some]
  exact if_pos moment.isInstant

/-! ## Reading JSCalendar -/

theorem of_strip {text digits : List Char} {separator : Char} {count : Nat}
    (stripped : strip text separator count = some digits) :
    text.filter (· ≠ separator) = digits ∧ (∀ char ∈ digits, char.isDigit = true) ∧
      digits.length = count := by
  rw [strip] at stripped
  split at stripped
  · next checked =>
    cases stripped
    have all := all_eq_true.mp checked.2
    refine ⟨rfl, all, ?_⟩
    rw [← checked.1, byteLength_of_ascii fun char mem => utf8Size_of_isDigit (all char mem)]
  · cases stripped

end Moment

theorem exists_moment_of_toIcalDateTime {text rendered : String}
    (written : toIcalDateTime text = some rendered) :
    ∃ moment : Moment, rendered = moment.ical ∧ ∃ date time,
      text.toList = date ++ 'T' :: time ∧ date.filter (· ≠ '-') = moment.date ∧
        time.filter (· ≠ ':') = moment.time := by
  rw [toIcalDateTime] at written
  obtain ⟨⟨date, time⟩, split, written⟩ := Option.bind_eq_some_iff.mp written
  obtain ⟨dateDigits, isDate, written⟩ := Option.bind_eq_some_iff.mp written
  obtain ⟨timeDigits, isTime, written⟩ := Option.bind_eq_some_iff.mp written
  split at written
  · next isInstant =>
    cases written
    obtain ⟨dateEq, dateAll, dateLength⟩ := Moment.of_strip isDate
    obtain ⟨timeEq, timeAll, timeLength⟩ := Moment.of_strip isTime
    exact ⟨⟨dateDigits, timeDigits, dateAll, timeAll, dateLength, timeLength, isInstant⟩, rfl,
      date, time, (of_splitOnce split).1, dateEq, timeEq⟩
  · cases written

/-! ## The JSCalendar spelling -/

/-- `YYYY-MM-DDThh:mm:ss`. -/
def IsLocalDateTime (text : String) : Prop :=
  ∃ year month day hour minute second : List Char,
    text.toList = year ++ '-' :: (month ++ '-' :: day) ++
      'T' :: (hour ++ ':' :: (minute ++ ':' :: second)) ∧
    [year, month, day, hour, minute, second].map length = [4, 2, 2, 2, 2, 2] ∧
    ∀ part ∈ [year, month, day, hour, minute, second], ∀ char ∈ part, char.isDigit = true

theorem Moment.isLocalDateTime (moment : Moment) : IsLocalDateTime moment.local_ := by
  refine ⟨moment.date.take 4, (moment.date.drop 4).take 2, moment.date.drop 6, moment.time.take 2,
    (moment.time.drop 2).take 2, moment.time.drop 4, ?_, ?_, ?_⟩
  · simp [local_, localText]
  · simp [moment.dateLength, moment.timeLength]
  · have dateDigits := moment.dateDigits
    have timeDigits := moment.timeDigits
    simp only [mem_cons, not_mem_nil, or_false, forall_eq_or_imp, forall_eq]
    refine ⟨?_, ?_, ?_, ?_, ?_, ?_⟩ <;> intro char mem
    · exact dateDigits char (mem_of_mem_take mem)
    · exact dateDigits char (mem_of_mem_drop (mem_of_mem_take mem))
    · exact dateDigits char (mem_of_mem_drop mem)
    · exact timeDigits char (mem_of_mem_take mem)
    · exact timeDigits char (mem_of_mem_drop (mem_of_mem_take mem))
    · exact timeDigits char (mem_of_mem_drop mem)

theorem isLocalDateTime_iff {text rendered : String}
    (written : toIcalDateTime text = some rendered) :
    (toIcalDateTime text).bind toLocalDateTime = some text ↔ IsLocalDateTime text := by
  obtain ⟨moment, rfl, date, time, isText, isDate, isTime⟩ :=
    exists_moment_of_toIcalDateTime written
  rw [written, Option.bind_some, moment.toLocalDateTime_ical, Option.some.injEq]
  constructor
  · rintro rfl
    exact moment.isLocalDateTime
  · rintro ⟨year, month, day, hour, minute, second, spelled, lengths, digits⟩
    have noT : ∀ part ∈ [year, month, day, hour, minute, second], 'T' ∉ part :=
      fun part isPart mem => ne_of_isDigit 'T' (digits part isPart _ mem) rfl rfl
    have kept (separator : Char) (other : separator.isDigit = false) :
        ∀ part ∈ [year, month, day, hour, minute, second],
          part.filter (fun char => !decide (char = separator)) = part := by
      intro part isPart
      rw [filter_eq_self]
      intro char mem
      simpa using ne_of_isDigit separator (digits part isPart char mem) other
    have dashes := kept '-' rfl
    have colons := kept ':' rfl
    simp only [mem_cons, not_mem_nil, or_false, forall_eq_or_imp, forall_eq] at noT dashes colons
    simp only [map_cons, map_nil, cons.injEq, and_true] at lengths
    rw [isText] at spelled
    obtain ⟨rfl, -, rfl⟩ :=
      (append_cons_inj_of_notMem (by simp [noT]) (by simp [noT])).mp spelled.symm
    apply String.toList_inj.mp
    rw [isText, Moment.local_, localText, ← isDate, ← isTime, String.toList_ofList]
    have behindYear : year.drop 6 = [] := drop_eq_nil_of_le (by omega)
    have behindHour : hour.drop 4 = [] := drop_eq_nil_of_le (by omega)
    simp [filter_append, dashes, colons, drop_append, lengths, behindYear, behindHour]

/-! ## Dates -/

namespace Moment

variable (moment : Moment)

def midnight : List Char := ['0', '0', '0', '0', '0', '0']

theorem atMidnight_ical : atMidnight moment.ical = true ↔ moment.time = midnight := by
  rw [atMidnight, toList_ical, isSuffixOf_iff_suffix,
    show "T000000".toList = 'T' :: midnight from rfl]
  constructor
  · rintro ⟨front, same⟩
    have split := append_inj' same (by
      rw [length_cons, length_cons, moment.timeLength]
      rfl)
    exact (List.cons.inj split.2).2.symm
  · intro isMidnight
    rw [isMidnight]
    exact suffix_append _ _

theorem dateTimeDigits_day :
    dateTimeDigits moment.day.toList = some (moment.date, midnight) := by
  have noT : splitOnce 'T' moment.date = none := by
    cases found : splitOnce 'T' moment.date with
    | none => rfl
    | some split =>
      have mem : 'T' ∈ moment.date := by
        rw [(of_splitOnce found).1]
        simp
      exact absurd rfl (moment.date_noT 'T' mem)
  have plain := noZulu moment.dateDigits [] moment.date_ne_nil
  have length : byteLength moment.date = 8 := by
    rw [byteLength_of_ascii moment.date_ascii, moment.dateLength]
  have all : (moment.date ++ midnight).all Char.isDigit = true := by
    rw [all_append, all_eq_true.mpr moment.dateDigits]
    rfl
  rw [nil_append] at plain
  simp only [dateTimeDigits, day, String.toList_ofList, plain, Option.getD_none, noT]
  change (some midnight).bind _ = _
  rw [Option.bind_some, if_pos ⟨length, all⟩]

theorem toLocalDateTime_day (isMidnight : moment.time = midnight) :
    toLocalDateTime moment.day = some moment.local_ := by
  have isInstant := moment.isInstant
  rw [isMidnight] at isInstant
  rw [toLocalDateTime, dateTimeDigits_day, Option.bind_eq_bind, Option.bind_some, local_,
    isMidnight]
  exact if_pos isInstant

theorem take_ical : moment.ical.toList.take 8 = moment.date := by
  rw [toList_ical, ← moment.dateLength, take_left]

theorem splitAtByte_ical : splitAtByte 8 moment.ical.toList =
    some (moment.date, 'T' :: moment.time) := by
  have split := splitAtByte_append moment.date_ascii 0 ('T' :: moment.time)
  rw [moment.dateLength] at split
  simpa [toList_ical, splitAtByte] using split

end Moment

end EvolutionJmap.Ical
