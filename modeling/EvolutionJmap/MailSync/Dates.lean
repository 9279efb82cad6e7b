import EvolutionJmap.Digits
import EvolutionJmap.MailSync.Message

/-!
# The dates that a message states (`jmap-mail-sync`, `date.rs`)

What `epoch_seconds` gives for an arbitrary text: no number leaves `i64`, a value is
the stated moment, and the call panics for one shape of the offset.  `utc_date` writes
the instants of the accepted years, and `epoch_seconds` reads them back.
-/

namespace EvolutionJmap.MailSync

open Text Option List

/-! ## What a text states -/

variable {text rest time behind : List Char} {days offset : Int} {sign : Char}

/-- The date in front of the `T`. -/
structure DateIn (text rest : List Char) (year : Int) (month day : Nat) : Prop where
  fields : ∃ date first second third, splitOnce 'T' text = some (date, rest) ∧
    split3 '-' date = some (first, second, third) ∧ parseSigned 64 first = some year ∧
    parseUnsigned 32 second = some month ∧ parseUnsigned 32 third = some day
  inYears : 1 ≤ year ∧ year ≤ 9999
  isDate : IsDate year month day

/-- The text is a time of day, a leap second included. -/
structure TimeIn (time : List Char) (hour minute second : Nat) : Prop where
  fields : ∃ first middle third, split3 ':' time = some (first, middle, third) ∧
    parseUnsigned 32 first = some hour ∧ parseUnsigned 32 middle = some minute ∧
    parseUnsigned 32 (((splitOnce '.' third).map Prod.fst).getD third) = some second
  inDay : hour ≤ 23 ∧ minute ≤ 59 ∧ second ≤ 60

/-- A time, the first sign behind it and its offset, in a text that does not end as UTC. -/
structure Signed (rest time : List Char) (sign : Char) (behind : List Char) : Prop where
  notUtc : ¬ (rest.getLast? = some 'Z' ∨ rest.getLast? = some 'z')
  whole : rest = time ++ sign :: behind
  isTime : ∀ char ∈ time, char ≠ '+' ∧ char ≠ '-'
  isSign : sign = '+' ∨ sign = '-'

/-- The time and its hours and minutes east of UTC, or west of it. -/
inductive ZoneIn (rest time : List Char) : Bool → Nat → Nat → Prop
  | utc (isUtc : rest = time ++ ['Z'] ∨ rest = time ++ ['z']) : ZoneIn rest time false 0 0
  | signed {sign : Char} {behind first second : List Char} {hours minutes : Nat}
      (signed : Signed rest time sign behind)
      (fields : splitOffsetFields behind = .ok (some (first, second)))
      (isHours : parseUnsigned 32 first = some hours)
      (isMinutes : parseUnsigned 32 second = some minutes)
      (inDay : hours ≤ 23 ∧ minutes ≤ 59) : ZoneIn rest time (sign = '-') hours minutes

def zoneOffset (negative : Bool) (hours minutes : Nat) : Int :=
  (if negative then -1 else 1) * (hours * 3600 + minutes * 60)

/-- Every sum, difference and product that `days_from_civil` and `epoch_seconds` compute. -/
def epochResults (year : Int) (month day hour minute second : Nat) (offset : Int) : List Int :=
  let days := daysFromCivil year month day
  let secondsOfDay : Int := hour * 3600 + minute * 60 + min second 59
  daysResults year month day ++ [(hour : Int) * 3600, minute * 60, hour * 3600 + minute * 60,
    secondsOfDay, days * 86400, days * 86400 + secondsOfDay, days * 86400 + secondsOfDay - offset]

/-! ## Reading the fields -/

theorem of_splitDate (split : splitDate text = some (days, rest)) :
    ∃ year month day, DateIn text rest year month day ∧ days = daysFromCivil year month day := by
  simp only [splitDate, bind_eq_bind, bind_eq_some_iff] at split
  obtain ⟨⟨date, behind⟩, isDate, ⟨first, second, third⟩, fields, year, isYear, month, isMonth, day,
    isDay, checked⟩ := split
  split at checked
  · cases checked
  · next valid =>
    cases checked
    simp [inYears] at valid
    exact ⟨year, month, day, ⟨⟨date, first, second, third, isDate, fields, isYear, isMonth, isDay⟩,
      by omega, by unfold IsDate; omega⟩, rfl⟩

theorem of_secondsOfDay {seconds : Int} (isTime : secondsOfDay time = some seconds) :
    ∃ hour minute second, TimeIn time hour minute second ∧
      seconds = hour * 3600 + minute * 60 + min second 59 := by
  simp only [secondsOfDay, bind_eq_bind, bind_eq_some_iff] at isTime
  obtain ⟨⟨first, middle, third⟩, fields, hour, isHour, minute, isMinute, second, isSecond,
    checked⟩ := isTime
  split at checked
  · cases checked
  · next valid =>
    cases checked
    simp at valid
    exact ⟨hour, minute, second, ⟨⟨first, middle, third, fields, isHour, isMinute, isSecond⟩,
      by omega⟩, rfl⟩

theorem Signed.splitOffset_eq (signed : Signed rest time sign behind) :
    splitOffset rest = (splitOffsetFields behind).map fun fields =>
      fields.bind fun (hours, minutes) =>
        (offsetSeconds (sign = '-') hours minutes).map fun seconds => (time, seconds) := by
  obtain ⟨notUtc, rfl, isTime, isSign⟩ := signed
  have taken : (time ++ sign :: behind).takeWhile (fun char => char ≠ '+' ∧ char ≠ '-') = time := by
    rw [takeWhile_append_of_pos (by simpa using isTime), takeWhile_cons_of_neg (by grind),
      append_nil]
  rw [splitOffset, if_neg notUtc, taken]
  simp only [drop_left]
  cases splitOffsetFields behind <;> rfl

theorem splitOffset_cases (rest : List Char) :
    ((rest = rest.dropLast ++ ['Z'] ∨ rest = rest.dropLast ++ ['z']) ∧
      splitOffset rest = .ok (some (rest.dropLast, 0))) ∨
    splitOffset rest = .ok none ∨ ∃ time sign behind, Signed rest time sign behind := by
  by_cases isUtc : rest.getLast? = some 'Z' ∨ rest.getLast? = some 'z'
  · exact .inl ⟨isUtc.imp (fun last => (dropLast_append_getLast? _ last).symm)
      fun last => (dropLast_append_getLast? _ last).symm, if_pos isUtc⟩
  · right
    have isSign := head?_dropWhile_not (fun char => char ≠ '+' ∧ char ≠ '-') rest
    have whole := @List.takeWhile_append_dropWhile _ (fun char => char ≠ '+' ∧ char ≠ '-') rest
    cases dropped : rest.dropWhile fun char => char ≠ '+' ∧ char ≠ '-' with
    | nil =>
      left
      rw [dropped, append_nil] at whole
      simp only [splitOffset, if_neg isUtc, whole, drop_length]
    | cons sign behind =>
      right
      rw [dropped] at isSign whole
      refine ⟨_, sign, behind, isUtc, whole.symm, fun char mem => ?_, by grind⟩
      simpa using all_eq_true.mp all_takeWhile char mem

theorem of_splitOffset (split : splitOffset rest = .ok (some (time, offset))) :
    ∃ negative hours minutes, ZoneIn rest time negative hours minutes ∧
      offset = zoneOffset negative hours minutes := by
  rcases splitOffset_cases rest with ⟨isUtc, ends⟩ | none | ⟨before, sign, behind, signed⟩
  · cases ends.symm.trans split
    exact ⟨false, 0, 0, .utc isUtc, by simp [zoneOffset]⟩
  · cases none.symm.trans split
  · rw [signed.splitOffset_eq] at split
    cases fields : splitOffsetFields behind with
    | error =>
      rw [fields] at split
      cases split
    | ok read =>
      rw [fields] at split
      obtain ⟨⟨first, second⟩, rfl, isOffset⟩ := bind_eq_some_iff.mp (Except.ok.inj split)
      simp only [offsetSeconds, bind_eq_bind, map_eq_some_iff,
        bind_eq_some_iff] at isOffset
      obtain ⟨seconds, ⟨hours, isHours, minutes, isMinutes, checked⟩, same⟩ := isOffset
      cases same
      split at checked
      · cases checked
      · next valid =>
        cases checked
        simp at valid
        refine ⟨_, hours, minutes, .signed signed fields isHours isMinutes valid, ?_⟩
        unfold zoneOffset
        split <;> simp

/-! ## The outcome -/

/-- The offset of the text is four octets without a colon, with a character across its middle. -/
def CutsCharacter (text : List Char) : Prop :=
  ∃ days rest time sign behind, splitDate text = some (days, rest) ∧
    Signed rest time sign behind ∧
    splitOnce ':' behind = none ∧ byteLength behind = 4 ∧ splitAtByte 2 behind = none

theorem splitOffsetFields_error_iff :
    (∃ error, splitOffsetFields behind = .error error) ↔
      splitOnce ':' behind = none ∧ byteLength behind = 4 ∧ splitAtByte 2 behind = none := by
  unfold splitOffsetFields
  cases splitOnce ':' behind with
  | some fields => simp
  | none =>
    by_cases four : byteLength behind = 4
    · cases splitAtByte 2 behind <;> simp [four]
    · simp [four]

theorem epochSeconds_error_iff {text : String} :
    (∃ error, epochSeconds text = .error error) ↔ CutsCharacter text.toList := by
  simp only [CutsCharacter, ← splitOffsetFields_error_iff]
  constructor
  · rintro ⟨error, failed⟩
    unfold epochSeconds at failed
    split at failed
    · cases failed
    · next days rest isDate =>
      rcases splitOffset_cases rest with ⟨-, ends⟩ | none | ⟨time, sign, behind, signed⟩
      · rw [ends] at failed
        cases failed
      · rw [none] at failed
        cases failed
      · refine ⟨days, rest, time, sign, behind, isDate, signed, ?_⟩
        rw [signed.splitOffset_eq] at failed
        cases fields : splitOffsetFields behind with
        | error error => exact ⟨error, rfl⟩
        | ok fields =>
          rw [fields] at failed
          cases failed
  · rintro ⟨days, rest, time, sign, behind, isDate, signed, error, failed⟩
    refine ⟨error, ?_⟩
    rw [epochSeconds, isDate]
    simp only [signed.splitOffset_eq, failed]
    rfl

theorem ZoneIn.bounds {negative : Bool} {hours minutes : Nat}
    (zone : ZoneIn rest time negative hours minutes) : hours ≤ 23 ∧ minutes ≤ 59 := by
  cases zone with
  | utc => decide
  | signed _ _ _ _ inDay => exact inDay

theorem epochResults_fit {year : Int} {month day hour minute second : Nat}
    (date : DateIn text rest year month day) (isTime : TimeIn time hour minute second)
    (east : -86400 < offset ∧ offset < 86400) :
    ∀ number ∈ epochResults year month day hour minute second offset, FitsI64 number := by
  obtain ⟨-, inYears, isDate⟩ := date
  have inDay := isTime.inDay
  have few := isDate.dayOfYear_spec.1
  have days := @daysFromCivil_eq year month day
  have march : 0 ≤ marchYear year month ∧ marchYear year month ≤ 9999 := by
    unfold marchYear
    split <;> omega
  rw [yearStart] at days
  have fits := daysResults_fit isDate (by omega) (by omega)
  simp only [epochResults, forall_mem_append, forall_mem_cons, FitsI64,
    not_mem_nil, false_imp_iff, implies_true, and_true]
  refine ⟨fits, ?_⟩
  omega

/-- The call returns, no number leaves `i64`, and a value is the moment that the text states,
a leap second counted as 59. -/
def ReadsDate (text : String) : Prop :=
  ∃ result, epochSeconds text = .ok result ∧
    (∀ rest time negative hours minutes, ZoneIn rest time negative hours minutes →
      ∀ number ∈ [(hours : Int) * 3600, minutes * 60, zoneOffset false hours minutes,
        zoneOffset negative hours minutes], FitsI64 number) ∧
    ∀ seconds, result = some seconds → ∃ rest time year month day negative hours minutes hour minute
      second, DateIn text.toList rest year month day ∧ ZoneIn rest time negative hours minutes ∧
      TimeIn time hour minute second ∧ seconds = dayNumber year month day * 86400 +
        (hour * 3600 + minute * 60 + min second 59) - zoneOffset negative hours minutes ∧
      ∀ number ∈ epochResults year month day hour minute second (zoneOffset negative hours minutes),
        FitsI64 number

theorem ReadsDate.of_ok {text : String} {result : Option Int}
    (returned : epochSeconds text = .ok result) : ReadsDate text := by
  refine ⟨result, returned, fun rest time negative hours minutes zone => ?_,
    fun seconds isSome => ?_⟩
  · have bounds := zone.bounds
    simp only [forall_mem_cons, FitsI64, zoneOffset, not_mem_nil, false_imp_iff,
      implies_true, and_true]
    split <;> split <;> omega
  · subst isSome
    unfold epochSeconds at returned
    split at returned
    · cases returned
    · next days rest isDate =>
      cases split : splitOffset rest with
      | error =>
        rw [split] at returned
        cases returned
      | ok zoned =>
        rw [split] at returned
        obtain ⟨⟨time, offset⟩, rfl, read⟩ := bind_eq_some_iff.mp (Except.ok.inj returned)
        obtain ⟨ofDay, isTime, rfl⟩ := map_eq_some_iff.mp read
        obtain ⟨year, month, day, date, rfl⟩ := of_splitDate isDate
        obtain ⟨hour, minute, second, ofTime, rfl⟩ := of_secondsOfDay isTime
        obtain ⟨negative, hours, minutes, zone, rfl⟩ := of_splitOffset split
        refine ⟨rest, time, year, month, day, negative, hours, minutes, hour, minute, second,
          date, zone, ofTime, ?_, epochResults_fit date ofTime ?_⟩
        · rw [daysFromCivil_eq_dayNumber date.isDate.1 date.isDate.2.1]
        · have bounds := zone.bounds
          unfold zoneOffset
          split <;> omega

/-- `epoch_seconds` reads every text as a date or turns it down, except where an offset
is cut inside a character. -/
theorem epochSeconds_readsDate_iff (text : String) :
    ReadsDate text ↔ ¬ CutsCharacter text.toList := by
  rw [← epochSeconds_error_iff]
  constructor
  · rintro ⟨result, returned, -⟩ ⟨error, failed⟩
    cases returned.symm.trans failed
  · intro returns
    cases returned : epochSeconds text with
    | error error => exact absurd ⟨error, returned⟩ returns
    | ok result => exact .of_ok returned

/-- The offset `1é2` is split inside the `é`. -/
theorem epochSeconds_panics :
    (epochSeconds "2026-01-15T09:30:00+1é2").toOption = none := by
  decide +kernel

/-! ## Dates as text -/

/-- The date of a day, in the accepted years. -/
def civilFromDays (days : Int) : Option (Int × Nat × Nat) :=
  (EvolutionJmap.civilFromDays days).filter fun (year, _, _) => inYears year

/-- Three numbers with a separator between them. -/
def fields (separator : Char) (width : Nat) (first second third : Int) : List Char :=
  paddedInt width first ++ separator :: (paddedInt 2 second ++ separator :: paddedInt 2 third)

/-- The `UTCDate` of an instant, or nothing if no `UTCDate` can write it. -/
def utcDate (seconds : Int) : Option String := do
  let (days, secondsOfDay) := (seconds / 86400, seconds % 86400)
  let (year, month, day) ← civilFromDays days
  let (hour, minute, second) :=
    (secondsOfDay.tdiv 3600, (secondsOfDay.tdiv 60).tmod 60, secondsOfDay.tmod 60)
  some (String.ofList
    (fields '-' 4 year month day ++ 'T' :: (fields ':' 2 hour minute second ++ ['Z'])))

variable {year : Int} {month day : Nat}

theorem isDigit_padded (width number : Nat) :
    ∀ char ∈ padded width number, char.isDigit = true := by
  intro char mem
  rcases mem_append.mp mem with zero | digit
  · rw [eq_of_mem_replicate zero]
    rfl
  · exact isDigit_toString number char digit

theorem parseDigits_padded (width number : Nat) :
    parseDigits (padded width number) = some number := by
  have filled : padded width number ≠ [] :=
    append_ne_nil_of_right_ne_nil _ (toString_ne_nil number)
  have zeros : ∀ count, (List.replicate count '0').foldl
      (fun number char => number * 10 + (char.toNat - 48)) 0 = 0 := by
    intro count
    induction count with
    | zero => rfl
    | succ count ih => exact ih
  rw [parseDigits_of_ne_nil filled (isDigit_padded width number), padded, numberOf,
    foldl_append, zeros]
  exact congrArg some (numberOf_toString number)

theorem paddedInt_natCast (width number : Nat) : paddedInt width number = padded width number :=
  rfl

section

variable {width first second third : Nat} {separator : Char}

theorem parseUnsigned_padded (fits : first < 2 ^ 32) :
    parseUnsigned 32 (padded width first) = some first := by
  rw [parseUnsigned_of_digits (isDigit_padded width first), parseDigits_padded]
  simpa using fits

theorem not_mem_padded (notDigit : separator.isDigit = false) : separator ∉ padded width first :=
  fun mem => absurd ((isDigit_padded width first _ mem).symm.trans notDigit) (by decide)

theorem split3_fields (notDigit : separator.isDigit = false) :
    split3 separator (fields separator width first second third) =
      some (padded width first, padded 2 second, padded 2 third) := by
  have split := @List.splitOn_intercalate _
    [padded width first, padded 2 second, padded 2 third] _ _ separator
    (by simp [not_mem_padded notDigit]) (by simp)
  simp only [List.intercalate, List.intersperse, flatten_cons, flatten_nil,
    append_nil, nil_append, cons_append] at split
  rw [split3, fields, paddedInt_natCast, paddedInt_natCast, paddedInt_natCast, split]

end

theorem splitDate_fields {year : Nat} (inYears : 1 ≤ year ∧ year ≤ 9999)
    (isDate : IsDate year month day) :
    splitDate (fields '-' 4 year month day ++ 'T' :: rest) =
      some (daysFromCivil year month day, rest) := by
  obtain ⟨least, most, dayLeast, dayMost⟩ := isDate
  have short := dayMost.trans (daysInMonth_le year month)
  have noT : ∀ char ∈ fields '-' 4 year month day, char ≠ 'T' := by
    rintro char mem rfl
    have absent : ∀ width number, 'T' ∉ padded width number := fun _ _ => not_mem_padded rfl
    simp [fields, paddedInt, absent] at mem
  have isYear : parseSigned 64 (padded 4 year) = some (year : Int) := by
    rw [parseSigned_of_digits (isDigit_padded 4 year), parseDigits_padded]
    simp
    omega
  rw [splitDate, splitOnce_append noT]
  simp only [bind_eq_bind, bind_some, @split3_fields 4 year month day '-' rfl, isYear,
    @parseUnsigned_padded 2 month (by omega), @parseUnsigned_padded 2 day (by omega)]
  rw [if_neg]
  simp [MailSync.inYears]
  omega

theorem secondsOfDay_fields {hour minute second : Nat}
    (inDay : hour ≤ 23 ∧ minute ≤ 59 ∧ second ≤ 59) :
    secondsOfDay (fields ':' 2 hour minute second) =
      some (hour * 3600 + minute * 60 + second : Int) := by
  have noFraction : splitOnce '.' (padded 2 second) = none := by
    cases split : splitOnce '.' (padded 2 second) with
    | none => rfl
    | some parts =>
      have absent := @not_mem_padded 2 second '.' rfl
      rw [(of_splitOnce split).1] at absent
      simp at absent
  simp only [secondsOfDay, @split3_fields 2 hour minute second ':' rfl, noFraction,
    bind_eq_bind, bind_some, map_none, getD_none,
    @parseUnsigned_padded 2 hour (by omega), @parseUnsigned_padded 2 minute (by omega),
    @parseUnsigned_padded 2 second (by omega)]
  rw [if_neg]
  · simp
    omega
  · simp
    omega

theorem epochSeconds_fields {year ofDay : Nat} (inYears : 1 ≤ year ∧ year ≤ 9999)
    (isDate : IsDate year month day) (inDay : ofDay < 86400) :
    epochSeconds (String.ofList (fields '-' 4 year month day ++ 'T' :: (fields ':' 2
      (ofDay / 3600 : Nat) (ofDay / 60 % 60 : Nat) (ofDay % 60 : Nat) ++ ['Z']))) =
      .ok (some (daysFromCivil year month day * 86400 + ofDay)) := by
  have isTime := @secondsOfDay_fields (ofDay / 3600) (ofDay / 60 % 60) (ofDay % 60) (by omega)
  rw [epochSeconds, String.toList_ofList, splitDate_fields inYears isDate]
  generalize fields ':' 2 _ _ _ = time at *
  have ends : splitOffset (time ++ ['Z']) = .ok (some (time, 0)) := by
    rw [splitOffset, if_pos (by simp), dropLast_concat]
  simp only [ends, bind, Except.bind, pure, Except.pure, bind_some, isTime, map_some]
  congr
  omega

theorem utcDate_eq_some {seconds : Int} {text : String} (isText : utcDate seconds = some text) :
    ∃ year month day, IsDate year month day ∧ (1 ≤ year ∧ year ≤ 9999) ∧
      daysFromCivil year month day = seconds / 86400 ∧ epochSeconds text = .ok (some seconds) := by
  simp only [utcDate, civilFromDays, bind_eq_bind, bind_eq_some_iff,
    filter_eq_some_iff] at isText
  obtain ⟨⟨year, month, day⟩, ⟨isCivil, inYears⟩, same⟩ := isText
  obtain ⟨isDate, isDays⟩ := of_civilFromDays isCivil
  cases same
  simp [MailSync.inYears] at inYears
  refine ⟨year, month, day, isDate, inYears, isDays, ?_⟩
  obtain ⟨year, rfl⟩ := Int.eq_ofNat_of_zero_le (show 0 ≤ year by omega)
  obtain ⟨ofDay, isOfDay⟩ := Int.eq_ofNat_of_zero_le (show 0 ≤ seconds % 86400 by omega)
  have back := @epochSeconds_fields month day year ofDay (by omega) isDate (by omega)
  have hour : (ofDay : Int).tdiv 3600 = (ofDay / 3600 : Nat) := rfl
  have minute : ((ofDay : Int).tdiv 60).tmod 60 = (ofDay / 60 % 60 : Nat) := rfl
  have second : (ofDay : Int).tmod 60 = (ofDay % 60 : Nat) := rfl
  have whole : seconds / 86400 * 86400 + ofDay = seconds := by omega
  rw [isDays, whole] at back
  rw [isOfDay, hour, minute, second]
  exact back

/-- A date that is written is read back, and the days of the calendar follow each other. -/
theorem utcDate_roundTrips (seconds days : Int) (isSeconds : FitsI64 seconds)
    (isDays : FitsI64 days) :
    ((utcDate seconds).isSome ↔ ∃ year month day, IsDate year month day ∧
      (1 ≤ year ∧ year ≤ 9999) ∧ dayNumber year month day = seconds / 86400) ∧
    (∀ number ∈ seconds / 86400 :: seconds % 86400 :: civilResults (seconds / 86400),
      FitsI64 number) ∧
    (∀ text, utcDate seconds = some text →
      ReadsDate text ∧ epochSeconds text = .ok (some seconds)) ∧
    ∀ year month day, EvolutionJmap.civilFromDays days = some (year, month, day) →
      IsDate year month day ∧ daysFromCivil year month day = days ∧
      (∀ number ∈ civilResults days ++ daysResults year month day, FitsI64 number) ∧
      ((EvolutionJmap.civilFromDays (days + 1)).isSome →
        EvolutionJmap.civilFromDays (days + 1) = some (nextDate year month day)) := by
  unfold FitsI64 at isSeconds isDays
  refine ⟨⟨fun isSome => ?_, ?_⟩, ?_, fun text isText => ?_, fun year month day isCivil => ?_⟩
  · obtain ⟨text, isText⟩ := isSome_iff_exists.mp isSome
    obtain ⟨year, month, day, isDate, inYears, same, -⟩ := utcDate_eq_some isText
    rw [daysFromCivil_eq_dayNumber isDate.1 isDate.2.1] at same
    exact ⟨year, month, day, isDate, inYears, same⟩
  · rintro ⟨year, month, day, isDate, inYears, same⟩
    rw [← daysFromCivil_eq_dayNumber isDate.1 isDate.2.1] at same
    have isCivil := civilFromDays_daysFromCivil isDate (by omega)
    rw [same] at isCivil
    have inRange : civilFromDays (seconds / 86400) = some (year, month, day) :=
      filter_eq_some_iff.mpr ⟨isCivil, by simpa [MailSync.inYears] using inYears⟩
    rw [utcDate]
    simp only [inRange, bind_eq_bind, bind_some, isSome_some]
  · simp only [forall_mem_cons, FitsI64]
    exact ⟨by omega, by omega, civilResults_fit (by omega) (by omega)⟩
  · obtain ⟨-, -, -, -, -, -, back⟩ := utcDate_eq_some isText
    exact ⟨.of_ok back, back⟩
  · have fits := civilFromDays_isSome_iff.mp (isSome_of_eq_some isCivil)
    obtain ⟨isDate, rfl⟩ := of_civilFromDays isCivil
    refine ⟨isDate, rfl, forall_mem_append.mpr ⟨civilResults_fit isDays.1 fits,
      daysResults_fit isDate isDays.1 fits⟩, fun isSome => ?_⟩
    obtain ⟨isNext, after⟩ := isDate.next rfl
    have later := civilFromDays_isSome_iff.mp isSome
    rw [← after] at later ⊢
    exact civilFromDays_daysFromCivil isNext later

theorem utcDate_roundTrips_leapDay :
    epochSeconds "2000-02-29T12:00:00Z" = .ok (some 951825600) ∧
      EvolutionJmap.civilFromDays 11017 = some (2000, 3, 1) := by
  obtain ⟨-, -, back, dates⟩ :=
    utcDate_roundTrips 951825600 11016 ⟨by decide, by decide⟩ ⟨by decide, by decide⟩
  obtain ⟨-, -, -, next⟩ := dates 2000 2 29 (by decide +kernel)
  exact ⟨(back _ (by decide +kernel)).2, next (by decide +kernel)⟩

/-- The last day that has a date. -/
theorem civilFromDays_last : (EvolutionJmap.civilFromDays (2 ^ 63 - 1 - 719468)).isSome ∧
    EvolutionJmap.civilFromDays (2 ^ 63 - 1 - 719468 + 1) = none := by
  decide +kernel

end EvolutionJmap.MailSync
