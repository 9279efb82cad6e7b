import Mathlib

/-!
# Proleptic Gregorian calendar arithmetic (`jmap-proto`, `date.rs`)
-/

namespace EvolutionJmap

open List

def isLeapYear (year : Int) : Bool :=
  year % 4 = 0 && (year % 100 ≠ 0 || year % 400 = 0)

def daysInMonth (year : Int) (month : Nat) : Nat :=
  if month ∈ [1, 3, 5, 7, 8, 10, 12] then 31
  else if month ∈ [4, 6, 9, 11] then 30
  else if month = 2 then
    if isLeapYear year then 29 else 28
  else 0

theorem daysInMonth_le (year : Int) (month : Nat) : daysInMonth year month ≤ 31 := by
  unfold daysInMonth
  grind

/-- Days from 1970-01-01 to a date, negative before it. -/
def daysFromCivil (year : Int) (month day : Nat) : Int :=
  let year := if month ≤ 2 then year - 1 else year
  let era := (if year ≥ 0 then year else year - 399).tdiv 400
  let yearOfEra := year - era * 400
  let shiftedMonth : Int := if month > 2 then month - 3 else month + 9
  let dayOfYear := (153 * shiftedMonth + 2).tdiv 5 + day - 1
  let dayOfEra := yearOfEra * 365 + yearOfEra.tdiv 4 - yearOfEra.tdiv 100 + dayOfYear
  era * 146097 + dayOfEra - 719468

/-- The date `days` after 1970-01-01, or nothing if the shifted count overflows. -/
def civilFromDays (days : Int) : Option (Int × Nat × Nat) :=
  let shifted := days + 719468
  if shifted < 2 ^ 63 then
    let era := (if shifted ≥ 0 then shifted else shifted - 146096).tdiv 146097
    let dayOfEra := shifted - era * 146097
    let yearOfEra := (dayOfEra - dayOfEra.tdiv 1460 + dayOfEra.tdiv 36524 -
      dayOfEra.tdiv 146096).tdiv 365
    let dayOfYear := dayOfEra - (365 * yearOfEra + yearOfEra.tdiv 4 - yearOfEra.tdiv 100)
    let shiftedMonth := (5 * dayOfYear + 2).tdiv 153
    let day := dayOfYear - (153 * shiftedMonth + 2).tdiv 5 + 1
    let month := if shiftedMonth < 10 then shiftedMonth + 3 else shiftedMonth - 9
    let year := yearOfEra + era * 400 + if month ≤ 2 then 1 else 0
    -- `u32::try_from`
    if 0 ≤ month ∧ month < 2 ^ 32 ∧ 0 ≤ day ∧ day < 2 ^ 32 then
      some (year, month.toNat, day.toNat)
    else none
  else none

/-- The number is an `i64`. -/
def FitsI64 (number : Int) : Prop := -2 ^ 63 ≤ number ∧ number < 2 ^ 63

/-- Every sum, difference and product that `civil_from_days` computes. -/
def civilResults (days : Int) : List Int :=
  let shifted := days + 719468
  let dividend := if shifted ≥ 0 then shifted else shifted - 146096
  let era := dividend.tdiv 146097
  let dayOfEra := shifted - era * 146097
  let fours := dayOfEra - dayOfEra.tdiv 1460
  let hundreds := fours + dayOfEra.tdiv 36524
  let yearOfEra := (hundreds - dayOfEra.tdiv 146096).tdiv 365
  let leaps := 365 * yearOfEra + yearOfEra.tdiv 4
  let dayOfYear := dayOfEra - (leaps - yearOfEra.tdiv 100)
  let shiftedMonth := (5 * dayOfYear + 2).tdiv 153
  let before := (153 * shiftedMonth + 2).tdiv 5
  let month := if shiftedMonth < 10 then shiftedMonth + 3 else shiftedMonth - 9
  let year := yearOfEra + era * 400
  [shifted, dividend, era * 146097, dayOfEra, fours, hundreds, hundreds - dayOfEra.tdiv 146096,
    365 * yearOfEra, leaps, leaps - yearOfEra.tdiv 100, dayOfYear, 5 * dayOfYear,
    5 * dayOfYear + 2, 153 * shiftedMonth, 153 * shiftedMonth + 2, dayOfYear - before,
    dayOfYear - before + 1, month, era * 400, year, year + if month ≤ 2 then 1 else 0]

/-- A date of the Gregorian calendar. -/
def IsDate (year : Int) (month day : Nat) : Prop :=
  1 ≤ month ∧ month ≤ 12 ∧ 1 ≤ day ∧ day ≤ daysInMonth year month

def nextDate (year : Int) (month day : Nat) : Int × Nat × Nat :=
  if day < daysInMonth year month then (year, month, day + 1)
  else if month < 12 then (year, month + 1, 1)
  else (year + 1, 1, 1)

/-- The days of the calendar from 1970-01-01 to a date: whole years with their leap
days, whole months and days. -/
def dayNumber (year : Int) (month day : Nat) : Int :=
  365 * (year - 1) + (year - 1) / 4 - (year - 1) / 100 + (year - 1) / 400 +
    ((List.range (month - 1)).map fun before => daysInMonth year (before + 1)).sum + day - 719163

/-! ## Years from March to February -/

def marchYear (year : Int) (month : Nat) : Int := if month ≤ 2 then year - 1 else year

def marchMonth (month : Nat) : Int := if month > 2 then month - 3 else month + 9

def dayOfYear (month day : Nat) : Int := (153 * marchMonth month + 2) / 5 + day - 1

/-- The days before the first of March of a year, from the first of March of year 0. -/
def yearStart (year : Int) : Int := 365 * year + year / 4 - year / 100 + year / 400

/-- Every sum, difference and product that `days_from_civil` computes. -/
def daysResults (year : Int) (month day : Nat) : List Int :=
  let march := marchYear year month
  let dividend := if march ≥ 0 then march else march - 399
  let era := dividend.tdiv 400
  let yearOfEra := march - era * 400
  let shifted := marchMonth month
  let before := (153 * shifted + 2).tdiv 5
  let leaps := yearOfEra * 365 + yearOfEra.tdiv 4
  let dayOfEra := leaps - yearOfEra.tdiv 100 + (before + day - 1)
  [march, dividend, era * 400, yearOfEra, shifted, 153 * shifted, 153 * shifted + 2, before + day,
    before + day - 1, yearOfEra * 365, leaps, leaps - yearOfEra.tdiv 100, dayOfEra, era * 146097,
    era * 146097 + dayOfEra, era * 146097 + dayOfEra - 719468]

variable {year days : Int} {month day : Nat}

theorem marchMonth_nonneg (month : Nat) : 0 ≤ marchMonth month := by
  unfold marchMonth
  split <;> omega

theorem isLeapYear_iff :
    isLeapYear year = true ↔ year % 4 = 0 ∧ (year % 100 ≠ 0 ∨ year % 400 = 0) := by
  simp [isLeapYear]

theorem eraOfYear_eq (march : Int) :
    (if march ≥ 0 then march else march - 399).tdiv 400 = march / 400 := by
  have sign : Int.sign 400 = 1 := rfl
  rw [Int.tdiv_eq_ediv, sign]
  split <;> split <;> omega

theorem eraOfDay_eq (shifted : Int) :
    (if shifted ≥ 0 then shifted else shifted - 146096).tdiv 146097 = shifted / 146097 := by
  have sign : Int.sign 146097 = 1 := rfl
  rw [Int.tdiv_eq_ediv, sign]
  split <;> split <;> omega

theorem daysFromCivil_eq :
    daysFromCivil year month day =
      yearStart (marchYear year month) + dayOfYear month day - 719468 := by
  have monthNonneg := marchMonth_nonneg month
  simp only [daysFromCivil]
  rw [← marchYear, ← marchMonth, eraOfYear_eq]
  rw [Int.tdiv_eq_ediv_of_nonneg (by omega), Int.tdiv_eq_ediv_of_nonneg (by omega),
    Int.tdiv_eq_ediv_of_nonneg (by omega)]
  unfold yearStart dayOfYear
  omega

theorem sum_daysInMonth (least : 1 ≤ month) (most : month ≤ 12) :
    ((List.range (month - 1)).map fun before => daysInMonth year (before + 1)).sum =
      if month ≤ 2 then 31 * (month - 1)
      else (if isLeapYear year then 60 else 59) + (153 * (month - 3) + 2) / 5 := by
  unfold daysInMonth
  generalize isLeapYear year = leap
  cases leap <;> interval_cases month <;> decide

theorem daysFromCivil_eq_dayNumber (least : 1 ≤ month) (most : month ≤ 12) :
    daysFromCivil year month day = dayNumber year month day := by
  rw [daysFromCivil_eq, yearStart, dayOfYear, dayNumber, sum_daysInMonth least most, marchYear,
    marchMonth]
  by_cases early : month ≤ 2
  · rw [if_pos early, if_pos early, if_neg (by omega)]
    omega
  · rw [if_neg early, if_neg early, if_pos (by omega)]
    by_cases isLeap : isLeapYear year = true
    · rw [if_pos isLeap]
      rw [isLeapYear_iff] at isLeap
      omega
    · rw [if_neg isLeap]
      rw [isLeapYear_iff] at isLeap
      omega

/-! ## Dates of days -/

theorem IsDate.dayOfYear_spec (isDate : IsDate year month day) :
    (0 ≤ dayOfYear month day ∧ dayOfYear month day ≤ 365) ∧
      (dayOfYear month day = 365 → month = 2 ∧ isLeapYear year = true) ∧
      (5 * dayOfYear month day + 2) / 153 = marchMonth month := by
  obtain ⟨least, most, dayLeast, dayMost⟩ := isDate
  interval_cases month <;> simp [dayOfYear, marchMonth, daysInMonth] at * <;> try omega
  split at dayMost <;> simp_all <;> omega

theorem yearOfEra_eq {year days day : Int} (inEra : 0 ≤ year ∧ year < 400)
    (inYear : 0 ≤ days ∧ days ≤ 365)
    (leap : days = 365 → (year + 1) % 4 = 0 ∧ ((year + 1) % 100 ≠ 0 ∨ (year + 1) % 400 = 0))
    (isDay : day = 365 * year + year / 4 - year / 100 + days) :
    (day - day / 1460 + day / 36524 - day / 146096) / 365 = year := by
  -- centuries, cycles of four years, and years of a cycle
  obtain ⟨century, cycle, place, isYear, bounds⟩ : ∃ century cycle place : Int,
      year = 100 * century + 4 * cycle + place ∧ (0 ≤ century ∧ century ≤ 3) ∧
        (0 ≤ cycle ∧ cycle ≤ 24) ∧ 0 ≤ place ∧ place ≤ 3 :=
    ⟨year / 100, year % 100 / 4, year % 4, by omega, by omega, by omega, by omega⟩
  have sum : day = 36524 * century + 1461 * cycle + 365 * place + days := by omega
  have leapPlace : days = 365 → place = 3 ∧ (cycle < 24 ∨ century = 3) := by omega
  clear leap isDay inEra
  by_cases last : day = 146096
  · rw [last]
    omega
  have whole : day / 146096 = 0 := by omega
  have hundreds : day / 36524 = century := by omega
  have quarters : day / 1460 = 25 * century + cycle +
      (24 * century + cycle + 365 * place + days) / 1460 := by
    omega
  rw [whole, hundreds, quarters]
  omega

theorem yearStart_eq (year : Int) : yearStart year = year / 400 * 146097 +
    (365 * (year % 400) + year % 400 / 4 - year % 400 / 100) := by
  unfold yearStart
  omega

theorem civilFromDays_daysFromCivil (isDate : IsDate year month day)
    (fits : daysFromCivil year month day + 719468 < 2 ^ 63) :
    civilFromDays (daysFromCivil year month day) = some (year, month, day) := by
  obtain ⟨⟨nonneg, most⟩, last, isMonth⟩ := isDate.dayOfYear_spec
  obtain ⟨monthLeast, monthMost, dayLeast, dayMost⟩ := isDate
  have short := dayMost.trans (daysInMonth_le year month)
  have monthNonneg := marchMonth_nonneg month
  have monthBack : (if marchMonth month < 10 then marchMonth month + 3 else marchMonth month - 9) =
      month := by
    unfold marchMonth
    split <;> split <;> omega
  have yearBack : marchYear year month + (if (month : Int) ≤ 2 then 1 else 0) = year := by
    unfold marchYear
    split <;> split <;> omega
  have leap : dayOfYear month day = 365 → (marchYear year month + 1) % 4 = 0 ∧
      ((marchYear year month + 1) % 100 ≠ 0 ∨ (marchYear year month + 1) % 400 = 0) := by
    intro isLast
    obtain ⟨rfl, isLeap⟩ := last isLast
    rw [isLeapYear_iff] at isLeap
    simp only [marchYear]
    omega
  have isDay : dayOfYear month day = (153 * marchMonth month + 2) / 5 + day - 1 := rfl
  rw [daysFromCivil_eq] at fits ⊢
  generalize marchYear year month = march at *
  generalize dayOfYear month day = days at *
  generalize marchMonth month = shifted at *
  obtain ⟨ofEra, isOfEra⟩ : ∃ ofEra, ofEra = 365 * (march % 400) + march % 400 / 4 -
      march % 400 / 100 + days := ⟨_, rfl⟩
  have split : yearStart march + days = march / 400 * 146097 + ofEra := by
    rw [isOfEra, yearStart_eq, add_assoc]
  have bounds : 0 ≤ ofEra ∧ ofEra < 146097 := by omega
  have isYear := @yearOfEra_eq (march % 400) days ofEra (by omega) ⟨nonneg, most⟩ (by omega) isOfEra
  have isEra : (march / 400 * 146097 + ofEra) / 146097 = march / 400 := by omega
  have rest : march / 400 * 146097 + ofEra - march / 400 * 146097 = ofEra := by omega
  have yearIs : (ofEra - ofEra.tdiv 1460 + ofEra.tdiv 36524 - ofEra.tdiv 146096).tdiv 365 =
      march % 400 := by
    simp only [Int.tdiv_eq_ediv_of_nonneg bounds.1]
    rw [Int.tdiv_eq_ediv_of_nonneg (by omega), isYear]
  have daysIs : ofEra - (365 * (march % 400) + (march % 400).tdiv 4 - (march % 400).tdiv 100) =
      days := by
    rw [Int.tdiv_eq_ediv_of_nonneg (by omega), Int.tdiv_eq_ediv_of_nonneg (by omega)]
    omega
  have monthIs : (5 * days + 2).tdiv 153 = shifted := by
    rw [Int.tdiv_eq_ediv_of_nonneg (by omega), isMonth]
  have dayIs : days - (153 * shifted + 2).tdiv 5 + 1 = day := by
    rw [Int.tdiv_eq_ediv_of_nonneg (by omega)]
    omega
  have whole : march % 400 + march / 400 * 400 = march := by omega
  rw [split] at fits ⊢
  rw [civilFromDays, sub_add_cancel, if_pos (by omega)]
  simp only [eraOfDay_eq, isEra, rest, yearIs, daysIs, monthIs, dayIs, monthBack, whole, yearBack]
  rw [if_pos (by omega)]
  rfl

theorem daysInMonth_pos (least : 1 ≤ month) (most : month ≤ 12) : 1 ≤ daysInMonth year month := by
  unfold daysInMonth
  grind

theorem IsDate.next {nextYear : Int} {nextMonth nextDay : Nat} (isDate : IsDate year month day)
    (isNext : nextDate year month day = (nextYear, nextMonth, nextDay)) :
    IsDate nextYear nextMonth nextDay ∧
      daysFromCivil nextYear nextMonth nextDay = daysFromCivil year month day + 1 := by
  obtain ⟨least, most, dayLeast, dayMost⟩ := isDate
  rw [daysFromCivil_eq_dayNumber least most]
  unfold nextDate at isNext
  split at isNext
  · next inside =>
    cases isNext
    refine ⟨⟨least, most, by omega, inside⟩, ?_⟩
    rw [daysFromCivil_eq_dayNumber least most, dayNumber, dayNumber]
    omega
  · have isLast : day = daysInMonth year month := by omega
    split at isNext
    · next earlier =>
      cases isNext
      refine ⟨⟨by omega, earlier, le_rfl, daysInMonth_pos (by omega) earlier⟩, ?_⟩
      obtain ⟨before, rfl⟩ : ∃ before, month = before + 1 := ⟨month - 1, by omega⟩
      rw [daysFromCivil_eq_dayNumber (by omega) earlier, dayNumber, dayNumber, isLast]
      simp [range_succ]
      omega
    · obtain rfl : month = 12 := by omega
      cases isNext
      refine ⟨⟨le_rfl, by decide, le_rfl, daysInMonth_pos le_rfl (by decide)⟩, ?_⟩
      rw [daysFromCivil_eq_dayNumber le_rfl (by decide), dayNumber, dayNumber,
        sum_daysInMonth (by decide) le_rfl, isLast, show daysInMonth year 12 = 31 from rfl]
      by_cases isLeap : isLeapYear year = true
      · rw [if_pos isLeap]
        rw [isLeapYear_iff] at isLeap
        simp
        omega
      · rw [if_neg isLeap]
        rw [isLeapYear_iff] at isLeap
        simp
        omega

theorem exists_date (days : Int) :
    ∃ year month day, IsDate year month day ∧ daysFromCivil year month day = days := by
  -- the days from the new year of an era before it
  obtain ⟨eras, later, isDays⟩ : ∃ eras later : Nat, days = later - 146097 * eras :=
    ⟨days.natAbs, (days + 146097 * days.natAbs).toNat, by omega⟩
  induction later generalizing days with
  | zero =>
    refine ⟨1970 - 400 * eras, 1, 1,
      ⟨le_rfl, by decide, le_rfl, daysInMonth_pos le_rfl (by decide)⟩, ?_⟩
    rw [daysFromCivil_eq_dayNumber le_rfl (by decide), dayNumber]
    simp
    omega
  | succ later ih =>
    obtain ⟨year, month, day, isDate, same⟩ := ih (days - 1) (by omega)
    obtain ⟨isNext, after⟩ := isDate.next rfl
    exact ⟨_, _, _, isNext, by omega⟩

theorem civilFromDays_isSome_iff : (civilFromDays days).isSome ↔ days + 719468 < 2 ^ 63 := by
  constructor
  · intro isSome
    by_contra large
    rw [civilFromDays, if_neg large] at isSome
    cases isSome
  · intro fits
    obtain ⟨year, month, day, isDate, rfl⟩ := exists_date days
    rw [civilFromDays_daysFromCivil isDate fits, Option.isSome_some]

theorem of_civilFromDays (isCivil : civilFromDays days = some (year, month, day)) :
    IsDate year month day ∧ daysFromCivil year month day = days := by
  have fits := civilFromDays_isSome_iff.mp (Option.isSome_of_eq_some isCivil)
  obtain ⟨year, month, day, isDate, rfl⟩ := exists_date days
  rw [civilFromDays_daysFromCivil isDate fits] at isCivil
  cases isCivil
  exact ⟨isDate, rfl⟩

/-! ## The numbers of both directions -/

theorem daysResults_fit (isDate : IsDate year month day)
    (least : -2 ^ 63 ≤ daysFromCivil year month day)
    (most : daysFromCivil year month day + 719468 < 2 ^ 63) :
    ∀ number ∈ daysResults year month day, FitsI64 number := by
  obtain ⟨monthLeast, monthMost, dayLeast, dayMost⟩ := isDate
  have short := dayMost.trans (daysInMonth_le year month)
  have shifted : 0 ≤ marchMonth month ∧ marchMonth month ≤ 11 := by
    unfold marchMonth
    split <;> omega
  rw [daysFromCivil_eq, dayOfYear, yearStart_eq] at least most
  have rest : ∀ march : Int, march - march / 400 * 400 = march % 400 := by omega
  simp only [daysResults, forall_mem_cons, FitsI64, eraOfYear_eq, rest, not_mem_nil,
    false_imp_iff, implies_true, and_true]
  generalize marchYear year month = march at *
  generalize marchMonth month = shifted at *
  rw [Int.tdiv_eq_ediv_of_nonneg (by omega), Int.tdiv_eq_ediv_of_nonneg (by omega),
    Int.tdiv_eq_ediv_of_nonneg (by omega)]
  omega

theorem tdiv_within {number bound : Int} (within : -bound ≤ number ∧ number ≤ bound)
    (divisor : Int) : -bound ≤ number.tdiv divisor ∧ number.tdiv divisor ≤ bound := by
  have smaller := Int.natAbs_tdiv_le_natAbs number divisor
  omega

theorem civilResults_fit (least : -2 ^ 63 ≤ days) (most : days + 719468 < 2 ^ 63) :
    ∀ number ∈ civilResults days, FitsI64 number := by
  obtain ⟨era, ofEra, isDays, bounds⟩ : ∃ era ofEra : Int, days + 719468 = era * 146097 + ofEra ∧
      0 ≤ ofEra ∧ ofEra < 146097 :=
    ⟨(days + 719468) / 146097, (days + 719468) % 146097, by omega, by omega, by omega⟩
  have isEra : (days + 719468) / 146097 = era := by omega
  have rest : days + 719468 - era * 146097 = ofEra := by omega
  simp only [civilResults, eraOfDay_eq, isEra, rest, forall_mem_cons, FitsI64,
    not_mem_nil, false_imp_iff, implies_true, and_true]
  -- within an era the quotients are small, whatever they are
  have small : -146097 ≤ ofEra ∧ ofEra ≤ 146097 := by omega
  have fewFours := tdiv_within small 1460
  have fewHundreds := tdiv_within small 36524
  have fewEras := tdiv_within small 146096
  generalize ofEra.tdiv 1460 = fours at *
  generalize ofEra.tdiv 36524 = hundreds at *
  generalize ofEra.tdiv 146096 = eras at *
  have fewYears := @tdiv_within (ofEra - fours + hundreds - eras) 600000 (by omega) 365
  generalize (ofEra - fours + hundreds - eras).tdiv 365 = years at *
  have fewLeaps := tdiv_within fewYears 4
  have fewCenturies := tdiv_within fewYears 100
  generalize years.tdiv 4 = leaps at *
  generalize years.tdiv 100 = centuries at *
  generalize isDay : ofEra - (365 * years + leaps - centuries) = day at *
  have fewMonths := @tdiv_within (5 * day + 2) (10 ^ 10) (by omega) 153
  generalize (5 * day + 2).tdiv 153 = months at *
  have fewBefore := @tdiv_within (153 * months + 2) (10 ^ 13) (by omega) 5
  generalize (153 * months + 2).tdiv 5 = before at *
  omega

end EvolutionJmap
