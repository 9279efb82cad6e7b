import EvolutionJmap.Text

/-!
# Dates, offsets and durations as text (`jmap-ical/src/event.rs`)

JSCalendar writes a `LocalDateTime` as `2026-01-15T13:00:00` and iCalendar as
`20260115T130000`.  Both count in the proleptic Gregorian calendar.
-/

namespace EvolutionJmap.Ical

def utc : String := "Etc/UTC"

def isUtc (zone : String) : Bool :=
  eqIgnoreAsciiCase zone utc || eqIgnoreAsciiCase zone "UTC"

/-! ## Dates -/

def daysInMonth (year month : Nat) : Nat :=
  if month ∈ [1, 3, 5, 7, 8, 10, 12] then 31
  else if month ∈ [4, 6, 9, 11] then 30
  else if month = 2 then
    if year % 4 = 0 ∧ (year % 100 ≠ 0 ∨ year % 400 = 0) then 29 else 28
  else 0

/-- The length of a month given by signed values. -/
def daysInMonthOf (year month : Int) : Option Int :=
  if 0 ≤ year ∧ year < 2 ^ 32 ∧ 0 ≤ month ∧ month < 2 ^ 32 then
    let length := daysInMonth year.toNat month.toNat
    if 0 < length then some length else none
  else none

/-- Days from 1970-01-01 to a date. The year is counted from March, so that a
leap day is its last day. -/
def daysFromCivil (year month day : Int) : Int :=
  let year := if month ≤ 2 then year - 1 else year
  let era := year / 400
  let yearOfEra := year - era * 400
  let dayOfYear := (153 * (month + if 2 < month then -3 else 9) + 2).tdiv 5 + day - 1
  let dayOfEra := yearOfEra * 365 + yearOfEra.tdiv 4 - yearOfEra.tdiv 100 + dayOfYear
  era * 146097 + dayOfEra - 719468

def field (digits : List Char) : Nat := (Text.parseUnsigned 32 digits).getD (2 ^ 32 - 1)

/-- Whether eight date digits and six time digits name an instant. A leap second
is accepted. -/
def «exists» (date time : List Char) : Bool :=
  let year := field (date.take 4)
  let month := field ((date.drop 4).take 2)
  let day := field ((date.drop 6).take 2)
  let hour := field (time.take 2)
  let minute := field ((time.drop 2).take 2)
  let second := field ((time.drop 4).take 2)
  (1 ≤ month && month ≤ 12) && (1 ≤ day && day ≤ daysInMonth year month) &&
    hour ≤ 23 && minute ≤ 59 && second ≤ 60

/-- Remove a separator and check that exactly `digits` digits are left. -/
def strip (value : List Char) (separator : Char) (digits : Nat) : Option (List Char) :=
  let stripped := value.filter (· ≠ separator)
  if Text.byteLength stripped = digits ∧ stripped.all Char.isDigit then some stripped else none

def toIcalDateTime (local_ : String) : Option String := do
  let (date, time) ← Text.splitOnce 'T' local_.toList
  let date ← strip date '-' 8
  let time ← strip time ':' 6
  if «exists» date time then some (String.ofList (date ++ 'T' :: time)) else none

def dateTimeDigits (value : List Char) : Option (List Char × List Char) := do
  let value := (Text.stripLast (fun char => char == 'Z' || char == 'z') value).getD value
  let (date, time) := (Text.splitOnce 'T' value).getD (value, "000000".toList)
  let time ← Text.slice 0 6 time
  if Text.byteLength date = 8 ∧ (date ++ time).all Char.isDigit then some (date, time) else none

def localText (date time : List Char) : String :=
  String.ofList
    (date.take 4 ++ ['-'] ++ (date.drop 4).take 2 ++ ['-'] ++ date.drop 6 ++ ['T'] ++
      time.take 2 ++ [':'] ++ (time.drop 2).take 2 ++ [':'] ++ time.drop 4)

variable (value : String)

def toLocalDateTime : Option String := do
  let (date, time) ← dateTimeDigits value.toList
  if «exists» date time then some (localText date time) else none

def toUtcDateTime : Option String := do
  let local_ ← Text.stripLast (fun char => char == 'Z' || char == 'z') value.toList
  let stamp ← toIcalDateTime (String.ofList local_)
  some (stamp ++ "Z")

def fromUtcDateTime : Option String := do
  let local_ ← Text.stripLast (fun char => char == 'Z' || char == 'z') value.toList
  -- the byte at 8 is compared, so a character that starts before it does not match
  let (_, rest) ← Text.splitAtByte 8 local_
  if Text.byteLength local_ = 15 ∧ rest.head? = some 'T' then
    let stamp ← toLocalDateTime (String.ofList local_)
    some (stamp ++ "Z")
  else none

def atMidnight : Bool := "T000000".toList.isSuffixOf value.toList

/-! ## Offsets -/

def twoDigits (digits : List Char) (at_ : Nat) : Option Nat :=
  (Text.slice at_ (at_ + 2) digits).bind (Text.parseUnsigned 32)

/-- A UTC offset as RFC 5545 §3.3.14 writes it. Colons are accepted, and seconds
are written only when there are any. -/
def utcOffset : Option String :=
  match value.toList with
  | [] => none
  | sign :: rest =>
    let digits := rest.filter (· ≠ ':')
    if (sign = '+' ∨ sign = '-') ∧ digits.all Char.isDigit then do
      let hours ← twoDigits digits 0
      let minutes ← twoDigits digits 2
      let seconds ←
        if digits.length = 4 then some 0
        else if digits.length = 6 then twoDigits digits 4
        else none
      if 23 < hours ∨ 59 < minutes ∨ 60 < seconds then none
      else if sign = '-' ∧ hours = 0 ∧ minutes = 0 ∧ seconds = 0 then none
      else
        let tail := if seconds = 0 then [] else Text.padded 2 seconds
        some (String.ofList (sign :: Text.padded 2 hours ++ Text.padded 2 minutes ++ tail))
    else none

def offsetSeconds (offset : String) : Option Int := do
  let offset ← utcOffset offset
  match offset.toList with
  | [] => none
  | sign :: digits =>
    let hours ← twoDigits digits 0
    let minutes ← twoDigits digits 2
    let seconds := (twoDigits digits 4).getD 0
    let magnitude : Int := hours * 3600 + minutes * 60 + seconds
    some (if sign = '-' then -magnitude else magnitude)

def secondsPerDay : Int := 24 * 60 * 60

/-- The number between two byte positions. -/
def numberAt (text : List Char) (start stop : Nat) : Option Int :=
  (Text.slice start stop text).bind (Text.parseSigned 64)

/-- The year, the month, the day and the seconds of the day of a
`LocalDateTime`. -/
def parts (local_ : String) : Option (Int × Int × Int × Int) := do
  let (date, time) ← Text.splitOnce 'T' local_.toList
  let year ← numberAt date 0 4
  let month ← numberAt date 5 7
  let day ← numberAt date 8 10
  let hour ← numberAt time 0 2
  let minute ← numberAt time 3 5
  let second ← numberAt time 6 8
  some (year, month, day, hour * 3600 + minute * 60 + second)

def dayBefore (year month day : Int) : Option (Int × Int × Int) :=
  if month = 1 ∧ day = 1 then some (year - 1, 12, 31)
  else if day = 1 then
    (daysInMonthOf year (month - 1)).map fun length => (year, month - 1, length)
  else some (year, month, day - 1)

def dayAfter (year month day : Int) : Option (Int × Int × Int) :=
  (daysInMonthOf year month).map fun length =>
    if day ≠ length then (year, month, day + 1)
    else if month = 12 then (year + 1, 1, 1)
    else (year, month + 1, 1)

def moved (local_ : String) (seconds : Int) : Option String := do
  let (year, month, day, ofDay) ← parts local_
  let total := ofDay + seconds
  let ((year, month, day), ofDay) ←
    if total < 0 then (dayBefore year month day).map fun date => (date, total + secondsPerDay)
    else if secondsPerDay ≤ total then
      (dayAfter year month day).map fun date => (date, total - secondsPerDay)
    else some ((year, month, day), total)
  if 0 ≤ year ∧ year ≤ 9999 then
    some (String.ofList
      (Text.paddedInt 4 year ++ ['-'] ++ Text.paddedInt 2 month ++ ['-'] ++
        Text.paddedInt 2 day ++ ['T'] ++ Text.paddedInt 2 (ofDay.tdiv 3600) ++ [':'] ++
        Text.paddedInt 2 ((ofDay.tdiv 60).tmod 60) ++ [':'] ++ Text.paddedInt 2 (ofDay.tmod 60)))
  else none

def atOffset (utc offset : String) : Option String := do
  moved utc (← offsetSeconds offset)

def fromOffset (local_ offset : String) : Option String := do
  moved local_ (-(← offsetSeconds offset))

/-! ## Durations -/

/-- How far a duration is read, and its normalised form. -/
structure DurationState where
  rest : List Char
  out : List Char
  measured : Bool
  timePart : Bool
  hasNonZero : Bool

/-- One round of `stated_duration`: a number with its unit, or the time
designator. -/
def durationUnit (state : DurationState) (unit : Char) : DurationState :=
  if unit = 'T' then
    match Text.stripFirst (fun char => char == 'T' || char == 't') state.rest with
    | some after => { state with rest := after, measured := false, timePart := true }
    | none => state
  else
    let number := state.rest.takeWhile Char.isDigit
    let after := Text.stripFirst (fun char => char == unit || char == unit.toLower)
      (state.rest.drop number.length)
    match number, after with
    | [], _ | _, none => state
    | number, some after =>
      let normalized := number.dropWhile (· == '0')
      { rest := after
        out := state.out ++ (if state.timePart then ['T'] else []) ++
          (if normalized = [] then ['0'] else normalized) ++ [unit]
        measured := true
        timePart := false
        hasNonZero := state.hasNonZero || normalized ≠ [] }

/-- An ISO 8601 duration without a sign, in the form without leading zeros. -/
def statedDuration : Option String := do
  let value := value.toList
  let value := (Text.stripFirst (· == '+') value).getD value
  let rest ← Text.stripFirst (fun char => char == 'P' || char == 'p') value
  let read := ['W', 'D', 'T', 'H', 'M', 'S'].foldl durationUnit ⟨rest, ['P'], false, false, false⟩
  if !read.measured || read.rest ≠ [] then none
  else if !read.hasNonZero then some "PT0S"
  else some (String.ofList read.out)

/-- A duration with an optional minus sign, for a reminder. -/
def statedOffset : Option String :=
  match Text.stripFirst (· == '-') value.toList with
  | some magnitude => (statedDuration (String.ofList magnitude)).map fun duration => "-" ++ duration
  | none => statedDuration value

def toDuration (seconds : Int) : Option String :=
  if seconds ≤ 0 then none
  else
    let days := seconds.toNat / 86400
    let rest := seconds.toNat % 86400
    let amount (number : Nat) (unit : String) : String :=
      if 0 < number then toString number ++ unit else ""
    let time :=
      if 0 < rest then
        "T" ++ amount (rest / 3600) "H" ++ amount (rest / 60 % 60) "M" ++ amount (rest % 60) "S"
      else ""
    some ("P" ++ amount days "D" ++ time)

/-- A date-time value in seconds on its own wall clock. -/
def instant : Option Int := do
  let local_ ← toLocalDateTime value
  let separates (char : Char) : Bool := char == '-' || char == 'T' || char == ':'
  match (local_.toList.splitOnP separates).filterMap (Text.parseSigned 64) with
  | [year, month, day, hour, minute, second] =>
    some (daysFromCivil year month day * 86400 + hour * 3600 + minute * 60 + second)
  | _ => none

/-- How long a period lasts, given its two halves. -/
def periodLength (start stop : String) : Option String :=
  if startsWith stop 'P' || startsWith stop 'p' then statedDuration stop
  else do
    let stop ← instant stop
    let start ← instant start
    toDuration (stop - start)

def wholeDays (duration : String) : Bool :=
  match Text.stripFirst (fun char => char == 'P' || char == 'p') duration.toList with
  | none => false
  | some parts => parts ≠ [] && !parts.contains 'T' && !parts.contains 't'

end EvolutionJmap.Ical
