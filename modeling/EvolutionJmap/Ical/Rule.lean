import EvolutionJmap.Ical.Zone
import EvolutionJmap.Proto.Calendars

/-!
# Recurrence rules (`jmap-ical/src/event.rs`)

A JSCalendar `RecurrenceRule` as the value of an `RRULE` line and back.
-/

namespace EvolutionJmap.Ical

/-- The zone that the times of a component are in, as far as it is known. -/
structure Zoned where
  name : Option String
  observances : Option (List ICalendarComponent)

namespace Zoned

def named (name : Option String) : Zoned := ⟨name, none⟩

def offsetAt (zone : Zoned) (utc : String) : Option Int :=
  zone.observances.bind fun observances => Zone.offsetAt observances utc

end Zoned

/-- What the end of a rule is read against: the zone of the event, or a fixed
offset. -/
inductive Ends where
  | «in» (zone : Zoned)
  | «at» (offset : String)

/-! ## Writing -/

variable (rule : RecurrenceRule)

/-- Whether a rule has a frequency, and an end that is a date-time. -/
def writable : Bool :=
  rule.frequency ≠ "" && rule.«until».all fun «until» => (toIcalDateTime «until»).isSome

def rulePart (name : String) (tokens : List String) : String :=
  name ++ "=" ++ joined ',' tokens

/-- A rule part whose values are all written or none is. -/
def tokensPart {α : Type} (name : String) (token : α → Option String) (values : List α) :
    Option String :=
  if values.isEmpty then none else (values.mapM token).map (rulePart name)

def timeOfDayPart (name : String) (values : Option (List Nat)) (largest : Nat) :
    Option String :=
  values.bind fun values =>
    if values.isEmpty || values.any (largest < ·) then none
    else some (rulePart name (values.map toString))

def byHourPart : Option String := timeOfDayPart "BYHOUR" rule.byHour 23

def byMinutePart : Option String :=
  timeOfDayPart "BYMINUTE" rule.byMinute 59

/-- Leap seconds are accepted. -/
def bySecondPart : Option String :=
  timeOfDayPart "BYSECOND" rule.bySecond 60

/-- Whether a frequency allows ordinals in `BYDAY`. -/
def countsWithinAPeriod (frequency : String) : Bool :=
  ["monthly", "yearly"].any fun period => eqIgnoreAsciiCase period frequency

def byDayToken (frequency : String) (day : NDay) : Option String :=
  if !day.extra.isEmpty then none
  else
    (weekdays.find? fun weekday => eqIgnoreAsciiCase weekday day.day).bind fun weekday =>
      match day.nthOfPeriod with
      | none => some weekday
      | some nth =>
        if nth ≠ 0 ∧ countsWithinAPeriod frequency then some (toString nth ++ weekday) else none

def byDayPart : Option String :=
  rule.byDay.bind (tokensPart "BYDAY" (byDayToken rule.frequency))

/-- A number that is not zero and at most `largest` from either end. -/
def ordinalToken (largest number : Int) : Option String :=
  if (-largest ≤ number ∧ number ≤ -1) ∨ (1 ≤ number ∧ number ≤ largest) then
    some (toString number)
  else none

def monthDayToken : Int → Option String := ordinalToken 31

def byMonthDayPart : Option String :=
  rule.byMonthDay.bind fun days =>
    if eqIgnoreAsciiCase "weekly" rule.frequency then none
    else tokensPart "BYMONTHDAY" monthDayToken days

/-- Whether a frequency allows `BYYEARDAY`. -/
def holdsAYear (frequency : String) : Bool :=
  ! ["daily", "weekly", "monthly"].any fun period => eqIgnoreAsciiCase period frequency

def yearDayToken : Int → Option String := ordinalToken 366

def byYearDayPart : Option String :=
  rule.byYearDay.bind fun days =>
    if holdsAYear rule.frequency then tokensPart "BYYEARDAY" yearDayToken days else none

def weekNoToken : Int → Option String := ordinalToken 53

def byWeekNoPart : Option String :=
  rule.byWeekNo.bind fun weeks =>
    if eqIgnoreAsciiCase "yearly" rule.frequency then tokensPart "BYWEEKNO" weekNoToken weeks
    else none

/-- A month from 1 to 12 in the spelling that iCalendar writes back. -/
def monthToken (month : String) : Option String :=
  match Text.parseUnsigned 32 month.toList with
  | some number =>
    if 1 ≤ number ∧ number ≤ 12 ∧ month = toString number then some month else none
  | none => none

def byMonthPart : Option String :=
  rule.byMonth.bind (tokensPart "BYMONTH" monthToken)

def setPositionToken : Int → Option String := ordinalToken 366

def bySetPositionPart (selectsFromASet : Bool) : Option String :=
  rule.bySetPosition.bind fun positions =>
    if selectsFromASet then tokensPart "BYSETPOS" setPositionToken positions else none

/-- The parts that name a set, in the order that libical writes them. -/
def namedByParts : List String :=
  [bySecondPart rule, byMinutePart rule, byHourPart rule, byDayPart rule, byMonthDayPart rule,
    byYearDayPart rule, byWeekNoPart rule, byMonthPart rule].filterMap id

def weekdayToken (day : String) : Option String :=
  if day.toList.all Char.isLower then
    weekdays.find? fun weekday => eqIgnoreAsciiCase weekday day
  else none

def firstDayOfWeekPart : Option String :=
  (rule.firstDayOfWeek.bind weekdayToken).bind fun day =>
    if day = "MO" then none else some ("WKST=" ++ day)

def untilPart (ends : Ends) (asADate : Bool) («until» : String) : Option String := do
  let (stated, suffix) : Option String × String :=
    match ends with
    | .at offset => (fromOffset «until» offset, "Z")
    | .in zone => (some «until», if zone.name.any isUtc then "Z" else "")
  let «until» ← toIcalDateTime (← stated)
  some (if asADate then "UNTIL=" ++ String.ofList («until».toList.take 8)
    else "UNTIL=" ++ «until» ++ suffix)

/-- Write a rule as `RRULE`. -/
def ruleToRrule (ends : Ends) (asADate : Bool) : Option String :=
  if !writable rule then none
  else do
    let «until» ←
      match rule.«until» with
      | none => some []
      | some «until» => (untilPart ends asADate «until»).map ([·])
    let named := namedByParts rule
    let parts :=
      ["FREQ=" ++ toAsciiUppercase rule.frequency] ++
      (rule.count.map fun count => "COUNT=" ++ toString count).toList ++ «until» ++
      ((rule.interval.filter (· ≠ 1)).map fun interval =>
        "INTERVAL=" ++ toString interval).toList ++
      named ++ (bySetPositionPart rule !named.isEmpty).toList ++ (firstDayOfWeekPart rule).toList
    some (joined ';' parts)

def statedIs {α : Type} (values : Option α) (part : Option String) : Bool :=
  values.isNone || part.isSome

/-- Whether the `RRULE` line of a rule says all that the rule says. -/
def mapsRecurrenceRule : Bool :=
  rule.extra.isEmpty && rule.rscale.isNone && rule.skip.isNone && writable rule &&
    statedIs rule.byDay (byDayPart rule) && statedIs rule.byMonthDay (byMonthDayPart rule) &&
    statedIs rule.byYearDay (byYearDayPart rule) && statedIs rule.byWeekNo (byWeekNoPart rule) &&
    statedIs rule.byMonth (byMonthPart rule) && statedIs rule.bySecond (bySecondPart rule) &&
    statedIs rule.byMinute (byMinutePart rule) && statedIs rule.byHour (byHourPart rule) &&
    statedIs rule.bySetPosition (bySetPositionPart rule !(namedByParts rule).isEmpty) &&
    rule.firstDayOfWeek.all fun day => (weekdayToken day).isSome

def namesATimeOfDay : Bool :=
  (bySecondPart rule).isSome || (byMinutePart rule).isSome || (byHourPart rule).isSome

/-! ## Reading -/

/-- The end of a rule as a `LocalDateTime`. A value that cannot be restated is
kept, so that the rule does not become unbounded. -/
def readUntil (value : String) (ends : Ends) : String :=
  match toLocalDateTime value with
  | none => value
  | some local_ =>
    if !Zone.endsInZulu value then local_
    else
      match ends with
      | .at offset => (atOffset local_ offset).getD value
      | .in zone =>
        match zone.offsetAt local_ with
        | some offset => (moved local_ offset).getD value
        | none => if zone.name.any fun name => !isUtc name then local_ ++ "Z" else local_

/-- A `BYDAY` token. A token that is not understood is kept as it is. -/
def toNday (token : String) : NDay :=
  let chars := token.toList
  let unsigned := (Text.stripFirst (fun char => char == '+' || char == '-') chars).getD chars
  let digits := (unsigned.takeWhile Char.isDigit).length
  let ordinalLength := chars.length - unsigned.length + digits
  if digits = 0 then NDay.new (toAsciiLowercase token)
  else
    match Text.parseSigned 32 (chars.take ordinalLength) with
    | some nth =>
      if nth ≠ 0 then
        { NDay.new (toAsciiLowercase (String.ofList (chars.drop ordinalLength))) with
          nthOfPeriod := some nth }
      else NDay.new (toAsciiLowercase token)
    | none => NDay.new (toAsciiLowercase token)

/-- A signed token, zero if it is not understood. -/
def toMonthDay (token : String) : Int := (Text.parseSigned 32 token.toList).getD 0

/-- An unsigned token, the largest number if it is not understood. -/
def toTimeOfDay (token : String) : Nat := (Text.parseUnsigned 32 token.toList).getD (2 ^ 32 - 1)

def readRulePart (ends : Ends) (rule : RecurrenceRule) (key value : String) : RecurrenceRule :=
  match toAsciiUppercase key with
  | "FREQ" => { rule with frequency := toAsciiLowercase value }
  | "INTERVAL" => { rule with interval := Text.parseUnsigned 32 value.toList }
  | "COUNT" => { rule with count := Text.parseUnsigned 32 value.toList }
  | "UNTIL" => { rule with «until» := some (readUntil value ends) }
  | "BYDAY" => { rule with byDay := some ((splitText ',' value).map toNday) }
  | "BYMONTHDAY" => { rule with byMonthDay := some ((splitText ',' value).map toMonthDay) }
  | "BYYEARDAY" => { rule with byYearDay := some ((splitText ',' value).map toMonthDay) }
  | "BYWEEKNO" => { rule with byWeekNo := some ((splitText ',' value).map toMonthDay) }
  | "BYMONTH" => { rule with byMonth := some (splitText ',' value) }
  | "BYSECOND" => { rule with bySecond := some ((splitText ',' value).map toTimeOfDay) }
  | "BYMINUTE" => { rule with byMinute := some ((splitText ',' value).map toTimeOfDay) }
  | "BYHOUR" => { rule with byHour := some ((splitText ',' value).map toTimeOfDay) }
  | "BYSETPOS" => { rule with bySetPosition := some ((splitText ',' value).map toMonthDay) }
  | "WKST" => { rule with firstDayOfWeek := some (toAsciiLowercase value) }
  | _ => rule

/-- The loop of `rrule_to_rule`. It stops at an end without digits. -/
def readRuleParts (ends : Ends) : List String → RecurrenceRule → RecurrenceRule
  | [], rule => rule
  | part :: parts, rule =>
    match splitTextOnce '=' part with
    | none => readRuleParts ends parts rule
    | some (key, value) =>
      if toAsciiUppercase key = "UNTIL" ∧ (dateTimeDigits value.toList).isNone then rule
      else readRuleParts ends parts (readRulePart ends rule key value)

def frequencies : List String :=
  ["secondly", "minutely", "hourly", "daily", "weekly", "monthly", "yearly"]

/-- Read an `RRULE`. -/
def rruleToRule (value : String) (ends : Ends) : Option RecurrenceRule :=
  let rule := readRuleParts ends (splitText ';' value) {}
  if rule.frequency ∈ frequencies then some { rule with ruleType := some "RecurrenceRule" }
  else none

end EvolutionJmap.Ical
