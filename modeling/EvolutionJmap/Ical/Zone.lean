import EvolutionJmap.Ical.Component
import EvolutionJmap.Ical.DateTime

/-!
# The UTC offset of a `VTIMEZONE` at an instant (`jmap-ical/src/zone.rs`)

The observances of a definition say when their offsets begin.  A rule that the
code does not understand makes the whole answer unknown.
-/

namespace EvolutionJmap.Ical

def weekdays : List String := ["MO", "TU", "WE", "TH", "FR", "SA", "SU"]

namespace Zone

/-- How many years back a rule is searched. -/
def search : Int := 40

def lengthOf (year month : Int) : Option Int := daysInMonthOf year month

/-- The weekday of a date, with Monday as 0. -/
def weekday (year month day : Int) : Int := (daysFromCivil year month day + 3) % 7

def weekdayNamed (name : String) : Option Int :=
  let position := weekdays.findIdx fun weekday => eqIgnoreAsciiCase weekday name
  if position < weekdays.length then some position else none

def seconds (year month day ofDay : Int) : Option Int :=
  (lengthOf year month).bind fun length =>
    if 1 ≤ day ∧ day ≤ length then some (daysFromCivil year month day * 86400 + ofDay) else none

def secondsAt (local_ : String) : Option Int :=
  (parts local_).bind fun (year, month, day, ofDay) => seconds year month day ofDay

/-! ## The day of a yearly rule -/

inductive Day where
  | nth (ordinal weekday : Int)
  | weekdayAmong (weekday : Int) (dates : List Int)
  | ofMonth (date : Int)
  | ofStart (day : Int)

/-- Where the day of a rule falls in one month. -/
inductive Falls where
  | on (day : Int)
  | never
  /-- On several days. -/
  | set

namespace Day

/-- A day of the month that is not zero. -/
def date (text : String) : Option Int :=
  (Text.parseSigned 64 text.toList).filter (· ≠ 0)

def named (byDay byMonthDay : Option String) (start : Int) : Option Day :=
  match byDay, byMonthDay with
  | some token, some dates => do
      let weekday ← weekdayNamed token
      let dates ← (splitText ',' dates).mapM date
      some (.weekdayAmong weekday dates)
  | some token, none => do
      let token := token.toList
      let token := (Text.stripFirst (· == '+') token).getD token
      if Text.byteLength token < 2 then none
      else
        let (ordinal, name) ← Text.splitAtByte (Text.byteLength token - 2) token
        let nth ← Text.parseSigned 64 ordinal
        if nth = 0 then none
        else
          let weekday ← weekdayNamed (String.ofList name)
          some (.nth nth weekday)
  | none, some text => (date text).map .ofMonth
  | none, none => some (.ofStart start)

/-- A day of the month, counted from its end when negative. -/
def ofMonthDay (length day : Int) : Int := if 0 < day then day else length + 1 + day

def within (length day : Int) : Falls :=
  if 1 ≤ day ∧ day ≤ length then .on day else .never

def falls (day : Day) (year month length : Int) : Falls :=
  match day with
  | .nth ordinal wanted =>
    if 0 < ordinal then
      within length (1 + (wanted - weekday year month 1) % 7 + 7 * (ordinal - 1))
    else
      within length (length - (weekday year month length - wanted) % 7 + 7 * (ordinal + 1))
  | .weekdayAmong wanted dates =>
    let days := (dates.map (ofMonthDay length)).filter fun day =>
      1 ≤ day && day ≤ length && weekday year month day == wanted
    match days with
    | [] => .never
    | [day] => .on day
    | _ => .set
  | .ofMonth date => within length (ofMonthDay length date)
  | .ofStart day => within length day

def «of» (day : Day) (year month : Int) : Falls :=
  match lengthOf year month with
  | none => .never
  | some length => day.falls year month length

end Day

/-! ## Onsets -/

structure RuleParts where
  frequency : Option String := none
  interval : Int := 1
  (count «until» untilYear byMonth : Option Int := none)
  (byMonthDay byDay byHour byMinute bySecond : Option String := none)

def endsInZulu (value : String) : Bool := endsWith value 'Z' || endsWith value 'z'

/-- Read one part of a rule. `«from»` is the offset before the onset. -/
def readPart («from» : Int) (rule : RuleParts) (part : String) : Option RuleParts := do
  let (key, value) ← splitTextOnce '=' part
  match toAsciiUppercase key with
  | "FREQ" => some { rule with frequency := some value }
  | "INTERVAL" => some { rule with interval := ← Text.parseSigned 64 value.toList }
  | "COUNT" => some { rule with count := some (← Text.parseSigned 64 value.toList) }
  | "UNTIL" =>
    let local_ ← toLocalDateTime value
    let (year, _) ← parts local_
    let instant ← secondsAt local_
    let «until» := if endsInZulu value then instant else instant - «from»
    some { rule with untilYear := some year, «until» := some «until» }
  | "BYMONTH" => some { rule with byMonth := some (← Text.parseSigned 64 value.toList) }
  | "BYMONTHDAY" => some { rule with byMonthDay := some value }
  | "BYDAY" => some { rule with byDay := some value }
  | "BYHOUR" => some { rule with byHour := some value }
  | "BYMINUTE" => some { rule with byMinute := some value }
  | "BYSECOND" => some { rule with bySecond := some value }
  | "WKST" => some rule
  | _ => none

/-- A time of day field that a rule can restate. -/
def restatedField (value : Option String) (last default : Int) : Option Int :=
  match value with
  | none => some default
  | some value =>
    (Text.parseSigned 64 value.toList).filter fun field => 0 ≤ field && field ≤ last

def restated (ofDay : Int) (hour minute second : Option String) : Option Int := do
  let hour ← restatedField hour 23 (ofDay.tdiv 3600)
  let minute ← restatedField minute 59 ((ofDay.tdiv 60).tmod 60)
  let second ← restatedField second 59 (ofDay.tmod 60)
  some (hour * 3600 + minute * 60 + second)

/-- The loop of `rule_onsets` over the years, the latest first. -/
def yearOnsets («from» month ofDay : Int) («until» : Option Int) (day : Day) :
    List Int → Option (List Int)
  | [] => some []
  | year :: years =>
    match day.of year month with
    | .never => yearOnsets «from» month ofDay «until» day years
    | .set => none
    | .on number => do
        let onset := (← seconds year month number ofDay) - «from»
        let later ← yearOnsets «from» month ofDay «until» day years
        some (if «until».all fun last => onset ≤ last then onset :: later else later)

def ruleOnsets (rule start : String) («from» year : Int) : Option (List Int) := do
  let (startYear, startMonth, startDay, ofDay) ← parts start
  let read ← (splitText ';' rule).foldlM (readPart «from») {}
  let frequency ← read.frequency
  if !eqIgnoreAsciiCase frequency "YEARLY" || read.interval ≠ 1 then none
  else
    let last := (read.count.map fun count => min year (startYear + count - 1)).getD year
    let last := (read.untilYear.map (min last)).getD last
    let month := read.byMonth.getD startMonth
    let day ← Day.named read.byDay read.byMonthDay startDay
    let ofDay ← restated ofDay read.byHour read.byMinute read.bySecond
    let earliest := max startYear (last - search + 1)
    let years := (List.range (last - earliest + 1).toNat).map fun back => last - back
    let onsets ← yearOnsets «from» month ofDay read.«until» day years
    if onsets ≠ [] || earliest = startYear then some onsets else none

/-- When an observance begins: its start, its dates and its rules. -/
def onsets (observance : ICalendarComponent) («from» year : Int) : Option (List Int) := do
  let start ← toLocalDateTime (← componentText observance "DTSTART")
  let first := (← secondsAt start) - «from»
  let dates := (componentEntries observance "RDATE").flatMap entryTexts
  let dated ← dates.mapM fun date =>
    if containsChar date '/' then none
    else do
      let instant ← secondsAt (← toLocalDateTime date)
      some (instant - «from»)
  let ruled ← (componentEntries observance "RRULE").mapM fun rule =>
    ruleOnsets (entryRawValue rule) start «from» year
  some (first :: dated ++ ruled.flatten)

/-- The latest onset at or before the instant and the first onset of all, each
with its offset. -/
structure Standing where
  (inForce first : Option (Int × Int) := none)

def Standing.update (target «from» «to» : Int) (standing : Standing) (onset : Int) : Standing :=
  { inForce :=
      if onset ≤ target && standing.inForce.all fun (latest, _) => onset > latest
      then some (onset, «to») else standing.inForce
    first :=
      if standing.first.all fun (earliest, _) => onset < earliest
      then some (onset, «from») else standing.first }

/-- The loop of `offset_at` over the observances. -/
def stand (target year : Int) (standing : Standing) (observance : ICalendarComponent) :
    Option Standing :=
  if observance.componentType ∈ ["STANDARD", "DAYLIGHT"] then do
    let «from» ← offsetSeconds (← componentText observance "TZOFFSETFROM")
    let «to» ← offsetSeconds (← componentText observance "TZOFFSETTO")
    let onsets ← onsets observance «from» year
    some (onsets.foldl (Standing.update target «from» «to») standing)
  else some standing

def offsetAt (observances : List ICalendarComponent) (utc : String) : Option Int := do
  let (year, _) ← parts utc
  let target ← secondsAt utc
  let standing ← observances.foldlM (stand target year) {}
  (standing.inForce.or standing.first).map Prod.snd

end Zone

end EvolutionJmap.Ical
