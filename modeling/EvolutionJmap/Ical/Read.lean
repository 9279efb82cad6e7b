import EvolutionJmap.FreeName
import EvolutionJmap.Ical.Draw

/-!
# Reading an event (`jmap-ical/src/event.rs`)

The calendar event of an iCalendar document.  The series is the `VEVENT` without
a recurrence identifier, and the other ones are its overrides.
-/

namespace EvolutionJmap.Ical

/-! ## Maps -/

def nonEmptyMap (map : ValueMap) : Option ValueMap := if map.isEmpty then none else some map

def orInsert (map : ValueMap) (key : String) (value : Value) : ValueMap :=
  if map.contains key then map else map.insert key value

/-- Set a member to a value that is stated. -/
def insertSome (map : ValueMap) (key : String) (value : Option Value) : ValueMap :=
  (value.map (map.insert key)).getD map

/-! ## Alerts -/

/-- Whether a reminder is relative to the end, or nothing for a moment that
cannot be named. -/
def readRelated (property : ICalendarEntry) : Option Bool :=
  match entryParam property "RELATED" with
  | none => some false
  | some related =>
    if eqIgnoreAsciiCase related "START" then some false
    else if eqIgnoreAsciiCase related "END" then some true
    else none

def readAlert (valarm : ICalendarComponent) : Option Value := do
  let action ← componentText valarm "ACTION"
  if !eqIgnoreAsciiCase action displayAlert.2 then none
  else
    let property ← componentEntry valarm "TRIGGER"
    let offset ← statedOffset (entryRawValue property)
    let relatedToEnd ← readRelated property
    let trigger := Value.ofMembers
      ([("@type", .string "OffsetTrigger"), ("offset", .string offset)] ++
        if relatedToEnd then [("relativeTo", .string "end")] else [])
    let acknowledged := ((componentEntry valarm "ACKNOWLEDGED").filter fun entry =>
      (entryParam entry "TZID").isNone).bind fun entry => fromUtcDateTime (entryRawValue entry)
    some (Value.ofMembers
      ([("@type", .string "Alert"), ("trigger", trigger), ("action", .string displayAlert.1)] ++
        (acknowledged.map fun stamp => ("acknowledged", Value.string stamp)).toList))

def keyedAlerts : List ICalendarComponent → ValueMap → List Value → ValueMap × List Value
  | [], alerts, nameless => (alerts, nameless)
  | valarm :: rest, alerts, nameless =>
    match readAlert valarm with
    | none => keyedAlerts rest alerts nameless
    | some alert =>
      match (componentText valarm "UID").filter namesMapEntry with
      | some uid => keyedAlerts rest (alerts.insert uid alert) nameless
      | none => keyedAlerts rest alerts (nameless ++ [alert])

/-- Give each alert without a key the next free one. -/
def nameAlerts : List Value → (last : Nat) → ValueMap → ValueMap
  | [], _, alerts => alerts
  | alert :: rest, last, alerts =>
    let number := nextFree alerts.contains (inventedKey "a") (alerts.entries.length + 1) last
    nameAlerts rest number (alerts.insert (inventedKey "a" number) alert)

variable (vevent : ICalendarComponent)

def readAlerts (components : List ICalendarComponent) : Option ValueMap :=
  let alarms := (childrenOf components vevent).filter fun child =>
    eqIgnoreAsciiCase child.componentType "VALARM"
  let (alerts, nameless) := keyedAlerts alarms ∅ []
  nonEmptyMap (nameAlerts nameless 0 alerts)

/-! ## Participants -/

/-- Participants by address, in the order of the lines. -/
abbrev People := List (String × ValueMap)

/-- Change the entry of an address, which is added if it is new. -/
def updatePerson (address : String) (update : ValueMap → ValueMap) : People → People
  | [] =>
    [(address, update (BTreeMap.ofList
      [("@type", .string "Participant"), ("calendarAddress", .string address)]))]
  | (known, participant) :: rest =>
    if eqIgnoreAsciiCase known address then (known, update participant) :: rest
    else (known, participant) :: updatePerson address update rest

variable (line : ICalendarEntry)

def namedBy (participant : ValueMap) : ValueMap :=
  match nonEmpty (entryParam line "CN") with
  | none => participant
  | some name => orInsert participant "name" (.string name)

def readOrganizerLine (participant : ValueMap) : ValueMap :=
  (namedBy line participant).insert "roles" (.ofMembers [(ownerRole, .bool true)])

/-- The roles that a guest line adds. -/
def rolesBy (roles : ValueMap) : ValueMap :=
  let role := (entryParam line "ROLE").bind participantRoles.fromIcal
  let roles := if role = some "informational" then roles else roles.insert "attendee" (.bool true)
  match role with
  | none | some "attendee" | some "required" => roles
  | some role => roles.insert role (.bool true)

def readAttendeeLine (participant : ValueMap) : ValueMap :=
  let participant := namedBy line participant
  let roles := Value.toMap (((participant.get? "roles").bind Value.asObject).getD [])
  let participant := participant.insert "roles" (.ofMap (rolesBy line roles))
  let stated (name : String) (table : Table) : Option Value :=
    ((entryParam line name).bind table.fromIcal).map .string
  let participant := insertSome participant "kind" (stated "CUTYPE" participantKinds)
  let participant := insertSome participant "participationStatus"
    (stated "PARTSTAT" participationStatuses)
  if (entryParam line "RSVP").any (eqIgnoreAsciiCase · "TRUE") then
    participant.insert "expectReply" (.bool true)
  else participant

def readPerson (read : ICalendarEntry → ValueMap → ValueMap) (people : People)
    (line : ICalendarEntry) : People :=
  let address := entryRawValue line
  if namesAnAddress address then updatePerson address (read line) people else people

/-- The people that the lines of a component name. -/
def readPeople : People :=
  let organizer := (componentEntry vevent "ORGANIZER").toList.foldl
    (readPerson readOrganizerLine) []
  (componentEntries vevent "ATTENDEE").foldl (readPerson readAttendeeLine) organizer

def readParticipants : Option ValueMap :=
  nonEmptyMap (BTreeMap.ofList ((readPeople vevent).mapIdx fun index person =>
    (inventedKey "p" (index + 1), .ofMap person.2)))

def readOrganizer : Option String :=
  ((componentEntry vevent "ORGANIZER").map entryRawValue).filter namesAnAddress

/-! ## Places, conferences and links -/

def statedKey : Option String :=
  (entryParam line xJmapKey).filter namesMapEntry

def readLocations : Option ValueMap :=
  (componentEntry vevent "LOCATION").bind fun property =>
    let name := entryText property
    if name = "" then none
    else some (BTreeMap.ofList
      [((statedKey property).getD "l1",
        .ofMembers [("@type", .string "Location"), ("name", .string name)])])

/-- The loop over the lines of a family: each readable line gets the key that it
states or an invented one that no line states. -/
def readKeyed (stem : String) (read : ICalendarEntry → Option Value) (stated : List String) :
    List ICalendarEntry → (invented : Nat) → ValueMap → ValueMap
  | [], _, map => map
  | line :: lines, invented, map =>
    match read line with
    | none => readKeyed stem read stated lines invented map
    | some value =>
      match statedKey line with
      | some key => readKeyed stem read stated lines invented (map.insert key value)
      | none =>
        let number := nextFree (fun key => stated.contains key) (inventedKey stem)
          (stated.length + 1) invented
        readKeyed stem read stated lines number (map.insert (inventedKey stem number) value)

def readFamily (stem : String) (read : ICalendarEntry → Option Value)
    (lines : List ICalendarEntry) : Option ValueMap :=
  nonEmptyMap (readKeyed stem read (lines.filterMap statedKey) lines 0 ∅)

def readConference : Option Value :=
  let value := entryRawValue line
  if namesAResource value then
    let features := Value.toMap ((entryParamValues line "FEATURE").filterMap fun feature =>
      (conferenceFeatures.fromIcal feature).map fun name => (name, .bool true))
    some (.ofMembers
      ([("@type", .string "VirtualLocation"), ("uri", .string value)] ++
        ((nonEmpty (entryParam line "LABEL")).map fun name => ("name", Value.string name)).toList ++
        if features.isEmpty then [] else [("features", .ofMap features)]))
  else none

def readVirtualLocations : Option ValueMap :=
  readFamily "v" readConference (componentEntries vevent "CONFERENCE")

/-- What an `IMAGE` or an `ATTACH` line says besides the address and the media
type. -/
def readLinkKind : List (String × Value) :=
  if eqIgnoreAsciiCase line.name "IMAGE" then
    ("rel", .string iconRel) ::
      (((entryParam line "DISPLAY").bind linkDisplays.fromIcal).map fun display =>
        ("display", Value.ofMembers [(display, .bool true)])).toList
  else
    (((entryParam line "SIZE").bind fun size => Text.parseUnsigned 64 size.toList).map fun size =>
      ("size", Value.int size)).toList

/-- One `ATTACH` or `IMAGE` line. -/
def readLink : Option Value :=
  let href := entryRawValue line
  if namesAResource href then
    some (.ofMembers
      ([("@type", .string "Link"), ("href", .string href)] ++ readLinkKind line ++
        ((nonEmpty (entryParam line "FMTTYPE")).map fun mediaType =>
          ("contentType", Value.string mediaType)).toList))
  else none

def readLinks : Option ValueMap :=
  readFamily "k" readLink (vevent.entries.filter fun entry =>
    eqIgnoreAsciiCase entry.name "ATTACH" || eqIgnoreAsciiCase entry.name "IMAGE")

/-! ## Simple properties -/

def readKeywords : Option ValueMap :=
  let tags := (((componentEntries vevent "CATEGORIES").flatMap entryTexts).map trimText).filter
    (· ≠ "")
  nonEmptyMap (BTreeMap.ofList (tags.map fun tag => (tag, .bool true)))

def readPrivacy : Option String :=
  (componentText vevent "CLASS").bind privacies.fromIcal

def readPriority : Option Int :=
  ((componentText vevent "PRIORITY").bind fun text =>
    Text.parseSigned 64 text.toList).filter knownPriority

def readTransparency : Option String :=
  (componentText vevent "TRANSP").bind freeBusyStatuses.fromIcal

def readStatus : Option String :=
  (componentText vevent "STATUS").bind statuses.fromIcal

def readDuration : Option String :=
  match (componentEntry vevent "DURATION").bind fun entry =>
    statedDuration (entryRawValue entry) with
  | some duration => some duration
  | none => do
      let start ← (componentEntry vevent "DTSTART").bind fun entry => instant (entryRawValue entry)
      let stop ← (componentEntry vevent "DTEND").bind fun entry => instant (entryRawValue entry)
      toDuration (stop - start)

/-! ## Zones of a document -/

/-- One `VTIMEZONE` and the zone that it says it describes. -/
structure StatedZone where
  name : Option String
  observances : List ICalendarComponent

abbrev Zones := BTreeMap String StatedZone

def isTimezone (component : ICalendarComponent) : Bool :=
  eqIgnoreAsciiCase component.componentType "VTIMEZONE"

def statedZones (components : List ICalendarComponent) : Zones :=
  BTreeMap.ofList ((components.filter isTimezone).filterMap fun vtimezone =>
    (componentText vtimezone "TZID").map fun tzid =>
      let location := (componentText vtimezone "X-LIC-LOCATION").filter fun location =>
        !namesTimeZone tzid && namesTimeZone location
      (tzid, ⟨location.or (resolveCanonicalTimeZone tzid), childrenOf components vtimezone⟩))

def zoneOf (tzid : String) (zones : Zones) : String :=
  match (zones.get? tzid).bind StatedZone.name with
  | some name => name
  | none => if namesTimeZone tzid then tzid else (uniqueTzidToIana tzid).getD tzid

def readStart (zones : Zones) : Option String × Option String × Option Bool :=
  match componentEntry vevent "DTSTART" with
  | none => (none, none, none)
  | some property =>
    let value := entryRawValue property
    match toLocalDateTime value with
    | none => (none, none, none)
    | some start =>
      if !(containsChar value 'T' || containsChar value 't') then (some start, none, some true)
      else
        let zone :=
          if endsWith value 'Z' then some utc
          else (nonEmpty (entryParam property "TZID")).map fun tzid => zoneOf tzid zones
        (some start, zone, none)

def startZone (zones : Zones) (timeZone : Option String) : Option StatedZone :=
  if timeZone.isNone then none
  else
    ((componentEntry vevent "DTSTART").bind fun property => entryParam property "TZID").bind
      fun tzid =>
        (zones.get? tzid).or (zones.values.find? fun zone =>
          zone.name == some tzid || (timeZone.isSome && zone.name == timeZone))

/-- What the end of a rule is read against: the zone of the start. -/
def startEnds (zones : Zones) (timeZone : Option String) : Ends :=
  .in ⟨timeZone, (startZone vevent zones timeZone).map StatedZone.observances⟩

/-- One `VEVENT` without named instances. -/
def readVevent (zones : Zones) (components : List ICalendarComponent) : CalendarEvent :=
  let text (name : String) : Option String := nonEmpty (componentText vevent name)
  let (start, timeZone, showWithoutTime) := readStart vevent zones
  let ends := startEnds vevent zones timeZone
  { id := text "UID"
    eventType := some "Event"
    uid := text xJmapUid
    title := text "SUMMARY"
    description := text "DESCRIPTION"
    start := start
    timeZone := timeZone
    duration := readDuration vevent
    showWithoutTime := showWithoutTime
    status := readStatus vevent
    freeBusyStatus := readTransparency vevent
    priority := readPriority vevent
    privacy := readPrivacy vevent
    locations := readLocations vevent
    virtualLocations := readVirtualLocations vevent
    keywords := readKeywords vevent
    alerts := readAlerts vevent components
    participants := readParticipants vevent
    organizerCalendarAddress := readOrganizer vevent
    links := readLinks vevent
    recurrenceRule := (componentEntries vevent "RRULE").findSome? fun property =>
      rruleToRule (entryRawValue property) ends }

/-! ## Overrides -/

def instancePatch (series occurrence : CalendarEvent) (id : String) : Value :=
  let text (name : String) (was now : Option String) : List (String × Value) :=
    if was = now then [] else [(name, .ofText now)]
  let map (name : String) (was now : Option ValueMap) : List (String × Value) :=
    if was = now then [] else [(name, .ofOption (now.map .ofMap))]
  .ofMembers
    (text "title" series.title occurrence.title ++
      text "description" series.description occurrence.description ++
      text "timeZone" series.timeZone occurrence.timeZone ++
      text "duration" series.duration occurrence.duration ++
      text "status" series.status occurrence.status ++
      text "freeBusyStatus" series.freeBusyStatus occurrence.freeBusyStatus ++
      text "privacy" series.privacy occurrence.privacy ++
      (if series.priority = occurrence.priority then []
        else [("priority", .ofOption (occurrence.priority.map .int))]) ++
      map "keywords" series.keywords occurrence.keywords ++
      map "alerts" series.alerts occurrence.alerts ++
      ((occurrence.start.filter (· ≠ id)).map fun start => ("start", Value.string start)).toList)

def valuesOf (component : ICalendarComponent) (name : String) : List String :=
  (componentEntries component name).flatMap entryTexts

/-- An instance that an `RDATE` value adds. A period states its length. -/
def addedInstance (duration : Option String) (value : String) : Option (String × Value) :=
  let (start, length) : String × Option (Option String) :=
    match splitTextOnce '/' value with
    | some (start, stop) => (start, some (periodLength start stop))
    | none => (value, none)
  (toLocalDateTime start).map fun date =>
    (date,
      match length.filter (· ≠ duration) with
      | some length => .ofMembers [("duration", .ofText length)]
      | none => .ofMembers [])

def excludedInstance (value : String) : Option (String × Value) :=
  (toLocalDateTime value).map fun date => (date, .ofMembers [("excluded", .bool true)])

def detachedInstance (event : CalendarEvent) (zones : Zones) (components : List ICalendarComponent)
    (vevent : ICalendarComponent) : Option (String × Value) := do
  let property ← componentEntry vevent recurrenceId
  if (entryParam property "RANGE").isSome then none
  else
    let id ← toLocalDateTime (entryRawValue property)
    some (id, instancePatch event (readVevent vevent zones components) id)

def readOverrides (series : ICalendarComponent) (others : List ICalendarComponent)
    (event : CalendarEvent) (zones : Zones) (components : List ICalendarComponent) :
    Option ValueMap :=
  nonEmptyMap (BTreeMap.ofList
    ((valuesOf series "RDATE").filterMap (addedInstance event.duration) ++
      (valuesOf series "EXDATE").filterMap excludedInstance ++
      others.filterMap (detachedInstance event zones components)))

/-! ## Time zone definitions -/

/-- A `STANDARD` or `DAYLIGHT` component as a time zone rule. -/
def readObservance (component : ICalendarComponent) : Option Value := do
  let start ← (componentEntry component "DTSTART").bind fun entry =>
    toLocalDateTime (entryRawValue entry)
  let offsetFrom ← (componentText component "TZOFFSETFROM").bind utcOffset
  let offsetTo ← (componentText component "TZOFFSETTO").bind utcOffset
  let rules ← (componentEntries component "RRULE").mapM fun property =>
    (rruleToRule (entryRawValue property) (.at offsetFrom)).map RecurrenceRule.toJson
  let names := ((componentEntries component "TZNAME").map entryText).filter (· ≠ "")
  some (.ofMembers
    ([("@type", .string "TimeZoneRule"), ("start", .string start),
        ("offsetFrom", .string offsetFrom), ("offsetTo", .string offsetTo)] ++
      (if rules.isEmpty then [] else [("recurrenceRules", .array rules)]) ++
      if names.isEmpty then []
      else [("names", .ofMembers (names.map fun name => (name, .bool true)))]))

def readObservances (vtimezone : ICalendarComponent) (components : List ICalendarComponent)
    (name : String) : Option (List Value) :=
  ((childrenOf components vtimezone).filter fun child =>
    eqIgnoreAsciiCase child.componentType name).mapM readObservance

def readDefinition (vtimezone : ICalendarComponent) (components : List ICalendarComponent) :
    Option Value := do
  let tzid ← componentText vtimezone "TZID"
  let standard ← readObservances vtimezone components "STANDARD"
  let daylight ← readObservances vtimezone components "DAYLIGHT"
  if standard.isEmpty && daylight.isEmpty then none
  else some (.ofMembers
    ([("@type", .string "TimeZone"), ("tzId", .string tzid)] ++
      (if standard.isEmpty then [] else [("standard", .array standard)]) ++
      if daylight.isEmpty then [] else [("daylight", .array daylight)]))

def referredZones (event : CalendarEvent) : List String :=
  (event.timeZone :: (entriesOf event.recurrenceOverrides).map fun (_, patch) =>
    (patch.get? "timeZone").bind Value.asStr).filterMap id

section
variable (calcard : Calcard)

/-- The definition of one custom zone, if the document defines it and it can be
drawn again. -/
def readZone (components : List ICalendarComponent) (tzid : String) : Option Value := do
  let vtimezone ← (components.filter isTimezone).find? fun vtimezone =>
    componentText vtimezone "TZID" == some tzid
  let definition ← readDefinition vtimezone components
  if (vtimezoneOf calcard tzid definition).isNone then none else some definition

def readTimeZones (components : List ICalendarComponent) (event : CalendarEvent) :
    Option ValueMap :=
  nonEmptyMap (BTreeMap.ofList
    (((referredZones event).filter fun tzid =>
      !namesTimeZone tzid && startsWith tzid '/').filterMap fun tzid =>
        (readZone calcard components tzid).map fun definition => (tzid, definition)))

/-! ## The document -/

def isEvent (component : ICalendarComponent) : Bool :=
  eqIgnoreAsciiCase component.componentType "VEVENT"

/-- The position of the series among the events of a document. -/
def seriesIndex (vevents : List ICalendarComponent) : Nat :=
  (vevents.findIdx? fun vevent => (componentEntry vevent recurrenceId).isNone).getD 0

def eventOf (components : List ICalendarComponent) : Except ICalError CalendarEvent :=
  let vevents := components.filter isEvent
  let index := seriesIndex vevents
  match vevents[index]? with
  | none => .error .noEvent
  | some series =>
    let zones := statedZones components
    let event := { readVevent series zones components with version := some "2.0" }
    let event := { event with
      recurrenceOverrides := readOverrides series (vevents.eraseIdx index) event zones components }
    .ok { event with timeZones := readTimeZones calcard components event }

/-- Read an event from iCalendar. -/
def icalToEvent (text : String) : Except ICalError CalendarEvent := do
  let components ← parseIcal calcard text
  eventOf calcard components

end

end EvolutionJmap.Ical
