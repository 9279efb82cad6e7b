import EvolutionJmap.Ical.Rule
import EvolutionJmap.Ical.Vocabulary

/-!
# Drawing an event (`jmap-ical/src/event.rs`)

The iCalendar document of a calendar event, and the predicates that say when the
document shows a property whole.
-/

namespace EvolutionJmap.Ical

def lineOf (name : String) (value : Option String) : List ICalendarEntry :=
  (value.map (makeEntry name)).toList

def nonEmpty (text : Option String) : Option String := text.filter (· ≠ "")

def entriesOf (map : Option ValueMap) : List (String × Value) :=
  (map.map BTreeMap.entries).getD []

/-! ## Places -/

/-- Whether a save can patch the one place of the event. -/
def mapsLocations (locations : ValueMap) : Bool :=
  match locations.entries with
  | [] => true
  | [(key, location)] =>
    key ≠ "" && location.isObject && (location.get? "name").all fun name => name.asStr.isSome
  | _ => false

def placeName (location : Value) : Option String :=
  nonEmpty ((location.get? "name").bind Value.asStr)

variable (event : CalendarEvent)

/-- The key and the name of the place that is shown. -/
def drawnPlace : Option (String × String) :=
  (entriesOf event.locations).findSome? fun (key, location) =>
    (placeName location).map fun name => (key, name)

/-! ## Conferences -/

def statedName (value : Value) : Option String :=
  nonEmpty ((value.get? "name").bind Value.asStr)

def joiningFeatures (location : Value) : List String :=
  (conferenceFeatures.filter fun row =>
    ((location.get? "features").bind (·.get? row.1)) = some (.bool true)).map Prod.snd

def drawnConference (key : String) (location : Value) : Option ICalendarEntry :=
  (((location.get? "uri").bind Value.asStr).filter namesAResource).map fun uri =>
    ((((makeUriEntry "CONFERENCE" uri).withNamedParam "VALUE" "URI").withNamedParams "FEATURE"
      (joiningFeatures location)).withNamedParams "LABEL"
        (statedName location).toList).withNamedParam
        xJmapKey key

def drawnConferences : List ICalendarEntry :=
  (entriesOf event.virtualLocations).filterMap fun (key, location) => drawnConference key location

def mapsVirtualLocations (locations : ValueMap) : Bool :=
  locations.entries.all fun (key, location) =>
    key ≠ "" && (drawnConference key location).isSome &&
      ((location.get? "name").all fun name => name.asStr.isSome) &&
      match location.get? "features" with
      | none => true
      | some (.object features) =>
        features.all fun (feature, held) =>
          held = .bool true && conferenceFeatures.any fun row => row.1 = feature
      | some _ => false

/-! ## Links -/

/-- The JSCalendar value's spelling: of a text, or of the first member of a set
that the table names. -/
def spelled (table : Table) (value : Option Value) : Option String :=
  value.bind fun value =>
    (table.find? fun row =>
      match value with
      | .string text => eqIgnoreAsciiCase text row.1
      | set => set.get? row.1 = some (.bool true)).map Prod.snd

def mediaType (link : Value) : Option String := do
  let mediaType ← (link.get? "contentType").bind Value.asStr
  let (name, subtype) ← splitTextOnce '/' mediaType
  if restrictedName name && restrictedName subtype then some mediaType else none

def statedSize (link : Value) : Option String :=
  ((link.get? "size").bind Value.asU64).map toString

/-- One `ATTACH` or `IMAGE` line. -/
def drawnLink (key : String) (link : Value) : Option ICalendarEntry :=
  (((link.get? "href").bind Value.asStr).filter namesAResource).map fun href =>
    if (link.get? "rel").bind Value.asStr = some iconRel then
      ((((makeUriEntry "IMAGE" href).withNamedParam "VALUE" "URI").withNamedParams "DISPLAY"
        (spelled linkDisplays (link.get? "display")).toList).withNamedParams "FMTTYPE"
          (mediaType link).toList).withNamedParam xJmapKey key
    else
      (((makeUriEntry "ATTACH" href).withNamedParams "FMTTYPE"
        (mediaType link).toList).withNamedParams
        "SIZE" (statedSize link).toList).withNamedParam xJmapKey key

def drawnLinks : List ICalendarEntry :=
  (entriesOf event.links).filterMap fun (key, link) => drawnLink key link

/-! ## Keywords -/

/-- Whether a tag can stand on a `CATEGORIES` line. -/
def mapsKeyword (tag : String) (set : Value) : Bool :=
  set = .bool true && trimText tag ≠ "" && !containsChar tag '\r'

def drawnTags : List String :=
  ((entriesOf event.keywords).filter fun (tag, set) => mapsKeyword tag set).map Prod.fst

/-! ## Alerts -/

/-- Whether the user's default reminders replace the event's own. -/
def usesDefaultAlerts : Bool :=
  event.useDefaultAlerts = some true || event.extra.map.get? "useDefaultAlerts" = some (.bool true)

def drawnTrigger (trigger : Value) : Option (String × List String) := do
  let members ← trigger.asObject
  if !members.all fun member => member.1 ∈ ["@type", "offset", "relativeTo"] then none
  else if !isType (trigger.get? "@type") "OffsetTrigger" then none
  else
    let offset ← ((trigger.get? "offset").bind Value.asStr).bind statedOffset
    match trigger.get? "relativeTo" with
    | none => some (offset, [])
    | some value =>
      match value.asStr with
      | some "start" => some (offset, [])
      | some "end" => some (offset, ["END"])
      | _ => none

/-- When a reminder was dismissed: nothing, or a UTC date-time. -/
def drawnAcknowledged (alert : Value) : Option (Option String) :=
  match alert.get? "acknowledged" with
  | none => some none
  | some value => ((value.asStr.filter (endsWith · 'Z')).bind toUtcDateTime).map some

/-- One reminder as a `VALARM`, if the document can show it whole. -/
def drawnAlert (key : String) (alert : Value) (summary : Option String) : Option Component := do
  let members ← alert.asObject
  if !namesMapEntry key then none
  else if !members.all fun member => member.1 ∈ ["@type", "trigger", "action", "acknowledged"] then
    none
  else
    let acknowledged ← drawnAcknowledged alert
    if !isType (alert.get? "@type") "Alert" then none
    else if !(alert.get? "action").all fun action => action.asStr == some displayAlert.1 then none
    else
      let (offset, related) ← (alert.get? "trigger").bind drawnTrigger
      some (.mk "VALARM"
        ([makeEntry "UID" key, makeEntry "ACTION" displayAlert.2,
            (makeEntry "TRIGGER" offset).withNamedParams "RELATED" related] ++
          lineOf "ACKNOWLEDGED" acknowledged ++ lineOf "DESCRIPTION" (nonEmpty summary)) [])

/-- Whether the document shows the reminders whole. -/
def mapsAlerts : Bool :=
  !usesDefaultAlerts event &&
    (entriesOf event.alerts).all fun (key, alert) => (drawnAlert key alert none).isSome

def drawnAlarms : List Component :=
  if usesDefaultAlerts event then []
  else (entriesOf event.alerts).filterMap fun (key, alert) => drawnAlert key alert event.title

/-! ## Participants -/

def calendarAddress (participant : Value) : Option String :=
  (((participant.get? "calendarAddress").bind Value.asStr).or
    (((participant.get? "sendTo").bind (·.get? imip)).bind Value.asStr)).filter namesAnAddress

def holdsRole (participant : Value) (role : String) : Bool :=
  (participant.get? "roles").bind (·.get? role) = some (.bool true)

def expectsReply (participant : Value) : Bool :=
  participant.get? "expectReply" = some (.bool true)

def organizerLine (address : String) (participant : Value) : ICalendarEntry :=
  (makeUriEntry "ORGANIZER" address).withNamedParams "CN" (statedName participant).toList

def attendeeLine (address : String) (participant : Value) : ICalendarEntry :=
  (((((makeUriEntry "ATTENDEE" address).withNamedParams "CN"
    (statedName participant).toList).withNamedParams "CUTYPE"
      (spelled participantKinds (participant.get? "kind")).toList).withNamedParams "ROLE"
        (spelled participantRoles (participant.get? "roles")).toList).withNamedParams "PARTSTAT"
          (spelled participationStatuses
            (participant.get? "participationStatus")).toList).withNamedParams
            "RSVP" (if expectsReply participant then ["TRUE"] else [])

/-- The loop of `drawn_participants`. Only the first owner is the organizer, and
an owner without another role is not on the guest list. -/
def participantLines : (organizerDrawn : Bool) → List Value → List ICalendarEntry
  | _, [] => []
  | organizerDrawn, participant :: rest =>
    match calendarAddress participant with
    | none => participantLines organizerDrawn rest
    | some address =>
      let owns := holdsRole participant ownerRole
      let role := spelled participantRoles (participant.get? "roles")
      (if owns && !organizerDrawn then [organizerLine address participant] else []) ++
        (if owns && role.isNone then [] else [attendeeLine address participant]) ++
        participantLines (organizerDrawn || owns) rest

def drawnParticipants : List ICalendarEntry :=
  participantLines false ((entriesOf event.participants).map Prod.snd)

/-! ## Time zones -/

/-- The definition of an identifier, with or without its solidi. -/
def definitionOf (definitions : ValueMap) (tzid : String) : Option Value :=
  (definitions.get? tzid).or
    (definitions.get? (String.ofList (tzid.toList.dropWhile (· == '/'))))

def timeZoneDefinition (tzid : String) : Option Value :=
  event.timeZones.bind fun definitions => definitionOf definitions tzid

def observanceRules (rule : Value) : List Value :=
  match (rule.get? "recurrenceRules").bind Value.asArray with
  | some rules => rules
  | none =>
    match (rule.get? "recurrenceRule").bind Value.asArray with
    | some rules => rules
    | none => ((rule.get? "recurrenceRule").filter Value.isObject).toList

section
variable (calcard : Calcard)

/-- The `RRULE` line of an observance. -/
def observanceRule (offsetFrom : String) (value : Value) : Option ICalendarEntry := do
  let recurrence ← RecurrenceRule.fromJson value
  if !mapsRecurrenceRule recurrence then none
  else
    let text ← ruleToRrule recurrence (.at offsetFrom) false
    rruleEntry calcard text

/-- A `STANDARD` or `DAYLIGHT` component. -/
def observance (name : String) (rule : Value) : Option Component := do
  let member (name : String) : Option String := (rule.get? name).bind Value.asStr
  let offsetFrom ← (member "offsetFrom").bind utcOffset
  let start ← (member "start").bind toIcalDateTime
  let offsetTo ← (member "offsetTo").bind utcOffset
  let rules ← (observanceRules rule).mapM (observanceRule calcard offsetFrom)
  let names := (((rule.get? "names").bind Value.asObject).getD []).filter fun member =>
    member.2 = .bool true
  some (.mk name
    ([makeEntry "DTSTART" start, makeEntry "TZOFFSETFROM" offsetFrom,
        makeEntry "TZOFFSETTO" offsetTo] ++ rules ++
      names.map fun member => makeEntry "TZNAME" member.1) [])

def observances (name member : String) (definition : Value) : Option (List Component) :=
  match definition.get? member with
  | none | some .null => some []
  | some rules => rules.asArray.bind fun rules => rules.mapM (observance calcard name)

def vtimezoneOf (tzid : String) (definition : Value) : Option Component := do
  let standard ← observances calcard "STANDARD" "standard" definition
  let daylight ← observances calcard "DAYLIGHT" "daylight" definition
  if (standard ++ daylight).isEmpty then none
  else some (.mk "VTIMEZONE" [makeEntry "TZID" tzid] (standard ++ daylight))

variable (event : CalendarEvent)

def definesTimeZone (tzid : String) : Bool :=
  startsWith tzid '/' &&
    ((timeZoneDefinition event tzid).bind (vtimezoneOf calcard tzid)).isSome

def mapsTimeZone : Bool :=
  match nonEmpty event.timeZone with
  | none => true
  | some tzid => namesTimeZone tzid || definesTimeZone calcard event tzid

/-! ## Overrides -/

def excluded (patch : Value) : Bool := patch.get? "excluded" = some (.bool true)

/-- A text or `null` that satisfies a predicate. -/
def nullOr (accepts : String → Bool) (value : Value) : Bool :=
  value.isNull || value.asStr.any accepts

variable (series : CalendarEvent)

/-- Whether a member of an override has an iCalendar form without a time zone
definition. -/
def mapsOverrideField (name : String) (value : Value) : Bool :=
  if name = "excluded" then value.isBoolean
  else if name ∉ overrideProperties then false
  else
    match name with
    | "status" => nullOr knownStatus value
    | "freeBusyStatus" => nullOr knownTransparency value
    | "priority" => value.isNull || value.asI64.any knownPriority
    | "privacy" => nullOr knownPrivacy value
    | "keywords" =>
      value.isNull || value.asObject.any fun tags =>
        !tags.isEmpty && tags.all fun (tag, set) => mapsKeyword tag set
    | "alerts" =>
      !usesDefaultAlerts series &&
        (value.isNull || value.asObject.any fun alerts =>
          !alerts.isEmpty && alerts.all fun (key, alert) => (drawnAlert key alert none).isSome)
    | "start" => (value.asStr.bind toIcalDateTime).isSome
    | "timeZone" => nullOr namesTimeZone value
    | "duration" => nullOr (fun text => (statedDuration text).isSome) value
    | _ => nullOr (· ≠ "") value

/-- Whether a member of an override has an iCalendar form in a document that
defines the event's custom zones. -/
def drawsOverrideField (name : String) (value : Value) : Bool :=
  if name = "timeZone" then
    nullOr (fun tzid => namesTimeZone tzid || definesTimeZone calcard series tzid) value
  else mapsOverrideField series name value

/-- Whether the members of an override all satisfy a predicate. -/
def overrideMapsBy (id : String) (patch : Value)
    (field : CalendarEvent → String → Value → Bool) : Bool :=
  match patch.asObject with
  | none => false
  | some fields =>
    (toIcalDateTime id).isSome &&
      if excluded patch then fields.length == 1
      else fields.all fun (name, value) => field series name value

def sendsRecurrenceOverride (id : String) (patch : Value) : Bool :=
  overrideMapsBy series id patch (drawsOverrideField calcard)

/-- What an instance takes over from its series. -/
def inherited (id : String) : CalendarEvent :=
  { id := event.id, uid := event.uid, created := event.created, updated := event.updated
    title := event.title, description := event.description, start := some id
    timeZone := event.timeZone, duration := event.duration
    showWithoutTime := event.showWithoutTime, status := event.status
    freeBusyStatus := event.freeBusyStatus, priority := event.priority, privacy := event.privacy
    locations := event.locations, virtualLocations := event.virtualLocations
    links := event.links, keywords := event.keywords, alerts := event.alerts
    participants := event.participants, useDefaultAlerts := event.useDefaultAlerts
    extra := event.extra }

/-- Set one property of an instance. Nothing is set by a member such as
`excluded`. -/
def restate (occurrence : CalendarEvent) (name : String) (value : Value) : Option CalendarEvent :=
  match name with
  | "priority" => some { occurrence with priority := value.asI64 }
  | "keywords" => some { occurrence with keywords := value.asObject.map Value.toMap }
  | "alerts" => some { occurrence with alerts := value.asObject.map Value.toMap }
  | "title" => some { occurrence with title := value.asStr }
  | "description" => some { occurrence with description := value.asStr }
  | "duration" => some { occurrence with duration := value.asStr }
  | "status" => some { occurrence with status := value.asStr }
  | "freeBusyStatus" => some { occurrence with freeBusyStatus := value.asStr }
  | "privacy" => some { occurrence with privacy := value.asStr }
  | "start" => some { occurrence with start := value.asStr }
  | "timeZone" => some { occurrence with timeZone := value.asStr }
  | _ => none

/-- The loop of `modified_instance`: the instance, and whether it was modified. -/
def modifiedBy (event : CalendarEvent) :
    List (String × Value) → CalendarEvent → Bool → CalendarEvent × Bool
  | [], occurrence, modified => (occurrence, modified)
  | (name, value) :: fields, occurrence, modified =>
    if !drawsOverrideField calcard event name value then
      modifiedBy event fields occurrence modified
    else
      match restate occurrence name value with
      | none => modifiedBy event fields occurrence modified
      | some occurrence => modifiedBy event fields occurrence true

/-- The instance that an override describes, if it has to be drawn on its own. -/
def modifiedInstance (id : String) (patch : Value) : Option CalendarEvent :=
  if excluded patch then none
  else
    patch.asObject.bind fun fields =>
      let (occurrence, modified) := modifiedBy calcard event fields (inherited event id) false
      if modified then some occurrence else none

def modifiedInstances : List (String × CalendarEvent) :=
  (entriesOf event.recurrenceOverrides).filterMap fun (id, patch) => do
    let rendered ← toIcalDateTime id
    let occurrence ← modifiedInstance calcard event id patch
    some (rendered, occurrence)

/-- The instances to name in an `EXDATE` or an `RDATE` line. -/
def recurrenceDates (isExcluded : Bool) : List String :=
  ((entriesOf event.recurrenceOverrides).filter fun (id, patch) =>
    excluded patch == isExcluded && (modifiedInstance calcard event id patch).isNone).filterMap
      fun (id, _) => toIcalDateTime id

/-! ## All-day events -/

def durationIsWholeDays : Bool :=
  (nonEmpty event.duration).all wholeDays

/-- Whether an override keeps the event's form as a date. -/
def instanceShowsWithoutTime (id : String) (patch : Value) : Bool :=
  match toIcalDateTime id with
  | none => true
  | some rendered =>
    atMidnight rendered &&
      (modifiedInstance calcard event id patch).all fun occurrence =>
        occurrence.timeZone.isNone &&
          ((occurrence.start.bind toIcalDateTime).all atMidnight) &&
          durationIsWholeDays occurrence

/-- Whether the event is drawn with dates in place of date-times. -/
def showsWithoutTime (start : String) : Bool :=
  event.showWithoutTime = some true && event.timeZone.isNone && atMidnight start &&
    durationIsWholeDays event &&
    (event.recurrenceRule.all fun rule =>
      !writable rule ||
        ((rule.«until».bind toIcalDateTime).all atMidnight && !namesATimeOfDay rule)) &&
    (entriesOf event.recurrenceOverrides).all fun (id, patch) =>
      instanceShowsWithoutTime calcard event id patch

/-! ## The document -/

/-- A property with date-times, in the form that the event has. -/
def dated (name : String) (values : List String) (asADate : Bool) (zone : Option String) :
    ICalendarEntry :=
  let entry (texts : List String) : ICalendarEntry :=
    { name := name, values := texts.map .text }
  match asADate, zone with
  | true, _ =>
    let dates := values.map fun value =>
      String.ofList (((Text.splitAtByte 8 value.toList).map Prod.fst).getD value.toList)
    (entry dates).withNamedParam "VALUE" "DATE"
  | false, some zone =>
    if isUtc zone then entry (values.map fun value => value ++ "Z")
    else (entry values).withNamedParam "TZID" zone
  | false, none => entry values

def drawnTimeZones (instances : List (String × CalendarEvent)) (asADate : Bool) : List Component :=
  match asADate, event.timeZones with
  | true, _ | false, none => []
  | false, some definitions =>
    let named := (event.timeZone :: instances.map fun entry => entry.2.timeZone).filterMap id
    let custom := (named.filter fun tzid => !(namesTimeZone tzid || isUtc tzid)).eraseDups
    custom.filterMap fun tzid => (definitionOf definitions tzid).bind (vtimezoneOf calcard tzid)

/-- The lines of one `VEVENT` in their order, each group under the names that its lines have.
The recurrence identifier is in the zone of the series, and the start in the zone of the event
itself. -/
def veventGroups (asADate : Bool) (seriesZone recurrence : Option String) :
    List (List String × List ICalendarEntry) :=
  [(["UID"], lineOf "UID" (event.id.or event.uid)), (["X-JMAP-UID"], lineOf xJmapUid event.uid),
    (["RECURRENCE-ID"],
      (recurrence.map fun id => dated recurrenceId [id] asADate seriesZone).toList),
    (["CREATED"], lineOf "CREATED" (event.created.bind toUtcDateTime)),
    (["DTSTAMP"], lineOf "DTSTAMP" (event.updated.bind toUtcDateTime)),
    (["LAST-MODIFIED"], lineOf "LAST-MODIFIED" (event.updated.bind toUtcDateTime)),
    (["SUMMARY"], lineOf "SUMMARY" (nonEmpty event.title)),
    (["DESCRIPTION"], lineOf "DESCRIPTION" (nonEmpty event.description)),
    (["DTSTART"], ((event.start.bind toIcalDateTime).map fun start =>
      dated "DTSTART" [start] asADate event.timeZone).toList),
    (["DURATION"], lineOf "DURATION" (event.duration.bind statedDuration)),
    (["STATUS"], lineOf "STATUS" (event.status.bind icalStatus)),
    (["TRANSP"], lineOf "TRANSP" (event.freeBusyStatus.bind icalTransparency)),
    (["PRIORITY"], ((event.priority.filter knownPriority).map fun priority =>
      ({ name := "PRIORITY", values := [.integer priority] } : ICalendarEntry)).toList),
    (["CLASS"], lineOf "CLASS" (event.privacy.bind icalPrivacy)),
    (["LOCATION"], ((drawnPlace event).map fun (key, name) =>
      (makeEntry "LOCATION" name).withNamedParam xJmapKey key).toList),
    (["CONFERENCE"], drawnConferences event), (["IMAGE", "ATTACH"], drawnLinks event),
    (["CATEGORIES"], if (drawnTags event).isEmpty then []
      else [{ name := "CATEGORIES", values := (drawnTags event).map .text }]),
    (["ORGANIZER", "ATTENDEE"], drawnParticipants event)]

def veventEntries (asADate : Bool) (seriesZone recurrence : Option String) :
    List ICalendarEntry :=
  (veventGroups event asADate seriesZone recurrence).flatMap Prod.snd

def veventOf (asADate : Bool) (seriesZone : Option String)
    (recurrence : Option String) : Component :=
  .mk "VEVENT" (veventEntries event asADate seriesZone recurrence) (drawnAlarms event)

def prodid : String := "-//evolution-jmap//JMAP calendar backend//EN"

/-- Whether the whole document has dates in place of date-times. -/
def drawnAsADate : Bool :=
  (event.start.bind toIcalDateTime).any (showsWithoutTime calcard event)

/-- The lines that state the recurrence of a series. -/
def recurrenceEntries (asADate : Bool) : List ICalendarEntry :=
  let zone := event.timeZone
  let dates (name : String) (isExcluded : Bool) : List ICalendarEntry :=
    let dates := recurrenceDates calcard event isExcluded
    if dates.isEmpty then [] else [dated name dates asADate zone]
  ((event.recurrenceRule.bind fun rule =>
      ruleToRrule rule (.in (.named zone)) asADate).bind (rruleEntry calcard)).toList ++
    dates "EXDATE" true ++ dates "RDATE" false

/-- The calendar of an event, with its zones, its series and its edited
instances. -/
def eventCalendar (method : Option String) : Component :=
  let asADate := drawnAsADate calcard event
  let vevent := (veventOf event asADate event.timeZone none).withEntries
    (recurrenceEntries calcard event asADate)
  let instances := modifiedInstances calcard event
  .mk "VCALENDAR"
    ([makeEntry "VERSION" "2.0", makeEntry "PRODID" prodid] ++ lineOf "METHOD" method)
    (drawnTimeZones calcard event instances asADate ++ [vevent] ++
      instances.map fun (id, occurrence) =>
        veventOf occurrence asADate event.timeZone (some id))

def instanceCalendar (method recurrence : String) : Component :=
  let asADate := drawnAsADate calcard event
  let rendered := (toIcalDateTime recurrence).getD recurrence
  .mk "VCALENDAR"
    [makeEntry "VERSION" "2.0", makeEntry "PRODID" prodid, makeEntry "METHOD" method]
    (drawnTimeZones calcard event [] asADate ++
      [veventOf event asADate event.timeZone (some rendered)])

/-- Write an event as iCalendar. -/
def eventToIcal : String :=
  (eventCalendar calcard event none).toIcs calcard

end

end EvolutionJmap.Ical
