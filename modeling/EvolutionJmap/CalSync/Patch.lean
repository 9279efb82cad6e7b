import EvolutionJmap.Ical.Read

/-!
# The patch of a saved event (`jmap-cal-sync/src/patch.rs`)

A component shows an event only in part.  So a save does not compare the edited
event with the server's event but with the server's event after the same round
trip, and it sends the differences.
-/

namespace EvolutionJmap.CalSync

open Ical

/-- The paths that a step writes, with their values. -/
abbrev Writes := List (String × Value)

def escaped (key : String) : String := escapePointerSegment key

def entryPath (property key : String) : String := property ++ "/" ++ escaped key

def memberPath (property key member : String) : String :=
  property ++ "/" ++ escaped key ++ "/" ++ member

def property (path : String) : String :=
  String.ofList (path.toList.takeWhile (· ≠ '/'))

/-! ## Simple properties -/

def diffText (property : String) (was now : Option String) : Writes :=
  if nonEmpty was = nonEmpty now then [] else [(property, .ofText (nonEmpty now))]

variable (baseline edited : CalendarEvent)

/-- The start cannot be removed. -/
def diffStart : Writes :=
  if (nonEmpty edited.start).isSome then diffText "start" baseline.start edited.start else []

/-- A time zone that the server does not accept is not sent. -/
def diffTimeZone (calcard : Calcard) (baseline edited : CalendarEvent) : Writes :=
  if mapsTimeZone calcard edited then diffText "timeZone" baseline.timeZone edited.timeZone else []

def diffPriority : Writes :=
  if baseline.priority = edited.priority then []
  else [("priority", .ofOption (edited.priority.map .int))]

def diffShowWithoutTime : Writes :=
  if baseline.showWithoutTime = edited.showWithoutTime then []
  else [("showWithoutTime", .ofOption (edited.showWithoutTime.map .bool))]

/-! ## Places -/

def drawnName (event : CalendarEvent) : Option String := (drawnPlace event).map Prod.snd

def nameOf (key : String) : String := memberPath "locations" key "name"

def holdsOnlyItsName (place : Value) : Bool :=
  place.asObject.any fun members => members.all fun member =>
    member.1 == "name" || member.1 == "@type"

variable (current baseline edited : CalendarEvent)

/-- Patch the name of the place into the server's entry. -/
def diffLocations : Writes :=
  let places := current.locations.getD ∅
  if !mapsLocations places then []
  else if drawnName baseline = drawnName edited then []
  else
    match places.entries.head?, drawnName edited with
    | some (key, _), some name => [(nameOf key, .string name)]
    | some (key, place), none =>
      [(if holdsOnlyItsName place then "locations" else nameOf key, .null)]
    | none, some _ => [("locations", .ofOption (edited.locations.map .ofMap))]
    | none, none => []

/-! ## Conferences and links -/

/-- An empty text or object says nothing. -/
def withoutEmpty : Option Value → Option Value
  | some (.string "") => none
  | some (.object []) => none
  | value => value

/-- Patch one member of a virtual location. The address is never removed. -/
def diffConferenceMember (key : String) (before after : Value) (member : String) : Writes :=
  let was := withoutEmpty (before.get? member)
  let now := withoutEmpty (after.get? member)
  if was = now then []
  else
    match now with
    | some value => [(memberPath "virtualLocations" key member, value)]
    | none => if member ≠ "uri" then [(memberPath "virtualLocations" key member, .null)] else []

/-- Patch one virtual location that was shown, if the server has its key. -/
def diffConference (places now : ValueMap) (shown : String × Value) : Writes :=
  match now.get? shown.1, places.contains shown.1 with
  | some after, true =>
    ["uri", "name", "features"].flatMap (diffConferenceMember shown.1 shown.2 after)
  | _, _ => []

def diffVirtualLocations : Writes :=
  let places := current.virtualLocations.getD ∅
  if !mapsVirtualLocations places then []
  else (entriesOf baseline.virtualLocations).flatMap
    (diffConference places (edited.virtualLocations.getD ∅))

def theServersOwnEntry (held : ValueMap) (key : String) (before : Value) : Bool :=
  (held.get? key).bind (·.get? "href") = before.get? "href"

def diffLink (held now : ValueMap) (shown : String × Value) : Writes :=
  match now.get? shown.1, theServersOwnEntry held shown.1 shown.2 with
  | some after, true =>
    if shown.2.get? "href" = after.get? "href" then []
    else ((after.get? "href").map fun href => (memberPath "links" shown.1 "href", href)).toList
  | _, _ => []

def diffLinks : Writes :=
  (entriesOf baseline.links).flatMap
    (diffLink (current.links.getD ∅) (edited.links.getD ∅))

/-! ## Properties that are replaced whole -/

/-- Nothing for a map that is absent or has no entries. -/
def stated (map : Option ValueMap) : Option ValueMap := map.bind nonEmptyMap

theorem of_stated_eq_some {map : Option ValueMap} {held : ValueMap}
    (isStated : stated map = some held) : map = some held := by
  obtain ⟨whole, wholeEq, nonEmpty⟩ := Option.bind_eq_some_iff.mp isStated
  rw [nonEmptyMap] at nonEmpty
  split at nonEmpty
  · cases nonEmpty
  · cases nonEmpty
    exact wholeEq

/-- Replace the tags. A tag that was not shown is copied into the new set. -/
def diffKeywords : Writes :=
  if stated baseline.keywords = stated edited.keywords then []
  else
    let hidden := (entriesOf current.keywords).filter fun (tag, set) => !mapsKeyword tag set
    let typed := (entriesOf edited.keywords).filter fun (tag, _) => tag ≠ ""
    [("keywords", .ofOption ((nonEmptyMap (BTreeMap.ofList (hidden ++ typed))).map .ofMap))]

def diffAlerts : Writes :=
  if !mapsAlerts current then []
  else if stated baseline.alerts = stated edited.alerts then []
  else [("alerts", .ofOption ((stated edited.alerts).map .ofMap))]

def diffRecurrence : Writes :=
  if [current, edited].any fun event => event.recurrenceRule.any fun rule =>
      !mapsRecurrenceRule rule then []
  else if baseline.recurrenceRule = edited.recurrenceRule then []
  else [("recurrenceRule", .ofOption (edited.recurrenceRule.map RecurrenceRule.toJson))]

/-- Whether the component shows every override of an event whole. -/
def sendsOverrides (calcard : Calcard) (event : CalendarEvent) : Bool :=
  (entriesOf event.recurrenceOverrides).all fun (id, patch) =>
    sendsRecurrenceOverride calcard event id patch

def diffOverrides (calcard : Calcard) (current baseline edited : CalendarEvent) : Writes :=
  if [current, edited].any fun event => !sendsOverrides calcard event then []
  else if stated baseline.recurrenceOverrides = stated edited.recurrenceOverrides then []
  else [("recurrenceOverrides", .ofOption ((stated edited.recurrenceOverrides).map .ofMap))]

/-! ## Participants -/

def byAddress (event : CalendarEvent) : List (String × Value) :=
  (entriesOf event.participants).filterMap fun (_, participant) =>
    (calendarAddress participant).map fun address => (address, participant)

def hasAddress (address : String) (participant : Value) : Bool :=
  (calendarAddress participant).any (eqIgnoreAsciiCase · address)

/-- The server's entry for an address, unless it has none or several. -/
def serversEntry (held : ValueMap) (address : String) : Option (String × Value) :=
  match held.entries.filter fun entry => hasAddress address entry.2 with
  | [entry] => some entry
  | _ => none

/-- The roles of a participant as servers store them: no role is `attendee`, and
`attendee` beside `owner` is dropped. -/
def rolesOf (participant : Value) : BTreeSet String :=
  let members := ((participant.get? "roles").bind Value.asObject).getD []
  let roles := BTreeSet.ofElems ((members.filter fun member => member.2 = .bool true).map Prod.fst)
  let roles := if roles.isEmpty then BTreeSet.add roles "attendee" else roles
  if roles.contains ownerRole then BTreeMap.erase roles "attendee" else roles

def spells (role : String) : Bool :=
  role == ownerRole || participantRoles.any fun row => row.1 == role

/-- The members of a `roles` object. -/
def roleMembers (participant : Value) : List (String × Value) :=
  ((participant.get? "roles").bind Value.asObject).getD []

/-- The new roles of a guest, with the server's roles that no component can
state. -/
def mergedRoles (held after : Value) : Value :=
  .ofMembers (((roleMembers held).filter fun member => !spells member.1) ++ roleMembers after)

/-- Patch the changed members of one guest into the server's entry. -/
def diffParticipant (key : String) (held before after : Value) : Writes :=
  let path := memberPath "participants" key
  let attends := (rolesOf after).keys.any (· ≠ ownerRole)
  (if rolesOf before = rolesOf after then [] else [(path "roles", mergedRoles held after)]) ++
    ["name", "kind", "participationStatus", "expectReply"].flatMap fun member =>
      if member ≠ "name" && !attends then []
      else if before.get? member = after.get? member then []
      else [(path member, .ofOption (after.get? member))]

def findAddress (people : List (String × Value)) (address : String) : Option Value :=
  (people.find? fun person => eqIgnoreAsciiCase person.1 address).map Prod.snd

def changesOf (held : ValueMap) (now : List (String × Value)) (person : String × Value) : Writes :=
  match serversEntry held person.1 with
  | none => []
  | some (key, entry) =>
    match findAddress now person.1 with
    | some after => diffParticipant key entry person.2 after
    | none => [(entryPath "participants" key, .null)]

/-- The server's key of a guest who was shown and is gone. -/
def removedKey (held : ValueMap) (now : List (String × Value)) (person : String × Value) :
    Option String :=
  (serversEntry held person.1).bind fun entry =>
    if (findAddress now person.1).isNone then some entry.1 else none

/-- File each new guest under the first free key. -/
def addParticipants : (taken : BTreeSet String) → List Value → Writes
  | _, [] => []
  | taken, participant :: rest =>
    let number := nextFree taken.contains (inventedKey "p") (taken.entries.length + 1) 0
    let key := inventedKey "p" number
    ("participants/" ++ key, participant) :: addParticipants (BTreeSet.add taken key) rest

def diffGuests : Writes :=
  let held := current.participants.getD ∅
  let was := byAddress baseline
  let now := byAddress edited
  let added := (now.filter fun person =>
    !was.any fun other => eqIgnoreAsciiCase other.1 person.1).map Prod.snd
  let removed := BTreeSet.ofElems (was.filterMap (removedKey held now))
  if current.participants.isNone then
    if added.isEmpty then []
    else [("participants", .ofOption (edited.participants.map .ofMap))]
  else if added.isEmpty && !removed.isEmpty &&
      removed.entries.length == held.entries.length then
    [("participants", .null)]
  else
    was.flatMap (changesOf held now) ++ addParticipants (BTreeSet.ofElems held.keys) added

def diffOrganizer : Writes :=
  if eqIgnoreAsciiCase (baseline.organizerCalendarAddress.getD "")
      (edited.organizerCalendarAddress.getD "") then []
  else [("organizerCalendarAddress", .ofText edited.organizerCalendarAddress)]

def diffParticipants : Writes :=
  diffGuests current baseline edited ++ diffOrganizer baseline edited

/-! ## The patch -/

section
variable (calcard : Calcard)

/-- The server's event as a component shows it. -/
def baselineOf (current : CalendarEvent) : Except ICalError CalendarEvent :=
  icalToEvent calcard (eventToIcal calcard current)

def writesFrom (current baseline edited : CalendarEvent) : Writes :=
  diffStart baseline edited ++ diffTimeZone calcard baseline edited ++
    diffText "title" baseline.title edited.title ++
    diffText "description" baseline.description edited.description ++
    diffText "duration" baseline.duration edited.duration ++
    diffText "status" baseline.status edited.status ++
    diffText "freeBusyStatus" baseline.freeBusyStatus edited.freeBusyStatus ++
    diffText "privacy" baseline.privacy edited.privacy ++
    diffPriority baseline edited ++ diffShowWithoutTime baseline edited ++
    diffLocations current baseline edited ++ diffVirtualLocations current baseline edited ++
    diffLinks current baseline edited ++ diffKeywords current baseline edited ++
    diffAlerts current baseline edited ++ diffRecurrence current baseline edited ++
    diffOverrides calcard current baseline edited ++ diffParticipants current baseline edited

variable (current edited : CalendarEvent)

/-- The patch without the time zone definitions. If the server's event does not
parse back, nothing is sent. -/
def diffMapped : Patch :=
  match baselineOf calcard current with
  | .error _ => ∅
  | .ok baseline => BTreeMap.ofList (writesFrom calcard current baseline edited)

def customZone (value : Option Value) : Option String :=
  (value.bind Value.asStr).filter (startsWith · '/')

def namedZones (value : Value) : List String :=
  match value.asObject with
  | some overrides => overrides.filterMap fun (_, patch) => customZone (patch.get? "timeZone")
  | none => (customZone (some value)).toList

def lackingZones (tzids : List String) : Writes :=
  tzids.filterMap fun tzid =>
    if (timeZoneDefinition current tzid).isSome then none
    else (timeZoneDefinition edited tzid).map fun definition => (tzid, definition)

/-- The patch and the wanted definitions after one property. A property with a
zone that the edited event does not define is not sent. -/
def settleZones (state : Patch × ValueMap) (property : String) : Patch × ValueMap :=
  match state.1.get? property with
  | none => state
  | some value =>
    let named := namedZones value
    if named.any fun tzid => (timeZoneDefinition edited tzid).isNone then
      (state.1.erase property, state.2)
    else
      (state.1, (lackingZones current edited named).foldl
        (fun wanted zone => wanted.insert zone.1 zone.2) state.2)

/-- Add the definitions that the custom identifiers in a patch need. -/
def diffTimeZones (patch : Patch) (current edited : CalendarEvent) : Patch :=
  let (patch, wanted) :=
    ["timeZone", "recurrenceOverrides"].foldl (settleZones current edited) (patch, ∅)
  if wanted.isEmpty then patch
  else if current.timeZones.isSome then
    wanted.entries.foldl (fun patch zone =>
      patch.insert (entryPath "timeZones" zone.1) zone.2) patch
  else patch.insert "timeZones" (.ofMap wanted)

/-- The patch that changes the server's event into the saved one. -/
def diff : Patch :=
  diffTimeZones (diffMapped calcard current edited) current edited

def touches (patch : Patch) (name : String) : Bool :=
  patch.keys.any fun path => property path == name

/-- The patch limited to the properties that differ between the base and the
edited event, without those that keep the server's value. -/
def diffSinceExcept (base current edited : CalendarEvent) (kept : BTreeSet String) : Patch :=
  let touched := diffMapped calcard base edited
  let patch := (diffMapped calcard current edited).retain fun path _ =>
    !kept.contains (property path) && touches touched (property path)
  diffTimeZones patch current edited

/-- What the user changed since `base`. -/
def diffSince (base current edited : CalendarEvent) : Patch :=
  diffSinceExcept calcard base current edited ∅

/-- The properties that the user and a different client both changed. -/
def conflicts (base current edited : CalendarEvent) : BTreeSet String :=
  let remote := diffMapped calcard current base
  BTreeSet.ofElems
    (((diffSince calcard base current edited).keys.map property).filter (touches remote))

end

end EvolutionJmap.CalSync
