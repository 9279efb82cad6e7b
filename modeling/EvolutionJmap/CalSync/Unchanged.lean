import EvolutionJmap.CalSync.Patch
import EvolutionJmap.Ical.People

/-!
# A save without an edit

An event that the user did not change is the baseline that the patch is computed
against, so every property compares equal; only the guests are paired by address, which
needs that the reader keeps the addresses apart.
-/

namespace EvolutionJmap.CalSync

open Ical List

variable (calcard : Calcard) (current baseline : CalendarEvent)

@[simp] theorem diffText_self (property : String) (text : Option String) :
    diffText property text text = [] := by
  simp [diffText]

@[simp] theorem diffStart_self : diffStart baseline baseline = [] := by
  simp [diffStart]

@[simp] theorem diffTimeZone_self : diffTimeZone calcard baseline baseline = [] := by
  simp [diffTimeZone]

@[simp] theorem diffPriority_self : diffPriority baseline baseline = [] := by
  simp [diffPriority]

@[simp] theorem diffShowWithoutTime_self : diffShowWithoutTime baseline baseline = [] := by
  simp [diffShowWithoutTime]

@[simp] theorem diffLocations_self : diffLocations current baseline baseline = [] := by
  simp [diffLocations]

@[simp] theorem diffKeywords_self : diffKeywords current baseline baseline = [] := by
  simp [diffKeywords]

@[simp] theorem diffAlerts_self : diffAlerts current baseline baseline = [] := by
  simp [diffAlerts]

@[simp] theorem diffRecurrence_self : diffRecurrence current baseline baseline = [] := by
  simp [diffRecurrence]

@[simp] theorem diffOverrides_self : diffOverrides calcard current baseline baseline = [] := by
  simp [diffOverrides]

@[simp] theorem diffOrganizer_self : diffOrganizer baseline baseline = [] := by
  simp [diffOrganizer, eqIgnoreAsciiCase_refl]

/-! ## Maps that are patched by key -/

theorem get?_of_mem_entriesOf {map : Option ValueMap} {key : String} {value : Value}
    (member : (key, value) ∈ entriesOf map) : (map.getD ∅).get? key = some value := by
  cases map with
  | none => cases member
  | some map => exact map.mem_entries.mp member

@[simp] theorem diffConferenceMember_self (key member : String) (place : Value) :
    diffConferenceMember key place place member = [] := by
  simp [diffConferenceMember]

@[simp] theorem diffVirtualLocations_self :
    diffVirtualLocations current baseline baseline = [] := by
  rw [diffVirtualLocations]
  split
  · rfl
  · apply flatMap_eq_nil_iff.mpr
    intro shown member
    rw [diffConference, get?_of_mem_entriesOf member]
    split
    · rename_i after found _
      cases found
      simp
    · rfl

@[simp] theorem diffLinks_self : diffLinks current baseline baseline = [] := by
  rw [diffLinks]
  apply flatMap_eq_nil_iff.mpr
  intro shown member
  rw [diffLink, get?_of_mem_entriesOf member]
  split
  · rename_i after found _
    cases found
    simp
  · rfl

/-! ## Guests -/

@[simp] theorem diffParticipant_self (key : String) (held participant : Value) :
    diffParticipant key held participant participant = [] := by
  simp [diffParticipant]

theorem findAddress_of_mem {people : List (String × Value)} {person : String × Value}
    (distinct : Distinct (people.map Prod.fst)) (member : person ∈ people) :
    findAddress people person.1 = some person.2 := by
  induction people with
  | nil => cases member
  | cons first rest ih =>
    have apart := pairwise_cons.mp distinct
    rcases mem_cons.mp member with rfl | member
    · simp [findAddress, eqIgnoreAsciiCase_refl]
    · have differs : eqIgnoreAsciiCase first.1 person.1 = false :=
        apart.1 person.1 (mem_map_of_mem member)
      rw [findAddress, find?_cons, differs]
      exact ih apart.2 member

section

variable {vevent : ICalendarComponent} (read : baseline.participants = readParticipants vevent)

include read

theorem byAddress_distinct : Distinct ((byAddress baseline).map Prod.fst) := by
  rw [Distinct, byAddress, read, pairwise_map]
  apply List.Pairwise.filterMap _ _ (readParticipants_distinct vevent)
  intro left right apart leftPerson leftStates rightPerson rightStates
  obtain ⟨leftAddress, leftEq, rfl⟩ := Option.map_eq_some_iff.mp leftStates
  obtain ⟨rightAddress, rightEq, rfl⟩ := Option.map_eq_some_iff.mp rightStates
  exact apart leftAddress rightAddress leftEq rightEq

theorem diffGuests_self : diffGuests current baseline baseline = [] := by
  have distinct := byAddress_distinct baseline read
  have found : ∀ person ∈ byAddress baseline,
      findAddress (byAddress baseline) person.1 = some person.2 :=
    fun person member => findAddress_of_mem distinct member
  have noneAdded : (byAddress baseline).filter (fun person =>
      !(byAddress baseline).any fun other => eqIgnoreAsciiCase other.1 person.1) = [] := by
    rw [filter_eq_nil_iff]
    intro person member
    simp only [Bool.not_eq_true, Bool.not_eq_false', any_eq_true]
    exact ⟨person, member, eqIgnoreAsciiCase_refl _⟩
  have noneRemoved : ∀ held : ValueMap, (byAddress baseline).filterMap
      (removedKey held (byAddress baseline)) = [] := by
    intro held
    rw [filterMap_eq_nil_iff]
    intro person member
    simp [removedKey, found person member]
  have noneChanged : ∀ held : ValueMap, (byAddress baseline).flatMap
      (changesOf held (byAddress baseline)) = [] := by
    intro held
    apply flatMap_eq_nil_iff.mpr
    intro person member
    rw [changesOf, found person member]
    split <;> simp
  simp [diffGuests, noneAdded, noneRemoved, noneChanged, addParticipants, BTreeSet.ofElems]

end

/-! ## The whole event -/

variable {calcard}

theorem icalToEvent_series {text : String} {event : CalendarEvent}
    (read : icalToEvent calcard text = .ok event) :
    ∃ vevent, event.participants = readParticipants vevent ∧ event.links = readLinks vevent := by
  rw [icalToEvent] at read
  cases parsed : parseIcal calcard text with
  | error error =>
    rw [parsed] at read
    cases read
  | ok components =>
    rw [parsed] at read
    change eventOf calcard components = .ok event at read
    rw [eventOf] at read
    split at read
    · cases read
    · rename_i series _
      cases read
      exact ⟨series, rfl, rfl⟩

@[simp] theorem diffTimeZones_empty (edited : CalendarEvent) :
    diffTimeZones ∅ current edited = ∅ := rfl

/-- Opening and saving an event unchanged writes nothing. -/
theorem diff_drawn {edited : CalendarEvent}
    (drawn : icalToEvent calcard (eventToIcal calcard current) = .ok edited) :
    diff calcard current edited = ∅ := by
  obtain ⟨vevent, read, -⟩ := icalToEvent_series drawn
  have same : baselineOf calcard current = .ok edited := drawn
  have writesNothing : writesFrom calcard current edited edited = [] := by
    unfold writesFrom
    simp [diffParticipants, diffGuests_self current edited read]
  have unmapped : diffMapped calcard current edited = ∅ := by
    unfold diffMapped
    generalize baselineOf calcard current = baseline at same
    cases same
    exact congrArg BTreeMap.ofList writesNothing
  rw [diff, unmapped, diffTimeZones_empty]

/-- An event whose `timeZone`, `status` and guest the round trip changes. -/
def planning : CalendarEvent :=
  { id := some "e1", title := some "Planning", start := some "2026-01-15T13:00:00"
    timeZone := some "UTC", status := some "postponed"
    participants := some (.ofList [("guest", .ofMembers
      [("calendarAddress", .string "mailto:a@example.org"), ("sendTo", .ofMembers [])])]) }

def planningDocument : List ICalendarComponent :=
  [⟨"VCALENDAR", [makeEntry "VERSION" "2.0", makeEntry "PRODID" prodid], [1]⟩,
    ⟨"VEVENT", [makeEntry "UID" "e1", makeEntry "SUMMARY" "Planning",
      makeEntry "DTSTART" "20260115T130000Z", makeUriEntry "ATTENDEE" "mailto:a@example.org"], []⟩]

def readPlanning : CalendarEvent :=
  { id := some "e1", eventType := some "Event", version := some "2.0", title := some "Planning"
    start := some "2026-01-15T13:00:00", timeZone := some "Etc/UTC"
    participants := some (.ofList [("p1", .ofMembers
      [("@type", .string "Participant"), ("calendarAddress", .string "mailto:a@example.org"),
        ("roles", .ofMembers [("attendee", .bool true)])])]) }

theorem diff_drawn_planning :
    icalToEvent (.fixed planningDocument) (eventToIcal (.fixed planningDocument) planning) =
      .ok readPlanning ∧
    diff (.fixed planningDocument) planning readPlanning = ∅ := by
  have drawn : icalToEvent (.fixed planningDocument)
      (eventToIcal (.fixed planningDocument) planning) = .ok readPlanning := by
    decide +kernel
  exact ⟨drawn, diff_drawn planning drawn⟩

end EvolutionJmap.CalSync
