import EvolutionJmap.Ical.Faithful

/-!
# A drawn document as a flat list

The parser yields the components in the order of their first lines, each with the
positions of its children.  A calendar has two levels below it: time zones with their
observances, and events with their alarms.
-/

namespace EvolutionJmap.Ical

open List Nat

namespace Component

/-! ## Positions -/

mutual
def size : Component → Nat
  | .mk _ _ children => 1 + sizes children

def sizes : List Component → Nat
  | [] => 0
  | child :: rest => size child + sizes rest
end

def positions : List Component → (index : Nat) → List Nat
  | [], _ => []
  | child :: rest, index => index :: positions rest (index + size child)

/-- A component as the parser yields it at a position. -/
def flat : Component → (index : Nat) → ICalendarComponent
  | .mk name entries children, index => ⟨name, entries, positions children (index + 1)⟩

def flats : List Component → (index : Nat) → List ICalendarComponent
  | [], _ => []
  | child :: rest, index => flat child index :: flats rest (index + size child)

mutual
def flatten : Component → (index : Nat) → List ICalendarComponent
  | .mk name entries children, index =>
    ⟨name, entries, positions children (index + 1)⟩ :: flattenAll children (index + 1)

def flattenAll : List Component → (index : Nat) → List ICalendarComponent
  | [], _ => []
  | child :: rest, index => flatten child index ++ flattenAll rest (index + size child)
end

theorem flatten_eq (component : Component) (index : Nat) :
    component.flatten index = component.flat index ::
      flattenAll component.children (index + 1) := by
  cases component
  rw [flatten]
  rfl

mutual
theorem length_flatten : ∀ (component : Component) (index : Nat),
    (component.flatten index).length = component.size
  | .mk name entries children, index => by
      rw [flatten, size, length_cons, length_flattenAll children, add_comm]

theorem length_flattenAll : ∀ (components : List Component) (index : Nat),
    (flattenAll components index).length = sizes components
  | [], _ => rfl
  | child :: rest, index => by
      rw [flattenAll, sizes, length_append, length_flatten child, length_flattenAll rest]
end

theorem flattenAll_append (front back : List Component) (index : Nat) :
    flattenAll (front ++ back) index =
      flattenAll front index ++ flattenAll back (index + sizes front) := by
  induction front generalizing index with
  | nil => rw [nil_append, flattenAll, nil_append, sizes, add_zero]
  | cons child rest ih =>
    rw [cons_append, flattenAll, ih, flattenAll, sizes, append_assoc, add_assoc]

theorem filterMap_positions (components : List Component) {index : Nat}
    {front back : List ICalendarComponent} (atIndex : front.length = index) :
    (positions components index).filterMap
        (fun id => (front ++ flattenAll components index ++ back)[id]?) =
      flats components index := by
  induction components generalizing index front with
  | nil => rfl
  | cons child rest ih =>
    have first : (front ++ flattenAll (child :: rest) index ++ back)[index]? =
        some (child.flat index) := by
      rw [flattenAll, flatten_eq, append_assoc, ← atIndex,
        getElem?_append_right (Nat.le_refl _), Nat.sub_self]
      rfl
    have regrouped : front ++ flattenAll (child :: rest) index ++ back =
        (front ++ child.flatten index) ++ flattenAll rest (index + child.size) ++ back := by
      rw [flattenAll, append_assoc, append_assoc, append_assoc,
        append_assoc]
    rw [positions, filterMap_cons_some first, flats, regrouped]
    congr 1
    apply ih
    rw [length_append, length_flatten, atIndex]

theorem childrenOf_flat (component : Component) {index : Nat}
    {front back : List ICalendarComponent} (atIndex : front.length = index) :
    childrenOf (front ++ component.flatten index ++ back) (component.flat index) =
      flats component.children (index + 1) := by
  cases component with
  | mk name entries children =>
    have regrouped : front ++ flatten (.mk name entries children) index ++ back =
        (front ++ [flat (.mk name entries children) index]) ++
          flattenAll children (index + 1) ++ back := by
      rw [flatten_eq]
      simp [Component.children]
    rw [regrouped]
    exact filterMap_positions children (by rw [length_append, atIndex]; rfl)

/-! ## Two levels -/

def leaf : Component → ICalendarComponent
  | .mk name entries _ => ⟨name, entries, []⟩

section

variable {components : List Component} (leaves : ∀ component ∈ components, component.children = [])
  (index : Nat)

include leaves index

theorem flattenAll_leaves : flattenAll components index = components.map leaf := by
  induction components generalizing index with
  | nil => rfl
  | cons first rest ih =>
    rw [forall_mem_cons] at leaves
    cases first with
    | mk name entries children =>
      cases leaves.1
      rw [flattenAll, ih leaves.2, flatten, flattenAll, positions]
      rfl

theorem flats_leaves : flats components index = components.map leaf := by
  induction components generalizing index with
  | nil => rfl
  | cons first rest ih =>
    rw [forall_mem_cons] at leaves
    cases first with
    | mk name entries children =>
      cases leaves.1
      rw [flats, ih leaves.2, flat, positions]
      rfl

end

/-- No child has children or is of the kind. -/
def ChildrenOutside (kind : ICalendarComponent → Bool) (component : Component) : Prop :=
  ∀ child ∈ component.children, child.children = [] ∧ kind child.leaf = false

/-- Among components whose children are of another kind, those of a kind are on the first
level. -/
theorem filter_flattenAll {kind : ICalendarComponent → Bool} {components : List Component}
    (outside : ∀ component ∈ components, component.ChildrenOutside kind) (index : Nat) :
    (flattenAll components index).filter kind = (flats components index).filter kind := by
  induction components generalizing index with
  | nil => rfl
  | cons first rest ih =>
    rw [forall_mem_cons] at outside
    have below : (flattenAll first.children (index + 1)).filter kind = [] := by
      rw [flattenAll_leaves (fun child mem => (outside.1 child mem).1),
        filter_eq_nil_iff]
      intro child mem
      obtain ⟨drawn, isChild, rfl⟩ := mem_map.mp mem
      rw [(outside.1 drawn isChild).2]
      exact Bool.false_ne_true
    rw [flattenAll, flats, filter_append, ih outside.2, flatten_eq]
    rw [filter_cons, filter_cons, below]
    split <;> rfl

end Component

/-! ## Reading a component of a document -/

theorem readVevent_congr {component other : ICalendarComponent}
    {components others : List ICalendarComponent} (entries : component.entries = other.entries)
    (children : childrenOf components component = childrenOf others other) (zones : Zones) :
    readVevent component zones components = readVevent other zones others := by
  have alerts : readAlerts component components = readAlerts other others := by
    rw [readAlerts, children, readAlerts]
  have lines : ∀ name, componentEntries component name = componentEntries other name := by
    intro name
    rw [componentEntries, entries, componentEntries]
  have line : ∀ name, componentEntry component name = componentEntry other name := by
    intro name
    rw [componentEntry, lines, componentEntry]
  have text : ∀ name, componentText component name = componentText other name := by
    intro name
    rw [componentText, line, componentText]
  have start : readStart component zones = readStart other zones := by
    rw [readStart, line, readStart]
  have zone : ∀ timeZone, startZone component zones timeZone = startZone other zones timeZone := by
    intro timeZone
    rw [startZone, line, startZone]
  unfold readVevent
  rw [start]
  obtain ⟨start, timeZone, showWithoutTime⟩ := readStart other zones
  simp only [alerts, lines, line, text, startEnds, zone, readDuration, readStatus, readTransparency,
    readPriority, readPrivacy, readLocations, readVirtualLocations, readKeywords,
    readParticipants, readPeople, readOrganizer, readLinks, entries]

def Component.readEvent (zones : Zones) (component : Component) : CalendarEvent :=
  readVevent (component.flat 0) zones (component.flatten 0)

theorem Component.flat_entries (component : Component) (index : Nat) :
    (component.flat index).entries = component.entries := by
  cases component
  rfl

/-- A component whose children have no children. -/
def Component.Shallow (component : Component) : Prop :=
  ∀ child ∈ component.children, child.children = []

variable {component : Component}

theorem Component.readVevent_flat (shallow : component.Shallow)
    {index : Nat} {front back : List ICalendarComponent} (atIndex : front.length = index)
    (zones : Zones) :
    readVevent (component.flat index) zones (front ++ component.flatten index ++ back) =
      component.readEvent zones := by
  apply readVevent_congr
  · rw [component.flat_entries, component.flat_entries]
  · have own := @childrenOf_flat component 0 [] [] rfl
    rw [nil_append, append_nil] at own
    rw [childrenOf_flat component atIndex, own, flats_leaves shallow, flats_leaves shallow]

def Component.readInstance (event : CalendarEvent) (zones : Zones) (component : Component) :
    Option (String × Value) :=
  detachedInstance event zones (component.flatten 0) (component.flat 0)

theorem Component.detachedInstance_flat (shallow : component.Shallow)
    {index : Nat} {front back : List ICalendarComponent} (atIndex : front.length = index)
    (event : CalendarEvent) (zones : Zones) :
    detachedInstance event zones (front ++ component.flatten index ++ back)
        (component.flat index) =
      component.readInstance event zones := by
  have line : componentEntry (component.flat index) recurrenceId =
      componentEntry (component.flat 0) recurrenceId := by
    rw [componentEntry, componentEntries, component.flat_entries, componentEntry, componentEntries,
      component.flat_entries]
  rw [detachedInstance, component.readVevent_flat shallow atIndex, line, readInstance,
    detachedInstance]
  rfl

namespace Component

variable {components : List Component}

theorem map_flats {β : Type} {read : ICalendarComponent → β} {image : Component → β}
    {document : List ICalendarComponent}
    (each : ∀ component ∈ components, ∀ front back index, front.length = index →
      document = front ++ component.flatten index ++ back →
      read (component.flat index) = image component) {front back : List ICalendarComponent}
    {index : Nat} (atIndex : front.length = index)
    (isDocument : document = front ++ flattenAll components index ++ back) :
    (flats components index).map read = components.map image := by
  induction components generalizing front index with
  | nil => rfl
  | cons child rest ih =>
    rw [forall_mem_cons] at each
    rw [flats, map_cons, map_cons]
    congr 1
    · apply each.1 front (flattenAll rest (index + child.size) ++ back) index atIndex
      rw [isDocument, flattenAll]
      simp only [append_assoc]
    · have behind : (front ++ child.flatten index).length = index + child.size := by
        rw [length_append, length_flatten, atIndex]
      apply ih each.2 behind
      rw [isDocument, flattenAll]
      simp only [append_assoc]

/-- A time zone: its kind and its observances are told apart from events and zones. -/
structure IsZone (component : Component) : Prop where
  kind : (component.flat 0).componentType = "VTIMEZONE"
  leaves : ∀ child ∈ component.children, child.children = [] ∧
    child.leaf.componentType ∈ ["STANDARD", "DAYLIGHT"]

/-- An event with its alarms. -/
structure IsVevent (component : Component) : Prop where
  kind : (component.flat 0).componentType = "VEVENT"
  leaves : ∀ child ∈ component.children, child.children = [] ∧
    child.leaf.componentType = "VALARM"

theorem flat_componentType (component : Component) (index : Nat) :
    (component.flat index).componentType = (component.flat 0).componentType := by
  cases component
  rfl

theorem IsVevent.shallow (vevent : component.IsVevent) :
    component.Shallow :=
  fun child mem => (vevent.leaves child mem).1

section

variable {kind : ICalendarComponent → Bool}

theorem IsZone.outside (zone : component.IsZone)
    (others : ∀ component : ICalendarComponent,
      component.componentType ∈ ["STANDARD", "DAYLIGHT"] → kind component = false) :
    component.ChildrenOutside kind :=
  fun child mem => ⟨(zone.leaves child mem).1, others _ (zone.leaves child mem).2⟩

theorem IsVevent.outside (vevent : component.IsVevent)
    (others : ∀ component : ICalendarComponent,
      component.componentType = "VALARM" → kind component = false) :
    component.ChildrenOutside kind :=
  fun child mem => ⟨(vevent.leaves child mem).1, others _ (vevent.leaves child mem).2⟩

theorem filter_flats_all
    (all : ∀ component ∈ components, ∀ index, kind (component.flat index) = true) (index : Nat) :
    (flats components index).filter kind = flats components index := by
  induction components generalizing index with
  | nil => rfl
  | cons first rest ih =>
    rw [forall_mem_cons] at all
    rw [flats, filter_cons_of_pos (all.1 index), ih all.2]

theorem filter_flats_none
    (none : ∀ component ∈ components, ∀ index, kind (component.flat index) = false) (index : Nat) :
    (flats components index).filter kind = [] := by
  induction components generalizing index with
  | nil => rfl
  | cons first rest ih =>
    rw [forall_mem_cons] at none
    rw [flats, filter_cons_of_neg (by simp [none.1 index]), ih none.2]

end

end Component

open Component

section

variable {heading : List ICalendarEntry} {zones events : List Component}

def calendarOf (heading : List ICalendarEntry) (zones events : List Component) : Component :=
  .mk "VCALENDAR" heading (zones ++ events)

theorem flatten_calendarOf (heading : List ICalendarEntry) (zones events : List Component) :
    (calendarOf heading zones events).flatten 0 =
      (calendarOf heading zones events).flat 0 ::
        (flattenAll zones 1 ++ flattenAll events (1 + sizes zones)) := by
  rw [flatten_eq]
  congr 1
  exact flattenAll_append zones events 1

theorem filter_isEvent_calendarOf (areZones : ∀ zone ∈ zones, zone.IsZone)
    (areEvents : ∀ event ∈ events, event.IsVevent) :
    ((calendarOf heading zones events).flatten 0).filter isEvent =
      flats events (1 + sizes zones) := by
  have noEvent : ∀ component : ICalendarComponent,
      component.componentType ∈ ["STANDARD", "DAYLIGHT"] → isEvent component = false := by
    intro component isKind
    rw [isEvent]
    rcases mem_cons.mp isKind with same | isDaylight
    · rw [same]
      decide
    · rw [mem_singleton.mp isDaylight]
      decide
  have noAlarm : ∀ component : ICalendarComponent,
      component.componentType = "VALARM" → isEvent component = false := by
    intro component isKind
    rw [isEvent, isKind]
    decide
  have notItself : ¬ isEvent ((calendarOf heading zones events).flat 0) = true := by
    change ¬ eqIgnoreAsciiCase "VCALENDAR" "VEVENT" = true
    decide
  rw [flatten_calendarOf, filter_cons_of_neg notItself, filter_append,
    filter_flattenAll fun zone mem => (areZones zone mem).outside noEvent,
    filter_flattenAll fun event mem => (areEvents event mem).outside noAlarm,
    filter_flats_none, filter_flats_all, nil_append]
  · intro event mem index
    rw [isEvent, flat_componentType, (areEvents event mem).kind]
    decide
  · intro zone mem index
    rw [isEvent, flat_componentType, (areZones zone mem).kind]
    decide

def overridesOf (series : Component) (instances : List Component) (event : CalendarEvent)
    (zones : Zones) : Option ValueMap :=
  nonEmptyMap (BTreeMap.ofList
    ((valuesOf (series.flat 0) "RDATE").filterMap (addedInstance event.duration) ++
      (valuesOf (series.flat 0) "EXDATE").filterMap excludedInstance ++
      (instances.map (readInstance event zones)).reduceOption))

variable {series : Component} {instances : List Component}

theorem flatten_series (heading : List ICalendarEntry) (zones : List Component)
    (series : Component) (instances : List Component) :
    ∃ front, front.length = 1 + sizes zones ∧
      (calendarOf heading zones (series :: instances)).flatten 0 =
        front ++ series.flatten (1 + sizes zones) ++
          flattenAll instances (1 + sizes zones + series.size) := by
  refine ⟨(calendarOf heading zones (series :: instances)).flat 0 :: flattenAll zones 1, ?_, ?_⟩
  · rw [length_cons, length_flattenAll, add_comm]
  · rw [flatten_calendarOf, flattenAll, cons_append, cons_append, append_assoc]

theorem readVevent_series (shallow : series.Shallow) (stated : Zones) :
    readVevent (series.flat (1 + sizes zones)) stated
        ((calendarOf heading zones (series :: instances)).flatten 0) =
      series.readEvent stated := by
  obtain ⟨front, atIndex, isDocument⟩ := flatten_series heading zones series instances
  rw [isDocument]
  exact series.readVevent_flat shallow atIndex stated

section

variable (shallow : ∀ component ∈ instances, component.Shallow) (event : CalendarEvent)
  (stated : Zones)

include shallow event stated

theorem detachedInstance_instances : (flats instances (1 + sizes zones + series.size)).map
        (detachedInstance event stated
          ((calendarOf heading zones (series :: instances)).flatten 0)) =
      instances.map (readInstance event stated) := by
  obtain ⟨front, atIndex, isDocument⟩ := flatten_series heading zones series instances
  have behind : (front ++ series.flatten (1 + sizes zones)).length =
      1 + sizes zones + series.size := by
    rw [length_append, Component.length_flatten, atIndex]
  apply map_flats _ behind (isDocument.trans (append_nil _).symm)
  intro component mem front back index atIndex isDocument
  rw [isDocument]
  exact component.detachedInstance_flat (shallow component mem) atIndex event stated

theorem readOverrides_calendarOf : readOverrides (series.flat (1 + sizes zones))
        (flats instances (1 + sizes zones + series.size)) event stated
        ((calendarOf heading zones (series :: instances)).flatten 0) =
      overridesOf series instances event stated := by
  have values : ∀ name, valuesOf (series.flat (1 + sizes zones)) name =
      valuesOf (series.flat 0) name := by
    intro name
    rw [valuesOf, componentEntries, series.flat_entries, valuesOf, componentEntries,
      series.flat_entries]
  rw [readOverrides, overridesOf, values, values, ← detachedInstance_instances shallow,
    List.reduceOption, filterMap_map]
  rfl

end

section

variable (calcard : Calcard) (areZones : ∀ zone ∈ zones, zone.IsZone)
  (areEvents : ∀ event ∈ series :: instances, event.IsVevent)
  (isSeries : componentEntry (series.flat 0) recurrenceId = none)

include calcard areZones areEvents isSeries

theorem eventOf_calendarOf :
    let document := (calendarOf heading zones (series :: instances)).flatten 0
    let stated := statedZones document
    let event := { series.readEvent stated with version := some "2.0" }
    let event := { event with
      recurrenceOverrides := overridesOf series instances event stated }
    eventOf calcard document =
      .ok { event with timeZones := readTimeZones calcard document event } := by
  have shallow : ∀ event ∈ series :: instances, event.Shallow :=
    fun event mem => (areEvents event mem).shallow
  have isFirst : seriesIndex (flats (series :: instances) (1 + sizes zones)) = 0 := by
    have noId : componentEntry (series.flat (1 + sizes zones)) recurrenceId = none := by
      rw [← isSeries, componentEntry, componentEntries, series.flat_entries, componentEntry,
        componentEntries, series.flat_entries]
    rw [seriesIndex, flats, findIdx?_cons, noId]
    rfl
  rw [forall_mem_cons] at shallow
  unfold eventOf
  simp only [filter_isEvent_calendarOf areZones areEvents, isFirst]
  simp only [flats, getElem?_cons_zero, eraseIdx_cons_zero, readVevent_series shallow.1,
    readOverrides_calendarOf shallow.2]

theorem exists_eventOf_calendarOf :
    ∃ event, eventOf calcard ((calendarOf heading zones (series :: instances)).flatten 0) =
        .ok event ∧ event.participants = readParticipants (series.flat 0) :=
  ⟨_, eventOf_calendarOf calcard areZones areEvents isSeries, rfl⟩

end

/-- calcard reads a document that was written, up to how it types the values. -/
def ReadsBack (calcard : Calcard) (document : Component) : Prop :=
  ∃ components, parseIcal calcard (document.toIcs calcard) = .ok components ∧
    components.map ICalendarComponent.plain =
      (document.flatten 0).map ICalendarComponent.plain

theorem ReadsBack.icalToEvent {calcard : Calcard} {document : Component}
    (faithful : ReadsBack calcard document) :
    icalToEvent calcard (document.toIcs calcard) = eventOf calcard (document.flatten 0) := by
  obtain ⟨components, parsed, same⟩ := faithful
  rw [Ical.icalToEvent, parsed]
  exact eventOf_congr calcard same

end

end EvolutionJmap.Ical
