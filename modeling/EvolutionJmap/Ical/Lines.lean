import EvolutionJmap.MapM
import EvolutionJmap.Ical.Documents

/-!
# The lines of a drawn event

A reader looks for the lines of a component by their name.  Each group of lines that an
event is drawn with has names of its own, so that the lines of a name are those of one
group.
-/

namespace EvolutionJmap.Ical

open List

def byName (query : String) (entries : List ICalendarEntry) : List ICalendarEntry :=
  entries.filter fun entry => eqIgnoreAsciiCase entry.name query

variable {definition : Value}

section

variable (component : Component) (index : Nat) (query : String)

include component index query

theorem componentEntries_flat :
    componentEntries (component.flat index) query = byName query component.entries := by
  rw [componentEntries, component.flat_entries, byName]

theorem componentEntry_flat :
    componentEntry (component.flat index) query = (byName query component.entries).head? := by
  rw [componentEntry, componentEntries_flat]

end

@[simp] theorem byName_nil (query : String) : byName query [] = [] := rfl

theorem entryText_of_values {entry : ICalendarEntry} {value : LineValue} {text : String}
    (alone : entry.values = [value]) (isText : valueText value = some text) :
    entryText entry = text := by
  rw [entryText, entryTexts, alone, filterMap_cons_some isText]
  simp [joined]

theorem byName_append (query : String) (front back : List ICalendarEntry) :
    byName query (front ++ back) = byName query front ++ byName query back :=
  filter_append ..

/-- The entries bear only these names. -/
def Named (names : List String) (entries : List ICalendarEntry) : Prop :=
  ∀ entry ∈ entries, entry.name ∈ names

section

variable {names : List String} {entries : List ICalendarEntry} (named : Named names entries)
  (kind : String → Bool)

include named

theorem Named.filter_eq_nil (others : ∀ name ∈ names, kind name = false) :
    entries.filter (fun entry => kind entry.name) = [] := by
  rw [filter_eq_nil_iff]
  intro entry mem
  rw [others entry.name (named entry mem)]
  exact Bool.false_ne_true

theorem Named.filter_eq_self (same : ∀ name ∈ names, kind name = true) :
    entries.filter (fun entry => kind entry.name) = entries :=
  List.filter_eq_self.mpr fun entry mem => same entry.name (named entry mem)

end

/-! ## The groups of a drawn event -/

theorem named_map {α : Type} {line : α → ICalendarEntry} {name : String}
    (isName : ∀ value, (line value).name = name) (value : Option α) :
    Named [name] (value.map line).toList := by
  intro entry mem
  obtain ⟨stated, -, rfl⟩ := Option.map_eq_some_iff.mp (Option.mem_toList.mp mem)
  exact mem_singleton.mpr (isName stated)

variable (name : String)

theorem named_lineOf (value : Option String) : Named [name] (lineOf name value) :=
  @named_map _ (makeEntry name) name (fun _ => rfl) value

variable (event : CalendarEvent)

theorem named_conferences : Named ["CONFERENCE"] (drawnConferences event) := by
  intro entry mem
  obtain ⟨⟨key, location⟩, -, drawn⟩ := mem_filterMap.mp mem
  obtain ⟨_, _, rfl⟩ := Option.map_eq_some_iff.mp drawn
  exact mem_singleton_self _

theorem named_links : Named ["IMAGE", "ATTACH"] (drawnLinks event) := by
  intro entry mem
  obtain ⟨⟨key, link⟩, -, drawn⟩ := mem_filterMap.mp mem
  obtain ⟨_, _, rfl⟩ := Option.map_eq_some_iff.mp drawn
  split
  · exact mem_cons_self
  · exact mem_cons_of_mem _ (mem_singleton_self _)

theorem named_tags (tags : List String) : Named ["CATEGORIES"]
    (if tags.isEmpty then []
      else [({ name := "CATEGORIES", values := tags.map .text } : ICalendarEntry)]) := by
  intro entry mem
  split at mem
  · cases mem
  · rw [mem_singleton.mp mem]
    exact mem_singleton_self _

theorem named_participantLines (organizerDrawn : Bool) (participants : List Value) :
    Named ["ORGANIZER", "ATTENDEE"] (participantLines organizerDrawn participants) := by
  induction participants generalizing organizerDrawn with
  | nil => nofun
  | cons participant rest ih =>
    intro entry mem
    rw [participantLines] at mem
    split at mem
    · exact ih organizerDrawn entry mem
    · rcases mem_append.mp mem with shown | later
      · rcases mem_append.mp shown with organizer | attendee
        · split at organizer
          · rw [mem_singleton.mp organizer]
            exact mem_cons_self
          · cases organizer
        · split at attendee
          · cases attendee
          · rw [mem_singleton.mp attendee]
            exact mem_cons_of_mem _ (mem_singleton_self _)
      · exact ih _ entry later

theorem named_rule {calcard : Calcard} (rrule : Option String) :
    Named ["RRULE"] (rrule.bind (rruleEntry calcard)).toList := by
  intro entry mem
  obtain ⟨rrule, -, read⟩ := Option.bind_eq_some_iff.mp (Option.mem_toList.mp mem)
  rw [rruleEntry] at read
  split at read
  · obtain ⟨component, -, found⟩ := Option.bind_eq_some_iff.mp read
    have named := find?_some found
    exact mem_singleton.mpr (beq_iff_eq.mp named)
  · cases read

theorem dated_name (values : List String) (asADate : Bool) (zone : Option String) :
    (dated name values asADate zone).name = name := by
  unfold dated
  split
  · rfl
  · split <;> rfl
  · rfl

theorem named_dates (dates : List String) (asADate : Bool) (zone : Option String) :
    Named [name] (if dates.isEmpty then [] else [dated name dates asADate zone]) := by
  intro entry mem
  split at mem
  · cases mem
  · rw [mem_singleton.mp mem, dated_name]
    exact mem_singleton_self name

variable (asADate : Bool)

theorem named_veventGroups (seriesZone recurrence : Option String) :
    ∀ group ∈ veventGroups event asADate seriesZone recurrence, Named group.1 group.2 := by
  unfold veventGroups
  simp only [forall_mem_cons, named_lineOf, named_conferences, named_links, named_tags,
    xJmapUid, true_and]
  refine ⟨?_, ?_, ?_, ?_, ?_, nofun⟩
  · exact named_map (fun _ => dated_name ..) recurrence
  · exact named_map (fun _ => dated_name ..) _
  · apply named_map
    exact fun _ => rfl
  · apply named_map
    exact fun _ => rfl
  · exact named_participantLines _ _

theorem filter_groups {groups : List (List String × List ICalendarEntry)}
    (named : ∀ group ∈ groups, Named group.1 group.2) (kind : String → Bool) :
    (groups.flatMap Prod.snd).filter (fun entry => kind entry.name) =
      (groups.filter fun group => group.1.any kind).flatMap fun group =>
        group.2.filter fun entry => kind entry.name := by
  induction groups with
  | nil => rfl
  | cons group rest ih =>
    rw [forall_mem_cons] at named
    rw [flatMap_cons, filter_append, ih named.2, filter_cons]
    split
    · rw [flatMap_cons]
    · next isOther =>
      rw [Bool.not_eq_true, any_eq_false] at isOther
      rw [named.1.filter_eq_nil kind fun name mem => Bool.eq_false_iff.mpr (isOther name mem),
        nil_append]

theorem byName_veventEntries (seriesZone recurrence : Option String) (query : String) :
    byName query (veventEntries event asADate seriesZone recurrence) =
      ((veventGroups event asADate seriesZone recurrence).filter fun group =>
        group.1.any (eqIgnoreAsciiCase · query)).flatMap fun group => byName query group.2 := by
  rw [veventEntries]
  exact filter_groups (named_veventGroups event asADate seriesZone recurrence)
    (eqIgnoreAsciiCase · query)

theorem byName_start (seriesZone recurrence : Option String) :
    byName "DTSTART" (veventEntries event asADate seriesZone recurrence) =
      ((event.start.bind toIcalDateTime).map fun start =>
        dated "DTSTART" [start] asADate event.timeZone).toList := by
  have named := @named_map _ (fun start => dated "DTSTART" [start] asADate event.timeZone)
    "DTSTART" (fun _ => dated_name ..) (event.start.bind toIcalDateTime)
  have lines := byName_veventEntries event asADate seriesZone recurrence "DTSTART"
  rw [lines]
  exact (append_nil _).trans (named.filter_eq_self (eqIgnoreAsciiCase · "DTSTART") (by decide))

variable (method : Option String)

section

variable (calcard : Calcard) (event : CalendarEvent)

def drawnSeries : Component :=
  (veventOf event (drawnAsADate calcard event) event.timeZone none).withEntries
    (recurrenceEntries calcard event (drawnAsADate calcard event))

def drawnInstances : List Component :=
  (modifiedInstances calcard event).map fun (id, occurrence) =>
    veventOf occurrence (drawnAsADate calcard event) event.timeZone (some id)

def drawnZones : List Component :=
  drawnTimeZones calcard event (modifiedInstances calcard event) (drawnAsADate calcard event)

theorem eventCalendar_eq :
    eventCalendar calcard event method =
      calendarOf ([makeEntry "VERSION" "2.0", makeEntry "PRODID" prodid] ++ lineOf "METHOD" method)
        (drawnZones calcard event) (drawnSeries calcard event :: drawnInstances calcard event) := by
  unfold eventCalendar calendarOf drawnZones drawnSeries drawnInstances
  dsimp only
  rw [append_assoc]
  rfl

/-! ## The shape of a drawn document -/

variable {component : Component}

theorem leaf_drawnAlert {key : String} {alert : Value} {summary : Option String}
    (drawn : drawnAlert key alert summary = some component) :
    component.children = [] ∧ component.leaf.componentType = "VALARM" := by
  rw [drawnAlert] at drawn
  obtain ⟨members, -, drawn⟩ := Option.bind_eq_some_iff.mp drawn
  dsimp only at drawn
  split at drawn
  · cases drawn
  · split at drawn
    · cases drawn
    · obtain ⟨acknowledged, -, drawn⟩ := Option.bind_eq_some_iff.mp drawn
      split at drawn
      · cases drawn
      · split at drawn
        · cases drawn
        · obtain ⟨⟨offset, related⟩, -, drawn⟩ := Option.bind_eq_some_iff.mp drawn
          cases drawn
          exact ⟨rfl, rfl⟩

theorem isVevent_drawnAlarms (entries : List ICalendarEntry) :
    (Component.mk "VEVENT" entries (drawnAlarms event)).IsVevent where
  kind := rfl
  leaves := by
    intro child mem
    change child ∈ drawnAlarms event at mem
    rw [drawnAlarms] at mem
    split at mem
    · cases mem
    · obtain ⟨⟨key, alert⟩, -, drawn⟩ := mem_filterMap.mp mem
      exact leaf_drawnAlert drawn

theorem isVevent_drawn :
    ∀ component ∈ drawnSeries calcard event :: drawnInstances calcard event,
      component.IsVevent := by
  intro component mem
  rcases mem_cons.mp mem with rfl | isInstance
  · exact isVevent_drawnAlarms event _
  · obtain ⟨⟨id, occurrence⟩, -, rfl⟩ := mem_map.mp isInstance
    exact isVevent_drawnAlarms occurrence _

variable {calcard event}

theorem leaf_observance {name : String} {rule : Value}
    (drawn : observance calcard name rule = some component) :
    component.children = [] ∧ component.leaf.componentType = name := by
  rw [observance] at drawn
  obtain ⟨offsetFrom, -, drawn⟩ := Option.bind_eq_some_iff.mp drawn
  obtain ⟨start, -, drawn⟩ := Option.bind_eq_some_iff.mp drawn
  obtain ⟨offsetTo, -, drawn⟩ := Option.bind_eq_some_iff.mp drawn
  obtain ⟨rules, -, drawn⟩ := Option.bind_eq_some_iff.mp drawn
  cases drawn
  exact ⟨rfl, rfl⟩

theorem leaf_observances {name member : String} {components : List Component}
    (drawn : observances calcard name member definition = some components) :
    ∀ component ∈ components, component.children = [] ∧ component.leaf.componentType = name := by
  intro component isDrawn
  rw [observances] at drawn
  split at drawn
  · cases drawn
    cases isDrawn
  · cases drawn
    cases isDrawn
  · obtain ⟨rules, -, drawn⟩ := Option.bind_eq_some_iff.mp drawn
    obtain ⟨rule, -, isRule⟩ := exists_of_forall₂ (mapM_eq_some_iff.mp drawn) isDrawn
    exact leaf_observance isRule

theorem isZone_vtimezoneOf {tzid : String}
    (drawn : vtimezoneOf calcard tzid definition = some component) : component.IsZone := by
  rw [vtimezoneOf] at drawn
  obtain ⟨standard, isStandard, drawn⟩ := Option.bind_eq_some_iff.mp drawn
  obtain ⟨daylight, isDaylight, drawn⟩ := Option.bind_eq_some_iff.mp drawn
  split at drawn
  · cases drawn
  · cases drawn
    refine ⟨rfl, ?_⟩
    intro child mem
    rcases mem_append.mp mem with inStandard | inDaylight
    · have shape := leaf_observances isStandard child inStandard
      exact ⟨shape.1, shape.2 ▸ mem_cons_self⟩
    · have shape := leaf_observances isDaylight child inDaylight
      exact ⟨shape.1, shape.2 ▸ mem_cons_of_mem _ mem_cons_self⟩

variable (calcard event)

theorem isZone_drawnZones : ∀ zone ∈ drawnZones calcard event, zone.IsZone := by
  intro zone mem
  rw [drawnZones] at mem
  unfold drawnTimeZones at mem
  split at mem
  · cases mem
  · cases mem
  · obtain ⟨tzid, -, drawn⟩ := mem_filterMap.mp mem
    obtain ⟨definition, -, drawn⟩ := Option.bind_eq_some_iff.mp drawn
    exact isZone_vtimezoneOf drawn

/-! ## Reading it back -/

theorem byName_drawnSeries (query : String) :
    byName query (drawnSeries calcard event).entries =
      byName query (veventEntries event (drawnAsADate calcard event) event.timeZone none) ++
        byName query (recurrenceEntries calcard event (drawnAsADate calcard event)) :=
  byName_append query _ _

variable {query : String}

/-- Only a line of one of the three names states the recurrence. -/
theorem byName_recurrenceEntries
    (others : ∀ name ∈ ["RRULE", "EXDATE", "RDATE"], eqIgnoreAsciiCase name query = false)
    (asADate : Bool) : byName query (recurrenceEntries calcard event asADate) = [] := by
  have rule := others "RRULE" (by simp)
  have excluded := others "EXDATE" (by simp)
  have added := others "RDATE" (by simp)
  have none {name : String} {entries : List ICalendarEntry} (named : Named [name] entries)
      (other : eqIgnoreAsciiCase name query = false) : byName query entries = [] :=
    named.filter_eq_nil (eqIgnoreAsciiCase · query) (forall_mem_singleton.mpr other)
  unfold recurrenceEntries
  dsimp only
  rw [byName_append, byName_append, none (named_rule _) rule,
    none (named_dates _ _ _ _) excluded, none (named_dates _ _ _ _) added]
  rfl

theorem byName_people (isPeople : query = "ORGANIZER" ∨ query = "ATTENDEE") :
    byName query (drawnSeries calcard event).entries = byName query (drawnParticipants event) := by
  rw [byName_drawnSeries, byName_veventEntries, byName_recurrenceEntries, append_nil]
  · rcases isPeople with rfl | rfl <;> exact append_nil _
  · rcases isPeople with rfl | rfl <;> decide

theorem isSeries_drawnSeries :
    componentEntry ((drawnSeries calcard event).flat 0) recurrenceId = none := by
  rw [componentEntry_flat, byName_drawnSeries, byName_veventEntries, byName_recurrenceEntries]
  · rfl
  · decide

theorem exists_eventOf_drawn :
    ∃ read, eventOf calcard ((eventCalendar calcard event method).flatten 0) = .ok read ∧
      read.participants = readParticipants ((drawnSeries calcard event).flat 0) := by
  rw [eventCalendar_eq]
  exact exists_eventOf_calendarOf calcard (isZone_drawnZones calcard event)
    (isVevent_drawn calcard event) (isSeries_drawnSeries calcard event)

end

end EvolutionJmap.Ical
