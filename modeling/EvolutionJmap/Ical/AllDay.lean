import EvolutionJmap.Ical.Lines
import EvolutionJmap.Ical.Moments

/-!
# Dates in place of date-times

Whether a document has dates is decided once, from the event, and the time is cut off
wherever a date-time is drawn.  For each component the date-times are listed with their
zones, before anything is cut.
-/

namespace EvolutionJmap.Ical

open List

/-! ## Lines of date-times -/

/-- The part of a value that is drawn as a date. -/
def cutDate (value : String) : String :=
  String.ofList (((Text.splitAtByte 8 value.toList).map Prod.fst).getD value.toList)

/-- The time that is cut off is midnight. -/
def Midnight (value : String) : Prop := cutDate value ++ "T000000" = value

/-- A date says as much as the value: it is at midnight, or nothing is cut off. -/
def KeepsTime (value : String) : Prop := cutDate value = value ∨ Midnight value

instance (value : String) : Decidable (Midnight value) :=
  inferInstanceAs (Decidable (_ = _))

instance (value : String) : Decidable (KeepsTime value) :=
  inferInstanceAs (Decidable (_ ∨ _))

theorem Moment.cutDate_ical (moment : Moment) : cutDate moment.ical = moment.day := by
  rw [cutDate, moment.splitAtByte_ical]
  rfl

theorem Moment.midnight_ical {moment : Moment} (isMidnight : atMidnight moment.ical = true) :
    Midnight moment.ical := by
  rw [Midnight, moment.cutDate_ical, day, ical, moment.atMidnight_ical.mp isMidnight]
  apply String.toList_inj.mp
  simp [midnight]

theorem midnight_of_rendered {text rendered : String}
    (written : toIcalDateTime text = some rendered) (isMidnight : atMidnight rendered = true) :
    Midnight rendered := by
  obtain ⟨moment, rfl, -⟩ := exists_moment_of_toIcalDateTime written
  exact moment.midnight_ical isMidnight

/-- A property with date-times as it is before it is drawn. -/
structure TimedLine where
  name : String
  values : List String
  zone : Option String

namespace TimedLine

def drawn (asADate : Bool) (line : TimedLine) : ICalendarEntry :=
  dated line.name line.values asADate line.zone

/-- The line has no zone, and the condition holds of its values. -/
def Floating (condition : String → Prop) (line : TimedLine) : Prop :=
  line.zone = none ∧ ∀ value ∈ line.values, condition value

end TimedLine

/-- The properties of an event whose values are written as the event's own dates. -/
def isTimed (entry : ICalendarEntry) : Bool :=
  ["DTSTART", "RECURRENCE-ID", "EXDATE", "RDATE"].contains entry.name

section
variable (calcard : Calcard) (event : CalendarEvent)

/-- The date-times of one `VEVENT`. -/
def timedLines (seriesZone recurrence : Option String) : List TimedLine :=
  (recurrence.map fun id => ⟨recurrenceId, [id], seriesZone⟩).toList ++
    ((event.start.bind toIcalDateTime).map fun start =>
      ⟨"DTSTART", [start], event.timeZone⟩).toList

/-- The dates that the series names one at a time. -/
def recurrenceLines : List TimedLine :=
  let dates (name : String) (isExcluded : Bool) : List TimedLine :=
    let dates := recurrenceDates calcard event isExcluded
    if dates.isEmpty then [] else [⟨name, dates, event.timeZone⟩]
  dates "EXDATE" true ++ dates "RDATE" false

/-- The date-times of the components of an event, the series first. -/
def eventLines : List (List TimedLine) :=
  (timedLines event event.timeZone none ++ recurrenceLines calcard event) ::
    (modifiedInstances calcard event).map fun (id, occurrence) =>
      timedLines occurrence event.timeZone (some id)

/-- The recurrence identifier of a single occurrence as it is drawn. -/
def renderedId (recurrence : String) : String := (toIcalDateTime recurrence).getD recurrence

/-- The date-times of a single occurrence. -/
def instanceLines (recurrence : String) : List (List TimedLine) :=
  [timedLines event event.timeZone (some (renderedId recurrence))]

end

/-- The component has the lines cut to dates. -/
def DrawsDates (component : Component) (lines : List TimedLine) : Prop :=
  component.entries.filter isTimed = lines.map (TimedLine.drawn true)

/-! ## What is drawn -/

theorem veventEntries_timed (event : CalendarEvent) (asADate : Bool)
    (seriesZone recurrence : Option String) :
    (veventEntries event asADate seriesZone recurrence).filter isTimed =
      (timedLines event seriesZone recurrence).map (TimedLine.drawn asADate) := by
  have kept {name : String} {zone : Option String}
      (timed : ["DTSTART", "RECURRENCE-ID", "EXDATE", "RDATE"].contains name = true)
      (value : Option String) :
      (value.map fun stated => dated name [stated] asADate zone).toList.filter isTimed =
        (value.map fun stated => (⟨name, [stated], zone⟩ : TimedLine)).toList.map
          (TimedLine.drawn asADate) := by
    refine ((named_map (fun _ => dated_name ..) value).filter_eq_self _
      (forall_mem_singleton.mpr timed)).trans ?_
    rw [← Option.toList_map, Option.map_map]
    rfl
  rw [veventEntries, timedLines, map_append, ← kept rfl, ← kept rfl]
  exact (filter_groups (named_veventGroups event asADate seriesZone recurrence) _).trans
    (congrArg _ (append_nil _))

section
variable {calcard : Calcard} {event : CalendarEvent}

theorem recurrenceEntries_timed (asADate : Bool) :
    (recurrenceEntries calcard event asADate).filter isTimed =
      (recurrenceLines calcard event).map (TimedLine.drawn asADate) := by
  have rule (rrule : Option String) :
      (rrule.bind (rruleEntry calcard)).toList.filter isTimed = [] :=
    (named_rule rrule).filter_eq_nil _ (by decide)
  have dates {name : String} {values : List String}
      (timed : ["DTSTART", "RECURRENCE-ID", "EXDATE", "RDATE"].contains name = true) :
      (if values.isEmpty then [] else [dated name values asADate event.timeZone]).filter isTimed =
        (if values.isEmpty then [] else [(⟨name, values, event.timeZone⟩ : TimedLine)]).map
          (TimedLine.drawn asADate) := by
    refine ((named_dates _ _ _ _).filter_eq_self _ (forall_mem_singleton.mpr timed)).trans ?_
    split <;> rfl
  unfold recurrenceEntries recurrenceLines
  dsimp only
  rw [filter_append, filter_append, rule, dates rfl, dates rfl, map_append]
  rfl

/-! ## What is cut off -/

/-- What an event that is drawn with dates is like. -/
structure AllDay (calcard : Calcard) (event : CalendarEvent) : Prop where
  floating : event.timeZone = none
  start : ∀ start, event.start.bind toIcalDateTime = some start → atMidnight start = true
  «until» : ∀ rule, event.recurrenceRule = some rule → writable rule = true →
    ∀ last, rule.«until».bind toIcalDateTime = some last → atMidnight last = true
  overrides : ∀ override ∈ entriesOf event.recurrenceOverrides,
    instanceShowsWithoutTime calcard event override.1 override.2 = true

section

variable (isDate : drawnAsADate calcard event = true)

include isDate

theorem eventCalendar_drawsDates (method : Option String) :
    List.Forall₂ DrawsDates (eventCalendar calcard event method).children
      (eventLines calcard event) := by
  have series : DrawsDates ((veventOf event true event.timeZone none).withEntries
      (recurrenceEntries calcard event true))
      (timedLines event event.timeZone none ++ recurrenceLines calcard event) := by
    change (veventEntries event true event.timeZone none ++
      recurrenceEntries calcard event true).filter isTimed = _
    rw [filter_append, veventEntries_timed, recurrenceEntries_timed, map_append]
  have instances : List.Forall₂ DrawsDates
      ((modifiedInstances calcard event).map fun (id, occurrence) =>
        veventOf occurrence true event.timeZone (some id))
      ((modifiedInstances calcard event).map fun (id, occurrence) =>
        timedLines occurrence event.timeZone (some id)) := by
    rw [forall₂_map_left_iff, forall₂_map_right_iff, forall₂_same]
    intro entry _
    exact veventEntries_timed entry.2 true event.timeZone (some entry.1)
  unfold eventCalendar eventLines
  rw [isDate]
  exact .cons series instances

theorem instanceCalendar_drawsDates (method recurrence : String) :
    List.Forall₂ DrawsDates (instanceCalendar calcard event method recurrence).children
      (instanceLines event recurrence) := by
  unfold instanceCalendar instanceLines
  rw [isDate]
  exact .cons (veventEntries_timed event true event.timeZone _) .nil

theorem allDay_of_drawnAsADate : AllDay calcard event := by
  rw [drawnAsADate, Option.any_eq_true] at isDate
  obtain ⟨start, isStart, shows⟩ := isDate
  simp only [showsWithoutTime, Bool.and_eq_true, Option.isNone_iff_eq_none, all_eq_true]
    at shows
  obtain ⟨⟨⟨⟨⟨-, floating⟩, midnight⟩, -⟩, rule⟩, overrides⟩ := shows
  refine ⟨floating, ?_, ?_, overrides⟩
  · intro other isOther
    cases isStart.symm.trans isOther
    exact midnight
  · intro stated isStated isWritable last isLast
    rw [isStated] at rule
    have allowed : (!writable stated ||
        ((stated.«until».bind toIcalDateTime).all atMidnight && !namesATimeOfDay stated)) = true :=
      rule
    rw [isWritable, isLast] at allowed
    simp only [Bool.not_true, Bool.false_or, Bool.and_eq_true, Option.all_some] at allowed
    exact allowed.1

end

section

variable (allDay : AllDay calcard event) {id rendered : String} {patch : Value}
  (mem : (id, patch) ∈ entriesOf event.recurrenceOverrides)
  (written : toIcalDateTime id = some rendered)

include allDay mem written

theorem AllDay.id_midnight : Midnight rendered := by
  have shows := allDay.overrides _ mem
  simp only [instanceShowsWithoutTime, written, Bool.and_eq_true] at shows
  exact midnight_of_rendered written shows.1

theorem AllDay.occurrence {occurrence : CalendarEvent}
    (modified : modifiedInstance calcard event id patch = some occurrence) :
    occurrence.timeZone = none ∧
      ∀ start, occurrence.start.bind toIcalDateTime = some start → atMidnight start = true := by
  have shows := allDay.overrides _ mem
  simp only [instanceShowsWithoutTime, written, modified, Bool.and_eq_true, Option.all_some,
    Option.isNone_iff_eq_none] at shows
  refine ⟨shows.2.1.1, ?_⟩
  intro start isStart
  have midnight := shows.2.1.2
  rw [isStart] at midnight
  exact midnight

end

theorem midnight_of_start {occurrence : CalendarEvent}
    (midnight : ∀ start, occurrence.start.bind toIcalDateTime = some start →
      atMidnight start = true) {start : String}
    (isStart : occurrence.start.bind toIcalDateTime = some start) : Midnight start := by
  obtain ⟨text, -, written⟩ := Option.bind_eq_some_iff.mp isStart
  exact midnight_of_rendered written (midnight start isStart)

theorem floating_timedLines {condition : String → Prop} {occurrence : CalendarEvent}
    {seriesZone recurrence : Option String} (series : seriesZone = none)
    (floating : occurrence.timeZone = none) (identifier : ∀ id ∈ recurrence, condition id)
    (starts : ∀ {start}, occurrence.start.bind toIcalDateTime = some start → condition start) :
    ∀ line ∈ timedLines occurrence seriesZone recurrence, line.Floating condition := by
  intro line mem
  rcases mem_append.mp mem with isIdentifier | isStart
  · obtain ⟨id, stated, rfl⟩ := Option.map_eq_some_iff.mp (Option.mem_toList.mp isIdentifier)
    exact ⟨series, forall_mem_singleton.mpr (identifier id stated)⟩
  · obtain ⟨start, stated, rfl⟩ := Option.map_eq_some_iff.mp (Option.mem_toList.mp isStart)
    exact ⟨floating, forall_mem_singleton.mpr (starts stated)⟩

section

variable (allDay : AllDay calcard event)

include allDay

theorem AllDay.recurrenceLines :
    ∀ line ∈ recurrenceLines calcard event, line.Floating Midnight := by
  have dates : ∀ isExcluded, ∀ value ∈ recurrenceDates calcard event isExcluded,
      Midnight value := by
    intro isExcluded value mem
    obtain ⟨⟨id, patch⟩, inOverrides, written⟩ := mem_filterMap.mp mem
    exact allDay.id_midnight (mem_filter.mp inOverrides).1 written
  intro line mem
  rw [Ical.recurrenceLines] at mem
  dsimp only at mem
  rcases mem_append.mp mem with exdates | rdates
  · split at exdates
    · cases exdates
    · rw [mem_singleton.mp exdates]
      exact ⟨allDay.floating, dates true⟩
  · split at rdates
    · cases rdates
    · rw [mem_singleton.mp rdates]
      exact ⟨allDay.floating, dates false⟩

theorem AllDay.eventLines :
    ∀ lines ∈ eventLines calcard event, ∀ line ∈ lines, line.Floating Midnight := by
  intro lines isLines
  rcases mem_cons.mp isLines with rfl | inInstances
  · intro line mem
    rcases mem_append.mp mem with own | named
    · exact floating_timedLines allDay.floating allDay.floating nofun
        (midnight_of_start allDay.start) line own
    · exact allDay.recurrenceLines line named
  · obtain ⟨⟨rendered, occurrence⟩, isInstance, rfl⟩ := mem_map.mp inInstances
    obtain ⟨⟨id, patch⟩, inOverrides, drawn⟩ := mem_filterMap.mp isInstance
    obtain ⟨_, written, drawn⟩ := Option.bind_eq_some_iff.mp drawn
    obtain ⟨_, modified, same⟩ := Option.bind_eq_some_iff.mp drawn
    cases same
    obtain ⟨floating, midnight⟩ := allDay.occurrence inOverrides written modified
    apply floating_timedLines allDay.floating floating _ (midnight_of_start midnight)
    rintro _ ⟨⟩
    exact allDay.id_midnight inOverrides written

theorem AllDay.untilPart {rule : RecurrenceRule} (isRule : event.recurrenceRule = some rule)
    (isWritable : writable rule = true) {last part : String} (ends : rule.«until» = some last)
    (drawn : untilPart (.in (.named event.timeZone)) true last = some part) :
    ∃ rendered, toIcalDateTime last = some rendered ∧ part = "UNTIL=" ++ cutDate rendered ∧
      Midnight rendered := by
  rw [Ical.untilPart, Option.bind_eq_bind, Option.bind_some] at drawn
  obtain ⟨rendered, written, same⟩ := Option.bind_eq_some_iff.mp drawn
  rw [if_pos rfl, Option.some.injEq] at same
  subst same
  have midnight := allDay.«until» rule isRule isWritable rendered (by rw [ends]; exact written)
  refine ⟨rendered, written, ?_, midnight_of_rendered written midnight⟩
  obtain ⟨moment, rfl, -⟩ := exists_moment_of_toIcalDateTime written
  rw [moment.take_ical, moment.cutDate_ical]
  rfl

theorem instanceLines_keepTime_iff (recurrence : String) :
    (∀ lines ∈ instanceLines event recurrence, ∀ line ∈ lines, line.Floating KeepsTime) ↔
      KeepsTime (renderedId recurrence) := by
  constructor
  · intro each
    have line := each _ mem_cons_self ⟨recurrenceId, [renderedId recurrence], event.timeZone⟩
      (mem_append_left _ mem_cons_self)
    exact line.2 _ mem_cons_self
  · intro keeps lines isLines
    rw [mem_singleton.mp isLines]
    apply floating_timedLines allDay.floating allDay.floating
    · rintro _ ⟨⟩
      exact keeps
    · exact fun isStart => .inr (midnight_of_start allDay.start isStart)

end

/-- An event that is drawn with dates has only date-times at midnight without a zone. A single
occurrence loses no time if and only if its recurrence identifier is at midnight or left
whole. -/
theorem drawnAsADate_losesNoTime (isDate : drawnAsADate calcard event = true) :
    (∀ method, List.Forall₂ DrawsDates (eventCalendar calcard event method).children
        (eventLines calcard event)) ∧
      (∀ lines ∈ eventLines calcard event, ∀ line ∈ lines, line.Floating Midnight) ∧
      (∀ rule last part, event.recurrenceRule = some rule → writable rule = true →
        rule.«until» = some last →
        Ical.untilPart (.in (.named event.timeZone)) true last = some part →
        ∃ rendered, toIcalDateTime last = some rendered ∧ part = "UNTIL=" ++ cutDate rendered ∧
          Midnight rendered) ∧
      ∀ recurrence,
        (∀ method, List.Forall₂ DrawsDates
          (instanceCalendar calcard event method recurrence).children
          (instanceLines event recurrence)) ∧
        ((∀ lines ∈ instanceLines event recurrence, ∀ line ∈ lines, line.Floating KeepsTime) ↔
          KeepsTime (renderedId recurrence)) := by
  have allDay := allDay_of_drawnAsADate isDate
  refine ⟨eventCalendar_drawsDates isDate, allDay.eventLines, ?_, ?_⟩
  · intro rule last part isRule isWritable ends drawn
    exact allDay.untilPart isRule isWritable ends drawn
  · intro recurrence
    exact ⟨fun method => instanceCalendar_drawsDates isDate method recurrence,
      instanceLines_keepTime_iff allDay recurrence⟩

def dayOff : CalendarEvent :=
  { start := some "2026-06-08T00:00:00", duration := some "P1D", showWithoutTime := some true }

def holiday : CalendarEvent :=
  { dayOff with
    recurrenceRule := some { frequency := "yearly", «until» := some "2030-06-08T00:00:00" }
    recurrenceOverrides := some (.ofList [("2027-06-08T00:00:00",
      .ofMembers [("start", .string "2027-06-09T00:00:00")])]) }

theorem drawnAsADate_losesNoTime_holiday :
    drawnAsADate (.fixed []) holiday = true ∧
      (∀ lines ∈ eventLines (.fixed []) holiday, ∀ line ∈ lines, line.Floating Midnight) ∧
      ∀ lines ∈ instanceLines holiday "2028-06-08T00:00:00", ∀ line ∈ lines,
        line.Floating KeepsTime := by
  have isDate : drawnAsADate (.fixed []) holiday = true := by decide +kernel
  have keeps := drawnAsADate_losesNoTime isDate
  exact ⟨isDate, keeps.2.1, (keeps.2.2.2 "2028-06-08T00:00:00").2.mpr (by decide +kernel)⟩

/-- An occurrence that was moved from an afternoon is drawn with the date of its
recurrence identifier, without the afternoon. -/
theorem instanceCalendar_cuts_identifier :
    drawnAsADate (.fixed []) dayOff = true ∧
      (instanceCalendar (.fixed []) dayOff "CANCEL" "2026-06-08T14:00:00").children.map
        (fun vevent => vevent.entries.filter isTimed) =
        [[dated recurrenceId ["20260608T140000"] true none,
          dated "DTSTART" ["20260608T000000"] true none]] ∧
      (dated recurrenceId ["20260608T140000"] true none).values = [.text "20260608"] ∧
      ¬ KeepsTime "20260608T140000" := by
  decide +kernel

end

end EvolutionJmap.Ical
