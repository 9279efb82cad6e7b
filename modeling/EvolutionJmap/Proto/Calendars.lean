import EvolutionJmap.Client.Protocol

/-!
# Calendar events (`jmap-proto/src/calendars.rs`)

A JSCalendar event with the JMAP properties `id` and `calendarIds`.  Properties
that no modelled function reads or writes are left out; the server keeps them,
since a save only sends a patch.
-/

namespace EvolutionJmap

open List Entries

abbrev ValueMap := BTreeMap String Value

/-- The members of an object other than those that its type names. -/
structure Extra (names : List String) where
  map : ValueMap
  unmodelled : ∀ key ∈ map.keys, key ∉ names
  deriving DecidableEq

instance (names : List String) : EmptyCollection (Extra names) := ⟨⟨∅, nofun⟩⟩

instance (names : List String) : Inhabited (Extra names) := ⟨∅⟩

/-- A weekday and an optional position of it within the recurrence period. -/
structure NDay where
  dayType : Option String := none
  day : String := ""
  nthOfPeriod : Option Int := none
  extra : ValueMap := ∅
  deriving DecidableEq, Inhabited

structure RecurrenceRule where
  ruleType : Option String := none
  frequency : String := ""
  (interval count : Option Nat := none)
  /-- The last possible occurrence, a `LocalDateTime`. -/
  «until» : Option String := none
  (bySecond byMinute byHour : Option (List Nat) := none)
  byDay : Option (List NDay) := none
  (byMonthDay byYearDay byWeekNo : Option (List Int) := none)
  byMonth : Option (List String) := none
  bySetPosition : Option (List Int) := none
  (firstDayOfWeek rscale skip : Option String := none)
  /-- Properties that the type does not model. -/
  extra : ValueMap := ∅
  deriving DecidableEq, Inhabited

def eventProperties : List String :=
  ["id", "calendarIds", "@type", "version", "uid", "created", "updated", "title",
    "description", "start", "timeZone", "duration", "showWithoutTime", "status",
    "freeBusyStatus", "priority", "privacy", "locations", "virtualLocations", "links",
    "keywords", "alerts", "participants", "organizerCalendarAddress", "recurrenceRule",
    "recurrenceOverrides", "timeZones", "useDefaultAlerts", "isOrigin"]

/-- A JSCalendar event on the server. -/
structure CalendarEvent where
  id : Option Id := none
  calendarIds : Option (BTreeMap Id Bool) := none
  (eventType version uid created updated title description start timeZone duration
    : Option String := none)
  showWithoutTime : Option Bool := none
  (status freeBusyStatus : Option String := none)
  priority : Option Int := none
  privacy : Option String := none
  (locations virtualLocations links keywords alerts participants : Option ValueMap := none)
  organizerCalendarAddress : Option String := none
  recurrenceRule : Option RecurrenceRule := none
  (recurrenceOverrides timeZones : Option ValueMap := none)
  (useDefaultAlerts isOrigin : Option Bool := none)
  /-- Properties that the type does not model. -/
  extra : Extra eventProperties := ∅
  deriving DecidableEq, Inhabited

/-! ## Serialisation -/

variable {name : String} {field : Option Value}

namespace Value

/-- The members that are stated, and the members that the type does not model. -/
def ofFields (fields : List (String × Option Value)) (extra : ValueMap) : Value :=
  ofMembers
    (fields.filterMap (fun field => field.2.map fun value => (field.1, value)) ++ extra.entries)

theorem stated_sublist (fields : List (String × Option Value)) :
    ((fields.filterMap fun field => field.2.map fun value => (field.1, value)).map
      Prod.fst).Sublist (fields.map Prod.fst) := by
  induction fields with
  | nil => exact List.Sublist.slnil
  | cons field fields ih =>
    rw [filterMap_cons]
    cases field.2 with
    | none => exact ih.cons _
    | some value => exact ih.cons_cons _

theorem get?_ofFields {fields : List (String × Option Value)} {extra : ValueMap}
    (nodup : (fields.map Prod.fst).Nodup) (mem : (name, field) ∈ fields)
    (unmodelled : name ∉ extra.keys) : (ofFields fields extra).get? name = field := by
  have notExtra : Entries.get? name extra.entries.reverse = none := by
    rw [get?_eq_none]
    intro entry inExtra same
    exact unmodelled (same ▸ mem_map_of_mem (mem_reverse.mp inExtra))
  change (BTreeMap.ofList _).get? name = field
  rw [BTreeMap.get?_ofList, reverse_append, get?_append, notExtra, Option.none_or]
  generalize statedEq : fields.filterMap
    (fun field => field.2.map fun value => (field.1, value)) = stated
  cases field with
  | some value =>
    apply get?_of_nodup
    · rw [map_reverse, nodup_reverse, ← statedEq]
      exact (stated_sublist fields).nodup nodup
    · rw [mem_reverse, ← statedEq]
      exact mem_filterMap.mpr ⟨_, mem, rfl⟩
  | none =>
    rw [get?_eq_none]
    intro entry inStated same
    rw [mem_reverse, ← statedEq] at inStated
    obtain ⟨⟨other, value⟩, otherIn, stated⟩ := mem_filterMap.mp inStated
    obtain ⟨value, rfl, rfl⟩ := Option.map_eq_some_iff.mp stated
    cases same
    have twice := inj_on_of_nodup_map nodup otherIn mem rfl
    cases twice

/-- An optional member: absent and `null` are nothing, and a value of the wrong
type is an error. -/
def optional {α : Type} (decode : Value → Option α) (key : String)
    (members : List (String × Value)) : Option (Option α) :=
  match Entries.get? key members with
  | none | some .null => some none
  | some value => (decode value).map some

def withDefault {α : Type} (default : α) (decode : Value → Option α) (key : String)
    (members : List (String × Value)) : Option α :=
  match Entries.get? key members with
  | none => some default
  | some value => decode value

def asU32 (value : Value) : Option Nat := value.asU64.filter (· < 2 ^ 32)

def asI32 (value : Value) : Option Int :=
  value.asI64.filter fun number => -2 ^ 31 ≤ number ∧ number < 2 ^ 31

def asList {α : Type} (decode : Value → Option α) (value : Value) : Option (List α) :=
  value.asArray.bind fun items => items.mapM decode

def others (names : List String) (members : List (String × Value)) : ValueMap :=
  toMap (members.filter fun member => member.1 ∉ names)

end Value

namespace NDay

def new (day : String) : NDay := { dayType := some "NDay", day := day }

def toJson (day : NDay) : Value :=
  .ofFields
    [("@type", day.dayType.map .string), ("day", some (.string day.day)),
      ("nthOfPeriod", day.nthOfPeriod.map .int)]
    day.extra

def fromJson (value : Value) : Option NDay := do
  let members ← value.asObject
  some {
    dayType := ← Value.optional Value.asStr "@type" members
    day := ← Value.withDefault "" Value.asStr "day" members
    nthOfPeriod := ← Value.optional Value.asI32 "nthOfPeriod" members
    extra := Value.others ["@type", "day", "nthOfPeriod"] members }

end NDay

namespace RecurrenceRule

def toJson (rule : RecurrenceRule) : Value :=
  let naturals (values : List Nat) : Value := .array (values.map fun value => .int value)
  let integers (values : List Int) : Value := .array (values.map .int)
  .ofFields
    [("@type", rule.ruleType.map .string), ("frequency", some (.string rule.frequency)),
      ("interval", rule.interval.map fun value => .int value),
      ("count", rule.count.map fun value => .int value), ("until", rule.«until».map .string),
      ("bySecond", rule.bySecond.map naturals), ("byMinute", rule.byMinute.map naturals),
      ("byHour", rule.byHour.map naturals),
      ("byDay", rule.byDay.map fun days => .array (days.map NDay.toJson)),
      ("byMonthDay", rule.byMonthDay.map integers), ("byYearDay", rule.byYearDay.map integers),
      ("byWeekNo", rule.byWeekNo.map integers),
      ("byMonth", rule.byMonth.map fun months => .array (months.map .string)),
      ("bySetPosition", rule.bySetPosition.map integers),
      ("firstDayOfWeek", rule.firstDayOfWeek.map .string), ("rscale", rule.rscale.map .string),
      ("skip", rule.skip.map .string)]
    rule.extra

def fromJson (value : Value) : Option RecurrenceRule := do
  let members ← value.asObject
  some {
    ruleType := ← Value.optional Value.asStr "@type" members
    frequency := ← Value.withDefault "" Value.asStr "frequency" members
    interval := ← Value.optional Value.asU32 "interval" members
    count := ← Value.optional Value.asU32 "count" members
    «until» := ← Value.optional Value.asStr "until" members
    bySecond := ← Value.optional (Value.asList Value.asU32) "bySecond" members
    byMinute := ← Value.optional (Value.asList Value.asU32) "byMinute" members
    byHour := ← Value.optional (Value.asList Value.asU32) "byHour" members
    byDay := ← Value.optional (Value.asList NDay.fromJson) "byDay" members
    byMonthDay := ← Value.optional (Value.asList Value.asI32) "byMonthDay" members
    byYearDay := ← Value.optional (Value.asList Value.asI32) "byYearDay" members
    byWeekNo := ← Value.optional (Value.asList Value.asI32) "byWeekNo" members
    byMonth := ← Value.optional (Value.asList Value.asStr) "byMonth" members
    bySetPosition := ← Value.optional (Value.asList Value.asI32) "bySetPosition" members
    firstDayOfWeek := ← Value.optional Value.asStr "firstDayOfWeek" members
    rscale := ← Value.optional Value.asStr "rscale" members
    skip := ← Value.optional Value.asStr "skip" members
    extra := Value.others
      ["@type", "frequency", "interval", "count", "until", "bySecond", "byMinute", "byHour",
        "byDay", "byMonthDay", "byYearDay", "byWeekNo", "byMonth", "bySetPosition",
        "firstDayOfWeek", "rscale", "skip"] members }

end RecurrenceRule

namespace CalendarEvent

def fields (event : CalendarEvent) : List (String × Option Value) :=
  let text (value : Option String) : Option Value := value.map .string
  let map (value : Option ValueMap) : Option Value := value.map .ofMap
  let flag (value : Option Bool) : Option Value := value.map .bool
  [("id", text event.id),
    ("calendarIds", event.calendarIds.map fun ids =>
      .ofMap (ids.mapValues fun _ held => .bool held)),
    ("@type", text event.eventType), ("version", text event.version),
    ("uid", text event.uid), ("created", text event.created),
    ("updated", text event.updated), ("title", text event.title),
    ("description", text event.description), ("start", text event.start),
    ("timeZone", text event.timeZone), ("duration", text event.duration),
    ("showWithoutTime", flag event.showWithoutTime), ("status", text event.status),
    ("freeBusyStatus", text event.freeBusyStatus), ("priority", event.priority.map .int),
    ("privacy", text event.privacy), ("locations", map event.locations),
    ("virtualLocations", map event.virtualLocations), ("links", map event.links),
    ("keywords", map event.keywords), ("alerts", map event.alerts),
    ("participants", map event.participants),
    ("organizerCalendarAddress", text event.organizerCalendarAddress),
    ("recurrenceRule", event.recurrenceRule.map RecurrenceRule.toJson),
    ("recurrenceOverrides", map event.recurrenceOverrides),
    ("timeZones", map event.timeZones), ("useDefaultAlerts", flag event.useDefaultAlerts),
    ("isOrigin", flag event.isOrigin)]

def toJson (event : CalendarEvent) : Value := .ofFields event.fields event.extra.map

theorem fields_names (event : CalendarEvent) : event.fields.map Prod.fst = eventProperties := rfl

theorem get?_toJson {event : CalendarEvent} (mem : (name, field) ∈ event.fields) :
    event.toJson.get? name = field := by
  apply Value.get?_ofFields _ mem
  · intro inExtra
    exact event.extra.unmodelled name inExtra
      (event.fields_names ▸ mem_map_of_mem mem)
  · rw [fields_names]
    decide

end CalendarEvent

end EvolutionJmap
