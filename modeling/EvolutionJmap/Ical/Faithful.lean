import EvolutionJmap.Ical.Read

/-!
# Documents that are read back

calcard is faithful to a document if it reads the components that were drawn, with equal
names, parameters and values.  How a value is typed is not compared, because the readers
only look at its text.
-/

namespace EvolutionJmap.Ical

open List BTreeMap Function

/-! ## What the readers see -/

/-- A line with its parameters and values as texts. -/
def ICalendarEntry.plain (entry : ICalendarEntry) : ICalendarEntry :=
  { name := entry.name
    params := entry.params.map fun param => (param.1, .typed (paramText param.2))
    values := (entryTexts entry).map .text }

def ICalendarComponent.plain (component : ICalendarComponent) : ICalendarComponent :=
  { component with entries := component.entries.map ICalendarEntry.plain }

section

variable (entry : ICalendarEntry) (component : ICalendarComponent)
  (components : List ICalendarComponent) (name : String)

@[simp] theorem plain_name : entry.plain.name = entry.name := rfl

@[simp] theorem plain_componentType : component.plain.componentType = component.componentType := rfl

@[simp] theorem plain_componentIds : component.plain.componentIds = component.componentIds := rfl

@[simp] theorem entryTexts_plain : entryTexts entry.plain = entryTexts entry := by
  simp [entryTexts, ICalendarEntry.plain, filterMap_map, comp_def, valueText]

@[simp] theorem entryText_plain : entryText entry.plain = entryText entry := by
  rw [entryText, entryTexts_plain, entryText]

@[simp] theorem entryRawValue_plain : entryRawValue entry.plain = entryRawValue entry :=
  entryText_plain entry

@[simp] theorem entryParamValues_plain :
    entryParamValues entry.plain name = entryParamValues entry name := by
  simp [entryParamValues, ICalendarEntry.plain, filter_map, comp_def, paramText]

@[simp] theorem entryParam_plain : entryParam entry.plain name = entryParam entry name := by
  rw [entryParam, entryParamValues_plain, entryParam]

@[simp] theorem componentEntries_plain : componentEntries component.plain name =
    (componentEntries component name).map ICalendarEntry.plain := by
  simp [componentEntries, ICalendarComponent.plain, filter_map, comp_def]

@[simp] theorem componentEntry_plain : componentEntry component.plain name =
    (componentEntry component name).map ICalendarEntry.plain := by
  rw [componentEntry, componentEntries_plain, componentEntry, head?_map]

@[simp] theorem componentText_plain :
    componentText component.plain name = componentText component name := by
  rw [componentText, componentEntry_plain, componentText, Option.map_map]
  congr 1
  funext line
  exact entryText_plain line

@[simp] theorem childrenOf_plain :
    childrenOf (components.map ICalendarComponent.plain) component.plain =
      (childrenOf components component).map ICalendarComponent.plain := by
  rw [childrenOf, childrenOf, map_filterMap]
  congr 1
  funext id
  exact getElem?_map

end

/-! ## Each reader -/

section

variable (entry : ICalendarEntry) (component : ICalendarComponent)
  (components : List ICalendarComponent)

@[simp] theorem readAlert_plain : readAlert component.plain = readAlert component := by
  simp [readAlert, readRelated, Option.bind_map, comp_def, Option.filter_map]

theorem keyedAlerts_plain (alerts : ValueMap) (nameless : List Value) :
    keyedAlerts (components.map ICalendarComponent.plain) alerts nameless =
      keyedAlerts components alerts nameless := by
  induction components generalizing alerts nameless with
  | nil => rfl
  | cons valarm rest ih => simp only [map_cons, keyedAlerts, readAlert_plain,
      componentText_plain, ih]

@[simp] theorem readAlerts_plain :
    readAlerts component.plain (components.map ICalendarComponent.plain) =
      readAlerts component components := by
  simp [readAlerts, filter_map, comp_def, keyedAlerts_plain]

@[simp] theorem readOrganizerLine_plain :
    readOrganizerLine entry.plain = readOrganizerLine entry := by
  funext participant
  simp [readOrganizerLine, namedBy]

@[simp] theorem readAttendeeLine_plain : readAttendeeLine entry.plain = readAttendeeLine entry := by
  funext participant
  simp [readAttendeeLine, namedBy, rolesBy]

theorem foldl_readPerson_plain {read : ICalendarEntry → ValueMap → ValueMap}
    (same : ∀ line : ICalendarEntry, read line.plain = read line) (people : People)
    (lines : List ICalendarEntry) :
    (lines.map ICalendarEntry.plain).foldl (readPerson read) people =
      lines.foldl (readPerson read) people := by
  have step : ∀ people line, readPerson read people (ICalendarEntry.plain line) =
      readPerson read people line := by
    intro people line
    simp [readPerson, same]
  simp only [foldl_map, step]

@[simp] theorem readParticipants_plain :
    readParticipants component.plain = readParticipants component := by
  have people : readPeople component.plain = readPeople component := by
    rw [readPeople, componentEntry_plain, componentEntries_plain, Option.toList_map,
      foldl_readPerson_plain readOrganizerLine_plain, foldl_readPerson_plain readAttendeeLine_plain,
      readPeople]
  rw [readParticipants, people, readParticipants]

@[simp] theorem readOrganizer_plain : readOrganizer component.plain = readOrganizer component := by
  simp [readOrganizer, comp_def]

@[simp] theorem statedKey_plain : statedKey entry.plain = statedKey entry := by
  simp [statedKey]

@[simp] theorem readLocations_plain : readLocations component.plain = readLocations component := by
  simp [readLocations, Option.bind_map]

section

variable {stem : String} {read : ICalendarEntry → Option Value}
  (same : ∀ line : ICalendarEntry, read line.plain = read line)

include same

theorem readKeyed_plain (stated : List String) (lines : List ICalendarEntry) (invented : Nat)
    (map : ValueMap) : readKeyed stem read stated (lines.map ICalendarEntry.plain) invented map =
      readKeyed stem read stated lines invented map := by
  induction lines generalizing invented map with
  | nil => rfl
  | cons line lines ih => simp only [map_cons, readKeyed, same, statedKey_plain, ih]

theorem readFamily_plain (lines : List ICalendarEntry) :
    readFamily stem read (lines.map ICalendarEntry.plain) = readFamily stem read lines := by
  simp [readFamily, readKeyed_plain same, filterMap_map]

end

@[simp] theorem readVirtualLocations_plain :
    readVirtualLocations component.plain = readVirtualLocations component := by
  rw [readVirtualLocations, componentEntries_plain]
  exact readFamily_plain (fun line => by simp [readConference]) _

@[simp] theorem readLinks_plain : readLinks component.plain = readLinks component := by
  have lines : component.plain.entries.filter (fun entry => eqIgnoreAsciiCase entry.name "ATTACH" ||
      eqIgnoreAsciiCase entry.name "IMAGE") =
      (component.entries.filter fun entry => eqIgnoreAsciiCase entry.name "ATTACH" ||
        eqIgnoreAsciiCase entry.name "IMAGE").map ICalendarEntry.plain := by
    simp [ICalendarComponent.plain, filter_map, comp_def]
  rw [readLinks, lines]
  exact readFamily_plain (fun line => by simp [readLink, readLinkKind]) _

@[simp] theorem readKeywords_plain : readKeywords component.plain = readKeywords component := by
  simp [readKeywords, flatMap_map]

@[simp] theorem readDuration_plain : readDuration component.plain = readDuration component := by
  simp [readDuration, Option.bind_map]

@[simp] theorem readStart_plain (zones : Zones) :
    readStart component.plain zones = readStart component zones := by
  rw [readStart, componentEntry_plain, readStart]
  cases componentEntry component "DTSTART" with
  | none => rfl
  | some property => simp

@[simp] theorem valuesOf_plain (name : String) :
    valuesOf component.plain name = valuesOf component name := by
  simp [valuesOf, flatMap_map]

/-! ## Zones -/

@[simp] theorem onsets_plain («from» year : Int) :
    Zone.onsets component.plain «from» year = Zone.onsets component «from» year := by
  simp [Zone.onsets, flatMap_map, comp_def]

theorem stand_plain (target year : Int) (standing : Zone.Standing) :
    Zone.stand target year standing component.plain =
      Zone.stand target year standing component := by
  simp [Zone.stand]

@[simp] theorem zone_offsetAt_plain (utc : String) :
    Zone.offsetAt (components.map ICalendarComponent.plain) utc =
      Zone.offsetAt components utc := by
  simp only [Zone.offsetAt, foldlM_map, stand_plain]

end

/-! ## Rules -/

section

variable {ends other : Ends} (same : ∀ value, readUntil value ends = readUntil value other)

include same

/-- What the end of a rule is read against matters for the end only. -/
theorem readRuleParts_congr (parts : List String) (rule : RecurrenceRule) :
    readRuleParts ends parts rule = readRuleParts other parts rule := by
  have part : ∀ rule key value, readRulePart ends rule key value =
      readRulePart other rule key value := by
    intro rule key value
    unfold readRulePart
    rw [same]
  induction parts generalizing rule with
  | nil => rfl
  | cons text parts ih => simp only [readRuleParts, part, ih]

theorem rruleToRule_congr (value : String) : rruleToRule value ends = rruleToRule value other := by
  rw [rruleToRule, readRuleParts_congr same, rruleToRule]

end

theorem readUntil_plain (name : Option String) (observances : Option (List ICalendarComponent))
    (value : String) :
    readUntil value (.in ⟨name, observances.map (List.map ICalendarComponent.plain)⟩) =
      readUntil value (.in ⟨name, observances⟩) := by
  have offset : ∀ utc, Zoned.offsetAt ⟨name, observances.map (List.map ICalendarComponent.plain)⟩
      utc = Zoned.offsetAt ⟨name, observances⟩ utc := by
    intro utc
    simp [Zoned.offsetAt, Option.bind_map]
  simp only [readUntil, offset]

/-! ## Stated zones -/

def StatedZone.plain (zone : StatedZone) : StatedZone :=
  { zone with observances := zone.observances.map ICalendarComponent.plain }

/-- The stated zones with their observances as texts. -/
def Zones.plain (zones : Zones) : Zones := zones.mapValues fun _ zone => zone.plain

theorem ofList_mapValues {V W : Type} (entries : List (String × V)) (image : V → W) :
    BTreeMap.ofList (entries.map fun entry => (entry.1, image entry.2)) =
      (BTreeMap.ofList entries).mapValues fun _ value => image value := by
  have get : ∀ (key : String) (entries : List (String × V)),
      Entries.get? key (entries.map fun entry => (entry.1, image entry.2)) =
        (Entries.get? key entries).map image := by
    intro key entries
    induction entries with
    | nil => rfl
    | cons entry rest ih =>
      rw [map_cons, Entries.get?_cons, Entries.get?_cons, ih]
      split <;> rfl
  ext key value
  rw [get?_mapValues, get?_ofList, get?_ofList, ← map_reverse, get]

variable (timeZone : Option String)

section

variable (component : ICalendarComponent) (components : List ICalendarComponent) (zones : Zones)

theorem filter_isTimezone_plain :
    (components.map ICalendarComponent.plain).filter isTimezone =
      (components.filter isTimezone).map ICalendarComponent.plain := by
  rw [filter_map]
  rfl

@[simp] theorem statedZones_plain :
    statedZones (components.map ICalendarComponent.plain) =
      Zones.plain (statedZones components) := by
  rw [statedZones, Zones.plain, statedZones, ← ofList_mapValues, filter_isTimezone_plain,
    filterMap_map, map_filterMap]
  congr 2
  funext vtimezone
  simp [comp_def, StatedZone.plain]

@[simp] theorem zoneOf_plain (tzid : String) : zoneOf tzid zones.plain = zoneOf tzid zones := by
  have name : (zones.plain.get? tzid).bind StatedZone.name =
      (zones.get? tzid).bind StatedZone.name := by
    rw [Zones.plain, get?_mapValues, Option.bind_map]
    rfl
  rw [zoneOf, name, zoneOf]

theorem values_plain : zones.plain.values = zones.values.map StatedZone.plain := by
  simp [Zones.plain, BTreeMap.values, BTreeMap.mapValues, comp_def]

@[simp] theorem startZone_plain :
    startZone component.plain zones.plain timeZone =
      (startZone component zones timeZone).map StatedZone.plain := by
  rw [startZone, startZone]
  split
  · rfl
  · rw [componentEntry_plain, Option.bind_map]
    simp only [comp_def, entryParam_plain]
    cases (componentEntry component "DTSTART").bind fun property => entryParam property "TZID" with
    | none => rfl
    | some tzid =>
      rw [Option.bind_some, Option.bind_some, Zones.plain, get?_mapValues,
        ← Zones.plain, values_plain, find?_map, Option.map_or]
      rfl

theorem readStart_zones_plain : readStart component zones.plain = readStart component zones := by
  simp only [readStart, zoneOf_plain]

theorem readRule_plain :
    (componentEntries component.plain "RRULE").findSome? (fun property =>
        rruleToRule (entryRawValue property) (startEnds component.plain zones.plain timeZone)) =
      (componentEntries component "RRULE").findSome? (fun property =>
        rruleToRule (entryRawValue property) (startEnds component zones timeZone)) := by
  have observances : ((startZone component zones timeZone).map StatedZone.plain).map
      StatedZone.observances = ((startZone component zones timeZone).map
        StatedZone.observances).map (List.map ICalendarComponent.plain) := by
    cases startZone component zones timeZone <;> rfl
  rw [componentEntries_plain, findSome?_map, startEnds, startEnds, startZone_plain, observances]
  generalize (startZone component zones timeZone).map StatedZone.observances = stated
  have each : (fun property => rruleToRule (entryRawValue property)
      (.in ⟨timeZone, stated.map (List.map ICalendarComponent.plain)⟩)) ∘ ICalendarEntry.plain =
      fun property => rruleToRule (entryRawValue property) (.in ⟨timeZone, stated⟩) := by
    funext property
    rw [comp_apply, entryRawValue_plain]
    exact rruleToRule_congr (readUntil_plain timeZone stated) _
  rw [each]

@[simp] theorem readVevent_plain :
    readVevent component.plain zones.plain (components.map ICalendarComponent.plain) =
      readVevent component zones components := by
  unfold readVevent
  rw [readStart_plain, readStart_zones_plain]
  obtain ⟨start, timeZone, showWithoutTime⟩ := readStart component zones
  dsimp only
  rw [readRule_plain]
  simp only [readDuration_plain, readStatus,
    readTransparency, readPriority, readPrivacy, componentText_plain, readLocations_plain,
    readVirtualLocations_plain, readKeywords_plain, readAlerts_plain, readParticipants_plain,
    readOrganizer_plain, readLinks_plain]

@[simp] theorem detachedInstance_plain (event : CalendarEvent) :
    detachedInstance event zones.plain (components.map ICalendarComponent.plain) component.plain =
      detachedInstance event zones components component := by
  rw [detachedInstance, componentEntry_plain, detachedInstance]
  cases componentEntry component recurrenceId with
  | none => simp only [Option.map_none, Option.bind_eq_bind, Option.bind_none]
  | some property =>
    simp only [Option.map_some, readVevent_plain, Option.bind_eq_bind, Option.bind_some,
      entryParam_plain, entryRawValue_plain]

theorem readOverrides_plain (others : List ICalendarComponent) (event : CalendarEvent) :
    readOverrides component.plain (others.map ICalendarComponent.plain) event zones.plain
        (components.map ICalendarComponent.plain) =
      readOverrides component others event zones components := by
  simp [readOverrides, filterMap_map]

@[simp] theorem readObservance_plain :
    readObservance component.plain = readObservance component := by
  simp [readObservance, Option.bind_map, comp_def, mapM_map]

theorem readObservances_plain (name : String) :
    readObservances component.plain (components.map ICalendarComponent.plain) name =
      readObservances component components name := by
  simp [readObservances, filter_map, comp_def, mapM_map]

@[simp] theorem readDefinition_plain :
    readDefinition component.plain (components.map ICalendarComponent.plain) =
      readDefinition component components := by
  simp only [readDefinition, componentText_plain, readObservances_plain]

theorem readZone_plain (calcard : Calcard) (tzid : String) :
    readZone calcard (components.map ICalendarComponent.plain) tzid =
      readZone calcard components tzid := by
  simp only [readZone, filter_isTimezone_plain, find?_map, comp_def,
    componentText_plain]
  cases (components.filter isTimezone).find? fun vtimezone =>
      componentText vtimezone "TZID" == some tzid with
  | none => rfl
  | some vtimezone => simp

theorem eventOf_plain (calcard : Calcard) :
    eventOf calcard (components.map ICalendarComponent.plain) = eventOf calcard components := by
  have events : (components.map ICalendarComponent.plain).filter isEvent =
      (components.filter isEvent).map ICalendarComponent.plain := by
    rw [filter_map]
    rfl
  have index : seriesIndex ((components.filter isEvent).map ICalendarComponent.plain) =
      seriesIndex (components.filter isEvent) := by
    simp [seriesIndex, findIdx?_map, comp_def]
  rw [eventOf, events, index, eventOf, getElem?_map]
  cases (components.filter isEvent)[seriesIndex (components.filter isEvent)]? with
  | none => rfl
  | some series =>
    simp only [Option.map_some, statedZones_plain, readVevent_plain, eraseIdx_map,
      readOverrides_plain, readTimeZones, readZone_plain]

end

/-- The readers see nothing but the texts of a document. -/
theorem eventOf_congr (calcard : Calcard) {components drawn : List ICalendarComponent}
    (same : components.map ICalendarComponent.plain = drawn.map ICalendarComponent.plain) :
    eventOf calcard components = eventOf calcard drawn := by
  rw [← eventOf_plain components, same, eventOf_plain]

end EvolutionJmap.Ical
