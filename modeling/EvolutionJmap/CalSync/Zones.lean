import EvolutionJmap.CalSync.Legal

/-!
# Custom time zones stay defined

The last step of a patch adds the definitions of the zones that it names and the server
lacks, and withdraws a property whose zone the edited event does not define.  So after
the patch every custom zone that it names has a definition, and the definitions that
the server had are unchanged.
-/

namespace EvolutionJmap.CalSync

open Ical Pointer List BTreeMap Value

variable {calcard : Calcard} {current edited : CalendarEvent}

/-! ## The zones that the edited event may name -/

variable {tzid : String}

theorem namesTimeZone_custom (isCustom : startsWith tzid '/' = true) :
    namesTimeZone tzid = false := by
  rw [startsWith, beq_iff_eq] at isCustom
  cases chars : tzid.toList with
  | nil =>
    rw [chars] at isCustom
    cases isCustom
  | cons first rest =>
    rw [chars] at isCustom
    cases isCustom
    have split : Text.split '/' ('/' :: rest) = [] :: Text.split '/' rest := by
      rw [Text.split, List.splitOn, splitOnP_cons_eq_if_modifyHead, if_pos (by simp)]
      rfl
    rw [namesTimeZone, chars, split]
    rfl

variable {definition : Value}

theorem definition_not_null
    (drawn : definesTimeZone calcard edited tzid = true)
    (found : timeZoneDefinition edited tzid = some definition) : definition.isNull = false := by
  rw [definesTimeZone, Bool.and_eq_true, found, Option.bind_some] at drawn
  cases definition with
  | null => nomatch drawn.2
  | bool _ | int _ | float _ | string _ | array _ | object _ => rfl

/-- The custom zones of a property can be drawn. -/
def Drawable (calcard : Calcard) (edited : CalendarEvent) (value : Value) : Prop :=
  ∀ tzid ∈ namedZones value, startsWith tzid '/' = true ∧ definesTimeZone calcard edited tzid = true

theorem customZone_eq_some {value : Option Value} :
    customZone value = some tzid ↔ value = some (.string tzid) ∧ startsWith tzid '/' = true := by
  rw [customZone, Option.filter_eq_some_iff, Option.bind_eq_some_iff]
  constructor
  · rintro ⟨⟨text, rfl, isText⟩, isCustom⟩
    cases text with
    | string text =>
      cases isText
      exact ⟨rfl, isCustom⟩
    | null | bool _ | int _ | float _ | array _ | object _ => cases isText
  · rintro ⟨rfl, isCustom⟩
    exact ⟨⟨_, rfl, rfl⟩, isCustom⟩

variable {baseline : CalendarEvent} {write : String × Value}

theorem diffTimeZone_drawable (written : write ∈ diffTimeZone calcard baseline edited) :
    write.1 = "timeZone" ∧ Drawable calcard edited write.2 := by
  rw [diffTimeZone] at written
  split at written
  · next maps =>
    rw [diffText] at written
    split at written
    · cases written
    · rw [mem_singleton.mp written]
      refine ⟨rfl, ?_⟩
      intro tzid named
      cases stated : nonEmpty edited.timeZone with
      | none =>
        rw [stated] at named
        cases named
      | some zone =>
        rw [stated] at named
        have isZone := customZone_eq_some.mp (Option.mem_toList.mp named)
        cases isZone.1
        rw [mapsTimeZone, stated] at maps
        simp only [namesTimeZone_custom isZone.2, Bool.false_or] at maps
        exact ⟨isZone.2, maps⟩
  · cases written

theorem sendsOverride_drawable {id tzid : String} {patch : Value}
    (sends : sendsRecurrenceOverride calcard edited id patch = true)
    (named : customZone (patch.get? "timeZone") = some tzid) :
    startsWith tzid '/' = true ∧ definesTimeZone calcard edited tzid = true := by
  obtain ⟨isZone, isCustom⟩ := customZone_eq_some.mp named
  refine ⟨isCustom, ?_⟩
  rw [sendsRecurrenceOverride, overrideMapsBy] at sends
  cases patch with
  | object fields =>
    have mem : ("timeZone", Value.string tzid) ∈ fields := Entries.mem_of_get? isZone
    change ((toIcalDateTime id).isSome && _) = true at sends
    rw [Bool.and_eq_true] at sends
    have each := sends.2
    split at each
    · next isExcluded =>
      -- an excluded instance has no other member
      rw [excluded, decide_eq_true_iff] at isExcluded
      have other : ("excluded", Value.bool true) ∈ fields := Entries.mem_of_get? isExcluded
      rw [beq_iff_eq, length_eq_one_iff] at each
      obtain ⟨only, rfl⟩ := each
      have same := (mem_singleton.mp mem).trans (mem_singleton.mp other).symm
      rw [Prod.mk.injEq] at same
      exact absurd same.1 (by decide)
    · have field := all_eq_true.mp each _ mem
      dsimp only at field
      rw [drawsOverrideField, if_pos rfl, nullOr] at field
      simpa [Value.isNull, Value.asStr, namesTimeZone_custom isCustom] using field
  | null | bool _ | int _ | float _ | string _ | array _ => cases isZone

theorem diffOverrides_drawable (written : write ∈ diffOverrides calcard current baseline edited) :
    write.1 = "recurrenceOverrides" ∧ Drawable calcard edited write.2 := by
  rw [diffOverrides] at written
  split at written
  · cases written
  · next refused =>
    split at written
    · cases written
    · rw [mem_singleton.mp written]
      refine ⟨rfl, ?_⟩
      intro tzid named
      have sends : sendsOverrides calcard edited = true := by
        simp only [any_cons, any_nil, Bool.or_false, Bool.or_eq_true,
          Bool.not_eq_true', not_or, Bool.not_eq_false] at refused
        exact refused.2
      cases isStated : stated edited.recurrenceOverrides with
      | none =>
        rw [isStated] at named
        cases named
      | some overrides =>
        rw [isStated] at named
        obtain ⟨⟨id, patch⟩, mem, isZone⟩ := mem_filterMap.mp named
        have inEvent : (id, patch) ∈ entriesOf edited.recurrenceOverrides := by
          rw [of_stated_eq_some isStated]
          exact mem
        exact sendsOverride_drawable (all_eq_true.mp sends _ inEvent) isZone

/-! ## Settling the zones of a property -/

/-- Every zone the value names is known or wanted. -/
def Covered (current : CalendarEvent) (wanted : ValueMap) (value : Value) : Prop :=
  ∀ tzid ∈ namedZones value, (timeZoneDefinition current tzid).isSome = true ∨
    ∃ definition, wanted.get? tzid = some definition

/-- A definition is wanted for a zone that the patch names and the server lacks. -/
def Wanted (current edited : CalendarEvent) (patch : Patch) (wanted : ValueMap) : Prop :=
  ∀ tzid definition, wanted.get? tzid = some definition →
    timeZoneDefinition current tzid = none ∧ timeZoneDefinition edited tzid = some definition ∧
      ∃ name ∈ ["timeZone", "recurrenceOverrides"], ∃ value, patch.get? name = some value ∧
        tzid ∈ namedZones value

theorem mem_lackingZones {tzids : List String} {zone : String × Value} :
    zone ∈ lackingZones current edited tzids ↔ zone.1 ∈ tzids ∧
      timeZoneDefinition current zone.1 = none ∧
      timeZoneDefinition edited zone.1 = some zone.2 := by
  rw [lackingZones, mem_filterMap]
  constructor
  · rintro ⟨tzid, mem, isZone⟩
    split at isZone
    · cases isZone
    · next lacking =>
      obtain ⟨definition, found, rfl⟩ := Option.map_eq_some_iff.mp isZone
      exact ⟨mem, Option.not_isSome_iff_eq_none.mp lacking, found⟩
  · rintro ⟨mem, lacking, found⟩
    refine ⟨zone.1, mem, ?_⟩
    rw [lacking, found]
    rfl

/-- What settling the zones of one property does. -/
structure SettledBy (current edited : CalendarEvent) (name : String)
    (before after : Patch × ValueMap) : Prop where
  keeps : ∀ tzid definition, before.2.get? tzid = some definition →
    ∃ definition, after.2.get? tzid = some definition
  adds : ∀ tzid definition, after.2.get? tzid = some definition →
    before.2.get? tzid = some definition ∨
      (timeZoneDefinition current tzid = none ∧ timeZoneDefinition edited tzid = some definition ∧
        ∃ value, before.1.get? name = some value ∧ tzid ∈ namedZones value)
  covers : ∀ value, after.1.get? name = some value → Covered current after.2 value

theorem settleZones_settled (state : Patch × ValueMap) (name : String) :
    SettledBy current edited name state (settleZones current edited state name) := by
  rw [settleZones]
  cases found : state.1.get? name with
  | none =>
    exact {
      keeps := fun _ definition before => ⟨definition, before⟩
      adds := fun _ _ => .inl
      covers := fun _ isNamed => nomatch found.symm.trans isNamed }
  | some value =>
    dsimp only
    split
    · exact {
        keeps := fun _ definition before => ⟨definition, before⟩
        adds := fun _ _ => .inl
        covers := by
          intro value isNamed
          rw [get?_erase, if_pos rfl] at isNamed
          nomatch isNamed }
    · next defined =>
      constructor
      · intro tzid definition before
        exact exists_get?_foldl_insert (.inl ⟨definition, before⟩)
      · intro tzid definition after
        rcases of_get?_foldl_insert after with before | ⟨zone, mem, rfl, rfl⟩
        · exact .inl before
        · obtain ⟨isNamed, lacking, isDefinition⟩ := mem_lackingZones.mp mem
          exact .inr ⟨lacking, isDefinition, value, found, isNamed⟩
      · intro other isNamed tzid isZone
        cases found.symm.trans isNamed
        by_cases known : (timeZoneDefinition current tzid).isSome = true
        · exact .inl known
        · have isDefined : timeZoneDefinition edited tzid ≠ none := by
            intro absent
            apply defined
            rw [any_eq_true]
            exact ⟨tzid, isZone, by rw [absent]; rfl⟩
          obtain ⟨definition, isDefinition⟩ := Option.ne_none_iff_exists'.mp isDefined
          have lacking : (tzid, definition) ∈ lackingZones current edited (namedZones value) :=
            mem_lackingZones.mpr
              ⟨isZone, Option.not_isSome_iff_eq_none.mp known, isDefinition⟩
          exact .inr (exists_get?_foldl_insert (.inr ⟨_, lacking, rfl⟩))

variable {value : Value}

theorem Covered.mono {wanted more : ValueMap} (covered : Covered current wanted value)
    (keeps : ∀ tzid definition, wanted.get? tzid = some definition →
      ∃ definition, more.get? tzid = some definition) : Covered current more value := by
  intro tzid named
  rcases covered tzid named with known | ⟨definition, found⟩
  · exact .inl known
  · exact .inr (keeps tzid definition found)

/-- The patch and the wanted definitions after both properties. -/
def settled (current edited : CalendarEvent) (patch : Patch) : Patch × ValueMap :=
  ["timeZone", "recurrenceOverrides"].foldl (settleZones current edited) (patch, ∅)

theorem settled_wanted (patch : Patch) :
    Wanted current edited patch (settled current edited patch).2 := by
  intro tzid definition found
  have first := @settleZones_settled current edited (patch, ∅) "timeZone"
  have second := @settleZones_settled current edited
    (settleZones current edited (patch, ∅) "timeZone") "recurrenceOverrides"
  rcases second.adds tzid definition found with before |
    ⟨lacking, isDefinition, value, isNamed, isZone⟩
  · rcases first.adds tzid definition before with absent |
      ⟨lacking, isDefinition, value, isNamed, isZone⟩
    · cases absent
    · exact ⟨lacking, isDefinition, "timeZone", by simp, value, isNamed, isZone⟩
  · exact ⟨lacking, isDefinition, "recurrenceOverrides", by simp, value,
      get?_settleZones isNamed, isZone⟩

variable {name : String}

theorem settled_covers {patch : Patch} (zoned : name ∈ ["timeZone", "recurrenceOverrides"])
    (found : (settled current edited patch).1.get? name = some value) :
    Covered current (settled current edited patch).2 value := by
  have first := @settleZones_settled current edited (patch, ∅) "timeZone"
  have second := @settleZones_settled current edited
    (settleZones current edited (patch, ∅) "timeZone") "recurrenceOverrides"
  rw [mem_cons, mem_singleton] at zoned
  rcases zoned with rfl | rfl
  · exact (first.covers value (get?_settleZones found)).mono second.keeps
  · exact second.covers value found

variable {path : String}

theorem get?_settled {patch : Patch}
    (found : (settled current edited patch).1.get? path = some value) :
    patch.get? path = some value :=
  get?_settleZones (get?_settleZones found)

/-! ## The patch with its definitions -/

theorem entryPath_injective (plain : Plain name) {key other : String}
    (same : entryPath name key = entryPath name other) : key = other := by
  rw [entryPath_eq plain, entryPath_eq plain] at same
  have keysSame := congrArg Pointer.keys same
  rw [keys_path (cons_ne_nil _ _), keys_path (cons_ne_nil _ _)] at keysSame
  simpa using keysSame

def withDefinitions (current : CalendarEvent) (state : Patch × ValueMap) : Patch :=
  if state.2.isEmpty then state.1
  else if current.timeZones.isSome then
    state.2.entries.foldl
      (fun patch zone => patch.insert (entryPath "timeZones" zone.1) zone.2) state.1
  else state.1.insert "timeZones" (.ofMap state.2)

theorem diffTimeZones_eq (patch : Patch) (current edited : CalendarEvent) :
    diffTimeZones patch current edited = withDefinitions current (settled current edited patch) :=
  rfl

variable {state : Patch × ValueMap}

theorem get?_withDefinitions (found : (withDefinitions current state).get? path = some value) :
    state.1.get? path = some value ∨
      (current.timeZones.isSome = true ∧ ∃ tzid, path = entryPath "timeZones" tzid ∧
        state.2.get? tzid = some value) ∨
      (current.timeZones = none ∧ path = "timeZones" ∧ value = .ofMap state.2) := by
  rw [withDefinitions] at found
  split at found
  · exact .inl found
  · split at found
    · next isSome =>
      rcases of_get?_foldl_insert found with before | ⟨zone, mem, isPath, rfl⟩
      · exact .inl before
      · exact .inr (.inl ⟨isSome, zone.1, isPath, (mem_entries _).mp mem⟩)
    · next absent =>
      rw [get?_insert] at found
      split at found
      · next isZones =>
        exact .inr (.inr ⟨Option.not_isSome_iff_eq_none.mp absent, isZones,
          (Option.some.inj found).symm⟩)
      · exact .inl found

theorem withDefinitions_wanted (found : state.2.get? tzid = some definition) :
    (current.timeZones.isSome = true ∧
      (withDefinitions current state).get? (entryPath "timeZones" tzid) = some definition) ∨
      (current.timeZones = none ∧
        (withDefinitions current state).get? "timeZones" = some (.ofMap state.2)) := by
  have filled : ¬ state.2.isEmpty = true := by
    intro isEmpty
    rw [(isEmpty_iff _).mp isEmpty] at found
    cases found
  rw [withDefinitions, if_neg filled]
  cases current.timeZones with
  | none =>
    refine .inr ⟨rfl, ?_⟩
    rw [if_neg (by simp), get?_insert, if_pos rfl]
  | some definitions =>
    refine .inl ⟨rfl, ?_⟩
    rw [if_pos Option.isSome_some]
    -- the paths of different zones differ, so no later definition replaces this one
    have nodup : ((state.2.entries.map fun zone =>
        (entryPath "timeZones" zone.1, zone.2)).reverse.map Prod.fst).Nodup := by
      rw [map_reverse, nodup_reverse, map_map]
      apply List.Nodup.map_on _ (List.Nodup.of_map Prod.fst state.2.keys_nodup)
      intro zone inZones other inZones' same
      have sameKey : zone.1 = other.1 := entryPath_injective (by decide) same
      exact inj_on_of_nodup_map state.2.keys_nodup inZones inZones' sameKey
    have mem : (entryPath "timeZones" tzid, definition) ∈ (state.2.entries.map fun zone =>
        (entryPath "timeZones" zone.1, zone.2)).reverse :=
      mem_reverse.mpr (mem_map.mpr
        ⟨(tzid, definition), (mem_entries _).mpr found, rfl⟩)
    have inserted := get?_foldl_insert (state.2.entries.map fun zone =>
      (entryPath "timeZones" zone.1, zone.2)) state.1 (entryPath "timeZones" tzid)
    rw [foldl_map, Entries.get?_of_nodup nodup mem, Option.some_or] at inserted
    exact inserted

/-! ## After the patch -/

/-- The JSON of an event defines a zone, with or without its solidi. -/
def Defines (event : Value) (tzid : String) : Prop :=
  ∃ members, event.get? "timeZones" = some (.object members) ∧
    (definitionOf (Value.toMap members) tzid).isSome = true

def definingKeys (tzid : String) : List String :=
  [tzid, String.ofList (tzid.toList.dropWhile (· == '/'))]

theorem definitionOf_isSome {definitions : ValueMap} :
    (definitionOf definitions tzid).isSome = true ↔
      ∃ key ∈ definingKeys tzid, ∃ definition, definitions.get? key = some definition := by
  rw [definitionOf, Option.isSome_or, Bool.or_eq_true, Option.isSome_iff_exists,
    Option.isSome_iff_exists]
  simp [definingKeys]

theorem defines_of_follow {event definition : Value} {tzid key : String}
    (isKey : key ∈ definingKeys tzid)
    (found : event.follow ["timeZones", key] = some definition) : Defines event tzid := by
  rw [follow_cons] at found
  obtain ⟨zones, isZones, inZones⟩ := Option.bind_eq_some_iff.mp found
  obtain ⟨entry, isEntry, -⟩ := Option.bind_eq_some_iff.mp inZones
  cases zones with
  | object members =>
    refine ⟨members, isZones, definitionOf_isSome.mpr ⟨key, isKey, entry, ?_⟩⟩
    rw [get?_toMap]
    exact isEntry
  | null | bool _ | int _ | float _ | string _ | array _ => cases isEntry

/-- Some path of the patch starts with the property. -/
def WritesInto (patch : Patch) (name : String) : Prop :=
  ∃ path ∈ patch.keys, (keys path).head? = some name

/-- The patch applies, and what it writes names no undefined zone. -/
structure ClosesZones (current : CalendarEvent) (patch : Patch) (patched : Value) : Prop where
  applied : Value.applyPatch patch.entries current.toJson = some patched
  timeZone : ∀ tzid, WritesInto patch "timeZone" → startsWith tzid '/' = true →
    patched.follow ["timeZone"] = some (.string tzid) → Defines patched tzid
  overrides : ∀ id tzid, WritesInto patch "recurrenceOverrides" → startsWith tzid '/' = true →
    patched.follow ["recurrenceOverrides", id, "timeZone"] = some (.string tzid) →
      Defines patched tzid
  kept : ∀ tzid definition, (current.timeZones.getD ∅).get? tzid = some definition →
    patched.follow ["timeZones", tzid] = some definition

section

variable {patch : Patch}

/-- Nothing but the steps of the difference is in the patch. -/
def Mapped (calcard : Calcard) (current edited : CalendarEvent) (patch : Patch) : Prop :=
  ∀ path value, patch.get? path = some value → ∃ baseline,
    (path, value) ∈ writesFrom calcard current baseline edited

section

variable (mapped : Mapped calcard current edited patch)

include mapped

theorem Mapped.zoned (zoned : name ∈ ["timeZone", "recurrenceOverrides"])
    (found : patch.get? path = some value) (head : (keys path).head? = some name) :
    path = name ∧ Drawable calcard edited value := by
  obtain ⟨baseline, written⟩ := mapped path value found
  obtain ⟨writes, inFamilies, inWrites⟩ := family_of_head written head
  rw [mem_cons, mem_singleton] at zoned
  rcases zoned with rfl | rfl
  · simp only [families, mem_cons, Prod.mk.injEq, String.reduceEq, false_and, true_and,
      not_mem_nil, or_false, false_or] at inFamilies
    subst inFamilies
    exact diffTimeZone_drawable inWrites
  · simp only [families, mem_cons, Prod.mk.injEq, String.reduceEq, false_and, true_and,
      not_mem_nil, or_false, false_or] at inFamilies
    subst inFamilies
    exact diffOverrides_drawable inWrites

theorem Mapped.wanted_not_null
    (found : (settled current edited patch).2.get? tzid = some definition) :
    definition.isNull = false := by
  rcases settled_wanted patch tzid definition found with
    ⟨-, isDefinition, name, zoned, value, isNamed, isZone⟩
  have plain : ∀ name ∈ ["timeZone", "recurrenceOverrides"], Plain name := by decide
  have drawable := (mapped.zoned zoned isNamed (by rw [keys_plain (plain name zoned)]; rfl)).2
  exact definition_not_null (drawable tzid isZone).2 isDefinition

theorem Mapped.head_ne (found : patch.get? path = some value) :
    (keys path).head? ≠ some "timeZones" := by
  intro head
  obtain ⟨baseline, written⟩ := mapped path value found
  obtain ⟨writes, inFamilies, -⟩ := family_of_head written head
  exact timeZones_not_family inFamilies

end

theorem apart_of_head {key : String} (head : (keys path).head? ≠ some name) :
    Value.Apart (keys path) [name, key] := by
  cases split : keys path with
  | nil => exact absurd split (keys_ne_nil path)
  | cons first rest =>
    rw [split] at head
    have differs : first ≠ name := fun same => head (congrArg some same)
    constructor
    · intro before
      exact differs (cons_prefix_cons.mp before).1
    · intro before
      exact differs (cons_prefix_cons.mp before).1.symm

theorem follow_definition
    (held : (current.timeZones.getD ∅).get? tzid = some definition) :
    current.toJson.follow ["timeZones", tzid] = some definition :=
  follow_entry (by simp [CalendarEvent.fields]) held

theorem diffMapped_mapped : Mapped calcard current edited (diffMapped calcard current edited) := by
  intro path value found
  obtain ⟨baseline, -, written⟩ := mem_diffMapped found
  exact ⟨baseline, written⟩

section

variable (mapped : Mapped calcard current edited patch)

include mapped

theorem Mapped.apart_definition (held : (current.timeZones.getD ∅).get? tzid = some definition) :
    ∀ path ∈ (diffTimeZones patch current edited).keys,
      Value.Apart (keys path) ["timeZones", tzid] := by
  intro path named
  obtain ⟨value, found⟩ := (mem_keys _).mp named
  rw [diffTimeZones_eq] at found
  rcases get?_withDefinitions found with before | ⟨-, zone, rfl, isWanted⟩ | ⟨absent, -⟩
  · exact apart_of_head (mapped.head_ne (get?_settled before))
  · have other : zone ≠ tzid := by
      intro same
      subst same
      have lacking := (settled_wanted patch zone value isWanted).1
      cases stated : current.timeZones with
      | none =>
        rw [stated] at held
        cases held
      | some definitions =>
        rw [stated] at held
        rw [timeZoneDefinition, stated, Option.bind_some, definitionOf,
          show definitions.get? zone = _ from held] at lacking
        cases lacking
    rw [entryPath_eq (by decide), keys_path (cons_ne_nil _ _)]
    constructor
    · intro before
      exact other (by simpa using before)
    · intro before
      have same : tzid = zone := by simpa using before
      exact other same.symm
  · rw [absent] at held
    cases held

section

variable {patched : Value} (written : WrittenBy (diffTimeZones patch current edited) patched)

include written

/-- A zone that the patch names is defined by the server or by the patch. -/
theorem Mapped.defines (kept : ∀ tzid definition,
      (current.timeZones.getD ∅).get? tzid = some definition →
        patched.follow ["timeZones", tzid] = some definition)
    (covers : Covered current (settled current edited patch).2 value)
    (named : tzid ∈ namedZones value) : Defines patched tzid := by
  rcases covers tzid named with known | ⟨definition, isWanted⟩
  · obtain ⟨definition, found⟩ := Option.isSome_iff_exists.mp known
    obtain ⟨definitions, stated, inDefinitions⟩ := Option.bind_eq_some_iff.mp found
    rcases definitionOf_isSome.mp (Option.isSome_iff_exists.mpr ⟨definition, inDefinitions⟩) with
      ⟨key, isKey, entry, held⟩
    exact defines_of_follow isKey (kept key entry (by rw [stated]; exact held))
  · have isKey : tzid ∈ definingKeys tzid := mem_cons_self
    rcases withDefinitions_wanted isWanted with ⟨-, found⟩ | ⟨-, found⟩
    · have entry := written _ _ found
      rw [entryPath_eq (by decide), keys_path (cons_ne_nil _ _),
        mapped.wanted_not_null isWanted] at entry
      exact defines_of_follow isKey entry
    · have zones := written _ _ found
      rw [keys_plain (by decide)] at zones
      exact defines_of_follow isKey (follow_ofMap zones isWanted)

theorem Mapped.follow_zoned (zoned : name ∈ ["timeZone", "recurrenceOverrides"])
    (into : WritesInto (diffTimeZones patch current edited) name) :
    ∃ value, Covered current (settled current edited patch).2 value ∧
      patched.follow [name] = if value.isNull then none else some value := by
  obtain ⟨path, named, head⟩ := into
  obtain ⟨value, found⟩ := (mem_keys _).mp named
  have plain : ∀ name ∈ ["timeZone", "recurrenceOverrides"], Plain name := by decide
  have differs : ∀ name ∈ ["timeZone", "recurrenceOverrides"], "timeZones" ≠ name := by decide
  have zones : ∀ {path : String}, Pointer.Under "timeZones" path →
      (keys path).head? ≠ some name := by
    intro path under head
    rw [under.head_keys (by decide)] at head
    exact differs name zoned (Option.some.inj head)
  rcases get?_withDefinitions found with before | ⟨-, zone, rfl, -⟩ | ⟨-, rfl, -⟩
  · obtain ⟨rfl, -⟩ := mapped.zoned zoned (get?_settled before) head
    refine ⟨value, settled_covers zoned before, ?_⟩
    have isWritten := written _ _ found
    rwa [keys_plain (plain path zoned)] at isWritten
  · exact absurd head (zones (entryPath_under _ _))
  · exact absurd head (zones (.inl rfl))

end

theorem Mapped.closes (sends : Sends calcard current edited (diffTimeZones patch current edited)) :
    ∃ patched, ClosesZones current (diffTimeZones patch current edited) patched := by
  obtain ⟨patched, applied, written, unchanged⟩ := sends.legal.exists_applyPatch
  have kept : ∀ tzid definition, (current.timeZones.getD ∅).get? tzid = some definition →
      patched.follow ["timeZones", tzid] = some definition := by
    intro tzid definition held
    rw [unchanged _ (mapped.apart_definition held), follow_definition held]
  refine ⟨patched, applied, ?_, ?_, kept⟩
  · intro tzid into isCustom isZone
    obtain ⟨value, covers, isValue⟩ := mapped.follow_zoned written (by simp) into
    rw [isZone] at isValue
    split at isValue
    · cases isValue
    · cases isValue
      apply mapped.defines written kept covers
      exact Option.mem_toList.mpr (customZone_eq_some.mpr ⟨rfl, isCustom⟩)
  · intro id tzid into isCustom isZone
    obtain ⟨value, covers, isValue⟩ := mapped.follow_zoned written (by simp) into
    rw [← singleton_append, follow_append, isValue] at isZone
    split at isZone
    · cases isZone
    · change (value.get? id).bind (Value.follow · ["timeZone"]) = _ at isZone
      obtain ⟨override, isOverride, inOverride⟩ := Option.bind_eq_some_iff.mp isZone
      apply mapped.defines written kept covers
      cases value with
      | object overrides =>
        have named : customZone (override.get? "timeZone") = some tzid := by
          rw [follow_cons] at inOverride
          obtain ⟨zone, isStated, isText⟩ := Option.bind_eq_some_iff.mp inOverride
          cases isText
          exact customZone_eq_some.mpr ⟨isStated, isCustom⟩
        exact mem_filterMap.mpr ⟨(id, override), Entries.mem_of_get? isOverride, named⟩
      | null | bool _ | int _ | float _ | string _ | array _ => cases isOverride

theorem Mapped.retain (keep : String → Value → Bool) :
    Mapped calcard current edited (patch.retain keep) := by
  intro path value found
  rw [get?_retain] at found
  exact mapped path value (Option.filter_eq_some_iff.mp found).1

end

theorem diffSinceExcept_closes (base : CalendarEvent) (kept : BTreeSet String) :
    ∃ patched, ClosesZones current (diffSinceExcept calcard base current edited kept) patched := by
  have sends := @diffSinceExcept_sends calcard current edited base kept
  rw [diffSinceExcept] at sends ⊢
  exact (diffMapped_mapped.retain _).closes sends

end

/-- After a patch every custom zone that it names is defined, and the definitions that the
server had are as before. -/
theorem patches_closeZones (calcard : Calcard) (base current edited : CalendarEvent)
    (kept : BTreeSet String) :
    (∃ patched, ClosesZones current (diff calcard current edited) patched) ∧
      (∃ patched, ClosesZones current (diffSince calcard base current edited) patched) ∧
      ∃ patched, ClosesZones current (diffSinceExcept calcard base current edited kept) patched :=
  ⟨diffMapped_mapped.closes diff_sends, diffSinceExcept_closes base ∅,
    diffSinceExcept_closes base kept⟩

end EvolutionJmap.CalSync
