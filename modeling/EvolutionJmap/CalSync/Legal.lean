import EvolutionJmap.CalSync.Guests
import EvolutionJmap.CalSync.Paths
import EvolutionJmap.Ical.Keyed
import EvolutionJmap.Proto.PatchPaths

/-!
# A patch is legal

Each step of the difference writes its whole property, entries of its map, or
members of entries that the server's event has.  So the server can apply the patch
as a whole.
-/

namespace EvolutionJmap.CalSync

open Ical Pointer List BTreeMap Option

/-! ## Paths and objects -/

variable {name : String}

theorem entryPath_eq (plain : Plain name) (key : String) :
    entryPath name key = path [name, key] := by
  rw [path_cons name (cons_ne_nil _ _), escape_plain plain]
  rfl

variable {member : String}

theorem memberPath_eq (plain : Plain name) (plainMember : Plain member) (key : String) :
    memberPath name key member = path [name, key, member] := by
  rw [path_cons name (cons_ne_nil _ _), path_cons key (cons_ne_nil _ _),
    escape_plain plain]
  change name ++ "/" ++ escaped key ++ "/" ++ member =
    name ++ "/" ++ (escaped key ++ "/" ++ escapePointerSegment member)
  rw [escape_plain plainMember]
  simp only [String.append_assoc]

theorem plain_inventedKey {stem : String} (plain : Plain stem) (number : Nat) :
    Plain (inventedKey stem number) := by
  have digits : ∀ char ∈ (toString number).toList, char.isDigit = true := by
    intro char member
    exact Nat.isDigit_of_mem_toDigits (by decide) (by decide)
      (show char ∈ Nat.toDigits 10 number by simpa using member)
  have absent : ∀ char, char ∉ stem.toList → char.isDigit = false →
      char ∉ (inventedKey stem number).toList := by
    intro char notInStem notDigit member
    rw [inventedKey, String.toList_append, mem_append] at member
    cases member with
    | inl inStem => exact notInStem inStem
    | inr inNumber => exact Bool.false_ne_true (notDigit.symm.trans (digits char inNumber))
  exact ⟨absent '/' plain.1 (by decide), absent '~' plain.2 (by decide)⟩

variable {key : String} {writes : Writes} {before after : Value} {write : String × Value}
  {patch : Patch}

section

variable {event : CalendarEvent} {property : Option ValueMap} {map : ValueMap}

theorem leads_property (event : CalendarEvent) (name : String) :
    event.toJson.Leads [name] :=
  Value.leads_key name

theorem follow_property (member : (name, property.map Value.ofMap) ∈ event.fields)
    (stated : property = some map) : event.toJson.follow [name] = some (.ofMap map) := by
  rw [Value.follow_cons, CalendarEvent.get?_toJson member, stated]
  rfl

theorem hasObject_property (name : String)
    (member : (name, property.map Value.ofMap) ∈ event.fields)
    (stated : property = some map) : event.toJson.HasObject [name] :=
  ⟨map.entries, follow_property member stated⟩

theorem follow_entry {entry : Value}
    (member : (name, property.map Value.ofMap) ∈ event.fields)
    (found : (property.getD ∅).get? key = some entry) :
    event.toJson.follow [name, key] = some entry := by
  cases stated : property with
  | none =>
    rw [stated] at found
    cases found
  | some map =>
    rw [stated] at found
    exact Value.follow_ofMap (follow_property member stated) found

theorem hasObject_entry (name : String) {entry : Value}
    (member : (name, property.map Value.ofMap) ∈ event.fields)
    (found : (property.getD ∅).get? key = some entry) (isObject : entry.isObject = true) :
    event.toJson.HasObject [name, key] := by
  cases entry with
  | object members => exact ⟨members, follow_entry member found⟩
  | null | bool _ | int _ | float _ | string _ | array _ => cases isObject

end

theorem isObject_of_get? {value inner : Value} (found : value.get? key = some inner) :
    value.isObject = true := by
  cases value with
  | object members => rfl
  | null | bool _ | int _ | float _ | string _ | array _ => cases found

/-! ## Each step's writes -/

section

variable (calcard : Calcard) (current baseline edited : CalendarEvent)

theorem fits_whole (plain : Plain name) (value : Value) :
    Fits current.toJson [name] [(name, value)] :=
  .single (escape_plain plain).symm (leads_property current name)

theorem fits_unless (plain : Plain name) (same : Prop) [Decidable same] (value : Value) :
    Fits current.toJson [name] (if same then [] else [(name, value)]) := by
  split
  · exact .nil
  · exact fits_whole current plain value

theorem fits_members (plain : Plain name) (isObject : current.toJson.HasObject [name, key])
    (each : ∀ write ∈ writes, ∃ member, Plain member ∧ write.1 = memberPath name key member) :
    Fits current.toJson [name, key] writes := by
  apply Fits.leaves isObject
  intro write written
  obtain ⟨member, plainMember, isPath⟩ := each write written
  exact ⟨member, isPath.trans (memberPath_eq plain plainMember key)⟩

theorem diffLocations_fits :
    Fits current.toJson ["locations"] (diffLocations current baseline edited) := by
  have named : ∀ {key : String} {place value : Value},
      (current.locations.getD ∅).entries.head? = some (key, place) →
      mapsLocations (current.locations.getD ∅) = true →
      Fits current.toJson ["locations"] [(nameOf key, value)] := by
    intro key place value isHead maps
    have member : (key, place) ∈ (current.locations.getD ∅).entries :=
      mem_of_mem_head? isHead
    have isObject : place.isObject = true := by
      rw [mapsLocations] at maps
      split at maps
      · next empty => rw [empty] at isHead; nomatch isHead
      · next alone =>
        rw [alone] at isHead
        cases isHead
        simp only [Bool.and_eq_true] at maps
        exact maps.1.2
      · cases maps
    apply Fits.weaken [key]
    apply fits_members current (by decide)
      (hasObject_entry "locations" (by simp [CalendarEvent.fields])
        ((mem_entries _).mp member) isObject)
    intro write written
    rw [mem_singleton.mp written]
    exact ⟨"name", by decide, rfl⟩
  unfold diffLocations
  dsimp only
  split
  · exact .nil
  · next maps =>
    have maps : mapsLocations (current.locations.getD ∅) = true := by simpa using maps
    split
    · exact .nil
    · split
      · next isHead _ => exact named isHead maps
      · next isHead _ =>
        split
        · exact fits_whole current (by decide) _
        · exact named isHead maps
      · exact fits_whole current (by decide) _
      · exact .nil

theorem entriesOf_keys_nodup (map : Option ValueMap) : ((entriesOf map).map Prod.fst).Nodup := by
  cases map with
  | none => exact nodup_nil
  | some map => exact map.keys_nodup

theorem fits_entries {map : Option ValueMap} {image : String × Value → Writes}
    (each : ∀ shown ∈ entriesOf map, Fits current.toJson [name, shown.1] (image shown)) :
    Fits current.toJson [name] ((entriesOf map).flatMap image) := by
  apply @Fits.flatMap _ _ _ _ fun shown => some shown.1
  · rw [filterMap_eq_map']
    exact entriesOf_keys_nodup map
  · intro shown member own isOwn
    cases isOwn
    exact each shown member
  · intro shown _ isNone
    cases isNone

theorem diffConferenceMember_members
    (written : write ∈ diffConferenceMember key before after member) :
    write.1 = memberPath "virtualLocations" key member := by
  unfold diffConferenceMember at written
  dsimp only at written
  split at written
  · cases written
  · split at written
    · rw [mem_singleton.mp written]
    · split at written
      · rw [mem_singleton.mp written]
      · cases written

theorem diffVirtualLocations_fits :
    Fits current.toJson ["virtualLocations"] (diffVirtualLocations current baseline edited) := by
  rw [diffVirtualLocations]
  split
  · exact .nil
  · next maps =>
    have maps : mapsVirtualLocations (current.virtualLocations.getD ∅) = true := by
      simpa using maps
    apply fits_entries current
    intro shown _
    rw [diffConference]
    split
    · next after _ held =>
      obtain ⟨place, found⟩ := (contains_eq_true _).mp held
      have drawn := all_eq_true.mp maps _ ((mem_entries _).mpr found)
      have isObject : place.isObject = true := by
        cases place with
        | object members => rfl
        | null | bool _ | int _ | float _ | string _ | array _ =>
          simp [drawnConference, Value.get?] at drawn
      apply fits_members current (by decide) (hasObject_entry "virtualLocations"
        (by simp [CalendarEvent.fields]) found isObject)
      intro write written
      obtain ⟨member, isMember, written⟩ := mem_flatMap.mp written
      refine ⟨member, ?_, diffConferenceMember_members written⟩
      exact (show ∀ member ∈ ["uri", "name", "features"], Plain member by decide) member isMember
    · exact .nil

/-- Every link has an address. -/
def StatesAddresses (links : Option ValueMap) : Prop :=
  ∀ shown ∈ entriesOf links, ∃ href, shown.2.get? "href" = some href

theorem diffLinks_fits (states : StatesAddresses baseline.links) :
    Fits current.toJson ["links"] (diffLinks current baseline edited) := by
  apply fits_entries current
  intro shown member
  rw [diffLink]
  split
  · next after _ own =>
    split
    · exact .nil
    · obtain ⟨href, isHref⟩ := states shown member
      rw [theServersOwnEntry, decide_eq_true_iff, isHref] at own
      obtain ⟨link, found, hasHref⟩ := bind_eq_some_iff.mp own
      apply fits_members current (by decide) (hasObject_entry "links"
        (by simp [CalendarEvent.fields]) found (isObject_of_get? hasHref))
      intro write written
      obtain ⟨_, _, rfl⟩ := map_eq_some_iff.mp (mem_toList.mp written)
      exact ⟨"href", by decide, rfl⟩
  · exact .nil

/-- The members of a participant that an edit of the guest list writes. -/
def participantMembers : List String :=
  ["roles", "name", "kind", "participationStatus", "expectReply"]

/-- What a member of the server's entry `held` becomes when the edited list has the guest as
`after`: the edited member, and for the roles also those that no component can state. -/
def editedMember (held after : Value) (member : String) : Value :=
  if member = "roles" then mergedRoles held after else .ofOption (after.get? member)

theorem diffParticipant_members {held : Value}
    (written : write ∈ diffParticipant key held before after) :
    ∃ member ∈ participantMembers,
      write = (memberPath "participants" key member, editedMember held after member) := by
  rw [diffParticipant] at written
  rcases mem_append.mp written with roles | others
  · split at roles
    · cases roles
    · exact ⟨"roles", by decide, mem_singleton.mp roles⟩
  · obtain ⟨member, isMember, written⟩ := mem_flatMap.mp others
    have notRoles : member ≠ "roles" := by
      rintro rfl
      exact absurd isMember (by decide)
    split at written
    · cases written
    · split at written
      · cases written
      · refine ⟨member, mem_cons_of_mem _ isMember, ?_⟩
        rw [mem_singleton.mp written, editedMember, if_neg notRoles]

theorem changesOf_fits {held : ValueMap} {now : List (String × Value)} {person : String × Value}
    {entry : String × Value} (stated : current.participants = some held)
    (found : serversEntry held person.1 = some entry) :
    Fits current.toJson ["participants", entry.1] (changesOf held now person) := by
  have field : ("participants", current.participants.map Value.ofMap) ∈ current.fields := by
    simp [CalendarEvent.fields]
  rw [changesOf, found]
  cases findAddress now person.1 with
  | some after =>
    apply fits_members current (by decide) (hasObject_entry "participants" field
      (by rw [stated]; exact get?_of_serversEntry found)
      (isObject_of_hasAddress (serversEntry_mem found).2))
    intro write written
    obtain ⟨member, isMember, rfl⟩ := diffParticipant_members written
    exact ⟨member, (show ∀ member ∈ participantMembers, Plain member by decide) member isMember,
      rfl⟩
  | none =>
    exact .single (entryPath_eq (by decide) entry.1)
      ⟨["participants"], entry.1, rfl, hasObject_property "participants" field stated⟩

theorem addedPath_eq (number : Nat) :
    "participants/" ++ inventedKey "p" number = path ["participants", inventedKey "p" number] := by
  rw [path_cons _ (cons_ne_nil _ _), escape_plain (by decide)]
  change _ = "participants" ++ "/" ++ escapePointerSegment (inventedKey "p" number)
  rw [escape_plain (plain_inventedKey (by decide) number)]
  rfl

theorem diffGuests_fits (distinct : Distinct ((byAddress baseline).map Prod.fst)) :
    Fits current.toJson ["participants"] (diffGuests current baseline edited) := by
  rw [diffGuests]
  split
  · split
    · exact .nil
    · exact fits_whole current (by decide) _
  · next isStated =>
    rw [isNone_iff_eq_none] at isStated
    obtain ⟨held, stated⟩ := ne_none_iff_exists'.mp isStated
    rw [stated, getD_some]
    split
    · exact fits_whole current (by decide) _
    · have field : ("participants", current.participants.map Value.ofMap) ∈ current.fields := by
        simp [CalendarEvent.fields]
      have changes : Fits current.toJson ["participants"]
          ((byAddress baseline).flatMap (changesOf held (byAddress edited))) := by
        apply Fits.flatMap (serversKeys_nodup held distinct)
        · intro person _ own isOwn
          obtain ⟨entry, found, rfl⟩ := map_eq_some_iff.mp isOwn
          exact changesOf_fits current stated found
        · intro person _ unfound
          rw [changesOf, map_eq_none_iff.mp unfound]
      have additions : Fits current.toJson ["participants"]
          (addParticipants (BTreeSet.ofElems held.keys) (((byAddress edited).filter fun person =>
            !(byAddress baseline).any fun other =>
              eqIgnoreAsciiCase other.1 person.1).map Prod.snd)) := by
        apply Fits.leaves (hasObject_property "participants" field stated)
        intro write written
        obtain ⟨number, isPath, -⟩ := addParticipants_free written
        exact ⟨inventedKey "p" number, isPath.trans (addedPath_eq number)⟩
      apply changes.append additions
      intro change changed addition added
      -- a change is below a key that the server has, an addition below one that it has not
      obtain ⟨person, -, inChanges⟩ := mem_flatMap.mp changed
      obtain ⟨number, isPath, free, -⟩ := addParticipants_free added
      cases found : serversEntry held person.1 with
      | none =>
        rw [changesOf, found] at inChanges
        cases inChanges
      | some entry =>
        obtain ⟨rest, isKeys, -⟩ := (changesOf_fits current stated found).keys_eq inChanges
        refine ⟨entry.1, rest, inventedKey "p" number, [], isKeys, ?_, ?_⟩
        · rw [isPath, addedPath_eq, keys_path (cons_ne_nil _ _)]
          rfl
        · intro same
          have taken : (BTreeSet.ofElems held.keys).contains entry.1 = true := by
            rw [BTreeSet.contains_ofElems]
            exact mem_map_of_mem (serversEntry_mem found).1
          rw [same, free] at taken
          cases taken

/-! ## The whole patch -/

theorem families_fit (distinct : Distinct ((byAddress baseline).map Prod.fst))
    (states : StatesAddresses baseline.links) :
    ∀ family ∈ families calcard current baseline edited,
      Fits current.toJson [family.1] family.2 := by
  have text : ∀ {name : String} {was now : Option String}, Plain name →
      Fits current.toJson [name] (diffText name was now) :=
    fun plain => fits_unless current plain _ _
  have start : Fits current.toJson ["start"] (diffStart baseline edited) := by
    rw [diffStart]
    split
    · exact text (by decide)
    · exact .nil
  have timeZone : Fits current.toJson ["timeZone"] (diffTimeZone calcard baseline edited) := by
    rw [diffTimeZone]
    split
    · exact text (by decide)
    · exact .nil
  have alerts : Fits current.toJson ["alerts"] (diffAlerts current baseline edited) := by
    rw [diffAlerts]
    split
    · exact .nil
    · exact fits_unless current (by decide) _ _
  have recurrence : Fits current.toJson ["recurrenceRule"]
      (diffRecurrence current baseline edited) := by
    rw [diffRecurrence]
    split
    · exact .nil
    · exact fits_unless current (by decide) _ _
  have overrides : Fits current.toJson ["recurrenceOverrides"]
      (diffOverrides calcard current baseline edited) := by
    rw [diffOverrides]
    split
    · exact .nil
    · exact fits_unless current (by decide) _ _
  simp only [families, forall_mem_cons, not_mem_nil, false_implies, implies_true, and_true]
  exact ⟨start, timeZone, text (by decide), text (by decide), text (by decide), text (by decide),
    text (by decide), text (by decide), fits_unless current (by decide) _ _,
    fits_unless current (by decide) _ _, diffLocations_fits current baseline edited,
    diffVirtualLocations_fits current baseline edited,
    diffLinks_fits current baseline edited states, fits_unless current (by decide) _ _, alerts,
    recurrence, overrides, diffGuests_fits current baseline edited distinct,
    fits_unless current (by decide) _ _⟩

end

section

variable {calcard : Calcard} {current edited : CalendarEvent}

theorem icalToEvent_links {text : String} {event : CalendarEvent}
    (read : icalToEvent calcard text = .ok event) : StatesAddresses event.links := by
  obtain ⟨vevent, -, links⟩ := icalToEvent_series read
  rw [links]
  intro shown member
  rcases of_mem_readFamily (show shown ∈ entriesOf (readLinks vevent) from member) with
    ⟨line, -, isRead⟩
  exact ⟨_, get?_href_readLink isRead⟩

theorem timeZones_not_family {baseline : CalendarEvent} :
    ("timeZones", writes) ∉ families calcard current baseline edited := by
  intro member
  have named := mem_map_of_mem (f := Prod.fst) member
  simp [families] at named

/-- The zone definitions of a patch are entries of the server's map, or the whole map. -/
theorem Sends.zones_fit (sends : Sends calcard current edited patch) :
    Fits current.toJson ["timeZones"]
      (patch.entries.filter fun entry => (keys entry.1).head? == some "timeZones") := by
  have zones : ∀ entry ∈ patch.entries.filter fun entry =>
        (keys entry.1).head? == some "timeZones",
      (current.timeZones.isSome = true ∧ ∃ tzid, entry.1 = entryPath "timeZones" tzid) ∨
        (current.timeZones = none ∧ entry.1 = "timeZones") := by
    intro entry member
    rw [mem_filter, beq_iff_eq, mem_entries] at member
    rcases sends entry.1 entry.2 member.1 with ⟨baseline, -, written⟩ | zone
    · obtain ⟨writes, inFamilies, -⟩ := family_of_head written member.2
      exact absurd inFamilies timeZones_not_family
    · exact zone
  cases stated : current.timeZones with
  | some definitions =>
    apply Fits.leaves (hasObject_property "timeZones" (by simp [CalendarEvent.fields]) stated)
    intro entry member
    rcases zones entry member with ⟨-, tzid, isPath⟩ | ⟨absent, -⟩
    · exact ⟨tzid, isPath.trans (entryPath_eq (by decide) tzid)⟩
    · nomatch stated.symm.trans absent
  | none =>
    have whole : ∀ entry ∈ patch.entries.filter fun entry =>
        (keys entry.1).head? == some "timeZones", entry.1 = "timeZones" := by
      intro entry member
      rcases zones entry member with ⟨isSome, -⟩ | ⟨-, isWhole⟩
      · rw [stated] at isSome
        cases isSome
      · exact isWhole
    constructor
    · intro entry member
      exact ⟨[], (whole entry member).trans (escape_plain (by decide)).symm,
        leads_property current "timeZones"⟩
    · intro one isOne other isOther _
      rw [whole one isOne, whole other isOther]

theorem Sends.legal (sends : Sends calcard current edited patch) : Legal current.toJson patch := by
  let zones : String × Writes := ("timeZones",
    patch.entries.filter fun entry => (keys entry.1).head? == some "timeZones")
  have isZone : ∀ {path : String} {value : Value}, patch.get? path = some value →
      Pointer.Under "timeZones" path → (path, value) ∈ zones.2 := by
    intro path value found under
    rw [mem_filter, beq_iff_eq, mem_entries]
    exact ⟨found, under.head_keys (by decide)⟩
  cases drawn : baselineOf calcard current with
  | error error =>
    apply (Fits.weaken ["timeZones"] sends.zones_fit).legal
    intro path named
    obtain ⟨value, found⟩ := (mem_keys _).mp named
    refine ⟨value, ?_⟩
    rcases sends path value found with ⟨baseline, isDrawn, -⟩ | ⟨-, tzid, rfl⟩ | ⟨-, rfl⟩
    · nomatch drawn.symm.trans isDrawn
    · exact isZone found (entryPath_under _ _)
    · exact isZone found (.inl rfl)
  | ok baseline =>
    obtain ⟨vevent, read, -⟩ := icalToEvent_series drawn
    have fit := families_fit calcard current baseline edited
      (byAddress_distinct baseline read) (icalToEvent_links drawn)
    have whole : Fits current.toJson []
        ((zones :: families calcard current baseline edited).flatMap Prod.snd) := by
      apply Fits.parts
      · rw [map_cons, nodup_cons]
        refine ⟨?_, families_names_nodup calcard current baseline edited⟩
        simp [families, zones]
      · rw [forall_mem_cons]
        exact ⟨sends.zones_fit, fit⟩
    apply whole.legal
    intro path named
    obtain ⟨value, found⟩ := (mem_keys _).mp named
    refine ⟨value, ?_⟩
    rw [flatMap_cons, mem_append, ← writesFrom_eq_flatMap]
    rcases sends path value found with ⟨other, isDrawn, written⟩ | ⟨-, tzid, rfl⟩ | ⟨-, rfl⟩
    · cases drawn.symm.trans isDrawn
      exact .inr written
    · exact .inl (isZone found (entryPath_under _ _))
    · exact .inl (isZone found (.inl rfl))

end

/-- Whatever is edited, the patch can be applied as it is written, each of its paths has
its value then, and the properties that no step is about are as before. -/
theorem patches_applied (calcard : Calcard) (base current edited : CalendarEvent)
    (kept : BTreeSet String) :
    ∀ patch ∈ [diff calcard current edited, diffSince calcard base current edited,
        diffSinceExcept calcard base current edited kept],
      Legal current.toJson patch ∧
        ∃ result, Value.applyPatch patch.entries current.toJson = some result ∧
          (∀ path value, patch.get? path = some value →
            result.follow (keys path) = if value.isNull then none else some value) ∧
          ∀ name ∉ "timeZones" :: (families calcard current base edited).map Prod.fst,
            result.get? name = current.toJson.get? name := by
  intro patch sent
  have sends : Sends calcard current edited patch := by
    simp only [mem_cons, not_mem_nil, or_false] at sent
    rcases sent with isPatch | isPatch | isPatch <;> rw [isPatch]
    · exact diff_sends
    · exact diffSinceExcept_sends base ∅
    · exact diffSinceExcept_sends base kept
  obtain ⟨result, applied, written, -⟩ := sends.legal.exists_applyPatch
  refine ⟨sends.legal, result, applied, written, fun name other => ?_⟩
  rw [mem_cons, not_or] at other
  apply Value.get?_applyPatch applied
  intro entry mem head
  obtain ⟨baseline, writes, inFamilies, -⟩ :=
    sends.family (patch.mem_entries.mp mem) head other.1
  have named : name ∈ (families calcard current baseline edited).map Prod.fst :=
    mem_map_of_mem inFamilies
  exact other.2 named

end EvolutionJmap.CalSync
