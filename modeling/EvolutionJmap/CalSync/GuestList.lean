import EvolutionJmap.CalSync.Legal
import EvolutionJmap.Ical.GuestLines

/-!
# Patching the guest list

What the edit of a guest list writes, told by the addresses that the server's event was
drawn with.  A participant that was not drawn is not written to, and a guest whose
address was not drawn is new.
-/

namespace EvolutionJmap.CalSync

open Ical Pointer List BTreeMap BTreeSet Bool

/-! ## What may be written -/

/-- A participant of the event has the address. -/
def Invites (event : CalendarEvent) (address : String) : Prop :=
  ∃ person ∈ byAddress event, eqIgnoreAsciiCase person.1 address = true

/-- A write that an edit of the guest list may make to the participants of the server's
event. -/
inductive GuestWrite (current edited : CalendarEvent) : String × Value → Prop
  /-- A member of a guest who was drawn and is still invited, as the edited list has it for the
  same address. -/
  | change {address key member : String} {entry after : Value}
      (held : (current.participants.getD ∅).get? key = some entry)
      (states : hasAddress address entry = true) (drawn : Drawn current address)
      (kept : findAddress (byAddress edited) address = some after)
      (isMember : member ∈ participantMembers) :
      GuestWrite current edited
        (memberPath "participants" key member, editedMember entry after member)
  /-- The removal of a guest who was drawn and is not invited any more. -/
  | removal {address key : String} {entry : Value}
      (held : (current.participants.getD ∅).get? key = some entry)
      (states : hasAddress address entry = true) (drawn : Drawn current address)
      (gone : ¬ Invites edited address) :
      GuestWrite current edited (entryPath "participants" key, .null)
  /-- A guest whose address was not drawn, under a key that the server does not use. -/
  | addition {address key : String} {participant : Value}
      (free : (current.participants.getD ∅).get? key = none)
      (invited : (address, participant) ∈ byAddress edited) (new : ¬ Drawn current address) :
      GuestWrite current edited (entryPath "participants" key, participant)
  | first (nobody : current.participants = none) :
      GuestWrite current edited ("participants", .ofOption (edited.participants.map .ofMap))
  | last (all : ∀ entry ∈ (current.participants.getD ∅).entries, ∃ address,
        hasAddress address entry.2 = true ∧ Drawn current address ∧ ¬ Invites edited address) :
      GuestWrite current edited ("participants", .null)

variable {event : CalendarEvent} {address name key path : String} {person write : String × Value}
  {participant entry value patched : Value} {held : ValueMap} {now : List (String × Value)}

section

variable {calcard : Calcard} {current baseline edited : CalendarEvent}

/-- The baseline has the participants of the drawn series. -/
def ShowsGuests (calcard : Calcard) (current baseline : CalendarEvent) : Prop :=
  baseline.participants = readParticipants ((drawnSeries calcard current).flat 0)

theorem invites_iff_names {vevent : ICalendarComponent}
    (read : baseline.participants = readParticipants vevent) (address : String) :
    Invites baseline address ↔ (readPeople vevent).names address = true := by
  constructor
  · rintro ⟨person, member, same⟩
    obtain ⟨⟨key, participant⟩, isEntry, isPerson⟩ := mem_filterMap.mp member
    obtain ⟨stated, isStated, rfl⟩ := Option.map_eq_some_iff.mp isPerson
    rw [read] at isEntry
    obtain ⟨index, inside, -, states⟩ := mem_entriesOf_readParticipants isEntry
    cases isStated.symm.trans states
    exact any_eq_true.mpr ⟨_, get_mem _ ⟨index, inside⟩, same⟩
  · intro named
    obtain ⟨⟨key, participant⟩, isEntry, stated, isStated, same⟩ := exists_participant named
    refine ⟨(stated, participant), mem_filterMap.mpr ⟨(key, participant), ?_, ?_⟩, same⟩
    · rw [read]
      exact isEntry
    · exact Option.map_eq_some_iff.mpr ⟨stated, isStated, rfl⟩

theorem ShowsGuests.invites_iff (shows : ShowsGuests calcard current baseline)
    (address : String) : Invites baseline address ↔ Drawn current address := by
  rw [← names_drawnSeries calcard, invites_iff_names shows]

theorem invites_iff_any :
    Invites event address ↔
      (byAddress event).any (fun person => eqIgnoreAsciiCase person.1 address) = true := by
  rw [any_eq_true]
  rfl

theorem findAddress_eq_none :
    findAddress (byAddress event) address = none ↔ ¬ Invites event address := by
  rw [findAddress, Option.map_eq_none_iff, find?_eq_none, Invites]
  simp

theorem invites_of_mem (member : person ∈ byAddress event) : Invites event person.1 :=
  ⟨person, member, eqIgnoreAsciiCase_refl _⟩

def newGuests (baseline edited : CalendarEvent) : List Value :=
  ((byAddress edited).filter fun person =>
    !(byAddress baseline).any fun other => eqIgnoreAsciiCase other.1 person.1).map Prod.snd

section

variable (shows : ShowsGuests calcard current baseline)

include shows

theorem ShowsGuests.mem_newGuests : participant ∈ newGuests baseline edited ↔
      ∃ address, (address, participant) ∈ byAddress edited ∧ ¬ Drawn current address := by
  rw [newGuests, mem_map]
  constructor
  · rintro ⟨⟨address, participant⟩, member, rfl⟩
    obtain ⟨invited, notShown⟩ := mem_filter.mp member
    refine ⟨address, invited, ?_⟩
    rw [← shows.invites_iff, invites_iff_any]
    simpa using notShown
  · rintro ⟨address, invited, new⟩
    refine ⟨(address, participant), mem_filter.mpr ⟨invited, ?_⟩, rfl⟩
    rw [← shows.invites_iff, invites_iff_any] at new
    simpa using new

/-! ## Each write -/

theorem changesOf_guestWrite (member : person ∈ byAddress baseline)
    (written : write ∈ changesOf (current.participants.getD ∅) (byAddress edited) person) :
    GuestWrite current edited write := by
  have drawn := (shows.invites_iff person.1).mp (invites_of_mem member)
  rw [changesOf] at written
  split at written
  · cases written
  · next key entry found =>
    have held := get?_of_serversEntry found
    have states := (serversEntry_mem found).2
    split at written
    · next after isKept =>
      obtain ⟨name, isMember, rfl⟩ := diffParticipant_members written
      exact .change held states drawn isKept isMember
    · next isGone =>
      rw [mem_singleton.mp written]
      exact .removal held states drawn (findAddress_eq_none.mp isGone)

theorem addParticipants_guestWrite
    (written : write ∈ addParticipants (BTreeSet.ofElems (current.participants.getD ∅).keys)
      (newGuests baseline edited)) : GuestWrite current edited write := by
  obtain ⟨number, isPath, free, isNew⟩ := addParticipants_free written
  obtain ⟨address, invited, new⟩ := shows.mem_newGuests.mp isNew
  have isPath : write.1 = entryPath "participants" (inventedKey "p" number) := by
    rw [isPath, addedPath_eq, entryPath_eq (by decide)]
  have unused : (current.participants.getD ∅).get? (inventedKey "p" number) = none := by
    rw [eq_false_iff, ne_eq, contains_ofElems, BTreeMap.mem_keys] at free
    exact Option.eq_none_iff_forall_ne_some.mpr fun value found => free ⟨value, found⟩
  obtain ⟨path, value⟩ := write
  cases isPath
  exact .addition unused invited new

end

theorem removed_all {people : List (String × Value)}
    (asMany : (BTreeSet.ofElems (people.filterMap (removedKey held now))).entries.length =
      held.entries.length) {entry : String × Value} (member : entry ∈ held.entries) :
    ∃ person ∈ people, serversEntry held person.1 = some entry ∧
      findAddress now person.1 = none := by
  let removed := BTreeSet.ofElems (people.filterMap (removedKey held now))
  have isRemoved : ∀ key ∈ removed.keys, ∃ person ∈ people, ∃ entry,
      serversEntry held person.1 = some entry ∧ findAddress now person.1 = none ∧
        entry.1 = key := by
    intro key isKey
    rw [mem_keys_iff, contains_ofElems] at isKey
    obtain ⟨person, isPerson, isKey⟩ := mem_filterMap.mp isKey
    obtain ⟨entry, found, isKey⟩ := Option.bind_eq_some_iff.mp isKey
    split at isKey
    · next gone =>
      exact ⟨person, isPerson, entry, found, Option.isNone_iff_eq_none.mp gone,
        Option.some.inj isKey⟩
    · cases isKey
  have within : removed.keys ⊆ held.keys := by
    intro key isKey
    obtain ⟨person, -, entry, found, -, rfl⟩ := isRemoved key isKey
    exact mem_map_of_mem (serversEntry_mem found).1
  have perm : removed.keys.Perm held.keys := by
    apply (subperm_of_subset removed.keys_nodup within).perm_of_length_le
    rw [BTreeMap.keys, BTreeMap.keys, length_map, length_map]
    exact asMany.ge
  have isKey : entry.1 ∈ removed.keys := perm.mem_iff.mpr (mem_map_of_mem member)
  obtain ⟨person, isPerson, other, found, gone, sameKey⟩ := isRemoved entry.1 isKey
  have same : other = entry := by
    have foundEntry := (mem_entries held).mp member
    rw [← sameKey, get?_of_serversEntry found] at foundEntry
    exact Prod.ext sameKey (Option.some.inj foundEntry)
  exact ⟨person, isPerson, same ▸ found, gone⟩

theorem diffGuests_cases (current baseline edited : CalendarEvent) :
    (current.participants = none ∧
      diffGuests current baseline edited =
        if (newGuests baseline edited).isEmpty then []
        else [("participants", .ofOption (edited.participants.map .ofMap))]) ∨
    ((∀ entry ∈ (current.participants.getD ∅).entries, ∃ person ∈ byAddress baseline,
        serversEntry (current.participants.getD ∅) person.1 = some entry ∧
          findAddress (byAddress edited) person.1 = none) ∧
      newGuests baseline edited = [] ∧ current.participants ≠ none ∧
      diffGuests current baseline edited = [("participants", .null)]) ∨
    (current.participants ≠ none ∧
      diffGuests current baseline edited =
      (byAddress baseline).flatMap
          (changesOf (current.participants.getD ∅) (byAddress edited)) ++
        addParticipants (BTreeSet.ofElems (current.participants.getD ∅).keys)
          (newGuests baseline edited)) := by
  have isDiff : diffGuests current baseline edited =
      if current.participants.isNone then
        if (newGuests baseline edited).isEmpty then []
        else [("participants", .ofOption (edited.participants.map .ofMap))]
      else if (newGuests baseline edited).isEmpty &&
        !(BTreeSet.ofElems ((byAddress baseline).filterMap
            (removedKey (current.participants.getD ∅) (byAddress edited)))).isEmpty &&
          (BTreeSet.ofElems ((byAddress baseline).filterMap
            (removedKey (current.participants.getD ∅) (byAddress edited)))).entries.length ==
              (current.participants.getD ∅).entries.length then
        [("participants", .null)]
      else
        (byAddress baseline).flatMap
            (changesOf (current.participants.getD ∅) (byAddress edited)) ++
          addParticipants (BTreeSet.ofElems (current.participants.getD ∅).keys)
            (newGuests baseline edited) := rfl
  rw [isDiff]
  by_cases nobody : current.participants = none
  · rw [if_pos (Option.isNone_iff_eq_none.mpr nobody)]
    exact .inl ⟨nobody, rfl⟩
  · rw [if_neg (mt Option.isNone_iff_eq_none.mp nobody)]
    split
    · next allGone =>
      simp only [and_eq_true, beq_iff_eq] at allGone
      refine .inr (.inl ⟨?_, isEmpty_iff.mp allGone.1.1, nobody, rfl⟩)
      intro entry member
      exact removed_all allGone.2 member
    · exact .inr (.inr ⟨nobody, rfl⟩)

theorem diffGuests_guestWrite (shows : ShowsGuests calcard current baseline)
    (written : write ∈ diffGuests current baseline edited) : GuestWrite current edited write := by
  rcases diffGuests_cases current baseline edited with
    ⟨nobody, isDiff⟩ | ⟨all, -, -, isDiff⟩ | ⟨-, isDiff⟩
  · rw [isDiff] at written
    split at written
    · cases written
    · rw [mem_singleton.mp written]
      exact .first nobody
  · rw [isDiff] at written
    rw [mem_singleton.mp written]
    refine .last fun entry member => ?_
    obtain ⟨person, isPerson, found, gone⟩ := all entry member
    exact ⟨person.1, (serversEntry_mem found).2,
      (shows.invites_iff person.1).mp (invites_of_mem isPerson), findAddress_eq_none.mp gone⟩
  · rw [isDiff] at written
    rcases mem_append.mp written with changed | added
    · obtain ⟨person, member, changed⟩ := mem_flatMap.mp changed
      exact changesOf_guestWrite shows member changed
    · exact addParticipants_guestWrite shows added

/-! ## New guests have keys of their own -/

/-- New guests are filed one after the other, each under a free key of its own. -/
theorem addParticipants_eq (taken : BTreeSet String) (added : List Value) :
    ∃ keys : List String, keys.Nodup ∧ keys.length = added.length ∧
      (∀ key ∈ keys, taken.contains key = false ∧ ∃ number, key = inventedKey "p" number) ∧
      addParticipants taken added =
        (keys.zip added).map fun filed => ("participants/" ++ filed.1, filed.2) := by
  induction added generalizing taken with
  | nil => exact ⟨[], nodup_nil, rfl, nofun, rfl⟩
  | cons participant rest ih =>
    rw [addParticipants]
    generalize isNumber :
      nextFree taken.contains (inventedKey "p") (taken.entries.length + 1) 0 = number
    have free : taken.contains (inventedKey "p" number) = false := isNumber ▸ nextGuest_free taken
    rcases ih (BTreeSet.add taken (inventedKey "p" number)) with
      ⟨keys, nodup, length, each, isList⟩
    refine ⟨inventedKey "p" number :: keys, ?_, ?_, ?_, ?_⟩
    · refine nodup_cons.mpr ⟨fun again => ?_, nodup⟩
      have notFree := (each _ again).1
      rw [eq_false_iff] at notFree
      exact notFree ((contains_add _ _ _).mpr (.inl rfl))
    · rw [length_cons, length, length_cons]
    · intro key member
      rcases mem_cons.mp member with rfl | later
      · exact ⟨free, number, rfl⟩
      · refine ⟨?_, (each key later).2⟩
        have notTaken := (each key later).1
        rw [eq_false_iff] at notTaken ⊢
        exact fun isTaken => notTaken ((contains_add _ _ _).mpr (.inr isTaken))
    · rw [isList]
      rfl

/-! ## The patched event -/

/-- The draft does not show the participant. -/
def NotDrawn (current : CalendarEvent) (participant : Value) : Prop :=
  ∀ address, calendarAddress participant = some address → ¬ Drawn current address

theorem NotDrawn.not_drawn (notDrawn : NotDrawn current participant)
    (states : hasAddress address participant = true) : ¬ Drawn current address := by
  obtain ⟨stated, isStated, same⟩ := hasAddress_iff.mp states
  rintro ⟨line, member, isLine⟩
  exact notDrawn stated isStated
    ⟨line, member, eqIgnoreAsciiCase_trans isLine (eqIgnoreAsciiCase_symm same)⟩

theorem apart_of_ne {other : String} (rest : List String) (ne : other ≠ key) :
    Value.Apart (name :: other :: rest) [name, key] := by
  simp only [Value.Apart, cons_prefix_cons]
  exact ⟨fun before => ne before.2.1, fun before => ne before.2.1.symm⟩

theorem keys_entryPath (plain : Plain name) (key : String) :
    Pointer.keys (entryPath name key) = [name, key] := by
  rw [entryPath_eq plain, keys_path (cons_ne_nil _ _)]

theorem keys_memberPath (key member : String) :
    Pointer.keys (memberPath "participants" key member) =
      "participants" :: key :: Pointer.keys member := by
  change Pointer.keys ("participants" ++ "/" ++ escaped key ++ "/" ++ member) = _
  rw [Pointer.keys_append, Pointer.keys_append, keys_plain (by decide), escaped, keys_escape]
  rfl

theorem keys_of_mem_changesOf (written : write ∈ changesOf held now person) :
    ∃ key entry rest, held.get? key = some entry ∧
      keys write.1 = "participants" :: key :: rest := by
  rw [changesOf] at written
  split at written
  · cases written
  · next key entry found =>
    refine ⟨key, entry, ?_⟩
    split at written
    · obtain ⟨name, -, rfl⟩ := diffParticipant_members written
      exact ⟨keys name, get?_of_serversEntry found, keys_memberPath key name⟩
    · rw [mem_singleton.mp written]
      exact ⟨[], get?_of_serversEntry found, keys_entryPath (by decide) key⟩

theorem GuestWrite.apart (isWrite : GuestWrite current edited write)
    (isHeld : (current.participants.getD ∅).get? key = some entry)
    (notDrawn : NotDrawn current entry) : Value.Apart (keys write.1) ["participants", key] := by
  have differs : ∀ {other : String} {value : Value} {address : String},
      (current.participants.getD ∅).get? other = some value → hasAddress address value = true →
      Drawn current address → other ≠ key := by
    intro other value address held states drawn same
    rw [same, isHeld] at held
    cases held
    exact notDrawn.not_drawn states drawn
  cases isWrite with
  | change held states drawn _ _ =>
    rw [keys_memberPath]
    exact apart_of_ne _ (differs held states drawn)
  | removal held states drawn _ =>
    rw [keys_entryPath (by decide)]
    exact apart_of_ne _ (differs held states drawn)
  | addition free _ _ =>
    rw [keys_entryPath (by decide)]
    refine apart_of_ne _ fun same => ?_
    rw [same, isHeld] at free
    cases free
  | first nobody =>
    rw [nobody] at isHeld
    cases isHeld
  | last all =>
    rcases all (key, entry) ((mem_entries _).mpr isHeld) with
      ⟨address, states, drawn, -⟩
    exact absurd drawn (notDrawn.not_drawn states)

theorem diffParticipants_fits (distinct : Distinct ((byAddress baseline).map Prod.fst)) :
    Fits current.toJson [] (diffParticipants current baseline edited) := by
  have organizer : Fits current.toJson ["organizerCalendarAddress"]
      (diffOrganizer baseline edited) := fits_unless current (by decide) _ _
  have parts := @Fits.parts current.toJson []
    [("participants", diffGuests current baseline edited),
      ("organizerCalendarAddress", diffOrganizer baseline edited)] (by simp) (by
        rw [forall_mem_cons, forall_mem_singleton]
        exact ⟨diffGuests_fits current baseline edited distinct, organizer⟩)
  simpa [diffParticipants] using parts

def guestPatch (current baseline edited : CalendarEvent) : Patch :=
  BTreeMap.ofList (diffParticipants current baseline edited)

theorem mem_of_mem_guestPatch (member : path ∈ (guestPatch current baseline edited).keys) :
    ∃ value, (path, value) ∈ diffParticipants current baseline edited := by
  obtain ⟨value, found⟩ := (BTreeMap.mem_keys _).mp member
  exact ⟨value, mem_of_mem_ofList ((mem_entries _).mpr found)⟩

theorem follow_participant (isHeld : (current.participants.getD ∅).get? key = some entry) :
    current.toJson.follow ["participants", key] = some entry :=
  follow_entry (by simp [CalendarEvent.fields]) isHeld

def undrawnGuests (current edited : CalendarEvent) : List Value :=
  ((byAddress edited).filter fun person => !decide (Drawn current person.1)).map Prod.snd

theorem ShowsGuests.newGuests_eq (shows : ShowsGuests calcard current baseline) :
    newGuests baseline edited = undrawnGuests current edited := by
  rw [newGuests, undrawnGuests]
  congr 1
  apply filter_congr
  intro person _
  rw [Bool.not_inj_iff, Bool.eq_iff_iff, decide_eq_true_iff, ← invites_iff_any,
    shows.invites_iff]

theorem get?_guestPatch (written : (path, value) ∈ diffParticipants current baseline edited)
    (once : ∀ other, (path, other) ∈ diffParticipants current baseline edited → other = value) :
    (guestPatch current baseline edited).get? path = some value := by
  obtain ⟨other, found⟩ := exists_get?_ofList (mem_map_of_mem written)
  rw [guestPatch, found]
  exact congrArg some (once other (mem_of_mem_ofList
    ((mem_entries _).mpr found)))

theorem not_mem_diffOrganizer (inside : (keys path).head? = some "participants") :
    (path, value) ∉ diffOrganizer baseline edited := by
  intro member
  rw [diffOrganizer] at member
  split at member
  · cases member
  · cases mem_singleton.mp member
    rw [keys_plain (by decide)] at inside
    exact absurd inside (by decide)

theorem isNull_of_calendarAddress (states : calendarAddress participant = some address) :
    participant.isNull = false := by
  cases participant with
  | null => cases states
  | object _ | bool _ | int _ | float _ | string _ | array _ => rfl

/-- Each of the guests has a key of its own that the server does not use. -/
def FiledUnder (current : CalendarEvent) (patched : Value) (keys : List String)
    (guests : List Value) : Prop :=
  keys.Nodup ∧ List.Forall₂ (fun key guest => (current.participants.getD ∅).get? key = none ∧
    patched.follow ["participants", key] = some guest) keys guests

theorem exists_filedUnder_first (nobody : current.participants = none)
    (isDiff : diffGuests current baseline edited =
      [("participants", .ofOption (edited.participants.map .ofMap))])
    (written : WrittenBy (guestPatch current baseline edited) patched) :
    ∃ keys, FiledUnder current patched keys (undrawnGuests current edited) := by
  have nobodyDrawn : ∀ address, ¬ Drawn current address := by
    rintro address ⟨line, member, -⟩
    rw [drawnParticipants, nobody] at member
    cases member
  have all : undrawnGuests current edited = (byAddress edited).map Prod.snd := by
    rw [undrawnGuests, filter_eq_self.mpr]
    intro person _
    simp [nobodyDrawn]
  rw [all]
  cases stated : edited.participants with
  | none =>
    refine ⟨[], nodup_nil, ?_⟩
    rw [byAddress, stated]
    exact .nil
  | some map =>
    have follows : patched.follow ["participants"] = some (.ofMap map) := by
      have isWritten : ("participants", Value.ofMap map) ∈
          diffParticipants current baseline edited := by
        rw [diffParticipants, isDiff, stated]
        exact mem_append_left _ (mem_singleton_self _)
      have found := get?_guestPatch isWritten fun other isOther => by
        rw [diffParticipants, isDiff, stated] at isOther
        rcases mem_append.mp isOther with same | inOrganizer
        · exact (Prod.mk.inj (mem_singleton.mp same)).2
        · exact absurd inOrganizer (not_mem_diffOrganizer (by rw [keys_plain (by decide)]; rfl))
      have follows := written _ _ found
      rw [keys_plain (by decide)] at follows
      exact follows
    refine ⟨(map.entries.filter fun entry => (calendarAddress entry.2).isSome).map Prod.fst,
      map.keys_nodup.sublist (filter_sublist.map _), ?_⟩
    have guests : (byAddress edited).map Prod.snd =
        (map.entries.filter fun entry => (calendarAddress entry.2).isSome).map Prod.snd := by
      rw [byAddress, stated, map_filterMap, ← filterMap_eq_map', filterMap_filter]
      apply filterMap_congr
      intro entry _
      obtain ⟨key, participant⟩ := entry
      change Option.map Prod.snd ((calendarAddress participant).map fun address =>
        (address, participant)) =
          if (calendarAddress participant).isSome then some participant else none
      cases calendarAddress participant with
      | none => rfl
      | some address => rfl
    rw [guests, forall₂_map_left_iff, forall₂_map_right_iff, forall₂_same]
    intro entry member
    have found := (mem_entries map).mp (mem_of_mem_filter member)
    rw [nobody]
    exact ⟨rfl, Value.follow_ofMap follows found⟩

theorem exists_filedUnder_later (shows : ShowsGuests calcard current baseline)
    (isDiff : diffGuests current baseline edited =
      (byAddress baseline).flatMap
          (changesOf (current.participants.getD ∅) (byAddress edited)) ++
        addParticipants (BTreeSet.ofElems (current.participants.getD ∅).keys)
          (newGuests baseline edited))
    (written : WrittenBy (guestPatch current baseline edited) patched) :
    ∃ keys, FiledUnder current patched keys (undrawnGuests current edited) := by
  rcases addParticipants_eq (BTreeSet.ofElems (current.participants.getD ∅).keys)
    (newGuests baseline edited) with ⟨keys, nodup, length, each, isAdditions⟩
  rw [← shows.newGuests_eq]
  refine ⟨keys, nodup, forall₂_iff_zip.mpr ⟨length, ?_⟩⟩
  intro key guest inZip
  have free := (each key (of_mem_zip inZip).1).1
  have unused : (current.participants.getD ∅).get? key = none := by
    rw [eq_false_iff, ne_eq, contains_ofElems, BTreeMap.mem_keys] at free
    exact Option.eq_none_iff_forall_ne_some.mpr fun value found => free ⟨value, found⟩
  have isKeys : ∀ {key}, key ∈ keys →
      Pointer.keys ("participants/" ++ key) = ["participants", key] := by
    intro key member
    obtain ⟨number, rfl⟩ := (each key member).2
    rw [addedPath_eq, keys_path (cons_ne_nil _ _)]
  have once : ∀ other, ("participants/" ++ key, other) ∈
      diffParticipants current baseline edited → other = guest := by
    intro other member
    rw [diffParticipants, isDiff] at member
    rcases mem_append.mp member with inGuests | inOrganizer
    · rcases mem_append.mp inGuests with changed | added
      · -- a change is below a key that the server has
        obtain ⟨person, -, changed⟩ := mem_flatMap.mp changed
        obtain ⟨heldKey, entry, rest, held, isChange⟩ := keys_of_mem_changesOf changed
        rw [isKeys (of_mem_zip inZip).1] at isChange
        cases isChange
        rw [unused] at held
        cases held
      · rw [isAdditions] at added
        obtain ⟨⟨key', other'⟩, inZip', same⟩ := mem_map.mp added
        obtain ⟨samePath, rfl⟩ := Prod.mk.inj same
        have sameKeys := congrArg Pointer.keys samePath
        rw [isKeys (of_mem_zip inZip').1, isKeys (of_mem_zip inZip).1] at sameKeys
        have fsts : ((keys.zip (newGuests baseline edited)).map Prod.fst).Nodup := by
          rw [map_fst_zip length.le]
          exact nodup
        have sameKey : key' = key := by simpa using sameKeys
        exact (Prod.mk.inj (inj_on_of_nodup_map fsts inZip' inZip sameKey)).2
    · exact absurd inOrganizer
        (not_mem_diffOrganizer (by rw [isKeys (of_mem_zip inZip).1]; rfl))
  have isWritten : ("participants/" ++ key, guest) ∈ diffParticipants current baseline edited := by
    rw [diffParticipants, isDiff, isAdditions]
    exact mem_append_left _ (mem_append_right _ (mem_map_of_mem inZip))
  have follows := written _ _ (get?_guestPatch isWritten once)
  obtain ⟨address, invited, -⟩ := shows.mem_newGuests.mp (of_mem_zip inZip).2
  obtain ⟨entry, -, isPerson⟩ := mem_filterMap.mp invited
  obtain ⟨stated, isStated, same⟩ := Option.map_eq_some_iff.mp isPerson
  cases same
  rw [isKeys (of_mem_zip inZip).1, isNull_of_calendarAddress isStated] at follows
  exact ⟨unused, follows⟩

theorem exists_filedUnder (shows : ShowsGuests calcard current baseline)
    (written : WrittenBy (guestPatch current baseline edited) patched) :
    ∃ keys, FiledUnder current patched keys (undrawnGuests current edited) := by
  have nobodyNew : newGuests baseline edited = [] →
      ∃ keys, FiledUnder current patched keys (undrawnGuests current edited) := by
    intro empty
    rw [← shows.newGuests_eq, empty]
    exact ⟨[], nodup_nil, .nil⟩
  rcases diffGuests_cases current baseline edited with
    ⟨nobody, isDiff⟩ | ⟨-, empty, -, -⟩ | ⟨-, isDiff⟩
  · split at isDiff
    · next empty => exact nobodyNew (isEmpty_iff.mp empty)
    · exact exists_filedUnder_first nobody isDiff written
  · exact nobodyNew empty
  · exact exists_filedUnder_later shows isDiff written

end

/-- The baseline of a faithful document has the participants of the drawn series. -/
theorem exists_baseline {calcard : Calcard} {current : CalendarEvent}
    (faithful : ReadsBack calcard (eventCalendar calcard current none)) :
    ∃ baseline, baselineOf calcard current = .ok baseline ∧
      ShowsGuests calcard current baseline := by
  obtain ⟨baseline, read, people⟩ := exists_eventOf_drawn none calcard current
  exact ⟨baseline, faithful.icalToEvent.trans read, people⟩

/-- Guests are patched under the right key. -/
theorem guests_patched {calcard : Calcard} {current : CalendarEvent}
    (faithful : ReadsBack calcard (eventCalendar calcard current none)) (edited : CalendarEvent) :
    ∃ baseline, baselineOf calcard current = .ok baseline ∧
      (∀ write ∈ diffGuests current baseline edited, GuestWrite current edited write) ∧
      ∃ patched, Value.applyPatch (guestPatch current baseline edited).entries current.toJson =
          some patched ∧
        (∃ keys, FiledUnder current patched keys (undrawnGuests current edited)) ∧
        ∀ key entry, (current.participants.getD ∅).get? key = some entry →
          NotDrawn current entry → patched.follow ["participants", key] = some entry := by
  obtain ⟨baseline, isBaseline, shows⟩ := exists_baseline faithful
  have fits : Fits current.toJson [] (diffParticipants current baseline edited) :=
    diffParticipants_fits (byAddress_distinct baseline shows)
  rcases (fits.legal fun path member => mem_of_mem_guestPatch member).exists_applyPatch with
    ⟨patched, applied, written, unchanged⟩
  refine ⟨baseline, isBaseline, fun write member => diffGuests_guestWrite shows member, patched,
    applied, exists_filedUnder shows written, ?_⟩
  intro key entry isHeld notDrawn
  rw [unchanged, follow_participant isHeld]
  intro path member
  obtain ⟨value, isWritten⟩ := mem_of_mem_guestPatch member
  rcases mem_append.mp isWritten with inGuests | inOrganizer
  · exact (diffGuests_guestWrite shows inGuests).apart isHeld notDrawn
  · rw [diffOrganizer] at inOrganizer
    split at inOrganizer
    · cases inOrganizer
    · cases mem_singleton.mp inOrganizer
      rw [keys_plain (by decide)]
      simp [Value.Apart, cons_prefix_cons]

def planned (participants : List (String × Value)) : CalendarEvent :=
  { id := some "e1", title := some "Planning", start := some "2026-01-15T13:00:00"
    participants := some (.ofList participants) }

def invited (address role : String) : Value :=
  .ofMembers [("@type", .string "Participant"), ("calendarAddress", .string address),
    ("roles", .ofMembers [(role, .bool true)])]

/-- Only the first of two owners without another role is drawn. -/
def twoOwners : CalendarEvent :=
  planned [("anna", invited "mailto:anna@example.org" "owner"),
    ("bert", invited "mailto:bert@example.org" "owner")]

def twoOwnersDocument : List ICalendarComponent :=
  [⟨"VCALENDAR", [makeEntry "VERSION" "2.0", makeEntry "PRODID" prodid], [1]⟩,
    ⟨"VEVENT", [makeEntry "UID" "e1", makeEntry "SUMMARY" "Planning",
      makeEntry "DTSTART" "20260115T130000", makeUriEntry "ORGANIZER" "mailto:anna@example.org"],
      []⟩]

def bertInvited : CalendarEvent :=
  planned [("p1", invited "mailto:anna@example.org" "owner"),
    ("p2", invited "mailto:bert@example.org" "attendee")]

theorem readsBack_twoOwners : ReadsBack (.fixed twoOwnersDocument)
    (eventCalendar (.fixed twoOwnersDocument) twoOwners none) := by
  refine ⟨twoOwnersDocument, ?_, ?_⟩
  · decide +kernel
  · decide +kernel

theorem guests_patched_twoOwners :
    ReadsBack (.fixed twoOwnersDocument)
        (eventCalendar (.fixed twoOwnersDocument) twoOwners none) ∧
      ∃ baseline, baselineOf (.fixed twoOwnersDocument) twoOwners = .ok baseline ∧
        (∀ write ∈ diffGuests twoOwners baseline bertInvited,
          GuestWrite twoOwners bertInvited write) ∧
        ∃ patched, Value.applyPatch (guestPatch twoOwners baseline bertInvited).entries
            twoOwners.toJson = some patched ∧
          (∃ keys, FiledUnder twoOwners patched keys (undrawnGuests twoOwners bertInvited)) ∧
          ∀ key entry, (twoOwners.participants.getD ∅).get? key = some entry →
            NotDrawn twoOwners entry → patched.follow ["participants", key] = some entry :=
  ⟨readsBack_twoOwners, guests_patched readsBack_twoOwners bertInvited⟩

def annaShown : CalendarEvent :=
  { planned [("p1", invited "mailto:anna@example.org" "owner")] with
    eventType := some "Event", version := some "2.0"
    organizerCalendarAddress := some "mailto:anna@example.org" }

/-- A guest is added with the address of a participant that was not drawn. -/
theorem twoOwners_adds_address_again :
    ReadsBack (.fixed twoOwnersDocument)
        (eventCalendar (.fixed twoOwnersDocument) twoOwners none) ∧
      baselineOf (.fixed twoOwnersDocument) twoOwners = .ok annaShown ∧
      ∃ participant,
        (entryPath "participants" "p1", participant) ∈
          diffGuests twoOwners annaShown bertInvited ∧
        calendarAddress participant = some "mailto:bert@example.org" ∧
        ((twoOwners.participants.getD ∅).get? "bert").any
          (hasAddress "mailto:bert@example.org") = true := by
  refine ⟨readsBack_twoOwners, ?_, ?_⟩
  · decide +kernel
  · exact ⟨invited "mailto:bert@example.org" "attendee", by decide +kernel⟩

end EvolutionJmap.CalSync
