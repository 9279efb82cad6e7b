import EvolutionJmap.CalSync.Unchanged

/-!
# The keys of guests

A component names a guest by the address, and the reader invents the keys.  So a change
of a guest is written below the server's key of the one entry with the address, and a
new guest is filed under a key that the server does not use.
-/

namespace EvolutionJmap.CalSync

open Ical List Option

/-! ## The server's entry -/

variable {participant : Value}

section

variable {held : ValueMap} {address : String} {entry : String × Value}

section

variable (found : serversEntry held address = some entry)

include found

theorem filter_of_serversEntry :
    held.entries.filter (fun entry => hasAddress address entry.2) = [entry] := by
  rw [serversEntry] at found
  split at found
  · next alone =>
    cases found
    exact alone
  · cases found

theorem serversEntry_mem : entry ∈ held.entries ∧ hasAddress address entry.2 = true := by
  have mem : entry ∈ held.entries.filter fun entry => hasAddress address entry.2 := by
    rw [filter_of_serversEntry found]
    exact mem_singleton_self entry
  exact mem_filter.mp mem

theorem get?_of_serversEntry : held.get? entry.1 = some entry.2 :=
  (BTreeMap.mem_entries _).mp (serversEntry_mem found).1

end

theorem hasAddress_iff : hasAddress address participant = true ↔
    ∃ stated, calendarAddress participant = some stated ∧
      eqIgnoreAsciiCase stated address = true := by
  rw [hasAddress, Option.any_eq_true]

theorem isObject_of_hasAddress (states : hasAddress address participant = true) :
    participant.isObject = true := by
  obtain ⟨stated, isStated, -⟩ := hasAddress_iff.mp states
  cases participant with
  | object members => rfl
  | null | bool _ | int _ | float _ | string _ | array _ => cases isStated

theorem eqIgnoreAsciiCase_of_hasAddress {other : String}
    (states : hasAddress address participant = true)
    (statesOther : hasAddress other participant = true) :
    eqIgnoreAsciiCase address other = true := by
  obtain ⟨stated, isStated, same⟩ := hasAddress_iff.mp states
  obtain ⟨stated', isStated', same'⟩ := hasAddress_iff.mp statesOther
  cases isStated.symm.trans isStated'
  exact eqIgnoreAsciiCase_trans (eqIgnoreAsciiCase_symm same) same'

theorem serversKeys_nodup (held : ValueMap) {people : List (String × Value)}
    (distinct : Distinct (people.map Prod.fst)) :
    (people.filterMap fun person => (serversEntry held person.1).map Prod.fst).Nodup := by
  apply List.Pairwise.filterMap _ _ (pairwise_map.mp distinct)
  intro left right apart leftKey leftFound rightKey rightFound sameKey
  obtain ⟨leftEntry, isLeft, rfl⟩ := map_eq_some_iff.mp leftFound
  obtain ⟨rightEntry, isRight, rfl⟩ := map_eq_some_iff.mp rightFound
  have sameEntry : leftEntry.2 = rightEntry.2 := some.inj
    ((get?_of_serversEntry isLeft).symm.trans (sameKey ▸ get?_of_serversEntry isRight))
  have same := eqIgnoreAsciiCase_of_hasAddress (serversEntry_mem isLeft).2
    (sameEntry ▸ (serversEntry_mem isRight).2)
  exact Bool.false_ne_true (apart.symm.trans same)

end

/-! ## New guests -/

theorem nextGuest_free (taken : BTreeSet String) :
    taken.contains (inventedKey "p"
      (nextFree taken.contains (inventedKey "p") (taken.entries.length + 1) 0)) = false := by
  apply @nextFree_free _ _ (inventedKey_injective "p") _ _ taken.keys
  · intro number _ isTaken
    exact (BTreeSet.mem_keys_iff taken _).mpr isTaken
  · rw [BTreeMap.keys, length_map]
    exact Nat.le_succ _

theorem addParticipants_free {taken : BTreeSet String} {added : List Value}
    {write : String × Value} (mem : write ∈ addParticipants taken added) :
    ∃ number, write.1 = "participants/" ++ inventedKey "p" number ∧
      taken.contains (inventedKey "p" number) = false ∧ write.2 ∈ added := by
  induction added generalizing taken with
  | nil => cases mem
  | cons participant rest ih =>
    rcases mem_cons.mp mem with rfl | later
    · exact ⟨_, rfl, nextGuest_free taken, mem_cons_self⟩
    · obtain ⟨number, isPath, free, isAdded⟩ := ih later
      refine ⟨number, isPath, ?_, mem_cons_of_mem _ isAdded⟩
      rw [Bool.eq_false_iff] at free ⊢
      exact fun isTaken => free ((BTreeSet.contains_add _ _ _).mpr (.inr isTaken))

end EvolutionJmap.CalSync
