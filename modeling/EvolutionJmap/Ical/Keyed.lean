import EvolutionJmap.Ical.Read

/-!
# Lines that share a map

The readers of conferences and of links file every readable line under the key that it
states, or under an invented key that no line states.
-/

namespace EvolutionJmap.Ical

open List Option

variable {lines : List ICalendarEntry} {key : String} {value : Value}

section

variable (stem : String) (read : ICalendarEntry → Option Value) (stated : List String)

def filedLines : List ICalendarEntry → (invented : Nat) → List (String × Value)
  | [], _ => []
  | line :: lines, invented =>
    match read line with
    | none => filedLines lines invented
    | some value =>
      match statedKey line with
      | some key => (key, value) :: filedLines lines invented
      | none =>
        let number := nextFree (fun key => stated.contains key) (inventedKey stem)
          (stated.length + 1) invented
        (inventedKey stem number, value) :: filedLines lines number

theorem readKeyed_eq (lines : List ICalendarEntry) (invented : Nat) (map : ValueMap) :
    readKeyed stem read stated lines invented map =
      (filedLines stem read stated lines invented).foldl
        (fun map entry => map.insert entry.1 entry.2) map := by
  induction lines generalizing invented map with
  | nil => rfl
  | cons line lines ih =>
    rw [readKeyed, filedLines]
    cases read line with
    | none => exact ih invented map
    | some value =>
      cases statedKey line with
      | none => exact ih _ _
      | some key => exact ih _ _

theorem filedLines_values (lines : List ICalendarEntry) (invented : Nat) :
    (filedLines stem read stated lines invented).map Prod.snd = lines.filterMap read := by
  induction lines generalizing invented with
  | nil => rfl
  | cons line lines ih =>
    rw [filedLines]
    split
    · next unread => rw [filterMap_cons_none unread, ih]
    · next isRead =>
      rw [filterMap_cons_some isRead]
      split
      · rw [map_cons, ih]
      · rw [map_cons, ih]

variable {stem read stated}

theorem read_of_mem_filedLines {invented : Nat}
    (member : (key, value) ∈ filedLines stem read stated lines invented) :
    ∃ line ∈ lines, read line = some value := by
  have inValues : value ∈ lines.filterMap read := by
    rw [← filedLines_values stem read stated lines invented]
    exact mem_map_of_mem member
  exact mem_filterMap.mp inValues

theorem of_mem_readFamily (member : (key, value) ∈ entriesOf (readFamily stem read lines)) :
    ∃ line ∈ lines, read line = some value := by
  rw [readFamily, nonEmptyMap] at member
  split at member
  · cases member
  · change (key, value) ∈ (readKeyed stem read (lines.filterMap statedKey) lines 0 ∅).entries
      at member
    rw [readKeyed_eq] at member
    exact read_of_mem_filedLines (BTreeMap.mem_of_mem_ofList member)

end

variable {line : ICalendarEntry}

theorem readLink_others {member : String × Value}
    (inMembers : member ∈ readLinkKind line ++ ((nonEmpty (entryParam line "FMTTYPE")).map
      fun mediaType => ("contentType", Value.string mediaType)).toList) :
    member.1 ∈ ["rel", "display", "size", "contentType"] := by
  rcases mem_append.mp inMembers with kind | mediaType
  · rw [readLinkKind] at kind
    split at kind
    · rcases mem_cons.mp kind with rfl | display
      · simp
      · obtain ⟨_, _, rfl⟩ := map_eq_some_iff.mp (mem_toList.mp display)
        simp
    · obtain ⟨_, _, rfl⟩ := map_eq_some_iff.mp (mem_toList.mp kind)
      simp
  · obtain ⟨_, _, rfl⟩ := map_eq_some_iff.mp (mem_toList.mp mediaType)
    simp

theorem get?_href_readLink {link : Value} (isRead : readLink line = some link) :
    link.get? "href" = some (.string (entryRawValue line)) := by
  unfold readLink at isRead
  dsimp only at isRead
  split at isRead
  · cases isRead
    rw [Value.get?_ofMembers, append_assoc, reverse_append, Entries.get?_append,
      Entries.get?_eq_none.mpr]
    · rfl
    · intro member inMembers isHref
      have other := readLink_others (mem_reverse.mp inMembers)
      rw [isHref] at other
      exact absurd other (by decide)
  · cases isRead

end EvolutionJmap.Ical
