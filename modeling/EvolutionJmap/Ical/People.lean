import EvolutionJmap.Ical.Read

/-!
# What is read about participants

The reader merges the lines of one address, so the participants of a document
have addresses that differ up to letter case, and each one states its own.
-/

namespace EvolutionJmap.Ical

open List BTreeMap

/-- No two of the people have the same address. -/
def Distinct (people : List String) : Prop :=
  people.Pairwise fun left right => eqIgnoreAsciiCase left right = false

/-- The addresses differ, and every participant states its own. -/
structure WellRead (people : People) : Prop where
  distinct : Distinct (people.map Prod.fst)
  states : ∀ person ∈ people,
    person.2.get? "calendarAddress" = some (.string person.1) ∧ namesAnAddress person.1 = true

/-- The update leaves the address as it is. -/
def KeepsAddress (update : ValueMap → ValueMap) : Prop :=
  ∀ participant, (update participant).get? "calendarAddress" = participant.get? "calendarAddress"

variable {key query : String}

theorem get?_orInsert_of_ne (map : ValueMap) (value : Value) (differs : query ≠ key) :
    (orInsert map key value).get? query = map.get? query := by
  rw [orInsert]
  split
  · rfl
  · rw [get?_insert, if_neg differs]

theorem get?_insertSome_of_ne (map : ValueMap) (value : Option Value) (differs : query ≠ key) :
    (insertSome map key value).get? query = map.get? query := by
  cases value with
  | none => rfl
  | some value => exact (get?_insert ..).trans (if_neg differs)

variable (line : ICalendarEntry)

theorem namedBy_keepsAddress : KeepsAddress (namedBy line) := by
  intro participant
  rw [namedBy]
  split
  · rfl
  · exact get?_orInsert_of_ne _ _ (by decide)

theorem readOrganizerLine_keepsAddress : KeepsAddress (readOrganizerLine line) := by
  intro participant
  rw [readOrganizerLine, get?_insert, if_neg (by decide)]
  exact namedBy_keepsAddress line participant

theorem readAttendeeLine_keepsAddress : KeepsAddress (readAttendeeLine line) := by
  intro participant
  have stated : ∀ participant : ValueMap, ∀ value : Value, ∀ kind status : Option Value,
      (insertSome (insertSome (participant.insert "roles" value) "kind" kind)
        "participationStatus" status).get? "calendarAddress" =
        participant.get? "calendarAddress" := by
    intro participant value kind status
    rw [get?_insertSome_of_ne _ _ (by decide), get?_insertSome_of_ne _ _ (by decide),
      get?_insert, if_neg (by decide)]
  rw [readAttendeeLine]
  split
  · rw [get?_insert, if_neg (by decide), stated]
    exact namedBy_keepsAddress line participant
  · rw [stated]
    exact namedBy_keepsAddress line participant

/-! ## One line -/

theorem map_fst_updatePerson (address : String) (update : ValueMap → ValueMap) (people : People) :
    (updatePerson address update people).map Prod.fst =
      people.map Prod.fst ∨
    ((updatePerson address update people).map Prod.fst = people.map Prod.fst ++ [address] ∧
      ∀ known ∈ people.map Prod.fst, eqIgnoreAsciiCase known address = false) := by
  induction people with
  | nil => exact .inr ⟨rfl, fun _ mem => nomatch mem⟩
  | cons person rest ih =>
    obtain ⟨known, participant⟩ := person
    rw [updatePerson]
    cases same : eqIgnoreAsciiCase known address with
    | true => exact .inl rfl
    | false =>
      rcases ih with kept | ⟨added, differ⟩
      · left
        simpa using kept
      · right
        constructor
        · simpa using added
        · intro other mem
          rcases mem_cons.mp mem with rfl | mem
          · exact same
          · exact differ other mem

variable {address : String} {update : ValueMap → ValueMap} {people : People}

theorem mem_updatePerson {person : String × ValueMap}
    (mem : person ∈ updatePerson address update people) :
    person ∈ people ∨
    (∃ before ∈ people, person = (before.1, update before.2)) ∨
    person = (address, update (BTreeMap.ofList
      [("@type", .string "Participant"), ("calendarAddress", .string address)])) := by
  induction people with
  | nil => exact .inr (.inr (mem_singleton.mp mem))
  | cons first rest ih =>
    obtain ⟨known, participant⟩ := first
    rw [updatePerson] at mem
    split at mem
    · rcases mem_cons.mp mem with rfl | mem
      · exact .inr (.inl ⟨(known, participant), mem_cons_self, rfl⟩)
      · exact .inl (mem_cons_of_mem _ mem)
    · rcases mem_cons.mp mem with rfl | mem
      · exact .inl mem_cons_self
      · rcases ih mem with kept | ⟨before, beforeMem, same⟩ | new
        · exact .inl (mem_cons_of_mem _ kept)
        · exact .inr (.inl ⟨before, mem_cons_of_mem _ beforeMem, same⟩)
        · exact .inr (.inr new)

theorem WellRead.updatePerson (wellRead : WellRead people)
    (isAddress : namesAnAddress address = true) (keeps : KeepsAddress update) :
    WellRead (updatePerson address update people) := by
  constructor
  · rw [Distinct]
    rcases map_fst_updatePerson address update people with kept | ⟨added, differ⟩
    · rw [kept]
      exact wellRead.distinct
    · rw [added]
      apply pairwise_append.mpr
      constructor
      · exact wellRead.distinct
      · constructor
        · exact pairwise_singleton _ _
        · intro known mem other otherMem
          rw [mem_singleton.mp otherMem]
          exact differ known mem
  · intro person mem
    rcases mem_updatePerson mem with kept | ⟨before, beforeMem, rfl⟩ | rfl
    · exact wellRead.states person kept
    · rw [keeps]
      exact wellRead.states before beforeMem
    · rw [keeps]
      constructor
      · simp [get?_ofList, Entries.get?_cons]
      · exact isAddress

variable {read : ICalendarEntry → ValueMap → ValueMap}

theorem WellRead.readPerson (wellRead : WellRead people) (line : ICalendarEntry)
    (keeps : KeepsAddress (read line)) : WellRead (readPerson read people line) := by
  rw [Ical.readPerson]
  split
  · rename_i isAddress
    exact wellRead.updatePerson isAddress keeps
  · exact wellRead

/-! ## All lines -/

theorem WellRead.foldl_readPerson (keeps : ∀ line, KeepsAddress (read line))
    (lines : List ICalendarEntry) (wellRead : WellRead people) :
    WellRead (lines.foldl (Ical.readPerson read) people) := by
  apply foldlRecOn _ _ wellRead
  intro people wellRead line _
  exact wellRead.readPerson line (keeps line)

variable (vevent : ICalendarComponent)

theorem wellRead_readPeople : WellRead (readPeople vevent) := by
  have start : WellRead [] := ⟨List.Pairwise.nil, fun _ mem => nomatch mem⟩
  exact WellRead.foldl_readPerson readAttendeeLine_keepsAddress _
    (WellRead.foldl_readPerson readOrganizerLine_keepsAddress _ start)

theorem calendarAddress_ofMap {participant : ValueMap}
    (states : participant.get? "calendarAddress" = some (.string address))
    (isAddress : namesAnAddress address = true) :
    calendarAddress (.ofMap participant) = some address := by
  have stated : (Value.ofMap participant).get? "calendarAddress" = some (.string address) := states
  simp [calendarAddress, stated, Value.asStr, isAddress]

theorem mem_entriesOf_readParticipants {vevent : ICalendarComponent} {value : Value}
    (mem : (key, value) ∈ entriesOf (readParticipants vevent)) :
    ∃ index, ∃ inside : index < (readPeople vevent).length,
      key = inventedKey "p" (index + 1) ∧
      calendarAddress value = some ((readPeople vevent).get ⟨index, inside⟩).1 := by
  rw [readParticipants, nonEmptyMap] at mem
  split at mem
  · cases mem
  · have listed := mem_of_mem_ofList mem
    obtain ⟨index, inside, same⟩ := mem_mapIdx.mp listed
    have states := (wellRead_readPeople vevent).states _ (getElem_mem inside)
    cases same
    exact ⟨index, inside, rfl, calendarAddress_ofMap states.1 states.2⟩

theorem readParticipants_distinct :
    (entriesOf (readParticipants vevent)).Pairwise fun left right =>
      ∀ leftAddress rightAddress, calendarAddress left.2 = some leftAddress →
        calendarAddress right.2 = some rightAddress →
        eqIgnoreAsciiCase leftAddress rightAddress = false := by
  have sorted : (entriesOf (readParticipants vevent)).Pairwise fun left right =>
    left.1 < right.1 := by
    cases readParticipants vevent with
    | none => exact List.Pairwise.nil
    | some map => exact map.sorted
  apply sorted.imp_of_mem
  intro left right leftMem rightMem less leftAddress rightAddress leftStates rightStates
  obtain ⟨first, firstInside, firstKey, firstStates⟩ := mem_entriesOf_readParticipants leftMem
  rcases mem_entriesOf_readParticipants rightMem with
    ⟨second, secondInside, secondKey, secondStates⟩
  rw [firstStates] at leftStates
  rw [secondStates] at rightStates
  cases leftStates
  cases rightStates
  have distinct := pairwise_map.mp (wellRead_readPeople vevent).distinct
  rw [pairwise_iff_getElem] at distinct
  rcases Nat.lt_trichotomy first second with before | same | after
  · exact distinct first second firstInside secondInside before
  · subst same
    rw [firstKey, secondKey] at less
    exact absurd less (lt_irrefl _)
  · have reversed := distinct second first secondInside firstInside after
    rw [eqIgnoreAsciiCase, beq_eq_false_iff_ne] at reversed ⊢
    exact reversed.symm

end EvolutionJmap.Ical
