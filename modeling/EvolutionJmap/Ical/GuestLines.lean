import EvolutionJmap.Ical.Lines
import EvolutionJmap.Ical.People

/-!
# The guests that a document shows

A participant with an address is drawn as the organizer, as a guest or as both; the
second owner without another role is not drawn at all.  The addresses that are read back
are those of the drawn lines.
-/

namespace EvolutionJmap.Ical

open List BTreeMap

/-! ## The addresses that are read -/

def People.names (people : People) (address : String) : Bool :=
  people.any fun person => eqIgnoreAsciiCase person.1 address

def statesAddress (address : String) (line : ICalendarEntry) : Bool :=
  namesAnAddress (entryRawValue line) && eqIgnoreAsciiCase (entryRawValue line) address

theorem eqIgnoreAsciiCase_congr {left right : String} (same : eqIgnoreAsciiCase left right = true)
    (query : String) : eqIgnoreAsciiCase left query = eqIgnoreAsciiCase right query := by
  rw [Bool.eq_iff_iff]
  exact ⟨eqIgnoreAsciiCase_trans (eqIgnoreAsciiCase_symm same), eqIgnoreAsciiCase_trans same⟩

variable (address : String)

theorem names_updatePerson (update : ValueMap → ValueMap) (people : People) (query : String) :
    (updatePerson address update people).names query =
      (people.names query || eqIgnoreAsciiCase address query) := by
  induction people with
  | nil => exact Bool.or_false _
  | cons person rest ih =>
    obtain ⟨known, participant⟩ := person
    rw [updatePerson]
    split
    · next same =>
      have again := eqIgnoreAsciiCase_congr same query
      simp only [People.names, any_cons]
      rw [again]
      cases eqIgnoreAsciiCase address query <;> simp
    · have rest : (updatePerson address update rest).any
          (fun person => eqIgnoreAsciiCase person.1 query) = _ := ih
      simp only [People.names, any_cons]
      rw [rest, Bool.or_assoc]
      rfl

variable (read : ICalendarEntry → ValueMap → ValueMap)

theorem names_readPerson (people : People) (line : ICalendarEntry) (query : String) :
    (readPerson read people line).names query =
      (people.names query || statesAddress query line) := by
  unfold readPerson
  dsimp only
  split
  · next isAddress => rw [names_updatePerson, statesAddress, isAddress, Bool.true_and]
  · next noAddress =>
    rw [Bool.not_eq_true] at noAddress
    rw [statesAddress, noAddress, Bool.false_and, Bool.or_false]

theorem names_foldl_readPerson (lines : List ICalendarEntry) (people : People) (query : String) :
    (lines.foldl (readPerson read) people).names query =
      (people.names query || lines.any (statesAddress query)) := by
  induction lines generalizing people with
  | nil => exact (Bool.or_false _).symm
  | cons line lines ih => rw [foldl_cons, ih, names_readPerson, any_cons, Bool.or_assoc]

theorem names_readPeople (vevent : ICalendarComponent) (query : String) :
    (readPeople vevent).names query =
      ((componentEntry vevent "ORGANIZER").toList ++
        componentEntries vevent "ATTENDEE").any (statesAddress query) := by
  rw [readPeople, names_foldl_readPerson, names_foldl_readPerson, any_append]
  rfl

theorem exists_participant {vevent : ICalendarComponent} {query : String}
    (named : (readPeople vevent).names query = true) :
    ∃ entry ∈ entriesOf (readParticipants vevent), ∃ address,
      calendarAddress entry.2 = some address ∧ eqIgnoreAsciiCase address query = true := by
  obtain ⟨person, mem, same⟩ := any_eq_true.mp named
  obtain ⟨index, inside, rfl⟩ := getElem_of_mem mem
  let listed := (readPeople vevent).mapIdx fun index person =>
    (inventedKey "p" (index + 1), Value.ofMap person.2)
  have isListed : inventedKey "p" (index + 1) ∈ listed.map Prod.fst :=
    mem_map.mpr ⟨_, mem_mapIdx.mpr ⟨index, inside, rfl⟩, rfl⟩
  obtain ⟨value, found⟩ := exists_get?_ofList isListed
  have isEntry : (inventedKey "p" (index + 1), value) ∈ entriesOf (readParticipants vevent) := by
    have nonempty : (BTreeMap.ofList listed).isEmpty = false := by
      rw [Bool.eq_false_iff]
      intro isEmpty
      rw [(isEmpty_iff _).mp isEmpty] at found
      cases found
    rw [readParticipants, nonEmptyMap, nonempty]
    exact (mem_entries _).mpr found
  obtain ⟨position, within, sameKey, states⟩ := mem_entriesOf_readParticipants isEntry
  cases Nat.succ.inj (inventedKey_injective "p" sameKey)
  exact ⟨_, isEntry, _, states, same⟩

/-! ## The addresses that are drawn -/

/-- A line of the drawn guest list has the address, up to letter case. -/
def Drawn (event : CalendarEvent) (address : String) : Prop :=
  ∃ line ∈ drawnParticipants event, eqIgnoreAsciiCase (entryRawValue line) address = true

instance (event : CalendarEvent) (address : String) : Decidable (Drawn event address) :=
  inferInstanceAs (Decidable (∃ line ∈ _, _))

theorem entryRawValue_organizerLine (participant : Value) :
    entryRawValue (organizerLine address participant) = address :=
  entryText_of_values rfl rfl

theorem entryRawValue_attendeeLine (participant : Value) :
    entryRawValue (attendeeLine address participant) = address :=
  entryText_of_values rfl rfl

theorem of_mem_participantLines {organizerDrawn : Bool} {participants : List Value}
    {line : ICalendarEntry} (mem : line ∈ participantLines organizerDrawn participants) :
    ∃ participant ∈ participants, calendarAddress participant = some (entryRawValue line) := by
  induction participants generalizing organizerDrawn with
  | nil => cases mem
  | cons participant rest ih =>
    rw [participantLines] at mem
    split at mem
    · obtain ⟨other, inRest, states⟩ := ih mem
      exact ⟨other, mem_cons_of_mem _ inRest, states⟩
    · next address isAddress =>
      rcases mem_append.mp mem with shown | later
      · refine ⟨participant, mem_cons_self, ?_⟩
        rw [isAddress]
        rcases mem_append.mp shown with organizer | attendee
        · split at organizer
          · rw [mem_singleton.mp organizer, entryRawValue_organizerLine]
          · cases organizer
        · split at attendee
          · cases attendee
          · rw [mem_singleton.mp attendee, entryRawValue_attendeeLine]
      · obtain ⟨other, inRest, states⟩ := ih later
        exact ⟨other, mem_cons_of_mem _ inRest, states⟩

theorem namesAnAddress_of_calendarAddress {participant : Value} {address : String}
    (states : calendarAddress participant = some address) : namesAnAddress address = true :=
  (Option.filter_eq_some_iff.mp states).2

theorem byName_organizer (organizerDrawn : Bool) (participants : List Value) :
    (byName "ORGANIZER" (participantLines organizerDrawn participants)).length ≤
      if organizerDrawn then 0 else 1 := by
  induction participants generalizing organizerDrawn with
  | nil => exact Nat.zero_le _
  | cons participant rest ih =>
    rw [participantLines]
    split
    · exact ih organizerDrawn
    · next address _ =>
      have later := ih (organizerDrawn || holdsRole participant ownerRole)
      have isOrganizer : byName "ORGANIZER" [organizerLine address participant] =
          [organizerLine address participant] :=
        filter_cons_of_pos (show eqIgnoreAsciiCase "ORGANIZER" "ORGANIZER" = true by decide)
      have isGuest : byName "ORGANIZER" [attendeeLine address participant] = [] :=
        filter_cons_of_neg (show ¬ eqIgnoreAsciiCase "ATTENDEE" "ORGANIZER" = true by decide)
      have guest : ∀ alone : Prop, ∀ [Decidable alone], byName "ORGANIZER"
          (if alone then [] else [attendeeLine address participant]) = [] := by
        intro alone _
        split
        · rfl
        · exact isGuest
      dsimp only
      rw [byName_append, byName_append, guest, append_nil, length_append]
      cases organizerDrawn with
      | true =>
        rw [Bool.true_or] at later
        simpa using later
      | false =>
        cases owns : holdsRole participant ownerRole with
        | false =>
          rw [owns] at later
          simpa using later
        | true =>
          rw [owns] at later
          simp [isOrganizer] at later ⊢
          exact later

theorem statesAddress_drawn (event : CalendarEvent) (query : String) :
    ((byName "ORGANIZER" (drawnParticipants event)).head?.toList ++
      byName "ATTENDEE" (drawnParticipants event)).any (statesAddress query) = true ↔
      Drawn event query := by
  have organizer : (byName "ORGANIZER" (drawnParticipants event)).head?.toList =
      byName "ORGANIZER" (drawnParticipants event) := by
    have atMostOne := byName_organizer false ((entriesOf event.participants).map Prod.snd)
    rw [drawnParticipants]
    match byName "ORGANIZER"
        (participantLines false ((entriesOf event.participants).map Prod.snd)), atMostOne with
    | [], _ => rfl
    | [_], _ => rfl
  have isAddress : ∀ line ∈ drawnParticipants event,
      statesAddress query line = eqIgnoreAsciiCase (entryRawValue line) query := by
    intro line mem
    obtain ⟨participant, -, states⟩ := of_mem_participantLines mem
    rw [statesAddress, namesAnAddress_of_calendarAddress states, Bool.true_and]
  rw [organizer, any_eq_true]
  constructor
  · rintro ⟨line, mem, states⟩
    have isDrawn : line ∈ drawnParticipants event := by
      rcases mem_append.mp mem with isOrganizer | isGuest
      · exact mem_of_mem_filter isOrganizer
      · exact mem_of_mem_filter isGuest
    exact ⟨line, isDrawn, isAddress line isDrawn ▸ states⟩
  · rintro ⟨line, mem, same⟩
    refine ⟨line, mem_append.mpr ?_, (isAddress line mem).trans same⟩
    rcases mem_cons.mp (named_participantLines _ _ line mem) with isOrganizer | isGuest
    · exact .inl (mem_filter.mpr ⟨mem, by rw [isOrganizer]; decide⟩)
    · exact .inr (mem_filter.mpr ⟨mem, by rw [mem_singleton.mp isGuest]; decide⟩)

theorem names_drawnSeries (calcard : Calcard) (event : CalendarEvent) (query : String) :
    (readPeople ((drawnSeries calcard event).flat 0)).names query = true ↔
      Drawn event query := by
  rw [names_readPeople, componentEntry_flat, componentEntries_flat,
    byName_people calcard event (.inl rfl), byName_people calcard event (.inr rfl),
    statesAddress_drawn]

end EvolutionJmap.Ical
