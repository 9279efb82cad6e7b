import EvolutionJmap.CalSync.Basic
import EvolutionJmap.CalSync.Legal

/-!
# Received invitations cannot take over a meeting

An update that a received text leads to keeps the organizer of the series and of every
occurrence, and the guests if this account organises the meeting.  A property can change
for one occurrence, so what counts is the value that an override gives it.
-/

namespace EvolutionJmap.CalSync

open Ical Interaction Pointer List Option

/-! ## The properties of an occurrence -/

/-- The changes that the override of one occurrence makes. -/
def overrideOf (event : Value) (id : String) : List (String × Value) :=
  (((event.get? "recurrenceOverrides").bind (·.get? id)).bind Value.asObject).getD []

/-- The value of a property in one occurrence: the value in the series, with the
override's changes to this property. -/
def effective (name : String) (event : Value) (id : String) : Option Value :=
  let series : Value := .object ((event.get? name).map fun value => (name, value)).toList
  let changes := (overrideOf event id).filter fun change => (keys change.1).head? == some name
  ((Value.applyPatch changes series).getD series).get? name

/-- The property is the same in the series and in every occurrence. -/
structure Keeps (name : String) (before after : Value) : Prop where
  series : after.get? name = before.get? name
  occurrence : ∀ id, effective name after id = effective name before id

variable {name : String}

theorem effective_of_unnamed {id : String} {event : Value}
    (unnamed : ∀ change ∈ overrideOf event id, (keys change.1).head? ≠ some name) :
    effective name event id = event.get? name := by
  have none : (overrideOf event id).filter
      (fun change => (keys change.1).head? == some name) = [] := by
    rw [filter_eq_nil_iff]
    intro change mem isName
    exact unnamed change mem (beq_iff_eq.mp isName)
  rw [effective, none]
  cases found : event.get? name with
  | none => rfl
  | some value => simp [Value.applyPatch, Value.get?, Entries.get?_cons]

theorem Keeps.of_overrides {before after : Value} (series : after.get? name = before.get? name)
    (overrides : after.get? "recurrenceOverrides" = before.get? "recurrenceOverrides") :
    Keeps name before after where
  series := series
  occurrence id := by
    unfold effective overrideOf
    rw [series, overrides]

def guestProperties : List String := ["participants", "organizerCalendarAddress"]

/-! ## Overrides that are sent -/

variable {series : CalendarEvent}

theorem drawsOverrideField_name {calcard : Calcard} {value : Value}
    (draws : drawsOverrideField calcard series name value = true) :
    name ∈ "excluded" :: overrideProperties := by
  unfold drawsOverrideField at draws
  split at draws
  · next isZone => simp [isZone, overrideProperties]
  · unfold mapsOverrideField at draws
    split at draws
    · next isExcluded => simp [isExcluded]
    · split at draws
      · cases draws
      · next known => exact mem_cons_of_mem _ (not_not.mp known)

theorem sendsRecurrenceOverride_names {calcard : Calcard} {id : String} {override : Value}
    {changes : List (String × Value)}
    (sends : sendsRecurrenceOverride calcard series id override = true)
    (isObject : override.asObject = some changes) :
    ∀ change ∈ changes, change.1 ∈ "excluded" :: overrideProperties := by
  unfold sendsRecurrenceOverride overrideMapsBy at sends
  rw [isObject] at sends
  dsimp only at sends
  rw [Bool.and_eq_true] at sends
  have fields := sends.2
  split at fields
  · next isExcluded =>
    obtain ⟨only, rfl⟩ := length_eq_one_iff.mp (beq_iff_eq.mp fields)
    cases override with
    | object members =>
      cases isObject
      have found := of_decide_eq_true isExcluded
      have named := Entries.mem_of_get? found
      intro change mem
      rw [mem_singleton.mp mem, ← mem_singleton.mp named]
      exact mem_cons_self
    | null | bool _ | int _ | float _ | string _ | array _ => cases isObject
  · intro change mem
    exact drawsOverrideField_name (all_eq_true.mp fields change mem)

/-- If a component shows every override whole, no occurrence has guests or an
organizer of its own. -/
theorem effective_of_sendsOverrides {calcard : Calcard} {event : CalendarEvent} {json : Value}
    (sends : sendsOverrides calcard event = true)
    (overrides : ∀ value, json.get? "recurrenceOverrides" = some value →
      ∃ map, event.recurrenceOverrides = some map ∧ value = .ofMap map)
    (isGuests : name ∈ guestProperties) (id : String) :
    effective name json id = json.get? name := by
  apply effective_of_unnamed
  intro change mem isName
  unfold overrideOf at mem
  generalize found : ((json.get? "recurrenceOverrides").bind (·.get? id)).bind Value.asObject =
    changes at mem
  cases changes with
  | none => cases mem
  | some changes =>
    obtain ⟨override, hasOverride, isObject⟩ := bind_eq_some_iff.mp found
    obtain ⟨value, hasValue, entry⟩ := bind_eq_some_iff.mp hasOverride
    obtain ⟨map, mapEq, rfl⟩ := overrides value hasValue
    have inMap : (id, override) ∈ entriesOf event.recurrenceOverrides := by
      rw [mapEq]
      exact map.mem_entries.mpr entry
    have known := sendsRecurrenceOverride_names
      (all_eq_true.mp sends (id, override) inMap) isObject change mem
    revert isName
    generalize change.1 = key at known
    have apart : ∀ key ∈ "excluded" :: overrideProperties, ∀ name ∈ guestProperties,
        (keys key).head? ≠ some name := by
      decide +kernel
    exact apart key known name isGuests

theorem diffOverrides_gates {calcard : Calcard} {current baseline edited : CalendarEvent}
    {write : String × Value}
    (mem : write ∈ diffOverrides calcard current baseline edited) :
    sendsOverrides calcard current = true ∧ sendsOverrides calcard edited = true ∧
      write = ("recurrenceOverrides",
        .ofOption ((stated edited.recurrenceOverrides).map .ofMap)) := by
  unfold diffOverrides at mem
  split at mem
  · cases mem
  · next gates =>
    split at mem
    · cases mem
    · rw [mem_singleton] at mem
      simp only [any_cons, any_nil, Bool.or_false, Bool.or_eq_true, not_or,
        Bool.not_eq_true, Bool.not_eq_false'] at gates
      exact ⟨gates.1, gates.2, mem⟩

/-! ## What an update keeps -/

variable {path : String}

section

variable {calcard : Calcard} {current edited : CalendarEvent} {patch : Patch}

theorem get?_toJson_overrides (event : CalendarEvent) :
    event.toJson.get? "recurrenceOverrides" = event.recurrenceOverrides.map .ofMap :=
  event.get?_toJson (by simp [CalendarEvent.fields])

section

variable (sends : Sends calcard current edited patch) {result : Value}
  (applied : Value.applyPatch patch.entries current.toJson = some result)

include sends applied

/-- What a sent patch makes of the overrides: they stay, or the component shows the
overrides before and after whole. -/
theorem Sends.overrides :
    result.get? "recurrenceOverrides" = current.toJson.get? "recurrenceOverrides" ∨
    (sendsOverrides calcard current = true ∧ sendsOverrides calcard edited = true ∧
      ∀ value, result.get? "recurrenceOverrides" = some value →
        ∃ map, edited.recurrenceOverrides = some map ∧ value = .ofMap map) := by
  by_cases named : ∃ entry ∈ patch.entries, (keys entry.1).head? = some "recurrenceOverrides"
  · right
    have gates : ∀ entry ∈ patch.entries,
        (keys entry.1).head? = some "recurrenceOverrides" →
        sendsOverrides calcard current = true ∧ sendsOverrides calcard edited = true ∧
          entry = ("recurrenceOverrides",
            .ofOption ((stated edited.recurrenceOverrides).map .ofMap)) := by
      intro entry mem head
      rcases sends.family (patch.mem_entries.mp mem) head (by decide) with
        ⟨baseline, writes, inFamilies, written⟩
      have isOverrides : writes = diffOverrides calcard current baseline edited := by
        simpa [families] using inFamilies
      exact diffOverrides_gates (isOverrides ▸ written)
    obtain ⟨entry, mem, head⟩ := named
    obtain ⟨currentSends, editedSends, rfl⟩ := gates entry mem head
    have written := Value.get?_applyPatch_property applied patch.keys_nodup mem (by decide)
      fun other otherMem otherHead => by rw [(gates other otherMem otherHead).2.2]
    refine ⟨currentSends, editedSends, ?_⟩
    intro value found
    rw [written] at found
    cases held : stated edited.recurrenceOverrides with
    | none =>
      rw [held] at found
      cases found
    | some map =>
      rw [held] at found
      exact ⟨map, of_stated_eq_some held, (Option.some.inj found).symm⟩
  · left
    exact Value.get?_applyPatch applied fun entry mem head => named ⟨entry, mem, head⟩

/-- A patch that does not name the guests or the organizer keeps them in the
series and in every occurrence. -/
theorem Sends.keeps (isGuests : name ∈ guestProperties)
    (unnamed : ∀ entry ∈ patch.entries, (keys entry.1).head? ≠ some name) :
    Keeps name current.toJson result := by
  have series := Value.get?_applyPatch applied unnamed
  rcases sends.overrides applied with same | ⟨currentSends, editedSends, overrides⟩
  · exact .of_overrides series same
  · refine ⟨series, fun id => ?_⟩
    have before : ∀ value, current.toJson.get? "recurrenceOverrides" = some value →
        ∃ map, current.recurrenceOverrides = some map ∧ value = .ofMap map := by
      intro value found
      rw [get?_toJson_overrides] at found
      obtain ⟨map, mapEq, rfl⟩ := map_eq_some_iff.mp found
      exact ⟨map, mapEq, rfl⟩
    rw [effective_of_sendsOverrides editedSends overrides isGuests,
      effective_of_sendsOverrides currentSends before isGuests, series]

end

theorem guestsPath_of_head (isGuests : name ∈ guestProperties)
    (head : (keys path).head? = some name) : guestsPath path = true := by
  have plain : ∀ name ∈ guestProperties, Plain name := by decide
  unfold Pointer.keys at head
  rw [head?_map] at head
  obtain ⟨segment, isFirst, isName⟩ := map_eq_some_iff.mp head
  have same : segment = name := by
    have chars : segment.toList = name.toList :=
      unescapeChars_eq (by rw [← isName, unescape, String.toList_ofList])
        (plain name isGuests).2 (plain name isGuests).1
    rw [← String.ofList_toList (s := segment), chars, String.ofList_toList]
  subst same
  apply any_eq_true.mpr
  refine ⟨segment, mem_of_mem_head? isFirst, ?_⟩
  simpa [guestProperties] using isGuests

theorem namesGuests_of_guestsPath (value : Value) (isGuests : guestsPath path = true) :
    namesGuests path value = true := by
  cases value <;> simp [namesGuests, isGuests]

theorem unnamed_of_not_namesGuests
    (passes : ¬ (patch.entries.any fun entry => namesGuests entry.1 entry.2) = true)
    (isGuests : name ∈ guestProperties) :
    ∀ entry ∈ patch.entries, (keys entry.1).head? ≠ some name := by
  intro entry mem head
  apply passes
  exact any_eq_true.mpr
    ⟨entry, mem, namesGuests_of_guestsPath _ (guestsPath_of_head isGuests head)⟩

theorem Sends.unnamed_organizer (sends : Sends calcard current edited patch) :
    ∀ entry ∈ (patch.erase "organizerCalendarAddress").entries,
      (keys entry.1).head? ≠ some "organizerCalendarAddress" := by
  intro entry mem head
  have found := (BTreeMap.mem_entries _).mp mem
  rw [BTreeMap.get?_erase] at found
  split at found
  · cases found
  · next other =>
    obtain ⟨baseline, writes, inFamilies, written⟩ := sends.family found head (by decide)
    have isOrganizer : writes = diffOrganizer baseline edited := by
      simpa [families] using inFamilies
    rw [isOrganizer, diffOrganizer] at written
    split at written
    · cases written
    · rw [mem_singleton] at written
      exact other (congrArg Prod.fst written)

theorem patchFor_sends {uid : String} {base : Option Base}
    (ok : patchFor calcard uid base edited current = .ok patch) :
    Sends calcard current edited patch := by
  unfold patchFor at ok
  split at ok
  · split at ok
    · next found =>
      rw [← Except.ok.inj ok]
      rcases ObjectKind.patchSince_eq_some found with isDiff | ⟨base, kept, isDiff⟩
      · rw [isDiff, events_diff]
        exact diff_sends
      · rw [isDiff, events_diffSinceExcept]
        exact diffSinceExcept_sends base kept
    · cases ok
  · rw [← Except.ok.inj ok]
    exact diff_sends

end

/-! ## Saving a received text -/

section

variable {calcard : Calcard} {sync : CalSync} {uid : String} {base : Option Base}
  {event current : CalendarEvent} {itip : Itip} {reply defaultSchedule retry : Bool}
  {store : Store (events calcard).toDataType} {start finish : Nat}
  {trace : Trace lookups CalendarEvent}

def answeredAddresses : Except Error (List ParticipantIdentity) → Option (List String)
  | .ok identities => some (addressesOf identities)
  | .error error => if error.isUnknownMethod then some [] else none

/-- The server answered during the trace that `own` are the account's addresses. -/
def Learned (own : List String)
    (trace : Trace lookups CalendarEvent) : Prop :=
  ∃ before answer after,
    ⟨before, .lookup .participantIdentities, answer, after⟩ ∈ trace ∧
      answeredAddresses answer = some own

theorem Learned.mono {own : List String}
    {whole : Trace lookups CalendarEvent}
    (learned : Learned own trace) (within : trace ⊆ whole) : Learned own whole := by
  obtain ⟨before, answer, after, mem, isOwn⟩ := learned
  exact ⟨before, answer, after, within mem, isOwn⟩

theorem participantIdentities_run {identities : List ParticipantIdentity}
    (run : store.Run start participantIdentities trace (.ok identities)
      finish) : Learned (addressesOf identities) trace := by
  obtain ⟨answer, _, first, second, attempted, rest, rfl⟩ := Run.bind_ok run
  obtain ⟨inner, innerEq, sent⟩ := Run.attempt_iff.mp attempted
  cases innerEq
  obtain ⟨before, after, rfl⟩ := Store.send_trace sent
  refine ⟨before, answer, after, mem_append_left _ (mem_singleton_self _), ?_⟩
  cases answer with
  | ok answered =>
    cases rest.done_ok
    rfl
  | error error =>
    dsimp only at rest
    split at rest
    · next unknown =>
      cases rest.done_ok
      exact if_pos unknown
    · exact rest.not_failed.elim

theorem ownAddresses_run {own : List String}
    (run : store.Run start ownAddresses trace (.ok own) finish) :
    Learned own trace := by
  obtain ⟨identities, _, first, second, asked, rest, rfl⟩ := Run.bind_ok run
  cases rest.done_ok
  exact (participantIdentities_run asked.mapError_ok).mono (subset_append_left _ _)

/-- What a received patch has to pass. -/
inductive Permitted (sync : CalSync) (reply : Bool) (current : CalendarEvent) (own : List String)
    (patch : Patch) : Patch → Bool → Prop where
  /-- This account organises the meeting: the patch leaves the guests alone, and
  nothing is scheduled. -/
  | organised : organisedHere current own = true →
      ¬ (patch.entries.any fun entry => namesGuests entry.1 entry.2) = true →
      Permitted sync reply current own patch patch false
  /-- Another account does: the organizer stays. -/
  | invited : organisedHere current own = false →
      Permitted sync reply current own patch (patch.erase "organizerCalendarAddress")
        (reply && sync.serverSchedules && !own.isEmpty)

theorem permit_run {patch permitted : Patch} {schedule : Bool}
    (run : store.Run start
      (permit sync (.received reply) defaultSchedule current patch) trace
      (.ok (permitted, schedule)) finish) :
    ∃ own, Learned own trace ∧ Permitted sync reply current own patch permitted schedule := by
  obtain ⟨own, _, first, second, asked, rest, rfl⟩ := Run.bind_ok run
  refine ⟨own, (ownAddresses_run asked).mono (subset_append_left _ _), ?_⟩
  split at rest
  · next organised =>
    split at rest
    · exact rest.not_failed.elim
    · next passes =>
      cases rest.done_ok
      exact .organised organised passes
  · next invited =>
    cases rest.done_ok
    exact .invited (Bool.not_eq_true _ ▸ invited)

theorem participantIdentities_quiet :
    participantIdentities.Sends NoUpdate := by
  apply Program.Sends.bind
  · apply Program.Sends.attempt
    exact ClientM.sends_send rfl
  · intro outcome
    split
    · exact trivial
    · split <;> exact trivial

theorem ownAddresses_quiet : ownAddresses.Sends NoUpdate :=
  (participantIdentities_quiet.mapError _).bind fun _ => trivial

theorem permit_quiet (patch : Patch) :
    (permit sync itip defaultSchedule current patch).Sends NoUpdate := by
  unfold permit
  split
  · apply ownAddresses_quiet.bind
    intro own
    split
    · split <;> exact trivial
    · exact trivial
  · exact trivial
  · exact trivial

theorem saving_quiet :
    (saving calcard sync uid base event itip defaultSchedule).Quiet where
  plan _ := (Program.sends_ofExcept _).bind fun patch =>
    (permit_quiet patch).bind fun _ => trivial
  complete _ := trivial
  render _ := (Program.sends_ofExcept _).bind fun _ => trivial

theorem plan_run {planned : Patch} {scheduling : Option Bool}
    (run : store.Run start
      ((saving calcard sync uid base event (.received reply) defaultSchedule).plan current) trace
      (.ok (planned, scheduling)) finish) :
    ∃ patch own schedule, patchFor calcard uid base event current = .ok patch ∧
      Learned own trace ∧ Permitted sync reply current own patch planned schedule ∧
      scheduling = if schedule then some true else none := by
  obtain ⟨patch, isPatch, run⟩ := Run.ofExcept_ok_bind run
  obtain ⟨⟨permitted, schedule⟩, _, first, second, asked, rest, rfl⟩ := Run.bind_ok run
  cases rest.done_ok
  obtain ⟨own, learned, passed⟩ := permit_run asked
  exact ⟨patch, own, schedule, isPatch, learned.mono (subset_append_left _ _), passed, rfl⟩

section

variable {own : List String} {patch planned : Patch} {schedule : Bool}
  (permitted : Permitted sync reply current own patch planned schedule)

include permitted

/-- A patch that passed keeps the organizer, and in a meeting that this account
organises the guests. -/
theorem Permitted.keeps (sends : Sends calcard current event patch) {result : Value}
    (applied : Value.applyPatch planned.entries current.toJson = some result) :
    Keeps "organizerCalendarAddress" current.toJson result ∧
      (organisedHere current own = true → Keeps "participants" current.toJson result) := by
  cases permitted with
  | organised _ passes =>
    have keeps : ∀ name ∈ guestProperties, Keeps name current.toJson result :=
      fun name isGuests =>
        sends.keeps applied isGuests (unnamed_of_not_namesGuests passes isGuests)
    exact ⟨keeps _ (by decide), fun _ => keeps _ (by decide)⟩
  | invited elsewhere =>
    constructor
    · exact (sends.erase _).keeps applied (by decide) sends.unnamed_organizer
    · intro organised
      rw [organised] at elsewhere
      cases elsewhere

theorem Permitted.schedules (scheduled : schedule = true) :
    reply = true ∧ own ≠ [] ∧ organisedHere current own = false := by
  cases permitted with
  | organised _ _ => cases scheduled
  | invited elsewhere =>
    simp only [Bool.and_eq_true, Bool.not_eq_true'] at scheduled
    exact ⟨scheduled.1.1, by simpa using scheduled.2, elsewhere⟩

end

/-- What an update of a received text does to the event that it patches. -/
structure Respects (calcard : Calcard) (store : Store (events calcard).toDataType) (uid : Id)
    (reply : Bool) (trace : Trace lookups CalendarEvent)
    (request : UpdateRequest) (moment : Nat) (current : CalendarEvent) (own : List String) :
    Prop where
  /-- The request applies only to this version of the event. -/
  guarded : request.ifInState = some (store.stateAt moment)
  version : store.history.value moment uid = some current
  learned : Learned own trace
  organizer : ∀ result, Value.applyPatch request.patch.entries current.toJson = some result →
    Keeps "organizerCalendarAddress" current.toJson result
  guests : organisedHere current own = true → ∀ result,
    Value.applyPatch request.patch.entries current.toJson = some result →
      Keeps "participants" current.toJson result
  scheduling : request.sendSchedulingMessages = some true →
    reply = true ∧ own ≠ [] ∧ organisedHere current own = false

theorem writeUpdate_respects {outcome : Except SyncError ComponentInfo}
    (run : store.Run start
      (writeUpdate calcard sync uid base event (.received reply) defaultSchedule retry) trace
      outcome finish)
    {exchange : Exchange (Call lookups) (Call.Answer CalendarEvent) Nat}
    (mem : exchange ∈ trace) {method : String} {request : UpdateRequest}
    (isUpdate : exchange.request = .update method request) :
    ∃ moment current own, Respects calcard store uid reply trace request moment current own := by
  have guarded := ObjectKind.writeUpdate_safe saving_quiet run exchange mem method request
    isUpdate
  rcases guarded.version with
    ⟨moment, current, inState, value, planned, -, ⟨_, part, _, within, ran⟩, _, _, _, _, completed⟩
  have same : planned = request.patch := by
    cases completed.done_ok
    rfl
  subst same
  obtain ⟨patch, own, schedule, isPatch, learned, permitted, scheduling⟩ := plan_run ran
  have keeps : ∀ result, Value.applyPatch request.patch.entries current.toJson = some result →
      Keeps "organizerCalendarAddress" current.toJson result ∧
        (organisedHere current own = true → Keeps "participants" current.toJson result) :=
    fun _ applied => permitted.keeps (patchFor_sends isPatch) applied
  refine ⟨moment, current, own, inState, value, learned.mono within,
    fun result applied => (keeps result applied).1,
    fun organised result applied => (keeps result applied).2 organised, ?_⟩
  intro isSet
  rw [scheduling] at isSet
  apply permitted.schedules
  cases schedule with
  | true => rfl
  | false => cases isSet

/-- The patch would change who takes part in the meeting or who organises it. -/
def ChangesGuests (current : CalendarEvent) (patch : Patch) : Prop :=
  ∃ result, Value.applyPatch patch.entries current.toJson = some result ∧
    ∃ name ∈ guestProperties, ¬ Keeps name current.toJson result

theorem namesGuests_of_changesGuests {patch : Patch}
    (sends : Sends calcard current event patch) (changes : ChangesGuests current patch) :
    (patch.entries.any fun entry => namesGuests entry.1 entry.2) = true := by
  obtain ⟨result, applied, name, isGuests, changed⟩ := changes
  by_contra passes
  exact changed (sends.keeps applied isGuests (unnamed_of_not_namesGuests passes isGuests))

theorem ownAddresses_error {error : SyncError}
    (run : store.Run start ownAddresses trace (.error error) finish) :
    ∃ cause, error = .client cause := by
  rcases Run.bind_iff.mp run with ⟨failure, failed, same⟩ | ⟨identities, _, _, _, -, rest, -⟩
  · cases same
    exact failed.mapError_error
  · have impossible := (Run.done_iff.mp rest).2.1
    cases impossible

theorem permit_ownMeeting {patch : Patch} {outcome : Except SyncError (Patch × Bool)}
    (run : store.Run start
      (permit sync (.received reply) defaultSchedule current patch) trace outcome finish)
    (names : (patch.entries.any fun entry => namesGuests entry.1 entry.2) = true)
    (organised : ∀ own, Learned own trace → organisedHere current own = true) :
    ∃ error, outcome = .error error ∧
      (error = .ownMeeting ∨ ∃ cause, error = .client cause) := by
  rcases Run.bind_iff.mp run with ⟨error, failed, same⟩ | ⟨own, _, first, _, asked, rest, traceEq⟩
  · exact ⟨error, same, .inr (ownAddresses_error failed)⟩
  · have learned := (ownAddresses_run asked).mono (traceEq ▸ subset_append_left first _)
    rw [if_pos (organised own learned), if_pos names] at rest
    have outcome := (Run.fail_iff.mp rest).2.1
    exact ⟨.ownMeeting, outcome, .inl rfl⟩

theorem plan_ownMeeting {patch : Patch} {outcome : Except SyncError (Patch × Option Bool)}
    (run : store.Run start
      ((saving calcard sync uid base event (.received reply) defaultSchedule).plan current) trace
      outcome finish)
    (isPatch : patchFor calcard uid base event current = .ok patch)
    (changes : ChangesGuests current patch)
    (organised : ∀ own, Learned own trace → organisedHere current own = true) :
    ∃ error, outcome = .error error ∧
      (error = .ownMeeting ∨ ∃ cause, error = .client cause) := by
  have names := namesGuests_of_changesGuests (patchFor_sends isPatch) changes
  simp only [saving, isPatch, Program.ofExcept_ok, Program.done_bind] at run
  rcases Run.bind_iff.mp run with ⟨error, failed, same⟩ |
    ⟨permitted, _, first, _, asked, -, traceEq⟩
  · obtain ⟨_, isError, reason⟩ := permit_ownMeeting failed names organised
    cases isError
    exact ⟨error, same, reason⟩
  · have early : first ⊆ trace := traceEq ▸ subset_append_left first _
    rcases permit_ownMeeting asked names fun own learned => organised own (learned.mono early) with
      ⟨_, isError, -⟩
    cases isError

/-- Received invitations cannot take over a meeting. Every update that a save of a
received text sends keeps the organizer of the series and of every occurrence; if
this account organises the event, it keeps the guests as well; and the server is
asked to schedule only a reply to another organizer. A text that would change the
guests or the organizer in the version that is read first, of a meeting that this account
organises, is not saved. -/
theorem writeUpdate_received {outcome : Except SyncError ComponentInfo}
    (run : store.Run start
      (writeUpdate calcard sync uid base event (.received reply) defaultSchedule retry) trace
      outcome finish) :
    (∀ exchange ∈ trace, ∀ method request, exchange.request = .update method request →
      ∃ moment current own, Respects calcard store uid reply trace request moment current own) ∧
    ((∀ moment current, (readsOf trace).head? = some (uid, moment) →
        store.history.value moment uid = some current →
        (∀ own, Learned own trace → organisedHere current own = true) ∧
        ∃ patch, patchFor calcard uid base event current = .ok patch ∧
          ChangesGuests current patch) →
      outcome = .error .ownMeeting ∨ (∃ cause, outcome = .error (.client cause)) ∨
        outcome = .error (.notFound uid)) := by
  constructor
  · intro exchange mem method request isUpdate
    exact writeUpdate_respects run mem isUpdate
  · intro always
    have failed := ObjectKind.writeUpdate_planFails
      (fun error => error = .ownMeeting ∨ ∃ cause, error = .client cause) run ?_
    · obtain ⟨error, rfl, (rfl | ⟨cause, rfl⟩) | ⟨cause, rfl⟩ | rfl⟩ := failed
      · exact .inl rfl
      · exact .inr (.inl ⟨cause, rfl⟩)
      · exact .inr (.inl ⟨cause, rfl⟩)
      · exact .inr (.inr rfl)
    · intro moment current before part planned after isFirst value within ran
      obtain ⟨organised, patch, isPatch, changes⟩ := always moment current isFirst value
      exact plan_ownMeeting ran isPatch changes fun own learned =>
        organised own (learned.mono within)

/-- Under every interleaving an update that a save sends is a legal patch of the one
version that it can be carried out on. -/
theorem writeUpdate_legal {outcome : Except SyncError ComponentInfo}
    (run : store.Run start
      (writeUpdate calcard sync uid base event itip defaultSchedule retry) trace outcome finish) :
    ∀ exchange ∈ trace, ∀ method request, exchange.request = .update method request →
      ∃ moment current, request.ifInState = some (store.stateAt moment) ∧
        store.history.value moment uid = some current ∧ Legal current.toJson request.patch := by
  intro exchange mem method request isUpdate
  obtain ⟨moment, current, inState, value, _, _, ⟨_, _, _, _, ran⟩, _, _, _, _, completed⟩ :=
    (ObjectKind.writeUpdate_safe saving_quiet run exchange mem method request isUpdate).version
  cases completed.done_ok
  refine ⟨moment, current, inState, value, ?_⟩
  obtain ⟨patch, isPatch, permitting⟩ := Run.ofExcept_ok_bind ran
  obtain ⟨⟨permitted, _⟩, _, _, _, asked, ended, -⟩ := Run.bind_ok permitting
  have isSent : request.patch = permitted :=
    (congrArg Prod.fst (Except.ok.inj (Run.done_iff.mp ended).2.1))
  rw [isSent]
  have sends := patchFor_sends isPatch
  cases itip with
  | received reply =>
    obtain ⟨own, -, passed⟩ := permit_run asked
    cases passed with
    | organised => exact sends.legal
    | invited => exact (sends.erase _).legal
  | send | suppress =>
    cases asked.done_ok
    exact sends.legal

end

/-! ## An event without an organizer -/

/-- An event without an organizer, and whether the server says that this account
organises it. -/
def meeting (isOrigin : Bool) : CalendarEvent :=
  { id := some "e1", title := some "Planning", start := some "2026-01-15T13:00:00"
    isOrigin := some isOrigin }

def meetingDocument : List ICalendarComponent :=
  [⟨"VCALENDAR", [makeEntry "VERSION" "2.0", makeEntry "PRODID" prodid], [1]⟩,
    ⟨"VEVENT", [makeEntry "UID" "e1", makeEntry "SUMMARY" "Planning",
      makeEntry "DTSTART" "20260115T130000"], []⟩]

def addedGuest : ValueMap :=
  .ofList [("p1", .ofMembers [("calendarAddress", .string "mailto:a@example.org")])]

def meetingEdit : CalendarEvent :=
  { id := some "e1", title := some "Planning", start := some "2026-01-15T13:00:00"
    participants := some addedGuest }

def addedPatch : Patch := .ofList [("participants", .ofMap addedGuest)]

theorem diff_meeting (isOrigin : Bool) :
    diff (.fixed meetingDocument) (meeting isOrigin) meetingEdit = addedPatch := by
  cases isOrigin <;> decide +kernel

theorem meeting_changed (isOrigin : Bool) :
    ∃ result, Value.applyPatch addedPatch.entries (meeting isOrigin).toJson = some result ∧
      ¬ Keeps "participants" (meeting isOrigin).toJson result := by
  refine ⟨({ meeting isOrigin with participants := some addedGuest } : CalendarEvent).toJson,
    ?_, ?_⟩
  · cases isOrigin <;> decide +kernel
  · intro keeps
    have series := keeps.series
    revert series
    cases isOrigin <;> decide +kernel

def meetingStore (isOrigin : Bool) : Store (events (.fixed meetingDocument)).toDataType :=
  .ofLives _ [("e1", ⟨0, none, fun _ => meeting isOrigin⟩)] (by simp) (by simp [events, meeting])
    fun patch before after => Value.applyPatch patch.entries before.toJson = some after.toJson

def meetingSync : CalSync := { client := {}, calendarId := "c1" }

def guestRequest : UpdateRequest := ⟨"e1", addedPatch, some "", none⟩

def meetingTrace (isOrigin : Bool) : Trace lookups CalendarEvent :=
  [⟨0, .get "CalendarEvent/get" ["e1"], .ok ⟨"", [meeting isOrigin], []⟩, 0⟩,
    ⟨0, .lookup .participantIdentities, .ok ([] : List ParticipantIdentity), 0⟩]

def forwardedTrace : Trace lookups CalendarEvent :=
  meetingTrace false ++ [⟨0, .update "CalendarEvent/set" guestRequest, .error (.http 500), 0⟩]

theorem meeting_plan_run (isOrigin : Bool) :
    (meetingStore isOrigin).Run 0
      ((saving (.fixed meetingDocument) meetingSync "e1" none meetingEdit (.received false)
        false).plan (meeting isOrigin))
      (meetingTrace isOrigin).tail
      (if isOrigin then .error .ownMeeting else .ok (addedPatch, none)) 0 := by
  have kept : addedPatch.erase "organizerCalendarAddress" = addedPatch := by decide +kernel
  simp only [saving, patchFor, diff_meeting, Program.ofExcept_ok, Program.done_bind]
  refine .call rfl ?_
  dsimp only [Program.ofExcept, Program.attempt, Program.mapError, Program.bind]
  cases isOrigin with
  | false =>
    rw [if_neg (by decide), kept]
    exact .done
  | true =>
    rw [if_pos (by decide), if_pos (by decide +kernel)]
    exact .fail

theorem forwarded_run :
    (meetingStore false).Run 0
      (writeUpdate (.fixed meetingDocument) meetingSync "e1" none meetingEdit
        (.received false) false true)
      forwardedTrace (.error (.client (.http 500))) 0 := by
  refine (ObjectKind.fetchWithState_finds rfl).andThen ((meeting_plan_run false).andThen ?_)
  dsimp only
  rw [if_neg (by decide +kernel)]
  refine .call (.inl rfl) ?_
  exact .fail

theorem organised_run :
    (meetingStore true).Run 0
      (writeUpdate (.fixed meetingDocument) meetingSync "e1" none meetingEdit
        (.received false) false true)
      (meetingTrace true) (.error .ownMeeting) 0 :=
  (ObjectKind.fetchWithState_finds rfl).andThen
    (Run.bind_iff.mpr (.inl ⟨_, meeting_plan_run true, rfl⟩))

theorem writeUpdate_received_forwarded :
    forwardedTrace.length = 3 ∧
    (∀ exchange ∈ forwardedTrace, ∀ method request, exchange.request = .update method request →
      ∃ moment current own, Respects (.fixed meetingDocument) (meetingStore false) "e1" false
        forwardedTrace request moment current own) ∧
    ∃ outcome, (meetingStore true).Run 0
        (writeUpdate (.fixed meetingDocument) meetingSync "e1" none meetingEdit
          (.received false) false true) (meetingTrace true) outcome 0 ∧
      (outcome = .error .ownMeeting ∨ (∃ cause, outcome = .error (.client cause)) ∨
        outcome = .error (.notFound "e1")) := by
  refine ⟨rfl, (writeUpdate_received forwarded_run).1, _, organised_run,
    (writeUpdate_received organised_run).2 ?_⟩
  rintro moment current - value
  cases value
  obtain ⟨result, applied, changed⟩ := meeting_changed true
  exact ⟨fun _ _ => rfl, addedPatch, congrArg Except.ok (diff_meeting true),
    result, applied, _, by decide, changed⟩

theorem writeUpdate_legal_forwarded :
    ∃ moment current, guestRequest.ifInState = some ((meetingStore false).stateAt moment) ∧
      (meetingStore false).history.value moment "e1" = some current ∧
      Legal current.toJson addedPatch :=
  writeUpdate_legal forwarded_run _ (mem_of_getElem? (i := 2) rfl) _ guestRequest rfl

theorem patches_applied_forwarded : Legal (meeting false).toJson addedPatch :=
  (patches_applied (.fixed meetingDocument) (meeting false) (meeting false) meetingEdit ∅ _
    (mem_cons.mpr (.inl (diff_meeting false).symm))).1

/-- The server's `isOrigin` decides: an event without an organizer is not of this
account if the server says so, and its guests can change. -/
theorem forwarded_guests_change :
    ∃ trace outcome finish method request result,
      (meetingStore false).Run 0
        (writeUpdate (.fixed meetingDocument) meetingSync "e1" none meetingEdit
          (.received false) false true) trace outcome finish ∧
      (∃ exchange ∈ trace, exchange.request = .update method request) ∧
      (meetingStore false).history.value 0 "e1" = some (meeting false) ∧
      (meeting false).organizerCalendarAddress = none ∧
      Value.applyPatch request.patch.entries (meeting false).toJson = some result ∧
      ¬ Keeps "participants" (meeting false).toJson result := by
  obtain ⟨result, applied, changed⟩ := meeting_changed false
  exact ⟨forwardedTrace, _, _, "CalendarEvent/set", guestRequest, result, forwarded_run,
    ⟨_, mem_of_getElem? (i := 2) rfl, rfl⟩, rfl, rfl, applied, changed⟩

end EvolutionJmap.CalSync
