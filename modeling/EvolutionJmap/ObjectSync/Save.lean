import EvolutionJmap.ObjectSync.Basic

/-!
# One guarded update (`write_update`)

Both backends save an edit in the same way: read the object with its state, compute a
patch against it, send the patch guarded by that state, and after a `stateMismatch` do
all of it once more.  `Saving` holds what they do differently.

A request that the server carries out patches the version that the patch was computed
against, whatever other clients do in the meantime.
-/

namespace EvolutionJmap

open ChangeFeed Interaction List

def expectUpdated (response : UpdateResponse) (id : Id) : Except Error Unit :=
  if id ∈ response.updated then
    .ok ()
  else
    match response.notUpdated.lookup id with
    | some error => .error (.set error)
    | none => .error (.protocol s!"/set response reports neither success nor failure for {id}")

/-- What a backend does around the update of one object. -/
structure Saving (lookups : Lookups) (Object ε Item : Type) where
  ofClient : Error → ε
  notFound : String → ε
  /-- The patch against the server's copy, and whether the server is asked to
  send scheduling messages. -/
  plan : Object → ClientM lookups Object ε (Patch × Option Bool)
  /-- What is done to a patch before it is sent. -/
  complete : Patch → ClientM lookups Object ε Patch
  /-- What an update that failed is reported as. -/
  refused : Error → Option Bool → ε
  render : Object → ClientM lookups Object ε Item

namespace ObjectKind

variable {Object Item ε : Type} {lookups : Lookups} (kind : ObjectKind Object)

def fetchWithState (ofClient : Error → ε) (notFound : String → ε) (client : Client)
    (uid : Id) : ClientM lookups Object ε (Object × State) := do
  let response ← (kind.get client [uid]).mapError ofClient
  match response.list with
  | object :: _ => .done (object, response.state)
  | [] => .fail (notFound uid)

def load (saving : Saving lookups Object ε Item) (client : Client) (uid : Id) :
    ClientM lookups Object ε Item := do
  let (object, _) ← kind.fetchWithState saving.ofClient saving.notFound client uid
  saving.render object

def sendUpdate (request : UpdateRequest) : ClientM lookups Object Error Unit := do
  let response ← ClientM.send (.update s!"{kind.typeName}/set" request)
  .ofExcept (expectUpdated response request.id)

/-- Compute and send the update for `uid`. `again` is what follows a
`stateMismatch`, if it does not end the save. -/
def writeUpdateOr (saving : Saving lookups Object ε Item) (client : Client) (uid : Id)
    (again : Option (ClientM lookups Object ε Item)) : ClientM lookups Object ε Item := do
  let (current, state) ← kind.fetchWithState saving.ofClient saving.notFound client uid
  let (planned, schedule) ← saving.plan current
  if planned.isEmpty then
    saving.render current
  else
    let patch ← saving.complete planned
    let outcome ← (kind.sendUpdate ⟨uid, patch, some state, schedule⟩).attempt
    match outcome, again with
    | .ok (), _ => kind.load saving client uid
    | .error error, some again =>
      if error.isStateMismatch then again else .fail (saving.refused error schedule)
    | .error error, none => .fail (saving.refused error schedule)

/-- Compute and send the update for `uid`, guarded by `ifInState`. After a
mismatch the object is read again and the patch is computed again, once. -/
def writeUpdate (saving : Saving lookups Object ε Item) (client : Client) (uid : Id)
    (retry : Bool) : ClientM lookups Object ε Item :=
  match retry with
  | false => kind.writeUpdateOr saving client uid none
  | true => kind.writeUpdateOr saving client uid (some (kind.writeUpdateOr saving client uid none))

end ObjectKind

/-! ## The programs send one kind of update -/

/-- A `/set`. -/
def Call.isUpdate {lookups : Lookups} : Call lookups → Bool
  | .update _ _ => true
  | _ => false

/-- A call that changes nothing on the server. -/
def NoUpdate {lookups : Lookups} (call : Call lookups) : Prop := call.isUpdate = false

section Quiet

variable {Object Item ε : Type} {lookups : Lookups}

/-- The backend's own steps change nothing on the server. -/
structure Saving.Quiet (saving : Saving lookups Object ε Item) : Prop where
  plan : ∀ object, (saving.plan object).Sends NoUpdate
  complete : ∀ patch, (saving.complete patch).Sends NoUpdate
  render : ∀ object, (saving.render object).Sends NoUpdate

variable {kind : ObjectKind Object} {saving : Saving lookups Object ε Item}

theorem ObjectKind.fetchWithState_quiet (ofClient : Error → ε) (notFound : String → ε)
    (client : Client) (uid : Id) :
    (kind.fetchWithState ofClient notFound client uid :
      ClientM lookups Object ε (Object × State)).Sends NoUpdate := by
  apply Program.Sends.bind
  · apply Program.Sends.mapError
    apply (getChunked_sends client _ kind.id [uid]).mono
    rintro _ ⟨ids, rfl⟩
    rfl
  · intro response
    split
    · exact trivial
    · exact trivial

theorem ObjectKind.load_quiet (quiet : saving.Quiet) (client : Client) (uid : Id) :
    (kind.load saving client uid).Sends NoUpdate :=
  (fetchWithState_quiet _ _ client uid).bind fun fetched => quiet.render fetched.1

end Quiet

variable {request : UpdateRequest} {retry : Bool}

section Runs

variable {Object Item ε : Type} {lookups : Lookups} {kind : ObjectKind Object}
  {store : Store kind.toDataType} {saving : Saving lookups Object ε Item} {client : Client}
  {uid : Id} {start finish : Nat} {trace : Trace lookups Object}

theorem ObjectKind.fetchWithState_run {current : Object} {state : State}
    (run : store.Run start
      (kind.fetchWithState saving.ofClient saving.notFound client uid) trace
      (.ok (current, state)) finish) :
    ∃ moment, readsOf trace = [(uid, moment)] ∧ state = store.stateAt moment ∧
      store.history.value moment uid = some current := by
  obtain ⟨response, _, _, second, got, rest, rfl⟩ := Run.bind_ok run
  obtain ⟨moment, -, -, isRead, stateEq, reads⟩ := getChunked_single got.mapError_ok le_rfl
  split at rest
  · next object others listed =>
    obtain ⟨rfl, outcome, -⟩ := Run.done_iff.mp rest
    cases outcome
    have mem : current ∈ response.list := by simp [listed]
    obtain ⟨read, readIn, value⟩ := (reads.list current).mp mem
    rw [map_singleton, mem_singleton] at readIn
    subst readIn
    exact ⟨moment, by rwa [append_nil], stateEq, value⟩
  · exact rest.not_failed.elim

section

variable {current : Object} (value : store.history.value start uid = some current)

include value

theorem ObjectKind.get_finds :
    Run (store.service lookups) start (kind.get {} [uid])
      [⟨start, .get s!"{kind.typeName}/get" [uid], .ok ⟨store.stateAt start, [current], []⟩, start⟩]
      (.ok ⟨store.stateAt start, [current], []⟩) start := by
  have requested : keepRequested [uid] kind.id false [current] = [current] := by
    rw [keepRequested_mem]
    intro object mem
    rw [mem_singleton.mp mem]
    exact ⟨uid, mem_singleton_self _, store.id_eq value⟩
  have answered : store.AnswersGet start [uid] ⟨store.stateAt start, [current], []⟩ := by
    refine ⟨rfl, fun object => ?_, fun id => ?_⟩
    · simp [value, eq_comm]
    · simp only [not_mem_nil, mem_singleton, false_iff, not_and]
      rintro rfl
      simp [value]
  rw [get, getChunked_unlimited]
  refine .call ⟨rfl, answered⟩ ?_
  simp only [Program.ofExcept, Program.bind, requested]
  exact .done

theorem ObjectKind.fetchWithState_finds :
    Run (store.service lookups) start
      (kind.fetchWithState saving.ofClient saving.notFound {} uid)
      [⟨start, .get s!"{kind.typeName}/get" [uid], .ok ⟨store.stateAt start, [current], []⟩, start⟩]
      (.ok (current, store.stateAt start)) start :=
  (Run.mapError_iff.mpr ⟨_, rfl, get_finds value⟩).andThen .done

end

theorem ObjectKind.fetchWithState_error {error : ε}
    (run : store.Run start
      (kind.fetchWithState saving.ofClient saving.notFound client uid) trace (.error error)
      finish) :
    (∃ cause, error = saving.ofClient cause) ∨ error = saving.notFound uid := by
  rcases Run.bind_iff.mp run with ⟨failure, failed, same⟩ | ⟨response, _, _, _, -, rest, -⟩
  · cases same
    exact .inl failed.mapError_error
  · split at rest
    · have impossible := (Run.done_iff.mp rest).2.1
      cases impossible
    · have outcome := (Run.fail_iff.mp rest).2.1
      cases outcome
      exact .inr rfl

/-- During `trace`, the program was run with this outcome. -/
def During {α : Type} (store : Store kind.toDataType) (trace : Trace lookups Object)
    (program : ClientM lookups Object ε α) (outcome : Except ε α) : Prop :=
  ∃ before part after, part ⊆ trace ∧
    store.Run before program part outcome after

/-- During `trace`, the patch of `request` was computed against `current`. -/
def Saving.Computes (saving : Saving lookups Object ε Item) (store : Store kind.toDataType)
    (trace : Trace lookups Object) (current : Object)
    (request : UpdateRequest) : Prop :=
  ∃ planned : Patch, planned.isEmpty = false ∧
    During store trace (saving.plan current) (.ok (planned, request.sendSchedulingMessages)) ∧
    During store trace (saving.complete planned) (.ok request.patch)

/-- The request's guard names the moment at which the patched object was read. -/
structure Saving.Guarded (saving : Saving lookups Object ε Item)
    (store : Store kind.toDataType) (uid : Id)
    (trace : Trace lookups Object)
    (request : UpdateRequest) : Prop where
  id : request.id = uid
  version : ∃ moment current, request.ifInState = some (store.stateAt moment) ∧
    store.history.value moment uid = some current ∧ saving.Computes store trace current request

/-- What is known of an exchange of a save: if it is an update, it is guarded. -/
def Saving.Safe (saving : Saving lookups Object ε Item) (store : Store kind.toDataType)
    (uid : Id) (trace : Trace lookups Object)
    (exchange : Exchange (Call lookups) (Call.Answer Object) Nat) : Prop :=
  ∀ method request, exchange.request = .update method request →
    saving.Guarded store uid trace request

theorem Saving.Safe.of_quiet {α δ : Type} {program : ClientM lookups Object δ α}
    {whole : Trace lookups Object} {outcome : Except δ α}
    (sends : program.Sends NoUpdate)
    (run : store.Run start program trace outcome finish) :
    ∀ exchange ∈ trace, saving.Safe store uid whole exchange := by
  intro exchange mem method request isUpdate
  have quiet := run.sends sends mem
  rw [isUpdate] at quiet
  cases quiet

theorem ObjectKind.sendUpdate_sends (request : UpdateRequest) :
    (kind.sendUpdate request : ClientM lookups Object Error Unit).Sends
      fun call => ∃ method, call = .update method request :=
  (ClientM.sends_send ⟨_, rfl⟩).bind fun _ => Program.sends_ofExcept _

theorem ObjectKind.writeUpdateOr_safe (quiet : saving.Quiet)
    {again : Option (ClientM lookups Object ε Item)} {outcome : Except ε Item}
    {whole : Trace lookups Object}
    (againSafe : ∀ program ∈ again, ∀ {start trace}, trace ⊆ whole →
      store.Run start program trace outcome finish →
        ∀ exchange ∈ trace, saving.Safe store uid whole exchange)
    (within : trace ⊆ whole)
    (run : store.Run start (kind.writeUpdateOr saving client uid again) trace
      outcome finish) :
    ∀ exchange ∈ trace, saving.Safe store uid whole exchange := by
  apply run.bind_forall (Saving.Safe.of_quiet (fetchWithState_quiet _ _ _ _))
  rintro _ rest ⟨current, state⟩ middle fetched run - sub
  have within := List.Subset.trans sub within
  obtain ⟨moment, -, rfl, value⟩ := fetchWithState_run fetched
  apply run.bind_forall (Saving.Safe.of_quiet (quiet.plan current))
  rintro _ rest ⟨planned, schedule⟩ _ ran run planSub sub
  have planWithin := List.Subset.trans planSub within
  have within := List.Subset.trans sub within
  dsimp only at run
  split at run
  · exact Saving.Safe.of_quiet (quiet.render current) run
  · next changes =>
    apply run.bind_forall (Saving.Safe.of_quiet (quiet.complete planned))
    intro _ rest patch _ completed run completeSub sub
    have completeWithin := List.Subset.trans completeSub within
    have within := List.Subset.trans sub within
    refine run.bind_forall ?_ ?_
    · intro part sent _ attempted exchange mem method request isUpdate
      obtain ⟨inner, -, sending⟩ := Run.attempt_iff.mp attempted
      obtain ⟨_, same⟩ := sending.sends (sendUpdate_sends _) mem
      rw [isUpdate] at same
      cases same
      exact ⟨rfl, moment, current, rfl, value, planned, by simpa using changes,
        ⟨_, _, _, planWithin, ran⟩, ⟨_, _, _, completeWithin, completed⟩⟩
    · intro _ rest sent _ _ run _ sub
      have within := List.Subset.trans sub within
      split at run
      · exact Saving.Safe.of_quiet (load_quiet quiet client uid) run
      · split at run
        · exact againSafe _ rfl within run
        · exact Saving.Safe.of_quiet (Program.sends_ofExcept (.error _)) run
      · exact Saving.Safe.of_quiet (Program.sends_ofExcept (.error _)) run

/-- Every update that a save sends is guarded by the state of the version that its
patch was computed against, also after a mismatch. -/
theorem ObjectKind.writeUpdate_safe (quiet : saving.Quiet) {outcome : Except ε Item}
    (run : store.Run start (kind.writeUpdate saving client uid retry) trace
      outcome finish) : ∀ exchange ∈ trace, saving.Safe store uid trace exchange := by
  cases retry with
  | false => exact writeUpdateOr_safe quiet (by simp) (List.Subset.refl _) run
  | true =>
    apply writeUpdateOr_safe quiet _ (List.Subset.refl _) run
    intro program isAgain start trace within run
    cases isAgain
    exact writeUpdateOr_safe quiet (by simp) within run

/-- A save that cannot plan against the version that it reads first fails. -/
theorem ObjectKind.writeUpdate_planFails {outcome : Except ε Item} (failure : ε → Prop)
    (run : store.Run start (kind.writeUpdate saving client uid retry) trace
      outcome finish)
    (fails : ∀ {moment current before part planned after},
      (readsOf trace).head? = some (uid, moment) →
      store.history.value moment uid = some current → part ⊆ trace →
      store.Run before (saving.plan current) part planned after →
        ∃ error, planned = .error error ∧ failure error) :
    ∃ error, outcome = .error error ∧
      (failure error ∨ (∃ cause, error = saving.ofClient cause) ∨ error = saving.notFound uid) := by
  have once : ∀ again, store.Run start
      (kind.writeUpdateOr saving client uid again) trace outcome finish →
      ∃ error, outcome = .error error ∧ (failure error ∨
        (∃ cause, error = saving.ofClient cause) ∨ error = saving.notFound uid) := by
    intro again run
    rcases Run.bind_iff.mp run with
      ⟨error, failed, same⟩ | ⟨⟨current, state⟩, middle, first, second, fetched, rest, traceEq⟩
    · exact ⟨error, same, .inr (fetchWithState_error failed)⟩
    · obtain ⟨moment, isRead, -, value⟩ := fetchWithState_run fetched
      have isFirst : (readsOf trace).head? = some (uid, moment) := by
        rw [traceEq, readsOf_append, isRead]
        rfl
      have within : second ⊆ trace := traceEq ▸ subset_append_right _ _
      rcases Run.bind_iff.mp rest with
        ⟨error, failed, same⟩ | ⟨planned, _, part, _, ran, -, partEq⟩
      · obtain ⟨_, isError, isFailure⟩ := fails isFirst value within failed
        cases isError
        exact ⟨error, same, .inl isFailure⟩
      · have partWithin : part ⊆ trace :=
          List.Subset.trans (partEq ▸ subset_append_left _ _) within
        obtain ⟨_, isError, -⟩ := fails isFirst value partWithin ran
        cases isError
  cases retry with
  | false => exact once _ run
  | true => exact once _ run

/-! ## Updates that the server reports -/

theorem expectUpdated_ok {response : UpdateResponse} {id : Id}
    (ok : expectUpdated response id = .ok ()) : id ∈ response.updated := by
  unfold expectUpdated at ok
  split at ok
  · assumption
  · split at ok <;> cases ok

/-- The trace holds an update that the server reports as carried out. -/
def Reported (trace : Trace lookups Object) : Prop :=
  ∃ before method request response after,
    ⟨before, .update method request, .ok response, after⟩ ∈ trace ∧
      request.id ∈ response.updated

theorem Reported.mono {whole : Trace lookups Object} (reported : Reported trace)
    (within : trace ⊆ whole) : Reported whole := by
  obtain ⟨before, method, request, response, after, mem, updated⟩ := reported
  exact ⟨before, method, request, response, after, within mem, updated⟩

theorem ObjectKind.sendUpdate_reported
    (run : store.Run start (kind.sendUpdate request) trace (.ok ()) finish) :
    Reported trace := by
  obtain ⟨response, middle, first, second, sent, checked, rfl⟩ := Run.bind_ok run
  obtain ⟨moment, after, -, -, -, rfl⟩ := Store.send_run sent
  have ok : expectUpdated response request.id = .ok () := by
    generalize expectUpdated response request.id = result at checked
    cases result with
    | ok => rfl
    | error error =>
      exact checked.not_failed.elim
  exact ⟨moment, _, request, response, after, mem_cons_self, expectUpdated_ok ok⟩

/-- The save read a version that it has nothing to change in: the patch against it is
empty. -/
def Saving.Settled (saving : Saving lookups Object ε Item) (store : Store kind.toDataType)
    (uid : Id) (trace : Trace lookups Object) : Prop :=
  ∃ (moment : Nat) (current : Object) (planned : Patch) (schedule : Option Bool),
    (uid, moment) ∈ readsOf trace ∧ store.history.value moment uid = some current ∧
    planned.isEmpty = true ∧ During store trace (saving.plan current) (.ok (planned, schedule))

theorem ObjectKind.writeUpdateOr_ok {again : Option (ClientM lookups Object ε Item)}
    {item : Item} {whole : Trace lookups Object}
    (againOk : ∀ program ∈ again, ∀ {start trace}, trace ⊆ whole →
      store.Run start program trace (.ok item) finish →
        Reported whole ∨ saving.Settled store uid whole)
    (within : trace ⊆ whole)
    (run : store.Run start (kind.writeUpdateOr saving client uid again) trace
      (.ok item) finish) :
    Reported whole ∨ saving.Settled store uid whole := by
  obtain ⟨⟨current, state⟩, _, _, _, fetched, afterFetch, rfl⟩ := Run.bind_ok run
  obtain ⟨moment, isRead, -, value⟩ := fetchWithState_run fetched
  obtain ⟨⟨planned, schedule⟩, _, _, _, ran, afterPlan, rfl⟩ := Run.bind_ok afterFetch
  obtain ⟨fetchWithin, within⟩ := append_subset.mp within
  obtain ⟨planWithin, within⟩ := append_subset.mp within
  dsimp only at afterPlan
  split at afterPlan
  · next nothing =>
    have mem : (uid, moment) ∈ readsOf _ := isRead ▸ mem_singleton_self _
    obtain ⟨exchange, inFetch, isRead⟩ := mem_flatMap.mp mem
    exact .inr ⟨moment, current, planned, schedule,
      mem_flatMap.mpr ⟨exchange, fetchWithin inFetch, isRead⟩, value, nothing, _, _, _,
        planWithin, ran⟩
  · obtain ⟨patch, _, _, _, -, toSend, rfl⟩ := Run.bind_ok afterPlan
    obtain ⟨_, _, _, _, attempted, afterSend, rfl⟩ := Run.bind_ok toSend
    obtain ⟨sendWithin, againWithin⟩ := append_subset.mp (append_subset.mp within).2
    obtain ⟨sent, sentEq, sending⟩ := Run.attempt_iff.mp attempted
    cases sentEq
    split at afterSend
    · exact .inl ((sendUpdate_reported sending).mono sendWithin)
    · split at afterSend
      · exact againOk _ rfl againWithin afterSend
      · exact afterSend.not_failed.elim
    · exact afterSend.not_failed.elim

theorem ObjectKind.writeUpdate_ok {item : Item}
    (run : store.Run start (kind.writeUpdate saving client uid retry) trace
      (.ok item) finish) : Reported trace ∨ saving.Settled store uid trace := by
  cases retry with
  | false => exact writeUpdateOr_ok (by simp) (List.Subset.refl _) run
  | true =>
    apply writeUpdateOr_ok _ (List.Subset.refl _) run
    intro program isAgain start trace within run
    cases isAgain
    exact writeUpdateOr_ok (by simp) within run

/-! ## No lost update -/

/-- The server answered without carrying the update out. After a lost connection
the client cannot know, so such an error is no refusal. -/
def Refused (uid : Id) : Except Error UpdateResponse → Prop
  | .ok response => uid ∉ response.updated
  | .error error => ¬ Store.Lost error

/-- The update changed just the version that its patch was computed against. -/
structure Saving.Replaces (saving : Saving lookups Object ε Item)
    (store : Store kind.toDataType) (uid : Id)
    (trace : Trace lookups Object) (moment : Nat)
    (request : UpdateRequest) : Prop where
  id : request.id = uid
  version : ∃ current, store.history.value moment uid = some current ∧
    saving.Computes store trace current request
  applied : store.Applied moment request

/-- What a save does under every interleaving. -/
structure Saving.NoLostUpdate (saving : Saving lookups Object ε Item)
    (store : Store kind.toDataType) (uid : Id) (trace : Trace lookups Object)
    (outcome : Except ε Item) : Prop where
  /-- An update that changed anything replaced the version it was computed
  against. -/
  replaces : ∀ {before method request answer after},
    ⟨before, .update method request, answer, after⟩ ∈ trace → after ≠ before →
      after = before + 1 ∧ saving.Replaces store uid trace before request
  /-- A refused update changed nothing. -/
  refused : ∀ {before method request answer after},
    ⟨before, .update method request, answer, after⟩ ∈ trace → Refused uid answer →
      after = before
  /-- A save that succeeds had an update carried out, unless it read a version in which
  there is nothing to change. -/
  succeeds : ∀ item, outcome = .ok item →
    (∃ before method request answer, ⟨before, .update method request, answer, before + 1⟩ ∈ trace ∧
      saving.Replaces store uid trace before request) ∨
    saving.Settled store uid trace

theorem Saving.Guarded.replaces {before : Nat} (guarded : saving.Guarded store uid trace request)
    (inState : ∀ state, request.ifInState = some state → state = store.stateAt before)
    (applied : store.Applied before request) : saving.Replaces store uid trace before request := by
  obtain ⟨moment, current, guard, value, computes⟩ := guarded.version
  have same : moment = before := by
    have states := inState _ guard
    rw [← store.cut_stateAt moment uid, states, store.cut_stateAt]
  subst same
  exact ⟨guarded.id, ⟨current, value, computes⟩, applied⟩

theorem ObjectKind.writeUpdate_noLostUpdate (quiet : saving.Quiet) {outcome : Except ε Item}
    (run : store.Run start (kind.writeUpdate saving client uid retry) trace
      outcome finish) : saving.NoLostUpdate store uid trace outcome := by
  have answered : ∀ {before method request answer after},
      ⟨before, .update method request, answer, after⟩ ∈ trace →
        saving.Guarded store uid trace request ∧ store.AnswersUpdate before request answer after :=
    fun mem => ⟨writeUpdate_safe quiet run _ mem _ _ rfl,
      (run.mem_trace store.monotone mem).2.2⟩
  constructor
  · intro before method request answer after mem changed
    obtain ⟨guarded, served⟩ := answered mem
    cases answer with
    | ok response =>
      rcases served with ⟨afterEq, -, inState, applied⟩ | ⟨unchanged, -⟩
      · exact ⟨afterEq, guarded.replaces inState applied⟩
      · exact absurd unchanged changed
    | error error =>
      rcases served with unchanged | ⟨afterEq, -, inState, applied⟩
      · exact absurd unchanged changed
      · exact ⟨afterEq, guarded.replaces inState applied⟩
  · intro before method request answer after mem refused
    obtain ⟨guarded, served⟩ := answered mem
    cases answer with
    | ok response =>
      rcases served with ⟨-, updated, -⟩ | ⟨unchanged, -⟩
      · rw [guarded.id] at updated
        exact absurd updated refused
      · exact unchanged
    | error error =>
      rcases served with unchanged | ⟨-, lost, -⟩
      · exact unchanged
      · exact absurd lost refused
  · intro item isOk
    subst isOk
    rcases writeUpdate_ok run with
      ⟨before, method, request, response, after, mem, updated⟩ | settled
    · left
      obtain ⟨guarded, served⟩ := answered mem
      rcases served with ⟨afterEq, -, inState, applied⟩ | ⟨-, notUpdated⟩
      · subst afterEq
        exact ⟨before, method, request, _, mem, guarded.replaces inState applied⟩
      · exact absurd updated notUpdated
    · exact .inr settled

end Runs

end EvolutionJmap
