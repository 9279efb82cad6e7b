import EvolutionJmap.Client.Store

/-!
# Incremental changes (`jmap-client`, `changes.rs` and `limits.rs`)

`allChanges` follows the pages of `/changes`, folds what each page says about an object
into one disposition, and classifies the result.  `allChanges_run` reads a delta as what
happened to every object between the state asked from and the moment of the last page.
-/

namespace EvolutionJmap

open ChangeFeed Interaction List BTreeSet

def maxChangesPages : Nat := 1024

/-! ## The id budget -/

/-- The ids and id bytes that one sync can still keep. -/
structure IdBudget where
  (ids bytes : Nat)
  deriving DecidableEq, Repr

namespace IdBudget

def perSync : IdBudget := ⟨1000000, 64 * 1024 * 1024⟩

/-- Charge one kept id; `none` if it does not fit. -/
def charge (budget : IdBudget) (id : Id) : Option IdBudget :=
  if 1 ≤ budget.ids ∧ id.utf8ByteSize ≤ budget.bytes then
    some ⟨budget.ids - 1, budget.bytes - id.utf8ByteSize⟩
  else
    none

end IdBudget

/-- The session limits and settings that the modelled requests depend on. -/
structure Client where
  idBudget : IdBudget := .perSync
  (maxObjectsInGet maxObjectsInSet maxSizeRequest : Option Nat := none)
  /-- Octets of a request of this method that names no id. -/
  emptyRequestBytes : String → Nat := fun _ => 0

/-! ## Folding and classifying pages -/

/-- History of an object across a sync window. -/
abbrev Disposition := Marks

/-- Changes for a data type between two states. -/
structure ChangeSet where
  newState : State
  (created updated destroyed : BTreeSet Id)

namespace ChangeSet

/-- The answer for a caller that is already up to date. -/
def nothing (newState : State) : ChangeSet := ⟨newState, ∅, ∅, ∅⟩

def isEmpty (changes : ChangeSet) : Bool :=
  changes.created.isEmpty && changes.updated.isEmpty && changes.destroyed.isEmpty

def file (changes : ChangeSet) (id : Id) (disposition : Disposition) : ChangeSet :=
  match disposition.created, disposition.destroyed with
  -- discard objects created and destroyed in the same window
  | true, true => changes
  | true, false => { changes with created := BTreeSet.add changes.created id }
  | false, true => { changes with destroyed := BTreeSet.add changes.destroyed id }
  | false, false =>
    if disposition.updated then
      { changes with updated := BTreeSet.add changes.updated id }
    else
      changes

def classify (newState : State) (byId : BTreeMap Id Disposition) : ChangeSet :=
  byId.entries.foldl (fun changes entry => changes.file entry.1 entry.2) (nothing newState)

end ChangeSet

/-- The dispositions kept so far and the budget that is left. -/
structure Kept where
  byId : BTreeMap Id Disposition
  budget : IdBudget

/-- Apply `mark` to the entry for `id`. A new id is charged to the budget first. -/
def keep (typeName : String) (mark : Disposition → Disposition) (kept : Kept) (id : Id) :
    Except Error Kept :=
  match kept.byId.get? id with
  | some disposition => .ok { kept with byId := kept.byId.insert id (mark disposition) }
  | none =>
    match kept.budget.charge id with
    | some budget => .ok ⟨kept.byId.insert id (mark .none), budget⟩
    | none =>
      .error (.protocol
        s!"{typeName}/changes reports more ids than the budget for one sync")

def keepAll (typeName : String) (mark : Disposition → Disposition) :
    Kept → List Id → Except Error Kept
  | kept, [] => .ok kept
  | kept, id :: ids =>
    match keep typeName mark kept id with
    | .ok kept => keepAll typeName mark kept ids
    | .error error => .error error

def keepPage (typeName : String) (kept : Kept) (response : ChangesResponse) :
    Except Error Kept := do
  let kept ← keepAll typeName (fun marks => { marks with created := true }) kept
    response.created
  let kept ← keepAll typeName (fun marks => { marks with updated := true }) kept
    response.updated
  keepAll typeName (fun marks => { marks with destroyed := true }) kept response.destroyed

def knownTypes : List String :=
  ["Mailbox", "Email", "Thread", "AddressBook", "ContactCard", "Calendar", "CalendarEvent",
    "ParticipantIdentity", "CalendarEventNotification", "EmailSubmission", "Identity",
    "Principal", "ShareNotification", "SieveScript"]

section Programs

variable {lookups : Lookups} {Object : Type}

def changes (typeName : String) (sinceState : State) :
    ClientM lookups Object Error ChangesResponse :=
  if typeName ∈ knownTypes then
    ClientM.send (.changes typeName sinceState)
  else
    .fail (.protocol s!"no known capability for data type {typeName}")

/-- The page loop of `all_changes`, with the pages that are left. -/
def allChangesFrom (typeName : String) :
    Nat → State → Kept → ClientM lookups Object Error ChangeSet
  | 0, _, _ =>
    .fail (.protocol s!"{typeName}/changes never stopped reporting more changes")
  | pages + 1, state, kept => do
      let response ← changes typeName state
      let kept ← .ofExcept (keepPage typeName kept response)
      if response.hasMoreChanges = false then
        .done (.classify response.newState kept.byId)
      else if response.newState = state then
        .fail (.protocol
          s!"{typeName}/changes reports more changes without advancing the state")
      else
        allChangesFrom typeName pages response.newState kept

/-- Fetch and fold all changes since `sinceState` (RFC 8620 §5.2). -/
def allChanges (client : Client) (typeName : String) (sinceState : State) :
    ClientM lookups Object Error ChangeSet :=
  allChangesFrom typeName maxChangesPages sinceState ⟨∅, client.idBudget⟩

theorem allChangesFrom_sends (typeName : String) (pages : Nat) (state : State) (kept : Kept) :
    (allChangesFrom typeName pages state kept : ClientM lookups Object Error ChangeSet).Sends
      fun call => ∃ since, call = .changes typeName since := by
  induction pages generalizing state kept with
  | zero => exact trivial
  | succ pages ih =>
    apply Program.Sends.bind
    · unfold changes
      split
      · exact ClientM.sends_send ⟨state, rfl⟩
      · exact trivial
    · intro response
      apply (Program.sends_ofExcept _).bind
      intro kept
      split
      · exact trivial
      · split
        · exact trivial
        · exact ih _ _

theorem allChanges_sends (client : Client) (typeName : String) (since : State) :
    (allChanges client typeName since : ClientM lookups Object Error ChangeSet).Sends
      fun call => ∃ since, call = .changes typeName since :=
  allChangesFrom_sends typeName _ _ _

end Programs

/-! ## What a delta says -/

def Kept.marks (kept : Kept) (id : Id) : Marks := (kept.byId.get? id).getD .none

variable {typeName : String} {mark : Disposition → Disposition} {kept next : Kept}

theorem keep_marks {id : Id} (ok : keep typeName mark kept id = .ok next) (query : Id) :
    next.marks query = if query = id then mark (kept.marks id) else kept.marks query := by
  have inserted : next.byId = kept.byId.insert id (mark (kept.marks id)) := by
    unfold keep at ok
    unfold Kept.marks
    split at ok
    · next disposition found =>
      cases ok
      simp [found]
    · next found =>
      split at ok
      · cases ok
        simp [found]
      · cases ok
  simp only [Kept.marks, inserted, BTreeMap.get?_insert]
  split <;> simp

variable {ids : List Id}

theorem keepAll_marks (ok : keepAll typeName mark kept ids = .ok next)
    (idempotent : ∀ marks, mark (mark marks) = mark marks) (query : Id) :
    next.marks query = if query ∈ ids then mark (kept.marks query) else kept.marks query := by
  induction ids generalizing kept with
  | nil =>
    cases ok
    simp
  | cons id ids ih =>
    unfold keepAll at ok
    split at ok
    · next first kept' =>
      rw [ih ok, keep_marks kept' query]
      by_cases here : query = id
      · subst here
        by_cases there : query ∈ ids <;> simp [there, idempotent]
      · simp [here]
    · cases ok

variable {response : ChangesResponse}

theorem keepPage_marks (ok : keepPage typeName kept response = .ok next) (query : Id) :
    next.marks query = (kept.marks query).union (Store.marksOf response query) := by
  unfold keepPage at ok
  obtain ⟨created, createdOk, rest⟩ := exceptBind_ok.mp ok
  obtain ⟨updated, updatedOk, destroyedOk⟩ := exceptBind_ok.mp rest
  rw [keepAll_marks destroyedOk fun _ => rfl, keepAll_marks updatedOk fun _ => rfl,
    keepAll_marks createdOk fun _ => rfl]
  by_cases inCreated : query ∈ response.created <;>
    by_cases inUpdated : query ∈ response.updated <;>
      by_cases inDestroyed : query ∈ response.destroyed <;>
        simp [Marks.union, Store.marksOf, inCreated, inUpdated, inDestroyed]

/-- Filing an object adds it to the set that `accept` selects it for. -/
theorem classify_contains {select : ChangeSet → BTreeSet Id} {accept : Disposition → Prop}
    (nothing : ∀ newState, select (.nothing newState) = ∅)
    (file : ∀ changes id disposition query,
      (select (changes.file id disposition)).contains query = true ↔
        (query = id ∧ accept disposition) ∨ (select changes).contains query = true)
    (newState : State) (byId : BTreeMap Id Disposition) (query : Id) :
    (select (.classify newState byId)).contains query = true ↔
      ∃ disposition, byId.get? query = some disposition ∧ accept disposition := by
  rw [ChangeSet.classify, foldl_gathers (fun changes => (select changes).contains query = true)
    fun changes (entry : Id × Disposition) => file changes entry.1 entry.2 query, nothing]
  simp [BTreeMap.mem_entries]

section

variable {newState : State} {byId : BTreeMap Id Disposition} {id : Id}

theorem mem_classify_created : (ChangeSet.classify newState byId).created.contains id = true ↔
      ∃ disposition, byId.get? id = some disposition ∧
        disposition.created = true ∧ disposition.destroyed = false := by
  refine classify_contains (fun _ => rfl) (fun changes id disposition query => ?_) _ _ _
  unfold ChangeSet.file
  split <;> simp_all [contains_add]
  split <;> simp

theorem mem_classify_updated : (ChangeSet.classify newState byId).updated.contains id = true ↔
      ∃ disposition, byId.get? id = some disposition ∧ disposition.created = false ∧
        disposition.updated = true ∧ disposition.destroyed = false := by
  refine classify_contains (fun _ => rfl) (fun changes id disposition query => ?_) _ _ _
  unfold ChangeSet.file
  split <;> simp_all
  split <;> simp_all [contains_add]

theorem mem_classify_destroyed : (ChangeSet.classify newState byId).destroyed.contains id = true ↔
      ∃ disposition, byId.get? id = some disposition ∧
        disposition.created = false ∧ disposition.destroyed = true := by
  refine classify_contains (fun _ => rfl) (fun changes id disposition query => ?_) _ _ _
  unfold ChangeSet.file
  split <;> simp_all [contains_add]
  split <;> simp

end

theorem classify_newState (newState : State) (byId : BTreeMap Id Disposition) :
    (ChangeSet.classify newState byId).newState = newState := by
  refine foldlRecOn (motive := fun changes : ChangeSet => changes.newState = newState) _ _ rfl ?_
  intro changes same entry _
  rw [← same]
  unfold ChangeSet.file
  split <;> try rfl
  split <;> rfl

/-- The reading of a delta: from `origin` to the moment `asked`, every object got
marks that a conforming server may give, and the delta files it by them. -/
structure ChangeSet.Describes {Object : Type} {data : DataType Object} (delta : ChangeSet)
    (store : Store data)
    (origin : Id → Nat) (asked : Nat) : Prop where
  newState : delta.newState = store.stateAt asked
  origin_le : ∀ id, origin id ≤ asked
  marks : ∀ id, ∃ marks, Reports store.history id (origin id) asked marks ∧
    (delta.created.contains id = true ↔
      marks.created = true ∧ marks.destroyed = false) ∧
    (delta.updated.contains id = true ↔
      marks.created = false ∧ marks.updated = true ∧ marks.destroyed = false) ∧
    (delta.destroyed.contains id = true ↔
      marks.created = false ∧ marks.destroyed = true)

variable {origin : Id → Nat} {since state : State} {delta : ChangeSet} {error : Error}

section Runs

variable {lookups : Lookups} {Object : Type} {data : DataType Object} {store : Store data}
  {start finish : Nat} {trace : Trace lookups Object}

theorem classify_describes {asked : Nat} {newState : State}
    (current : newState = store.stateAt asked) (originLe : ∀ id, origin id ≤ asked)
    (reports : ∀ id, Reports store.history id (origin id) asked (kept.marks id)) :
    (ChangeSet.classify newState kept.byId).Describes store origin asked where
  newState := (classify_newState _ _).trans current
  origin_le := originLe
  marks id := by
    refine ⟨kept.marks id, reports id, ?_, ?_, ?_⟩
    · rw [mem_classify_created]
      cases found : kept.byId.get? id <;> simp [Kept.marks, found, Marks.none]
    · rw [mem_classify_updated]
      cases found : kept.byId.get? id <;> simp [Kept.marks, found, Marks.none]
    · rw [mem_classify_destroyed]
      cases found : kept.byId.get? id <;> simp [Kept.marks, found, Marks.none]

theorem changes_run
    (run : store.Run start (changes typeName since) trace (.ok response) finish) :
    ∃ moment, start ≤ moment ∧ moment ≤ finish ∧
      store.AnswersChanges moment since response := by
  by_cases known : typeName ∈ knownTypes
  · rw [changes, if_pos known] at run
    obtain ⟨moment, after, startLe, finishLe, ⟨rfl, answered⟩, -⟩ := Store.send_run run
    exact ⟨after, startLe, finishLe, answered⟩
  · rw [changes, if_neg known] at run
    exact run.not_failed.elim

/-- The loop keeps the marks of the window from `origin` to the state it has
reached; each page extends that window. -/
theorem allChangesFrom_run (pages : Nat) {start : Nat}
    {trace : Trace lookups Object}
    (run : store.Run start (allChangesFrom typeName pages state kept) trace
      (.ok delta) finish) (originLe : ∀ id, origin id ≤ store.cut state id)
    (reports : ∀ id, Reports store.history id (origin id) (store.cut state id) (kept.marks id)) :
    ∃ asked, start ≤ asked ∧ asked ≤ finish ∧ delta.Describes store origin asked := by
  induction pages generalizing start trace state kept with
  | zero =>
    exact run.not_failed.elim
  | succ pages ih =>
    obtain ⟨response, middle, first, second, asked, rest, -⟩ := Run.bind_ok run
    obtain ⟨next, ok, rest⟩ := Run.ofExcept_ok_bind rest
    obtain ⟨moment, startLe, momentLe, answered⟩ := changes_run asked
    have middleLe := rest.le store.monotone
    have originLe' : ∀ id, origin id ≤ store.cut response.newState id :=
      fun id => (originLe id).trans (answered.forward id)
    have reports' : ∀ id, Reports store.history id (origin id)
        (store.cut response.newState id) (next.marks id) := by
      intro id
      rw [keepPage_marks ok]
      exact (reports id).trans (originLe id) (answered.forward id) (answered.reports id)
    split at rest
    · next finished =>
      have current := answered.last finished
      cases rest.done_ok
      refine ⟨moment, startLe, momentLe.trans middleLe, ?_⟩
      apply classify_describes current
      · intro id
        simpa [current, store.cut_stateAt] using originLe' id
      · intro id
        simpa [current, store.cut_stateAt] using reports' id
    · split at rest
      · exact rest.not_failed.elim
      · obtain ⟨asked, askedGe, askedLe, describes⟩ := ih rest originLe' reports'
        exact ⟨asked, (startLe.trans momentLe).trans askedGe, askedLe, describes⟩

/-- A delta describes the window from the state it was asked from to the moment
its last page was answered. -/
theorem allChanges_run {client : Client}
    (run : store.Run start (allChanges client typeName since) trace
      (.ok delta) finish) :
    ∃ asked, start ≤ asked ∧ asked ≤ finish ∧
      delta.Describes store (store.cut since) asked :=
  allChangesFrom_run _ run (fun _ => le_rfl) fun _ => Reports.refl

/-! ## The fold does not depend on the pages -/

/-- The errors with which the client stops paging. -/
inductive GivesUp (typeName : String) : Error → Prop where
  | pageCap : GivesUp typeName
      (.protocol s!"{typeName}/changes never stopped reporting more changes")
  | idBudget : GivesUp typeName
      (.protocol s!"{typeName}/changes reports more ids than the budget for one sync")
  | noProgress : GivesUp typeName
      (.protocol s!"{typeName}/changes reports more changes without advancing the state")

/-- The delta of a window in terms of its two ends only. -/
structure ChangeSet.Folds (delta : ChangeSet) (store : Store data) (origin : Id → Nat)
    (asked : Nat) : Prop where
  newState : delta.newState = store.stateAt asked
  created : ∀ id, delta.created.contains id = true ↔
    store.history.value (origin id) id = none ∧ store.history.value asked id ≠ none
  destroyed_of_lost : ∀ id, store.history.value (origin id) id ≠ none →
    store.history.value asked id = none → delta.destroyed.contains id = true
  destroyed_absent : ∀ id, delta.destroyed.contains id = true →
    store.history.value asked id = none
  updated_of_changed : ∀ id, store.history.value (origin id) id ≠ none →
    store.history.value asked id ≠ none → store.history.Changed id (origin id) asked →
      delta.updated.contains id = true
  updated_present : ∀ id, delta.updated.contains id = true →
    store.history.value (origin id) id ≠ none ∧ store.history.value asked id ≠ none
  created_updated : ∀ id, ¬ (delta.created.contains id = true ∧ delta.updated.contains id = true)
  created_destroyed : ∀ id,
    ¬ (delta.created.contains id = true ∧ delta.destroyed.contains id = true)
  updated_destroyed : ∀ id,
    ¬ (delta.updated.contains id = true ∧ delta.destroyed.contains id = true)

theorem ChangeSet.Describes.folds {asked : Nat} (describes : delta.Describes store origin asked) :
    delta.Folds store origin asked where
  newState := describes.newState
  created id := by
    obtain ⟨marks, reports, created, -, -⟩ := describes.marks id
    rw [created]
    constructor
    · intro marked
      have ends := reports.of_created marked.1 marked.2
      exact ⟨ends.1.value, ends.2⟩
    · intro ends
      exact reports.gained (History.unborn_of_later (describes.origin_le id) ends.1 ends.2) ends.2
  destroyed_of_lost id held lost := by
    obtain ⟨marks, reports, -, -, destroyed⟩ := describes.marks id
    exact destroyed.mpr (reports.lost held lost)
  destroyed_absent id listed := by
    obtain ⟨marks, reports, -, -, destroyed⟩ := describes.marks id
    exact reports.of_destroyed (destroyed.mp listed).2
  updated_of_changed id held stays changed := by
    obtain ⟨marks, reports, -, updated, -⟩ := describes.marks id
    have kept := reports.kept held stays
    exact updated.mpr ⟨kept.1, kept.2.2 changed, kept.2.1⟩
  updated_present id listed := by
    obtain ⟨marks, reports, -, updated, -⟩ := describes.marks id
    have marked := updated.mp listed
    exact reports.of_updated marked.1 marked.2.1 marked.2.2
  created_updated id both := by
    obtain ⟨marks, -, created, updated, -⟩ := describes.marks id
    have isNew := (created.mp both.1).1
    simp [(updated.mp both.2).1] at isNew
  created_destroyed id both := by
    obtain ⟨marks, -, created, -, destroyed⟩ := describes.marks id
    have isNew := (created.mp both.1).1
    simp [(destroyed.mp both.2).1] at isNew
  updated_destroyed id both := by
    obtain ⟨marks, -, -, updated, destroyed⟩ := describes.marks id
    have stays := (updated.mp both.1).2.2
    simp [(destroyed.mp both.2).2] at stays

theorem keepAll_error (failed : keepAll typeName mark kept ids = .error error) :
    GivesUp typeName error := by
  induction ids generalizing kept with
  | nil => cases failed
  | cons id ids ih =>
    unfold keepAll at failed
    split at failed
    · exact ih failed
    · next cause kept' =>
      cases failed
      unfold keep at kept'
      split at kept'
      · cases kept'
      · split at kept'
        · cases kept'
        · cases kept'
          exact .idBudget

theorem keepPage_error (failed : keepPage typeName kept response = .error error) :
    GivesUp typeName error := by
  unfold keepPage at failed
  rcases exceptBind_error.mp failed with first | ⟨_, -, rest⟩
  · exact keepAll_error first
  · rcases exceptBind_error.mp rest with second | ⟨_, -, third⟩
    · exact keepAll_error second
    · exact keepAll_error third

theorem changes_error
    (run : store.Run start (changes typeName since) trace (.error error) finish) :
    typeName ∉ knownTypes ∨ ∃ exchange ∈ trace, exchange.answer = .error error := by
  by_cases known : typeName ∈ knownTypes
  · rw [changes, if_pos known] at run
    obtain ⟨before, after, traceEq⟩ := Store.send_trace run
    exact .inr ⟨_, traceEq ▸ mem_cons_self, rfl⟩
  · exact .inl known

theorem allChangesFrom_error (pages : Nat) {start : Nat}
    {trace : Trace lookups Object}
    (run : store.Run start (allChangesFrom typeName pages state kept) trace
      (.error error) finish) :
    GivesUp typeName error ∨ typeName ∉ knownTypes ∨
      ∃ exchange ∈ trace, exchange.answer = .error error := by
  induction pages generalizing start trace state kept with
  | zero =>
    cases (Run.fail_iff.mp run).2.1
    exact .inl .pageCap
  | succ pages ih =>
    rcases Run.bind_iff.mp run with ⟨cause, failed, same⟩ |
      ⟨response, middle, first, second, asked, rest, rfl⟩
    · cases same
      exact .inr (changes_error failed)
    · cases page : keepPage typeName kept response with
      | error cause =>
        simp only [page, Program.ofExcept_error, Program.fail_bind] at rest
        cases (Run.fail_iff.mp rest).2.1
        exact .inl (keepPage_error page)
      | ok next =>
        simp only [page, Program.ofExcept_ok, Program.done_bind] at rest
        split at rest
        · cases (Run.done_iff.mp rest).2.1
        · split at rest
          · cases (Run.fail_iff.mp rest).2.1
            exact .inl .noProgress
          · rcases ih rest with gaveUp | unknown | ⟨exchange, mem, answered⟩
            · exact .inl gaveUp
            · exact .inr (.inl unknown)
            · exact .inr (.inr ⟨exchange, mem_append_right _ mem, answered⟩)

/-- However a server splits and folds its changes, `allChanges` gives the same
delta up to what RFC 8620 §5.2 leaves open, unless it gives up or a request
fails. -/
theorem allChanges_folds {client : Client} {typeName : String} {since : State}
    {outcome : Except Error ChangeSet}
    (run : store.Run start (allChanges client typeName since) trace
      outcome finish) :
    match outcome with
    | .ok delta => ∃ asked, start ≤ asked ∧ asked ≤ finish ∧
        delta.Folds store (store.cut since) asked
    | .error error => GivesUp typeName error ∨ typeName ∉ knownTypes ∨
        ∃ exchange ∈ trace, exchange.answer = .error error := by
  cases outcome with
  | error error => exact allChangesFrom_error _ run
  | ok delta =>
    obtain ⟨asked, startLe, finishLe, describes⟩ := allChanges_run run
    exact ⟨asked, startLe, finishLe, describes.folds⟩

def counters : DataType Nat := ⟨fun _ => some "a", fun _ => none⟩

def counterStore : Store counters :=
  .ofLives counters [("a", ⟨1, none, id⟩)] (by simp)
    (by simp [counters]) fun _ _ _ => False

def counterTrace : Trace .none Nat :=
  [⟨2, .changes "Email" "", .ok ⟨"x", true, ["a"], [], []⟩, 2⟩,
    ⟨2, .changes "Email" "x", .ok ⟨"xx", false, [], ["a"], []⟩, 2⟩]

theorem counter_run :
    Run (counterStore.service .none) 0 (allChanges {} "Email" "") counterTrace
      (.ok ⟨"xx", .add ∅ "a", ∅, ∅⟩) 2 := by
  refine .move rfl (.move rfl (.call ⟨rfl, ?_⟩ (.call ⟨rfl, ?_⟩ .done)))
  · apply Store.ofLives_answersChanges <;> decide
  · apply Store.ofLives_answersChanges <;> decide

theorem allChanges_folds_counter :
    ∃ asked, 0 ≤ asked ∧ asked ≤ 2 ∧
      (⟨"xx", .add ∅ "a", ∅, ∅⟩ : ChangeSet).Folds counterStore (counterStore.cut "") asked :=
  allChanges_folds counter_run

end Runs

end EvolutionJmap
