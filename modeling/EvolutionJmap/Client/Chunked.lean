import EvolutionJmap.Client.Partition

/-!
# Sending a `/set` request in chunks (`jmap-client`, `set.rs`)

The chunks go to the server one after the other, each with the ids of the creates before
it and the state that the last answer left.  An item that names a create that failed is
not sent; the client reports it as failed itself.

`executeChunk` is the call of the server, with the state of the world, and `order` the
iteration order of the hash set with the references of an item.
-/

namespace EvolutionJmap.Chunked

open EvolutionJmap.Partition List BTreeMap

variable {Object World : Type}

/-- What is known between two chunks. -/
structure Progress (Object : Type) where
  merged : SetResponse Object
  applied : Bool := false
  createdIds : BTreeMap Id Id := ∅
  failedCreates : List String := []
  currentState : Option State

/-- Store an entry in a map that can be absent. -/
def insertInto {K V : Type} [LinearOrder K] (map : Option (BTreeMap K V)) (key : K) (value : V) :
    Option (BTreeMap K V) :=
  some ((map.getD ∅).insert key value)

/-- Store the entries of a map that can be absent. -/
def extendWith {K V : Type} [LinearOrder K] (map more : Option (BTreeMap K V)) :
    Option (BTreeMap K V) :=
  match more with
  | some more => some ((map.getD ∅).extend more)
  | none => map

def referenceFailed (target : String) : SetError where
  errorType := "invalidProperties"
  description := some ("creation reference #" ++ target ++ " failed in earlier chunk")
  properties := none

def unresolved (creationId : String) : Error :=
  .chunkBoundaryReferenceBroken creationId
    ("creation reference #" ++ creationId ++ " was not resolved before chunk boundary")

variable {entries : List (Id × Value)}

section Prepare

variable (toValue : Object → Except Error Value) (order : String → List String → List String)
  (candidates : List String)

def createReferences (chunk : SetChunk Object) : Except Error (List (String × List String)) :=
  chunk.create.entries.mapM fun entry => do
    let value ← toValue entry.2
    pure (entry.1, findCreationReferences value candidates)

def referencesOf (references : List (String × List String)) (cid : String) : List String :=
  order cid ((Entries.get? cid references).getD [])

/-- The failed creates and their errors, after one create is looked at. -/
def propagateAt (references : List (String × List String))
    (state : List String × Option (BTreeMap String SetError)) (cid : String) :
    List String × Option (BTreeMap String SetError) :=
  if cid ∈ state.1 then state
  else
    match (referencesOf order references cid).find? fun target => decide (target ∈ state.1) with
    | some failed => (cid :: state.1, insertInto state.2 cid (referenceFailed failed))
    | none => state

/-- Look at all creates of the chunk until no more of them fail. -/
def propagate (references : List (String × List String)) :
    Nat → List String × Option (BTreeMap String SetError) →
      List String × Option (BTreeMap String SetError)
  | 0, state => state
  | rounds + 1, state =>
    let next := (references.map Prod.fst).foldl (propagateAt order references) state
    if next.1.length = state.1.length then next else propagate references rounds next

/-- Send an update, or note the error of one that refers to a create that failed. A failure
comes with the notes so far. -/
def readyUpdate (failed : List String) (known : String → Bool)
    (ready : BTreeMap Id Value × Option (BTreeMap Id SetError)) (entry : Id × Value) :
    Except (Error × Option (BTreeMap Id SetError))
      (BTreeMap Id Value × Option (BTreeMap Id SetError)) :=
  let references := order entry.1 (findCreationReferences entry.2 candidates)
  match references.find? fun target => decide (target ∈ failed) with
  | some target => .ok (ready.1, insertInto ready.2 entry.1 (referenceFailed target))
  | none =>
    match references.find? fun target => !known target with
    | some target => .error (unresolved target, ready.2)
    | none => .ok (ready.1.insert entry.1 entry.2, ready.2)

def readyUpdates (failed : List String) (known : String → Bool)
    (notUpdated : Option (BTreeMap Id SetError)) (updates : BTreeMap Id Value) :
    Except (Error × Option (BTreeMap Id SetError))
      (BTreeMap Id Value × Option (BTreeMap Id SetError)) :=
  updates.entries.foldlM (readyUpdate order candidates failed known) (∅, notUpdated)

/-- What is sent of a chunk. A failure comes with the response as it is merged so far. -/
def prepare (progress : Progress Object) (chunk : SetChunk Object) :
    Except (Error × SetResponse Object) (Progress Object × SetChunk Object) := do
  let references ← (createReferences toValue candidates chunk).mapError (·, progress.merged)
  let (failed, notCreated) := propagate order references (references.length + 1)
    (progress.failedCreates, progress.merged.notCreated)
  let create := chunk.create.retain fun cid _ => decide (cid ∉ failed)
  let known := fun target => progress.createdIds.contains target || create.contains target
  match create.entries.findSome? fun entry =>
      (referencesOf order references entry.1).find? fun target => !known target with
  | some target => .error (unresolved target, { progress.merged with notCreated := notCreated })
  | none => do
      let (update, notUpdated) ←
        (readyUpdates order candidates failed known progress.merged.notUpdated
          chunk.update).mapError
          fun (error, notUpdated) =>
            (error, { progress.merged with notCreated := notCreated, notUpdated := notUpdated })
      .ok ({ progress with
          failedCreates := failed
          merged := { progress.merged with notCreated := notCreated, notUpdated := notUpdated } },
        { create := create, update := update, destroy := chunk.destroy })

end Prepare

def mergeCreated (toValue : Object → Except Error Value) (progress : Progress Object)
    (entry : String × Object) : Except (Error × SetResponse Object) (Progress Object) := do
  let value ← (toValue entry.2).mapError (·, progress.merged)
  .ok { progress with
    createdIds :=
      match (value.get? "id").bind Value.asStr with
      | some id => progress.createdIds.insert entry.1 id
      | none => progress.createdIds
    merged := { progress.merged with
      created := insertInto progress.merged.created entry.1 entry.2 } }

def mergeStates (progress : Progress Object) (response : SetResponse Object) :
    Progress Object :=
  { progress with
    currentState := response.newState.or progress.currentState
    merged := { progress.merged with
      oldState := progress.merged.oldState.or response.oldState
      newState := response.newState.or progress.merged.newState } }

/-- Note the failed creates, the updates and the destroys of an answer. -/
def mergeOthers (progress : Progress Object) (response : SetResponse Object) :
    Progress Object :=
  { progress with
    failedCreates := (response.notCreated.getD ∅).keys ++ progress.failedCreates
    merged := { progress.merged with
      notCreated := extendWith progress.merged.notCreated response.notCreated
      updated := extendWith progress.merged.updated response.updated
      notUpdated := extendWith progress.merged.notUpdated response.notUpdated
      destroyed := response.destroyed.elim progress.merged.destroyed fun destroyed =>
        some (progress.merged.destroyed.getD [] ++ destroyed)
      notDestroyed := extendWith progress.merged.notDestroyed response.notDestroyed } }

def merge (toValue : Object → Except Error Value) (progress : Progress Object)
    (response : SetResponse Object) : Except (Error × SetResponse Object) (Progress Object) := do
  let progress ← (response.created.getD ∅).entries.foldlM (mergeCreated toValue)
    (mergeStates progress response)
  .ok (mergeOthers progress response)

def ifAny {K V : Type} [LinearOrder K] (map : BTreeMap K V) : Option (BTreeMap K V) :=
  if map.isEmpty then none else some map

def chunkRequest (accountId : Id) (state : Option State) (chunk : SetChunk Object) :
    SetRequest Object where
  accountId := accountId
  ifInState := state
  create := ifAny chunk.create
  update := ifAny chunk.update
  destroy := if chunk.destroy.isEmpty then none else some chunk.destroy

section Send

variable (toValue : Object → Except Error Value) (order : String → List String → List String)
  (executeChunk : SetRequest Object → BTreeMap Id Id → World →
    Except Error (SetResponse Object) × World)

/-- The outcome of some chunks: what is known after them, or the error with the merged
response, and whether the server answered any chunk. -/
inductive Sent (Object : Type) where
  | ok (progress : Progress Object)
  | failed (failure : Error × SetResponse Object) (applied : Bool)

def Sent.of (applied : Bool) :
    Except (Error × SetResponse Object) (Progress Object) → Sent Object
  | .ok progress => .ok progress
  | .error failure => .failed failure applied

def sendChunk (request : SetRequest Object) (progress : Progress Object)
    (chunk : SetChunk Object) (world : World) : Sent Object × World :=
  match prepare toValue order (request.create.getD ∅).keys progress chunk with
  | .error failure => (.failed failure progress.applied, world)
  | .ok (progress, ready) =>
    if ready.isEmpty then (.ok progress, world)
    else
      match executeChunk (chunkRequest request.accountId progress.currentState ready)
          progress.createdIds world with
      | (.error error, world) => (.failed (error, progress.merged) progress.applied, world)
      | (.ok response, world) =>
        (.of true (merge toValue { progress with applied := true } response), world)

/-- Send the chunks in order. Stop at the first error. -/
def sendChunks (request : SetRequest Object) :
    List (SetChunk Object) → Progress Object → World → Sent Object × World
  | [], progress, world => (.ok progress, world)
  | chunk :: chunks, progress, world =>
    match sendChunk toValue order executeChunk request progress chunk world with
    | (.ok progress, world) => sendChunks request chunks progress world
    | failed => failed

def totalItems (request : SetRequest Object) : Nat :=
  (request.create.getD ∅).entries.length + (request.update.getD ∅).entries.length +
    (request.destroy.getD []).length

def Progress.start (request : SetRequest Object) : Progress Object where
  merged := { accountId := request.accountId }
  currentState := request.ifInState

def jsonMap {T V : Type} (toValue : T → Except Error V) (map : BTreeMap String T) :
    Except Error (BTreeMap String V) := do
  let entries ← map.entries.mapM fun entry => do pure (entry.1, ← toValue entry.2)
  pure (.ofList entries)

/-- The merged response with its objects as JSON. -/
def committed (merged : SetResponse Object) : Except Error (SetResponse Value) := do
  let created ← merged.created.mapM (jsonMap toValue)
  let updated ← merged.updated.mapM (jsonMap (·.mapM toValue))
  pure { merged with created, updated }

/-- The result of a request after its chunks. -/
def finish : Sent Object × World → Except Error (SetResponse Object) × World
  | (.ok progress, world) => (.ok progress.merged, world)
  | (.failed (cause, merged) true, world) =>
    (.error (match committed toValue merged with
      | .ok committed => .setPartiallyApplied committed cause
      | .error error => error), world)
  | (.failed (cause, _) false, world) => (.error cause, world)

/-- Execute a request, in chunks if it has more items than the limit. The result is
`none` if the splitting panics. `partitionOrder` is the iteration order in the
splitting. -/
def executeSetChunked (partitionOrder : String → List String → List String)
    (request : SetRequest Object) (limit : Option Nat) (world : World) :
    Option (Except Error (SetResponse Object) × World) :=
  match limit with
  | none | some 0 => some (executeChunk request ∅ world)
  | some limit =>
    if totalItems request ≤ limit then some (executeChunk request ∅ world)
    else
      (partitionSetRequest toValue partitionOrder request limit).map fun
        | .error error => (.error error, world)
        | .ok chunks => finish toValue
            (sendChunks toValue order executeChunk request chunks (.start request) world)

end Send

/-! ## Creates that are not sent -/

section Propagate

variable {order : String → List String → List String} {references : List (String × List String)}
  {state : List String × Option (BTreeMap String SetError)}

theorem getD_insertInto {K V : Type} [LinearOrder K] (map : Option (BTreeMap K V)) (key : K)
    (value : V) : (insertInto map key value).getD ∅ = (map.getD ∅).insert key value := rfl

theorem getD_extendWith {K V : Type} [LinearOrder K] (map more : Option (BTreeMap K V)) :
    (extendWith map more).getD ∅ = (map.getD ∅).extend (more.getD ∅) := by
  cases more <;> rfl

theorem propagateAt_cases (cid : String) :
    (propagateAt order references state cid = state ∧
      (cid ∈ state.1 ∨ ∀ target ∈ referencesOf order references cid, target ∉ state.1)) ∨
    ∃ target ∈ referencesOf order references cid, target ∈ state.1 ∧ cid ∉ state.1 ∧
      propagateAt order references state cid =
        (cid :: state.1, insertInto state.2 cid (referenceFailed target)) := by
  rw [propagateAt]
  split
  · next failed => exact .inl ⟨rfl, .inl failed⟩
  · next notFailed =>
    cases found : (referencesOf order references cid).find? fun target =>
        decide (target ∈ state.1) with
    | none =>
      refine .inl ⟨rfl, .inr fun target mem => ?_⟩
      simpa using find?_eq_none.mp found target mem
    | some target =>
      have failed := find?_some found
      exact .inr ⟨target, mem_of_find?_eq_some found, of_decide_eq_true failed,
        notFailed, rfl⟩

theorem propagate_invariant {P : List String × Option (BTreeMap String SetError) → Prop}
    (step : ∀ {state cid target}, P state → cid ∈ references.map Prod.fst →
      target ∈ referencesOf order references cid → target ∈ state.1 → cid ∉ state.1 →
      P (cid :: state.1, insertInto state.2 cid (referenceFailed target)))
    (rounds : Nat) (holds : P state) : P (propagate order references rounds state) := by
  have pass : ∀ {cids : List String} {state}, cids ⊆ references.map Prod.fst → P state →
      P (cids.foldl (propagateAt order references) state) := by
    intro cids
    induction cids with
    | nil => exact fun _ holds => holds
    | cons cid cids ih =>
      intro state subset holds
      rw [cons_subset] at subset
      refine ih subset.2 ?_
      rcases @propagateAt_cases order references state cid with
        ⟨same, _⟩ | ⟨target, refers, failed, notFailed, added⟩
      · rw [same]
        exact holds
      · rw [added]
        exact step holds subset.1 refers failed notFailed
  induction rounds generalizing state with
  | zero => exact holds
  | succ rounds ih =>
    rw [propagate]
    split
    · exact pass (List.Subset.refl _) holds
    · exact ih (pass (List.Subset.refl _) holds)

end Propagate

/-! ## What is sent of a chunk -/

section Prepare

variable {toValue : Object → Except Error Value} {order : String → List String → List String}
  {candidates : List String} {progress : Progress Object} {chunk : SetChunk Object}

section

variable {failed : List String} {known : String → Bool}

theorem readyUpdate_cases {entry : Id × Value}
    {ready next : BTreeMap Id Value × Option (BTreeMap Id SetError)}
    (ran : readyUpdate order candidates failed known ready entry = .ok next) :
    (next = (ready.1.insert entry.1 entry.2, ready.2) ∧
      ∀ target ∈ order entry.1 (findCreationReferences entry.2 candidates),
        target ∉ failed ∧ known target = true) ∨
    ∃ target ∈ order entry.1 (findCreationReferences entry.2 candidates), target ∈ failed ∧
      next = (ready.1, insertInto ready.2 entry.1 (referenceFailed target)) := by
  simp only [readyUpdate] at ran
  split at ran
  · next target found =>
    cases ran
    have isFailed := find?_some found
    exact .inr ⟨target, mem_of_find?_eq_some found, of_decide_eq_true isFailed, rfl⟩
  · next noneFailed =>
    split at ran
    · cases ran
    · next noneMissing =>
      cases ran
      refine .inl ⟨rfl, fun target mem => ⟨?_, ?_⟩⟩
      · simpa using find?_eq_none.mp noneFailed target mem
      · simpa using find?_eq_none.mp noneMissing target mem

theorem foldlM_ready {start ready : BTreeMap Id Value × Option (BTreeMap Id SetError)}
    (nodup : (entries.map Prod.fst).Nodup)
    (ran : entries.foldlM (readyUpdate order candidates failed known) start = .ok ready) :
    (∀ id, id ∉ entries.map Prod.fst → ready.1.get? id = start.1.get? id ∧
      (ready.2.getD ∅).get? id = (start.2.getD ∅).get? id) ∧
    ∀ entry ∈ entries,
      (ready.1.get? entry.1 = some entry.2 ∧
        (ready.2.getD ∅).get? entry.1 = (start.2.getD ∅).get? entry.1 ∧
        ∀ target ∈ order entry.1 (findCreationReferences entry.2 candidates),
          target ∉ failed ∧ known target = true) ∨
      (ready.1.get? entry.1 = start.1.get? entry.1 ∧
        ∃ target ∈ order entry.1 (findCreationReferences entry.2 candidates), target ∈ failed ∧
          (ready.2.getD ∅).get? entry.1 = some (referenceFailed target)) := by
  induction entries generalizing start with
  | nil =>
    cases ran
    exact ⟨fun _ _ => ⟨rfl, rfl⟩, nofun⟩
  | cons entry rest ih =>
    rw [map_cons, nodup_cons] at nodup
    rw [foldlM_cons] at ran
    have apart : ∀ other ∈ rest, other.1 ≠ entry.1 := fun other mem same =>
      nodup.1 (same ▸ mem_map_of_mem mem)
    cases stepped : readyUpdate order candidates failed known start entry with
    | error error =>
      rw [stepped] at ran
      cases ran
    | ok next =>
      rw [stepped] at ran
      obtain ⟨others, each⟩ := ih nodup.2 ran
      have here := others entry.1 nodup.1
      have same : ∀ id, id ≠ entry.1 → next.1.get? id = start.1.get? id ∧
          (next.2.getD ∅).get? id = (start.2.getD ∅).get? id := by
        intro id other
        rcases readyUpdate_cases stepped with ⟨rfl, -⟩ | ⟨target, -, -, rfl⟩
        · exact ⟨by rw [get?_insert, if_neg other], rfl⟩
        · exact ⟨rfl, by rw [getD_insertInto, get?_insert, if_neg other]⟩
      refine ⟨fun id absent => ?_, forall_mem_cons.mpr ⟨?_, fun other mem => ?_⟩⟩
      · rw [map_cons, mem_cons, not_or] at absent
        rw [← (same id absent.1).1, ← (same id absent.1).2]
        exact others id absent.2
      · rcases readyUpdate_cases stepped with ⟨rfl, known⟩ | ⟨target, refers, isFailed, rfl⟩
        · rw [get?_insert_self] at here
          exact .inl ⟨here.1, here.2, known⟩
        · rw [getD_insertInto, get?_insert_self] at here
          exact .inr ⟨here.1, target, refers, isFailed, here.2⟩
      · rw [← (same _ (apart other mem)).1, ← (same _ (apart other mem)).2]
        exact each other mem

theorem foldlM_ready_ok {start : BTreeMap Id Value × Option (BTreeMap Id SetError)}
    (resolved : ∀ entry ∈ entries,
      ∀ target ∈ order entry.1 (findCreationReferences entry.2 candidates),
        target ∉ failed ∧ known target = true) :
    ∃ ready, entries.foldlM (readyUpdate order candidates failed known) start = .ok ready := by
  induction entries generalizing start with
  | nil => exact ⟨start, rfl⟩
  | cons entry rest ih =>
    rw [forall_mem_cons] at resolved
    have noneFailed : ((order entry.1 (findCreationReferences entry.2 candidates)).find?
        fun target => decide (target ∈ failed)) = none := by
      rw [find?_eq_none]
      intro target mem isFailed
      exact (resolved.1 target mem).1 (of_decide_eq_true isFailed)
    have noneMissing : ((order entry.1 (findCreationReferences entry.2 candidates)).find?
        fun target => !known target) = none := by
      rw [find?_eq_none]
      intro target mem
      rw [(resolved.1 target mem).2]
      exact Bool.false_ne_true
    have stepped : readyUpdate order candidates failed known start entry =
        .ok (start.1.insert entry.1 entry.2, start.2) := by
      simp only [readyUpdate, noneFailed, noneMissing]
    rw [foldlM_cons, stepped]
    exact ih resolved.2

end

theorem prepare_ok {next : Progress Object} {ready : SetChunk Object}
    (ran : prepare toValue order candidates progress chunk = .ok (next, ready)) :
    ∃ references failed notCreated notUpdated,
      createReferences toValue candidates chunk = .ok references ∧
      propagate order references (references.length + 1)
        (progress.failedCreates, progress.merged.notCreated) = (failed, notCreated) ∧
      ready.create = chunk.create.retain (fun cid _ => decide (cid ∉ failed)) ∧
      ready.destroy = chunk.destroy ∧
      (∀ entry ∈ ready.create.entries, ∀ target ∈ referencesOf order references entry.1,
        (progress.createdIds.contains target || ready.create.contains target) = true) ∧
      readyUpdates order candidates failed (fun target =>
        progress.createdIds.contains target || ready.create.contains target)
        progress.merged.notUpdated chunk.update = .ok (ready.update, notUpdated) ∧
      next = { progress with
        failedCreates := failed
        merged := { progress.merged with
          notCreated := notCreated, notUpdated := notUpdated } } := by
  rw [prepare] at ran
  cases found : createReferences toValue candidates chunk with
  | error error =>
    rw [found] at ran
    cases ran
  | ok references =>
    rw [found] at ran
    simp only [bind, Except.bind, Except.mapError] at ran
    split at ran
    · cases ran
    · next resolved =>
      cases updates : readyUpdates order candidates
          (propagate order references (references.length + 1)
            (progress.failedCreates, progress.merged.notCreated)).1 (fun target =>
          progress.createdIds.contains target ||
            (chunk.create.retain fun cid _ => decide (cid ∉ (propagate order references
              (references.length + 1)
              (progress.failedCreates, progress.merged.notCreated)).1)).contains target)
          progress.merged.notUpdated chunk.update with
      | error error =>
        simp only [updates] at ran
        cases ran
      | ok result =>
        simp only [updates] at ran
        cases ran
        refine ⟨references, _, _, result.2, rfl, rfl, rfl, rfl, ?_, updates, rfl⟩
        intro entry mem target refers
        have none := findSome?_eq_none_iff.mp resolved entry mem
        have known := find?_eq_none.mp none target refers
        rw [Bool.not_eq_true', Bool.not_eq_false] at known
        exact known

theorem foldlM_mergeCreated {entries : List (String × Object)} {idOf : String → Option Id}
    (nodup : (entries.map Prod.fst).Nodup)
    (shown : ∀ entry ∈ entries, ∃ value id, toValue entry.2 = .ok value ∧
      (value.get? "id").bind Value.asStr = some id ∧ idOf entry.1 = some id) :
    ∃ createdIds created, entries.foldlM (mergeCreated toValue) progress =
        .ok { progress with
          createdIds := createdIds
          merged := { progress.merged with created := created } } ∧
      (∀ cid, createdIds.get? cid =
        if cid ∈ entries.map Prod.fst then idOf cid else progress.createdIds.get? cid) ∧
      ∀ cid, (created.getD ∅).get? cid =
        (Entries.get? cid entries).or ((progress.merged.created.getD ∅).get? cid) := by
  induction entries generalizing progress with
  | nil => exact ⟨progress.createdIds, progress.merged.created, rfl, fun _ => rfl, fun _ => rfl⟩
  | cons entry rest ih =>
    rw [map_cons, nodup_cons] at nodup
    obtain ⟨⟨value, id, isValue, isId, same⟩, others⟩ := forall_mem_cons.mp shown
    rcases @ih { progress with
        createdIds := progress.createdIds.insert entry.1 id
        merged := { progress.merged with
          created := insertInto progress.merged.created entry.1 entry.2 } } nodup.2 others with
      ⟨createdIds, created, ran, ids, objects⟩
    refine ⟨createdIds, created, ?_, fun cid => ?_, fun cid => ?_⟩
    · rw [foldlM_cons, mergeCreated, isValue]
      simp only [bind, Except.bind, Except.mapError, isId]
      exact ran
    · simp only [ids, map_cons, mem_cons, get?_insert]
      by_cases here : cid = entry.1
      · subst here
        simp only [nodup.1, if_false, if_true, true_or, same]
      · simp only [here, if_false, false_or]
    · rw [objects, getD_insertInto, get?_insert, Entries.get?_cons]
      by_cases here : cid = entry.1
      · have absent : Entries.get? cid rest = none := by
          rw [Entries.get?_eq_none]
          intro other mem isOther
          exact nodup.1 (here ▸ isOther ▸ mem_map_of_mem mem)
        rw [absent, if_pos here, if_pos here]
        rfl
      · rw [if_neg here, if_neg here]

end Prepare

end EvolutionJmap.Chunked
