import EvolutionJmap.Client.Chunked

/-!
# A server for `/set` (RFC 8620 §5.3)

The verdict on an item depends on that item and on the objects that it really refers to;
only the server knows which texts are references.  A creation id of an earlier call is
resolved by the `createdIds` of the request (RFC 8620 §3.3).

Sending a request in chunks to such a server has the outcome of one call with the
whole request, if all texts with the shape of a reference are references.
-/

namespace EvolutionJmap.Chunked

open EvolutionJmap.Partition List BTreeMap Option

variable {Object Record : Type}

/-- A created object: its id, what the response shows, and what the server keeps. -/
structure Created (Object Record : Type) where
  id : Id
  shown : Object
  record : Record

structure Server (Object Record : Type) where
  refersTo : Value → List String
  /-- The verdict on one create of a call, given all creates of the call and the known
  creation ids. The objects that were there before the creates do not change meanwhile. -/
  create : BTreeMap String Object → BTreeMap Id Id → String →
    Except SetError (Created Object Record)
  /-- The verdict on a patch for an object, given the records and the ids of the creation
  ids. -/
  update : (Id → Option Record) → Id → Value → (String → Option Id) →
    Except SetError (Record × Option Object)
  destroy : (Id → Option Record) → Id → Except SetError Unit
  /-- The server carries out the destroys of a call before its updates. -/
  destroysFirst : Bool
  stateName : Nat → State

structure Records (Record : Type) where
  record : Id → Option Record
  version : Nat

variable {K V : Type} {first second : List (Created Object Record)} (record : Id → Option Record)

namespace Server

variable (server : Server Object Record)

def resolve (creates : BTreeMap String Object) (known : BTreeMap Id Id) (target : String) :
    Option Id :=
  if creates.contains target then (server.create creates known target).toOption.map (·.id)
  else known.get? target

/-- The records and the outcome of the updates and destroys of a call. -/
structure Effect (Object Record : Type) where
  record : Id → Option Record
  updated : BTreeMap Id (Option Object) := ∅
  notUpdated : BTreeMap Id SetError := ∅
  destroyed : List Id := []
  notDestroyed : BTreeMap Id SetError := ∅

def applyUpdate (resolve : String → Option Id) (effect : Effect Object Record)
    (entry : Id × Value) : Effect Object Record :=
  match server.update effect.record entry.1 entry.2 resolve with
  | .ok (record, shown) => { effect with
      record := Function.update effect.record entry.1 (some record)
      updated := effect.updated.insert entry.1 shown }
  | .error error => { effect with notUpdated := effect.notUpdated.insert entry.1 error }

def applyDestroy (effect : Effect Object Record) (id : Id) : Effect Object Record :=
  match server.destroy effect.record id with
  | .ok () => { effect with
      record := Function.update effect.record id none
      destroyed := effect.destroyed ++ [id] }
  | .error error => { effect with notDestroyed := effect.notDestroyed.insert id error }

def recordCreated (record : Id → Option Record) (created : List (Created Object Record)) :
    Id → Option Record :=
  fun id => ((created.find? fun created => created.id = id).map (·.record)).or (record id)

def perform (resolve : String → Option Id) (record : Id → Option Record)
    (updates : List (Id × Value)) (destroys : List Id) : Effect Object Record :=
  if server.destroysFirst then
    updates.foldl (server.applyUpdate resolve)
      (destroys.foldl server.applyDestroy { record := record })
  else
    destroys.foldl server.applyDestroy
      (updates.foldl (server.applyUpdate resolve) { record := record })

/-- The effect of a call. The creates are carried out first. -/
def effect (creates : BTreeMap String Object) (known : BTreeMap Id Id)
    (record : Id → Option Record) (updates : List (Id × Value)) (destroys : List Id) :
    Effect Object Record :=
  server.perform (server.resolve creates known)
    (recordCreated record
      (creates.keys.filterMap fun cid => (server.create creates known cid).toOption))
    updates destroys

variable (request : SetRequest Object)

def effectOf (known : BTreeMap Id Id) (record : Id → Option Record) : Effect Object Record :=
  server.effect (request.create.getD ∅) known record (request.update.getD ∅).entries
    (request.destroy.getD [])

def errorOf {α : Type} : Except SetError α → Option SetError
  | .ok _ => none
  | .error error => some error

def response (known : BTreeMap Id Id) (records : Records Record) : SetResponse Object :=
  let creates := request.create.getD ∅
  let effect := server.effectOf request known records.record
  { accountId := request.accountId
    oldState := some (server.stateName records.version)
    newState := some (server.stateName (records.version + 1))
    created := ifAny (creates.filterMapValues fun cid _ =>
      (server.create creates known cid).toOption.map (·.shown))
    notCreated := ifAny (creates.filterMapValues fun cid _ =>
      errorOf (server.create creates known cid))
    updated := ifAny effect.updated
    notUpdated := ifAny effect.notUpdated
    destroyed := if effect.destroyed.isEmpty then none else some effect.destroyed
    notDestroyed := ifAny effect.notDestroyed }

/-- The request asks for another state. -/
def mismatch (records : Records Record) : Bool :=
  request.ifInState.any fun state => decide (state ≠ server.stateName records.version)

def call (known : BTreeMap Id Id) (records : Records Record) :
    Except Error (SetResponse Object) × Records Record :=
  if server.mismatch request records then (.error (.method ⟨"stateMismatch", none⟩), records)
  else (.ok (server.response request known records),
    ⟨(server.effectOf request known records.record).record, records.version + 1⟩)

/-- A server that conforms to RFC 8620, and judges each item by itself and the objects
that it refers to. -/
structure Conforms (toValue : Object → Except Error Value) : Prop where
  /-- The verdict on creates that refer to each other depends on these creates and the
  ids of the other creates that they refer to. -/
  depends : ∀ (creates others : BTreeMap String Object) (known earlier : BTreeMap Id Id)
    (group : String → Prop),
    (∀ cid, group cid → ∃ object value, creates.get? cid = some object ∧
      others.get? cid = some object ∧ toValue object = .ok value ∧
      ∀ target ∈ server.refersTo value, group target ∨
        server.resolve creates known target = server.resolve others earlier target) →
    ∀ cid, group cid → server.create creates known cid = server.create others earlier cid
  needs : ∀ (creates : BTreeMap String Object) (known : BTreeMap Id Id) (cid target : String)
    (object : Object) (value : Value), creates.get? cid = some object →
    toValue object = .ok value → target ∈ server.refersTo value →
    server.resolve creates known target = none →
      ∃ error, server.create creates known cid = .error error
  /-- The verdict on an update depends on the ids of the creates that it refers to. -/
  updateDepends : ∀ (record : Id → Option Record) (id : Id) (patch : Value)
    (resolve other : String → Option Id),
    (∀ target ∈ server.refersTo patch, resolve target = other target) →
    server.update record id patch resolve = server.update record id patch other
  updateNeeds : ∀ (record : Id → Option Record) (id : Id) (patch : Value)
    (resolve : String → Option Id) (target : String), target ∈ server.refersTo patch →
    resolve target = none → ∃ error, server.update record id patch resolve = .error error
  shows : ∀ (creates : BTreeMap String Object) (known : BTreeMap Id Id) (cid : String)
    (created : Created Object Record), server.create creates known cid = .ok created →
    ∃ value, toValue created.shown = .ok value ∧
      (value.get? "id").bind Value.asStr = some created.id
  distinct : ∀ (creates : BTreeMap String Object) (known : BTreeMap Id Id),
    ∀ cid ∈ creates.keys, ∀ other ∈ creates.keys, ∀ first second : Created Object Record,
    server.create creates known cid = .ok first →
    server.create creates known other = .ok second → first.id = second.id → cid = other
  /-- A reference is a text or a key of a value, after a `#`. -/
  shaped : ∀ (value : Value) (candidates : List String), ∀ target ∈ server.refersTo value,
    target ∈ candidates → target ∈ findCreationReferences value candidates

/-! ## The effect of a call -/

namespace Effect

def append (first second : Effect Object Record) : Effect Object Record where
  record := second.record
  updated := first.updated.extend second.updated
  notUpdated := first.notUpdated.extend second.notUpdated
  destroyed := first.destroyed ++ second.destroyed
  notDestroyed := first.notDestroyed.extend second.notDestroyed

end Effect

variable {server}

theorem extend_insert [LinearOrder K] (map other : BTreeMap K V) (key : K) (value : V) :
    map.extend (other.insert key value) = (map.extend other).insert key value := by
  ext query : 1
  rw [get?_extend, get?_insert, get?_insert, get?_extend]
  split <;> rfl

theorem applyUpdate_append (resolve : String → Option Id) (first second : Effect Object Record)
    (entry : Id × Value) :
    server.applyUpdate resolve (first.append second) entry =
      first.append (server.applyUpdate resolve second entry) := by
  simp only [applyUpdate, Effect.append]
  split <;> simp only [extend_insert]

theorem applyDestroy_append (first second : Effect Object Record) (id : Id) :
    server.applyDestroy (first.append second) id =
      first.append (server.applyDestroy second id) := by
  simp only [applyDestroy, Effect.append]
  split <;> simp only [extend_insert, append_assoc]

theorem append_start (effect : Effect Object Record) :
    effect.append { record := effect.record } = effect := by
  have extend_empty : ∀ {K V : Type} [LinearOrder K] (map : BTreeMap K V), map.extend ∅ = map :=
    fun map => rfl
  simp only [Effect.append, extend_empty, append_nil]

theorem perform_nil (resolve : String → Option Id) (record : Id → Option Record) :
    server.perform resolve record [] [] = { record := record } := by
  rw [perform]
  split <;> rfl

theorem perform_eq (ordered : server.destroysFirst = false) (resolve : String → Option Id)
    (record : Id → Option Record) (updates : List (Id × Value)) (destroys : List Id) :
    server.perform resolve record updates destroys = destroys.foldl server.applyDestroy
      (updates.foldl (server.applyUpdate resolve) { record := record }) := by
  rw [perform, ordered]
  rfl

theorem perform_append (updatesFirst : server.destroysFirst = false)
    (resolve : String → Option Id) (record : Id → Option Record)
    {updates later : List (Id × Value)} {destroys : List Id} (more : List Id)
    (ordered : destroys = [] ∨ later = []) :
    server.perform resolve record (updates ++ later) (destroys ++ more) =
      (server.perform resolve record updates destroys).append
        (server.perform resolve (server.perform resolve record updates destroys).record later
          more) := by
  have behind : server.perform resolve record (updates ++ later) (destroys ++ more) =
      more.foldl server.applyDestroy (later.foldl (server.applyUpdate resolve)
        (server.perform resolve record updates destroys)) := by
    rcases ordered with rfl | rfl
    · rw [perform_eq updatesFirst, perform_eq updatesFirst, nil_append, foldl_append]
      rfl
    · rw [perform_eq updatesFirst, perform_eq updatesFirst, append_nil, foldl_append]
      rfl
  rw [behind]
  conv_lhs => rw [← append_start (server.perform resolve record updates destroys)]
  rw [foldl_hom _ fun second => applyUpdate_append resolve _ second,
    foldl_hom _ (applyDestroy_append _), ← perform_eq updatesFirst]

/-! ## The records of created objects -/

theorem recordCreated_nil : recordCreated record ([] : List (Created Object Record)) = record := rfl

theorem recordCreated_append (apart : ∀ one ∈ first, ∀ two ∈ second, one.id ≠ two.id) :
    recordCreated record (first ++ second) = recordCreated (recordCreated record first) second := by
  funext id
  simp only [recordCreated, find?_append]
  cases foundFirst : first.find? fun created => created.id = id with
  | none => rfl
  | some one =>
    have noSecond : (second.find? fun created => created.id = id) = none := by
      rw [find?_eq_none]
      intro two isTwo same
      have oneId := find?_some foundFirst
      simp only [decide_eq_true_eq] at oneId same
      exact apart one (mem_of_find?_eq_some foundFirst) two isTwo (oneId.trans same.symm)
    rw [noSecond]
    rfl

theorem recordCreated_perm (perm : first.Perm second)
    (distinct : ∀ one ∈ first, ∀ two ∈ first, one.id = two.id → one = two) :
    recordCreated record first = recordCreated record second := by
  have found : ∀ {created : List (Created Object Record)} {id : Id} {one : Created Object Record},
      (∀ one ∈ created, ∀ two ∈ created, one.id = two.id → one = two) → one ∈ created →
      one.id = id → created.find? (fun created => created.id = id) = some one := by
    intro created id one distinct mem isId
    cases result : created.find? fun created => created.id = id with
    | none =>
      have absent := find?_eq_none.mp result one mem
      simp [isId] at absent
    | some two =>
      have twoId := find?_some result
      simp only [decide_eq_true_eq] at twoId
      rw [distinct two (mem_of_find?_eq_some result) one mem (twoId.trans isId.symm)]
  funext id
  simp only [recordCreated]
  congr 2
  cases result : first.find? fun created => created.id = id with
  | none =>
    symm
    rw [find?_eq_none] at result ⊢
    exact fun one mem => result one (perm.mem_iff.mpr mem)
  | some one =>
    have oneId := find?_some result
    simp only [decide_eq_true_eq] at oneId
    refine (found ?_ (perm.mem_iff.mp (mem_of_find?_eq_some result)) oneId).symm
    exact fun one isOne two isTwo => distinct one (perm.mem_iff.mpr isOne) two
      (perm.mem_iff.mpr isTwo)

end Server

/-! ## One chunk -/

theorem getD_ifAny [LinearOrder K] (map : BTreeMap K V) : (ifAny map).getD ∅ = map := by
  rw [ifAny]
  split
  · next empty => exact ((map.isEmpty_iff).mp empty).symm
  · rfl

theorem getD_ifNonempty (items : List Id) :
    (if items.isEmpty then none else some items).getD [] = items := by
  cases items <;> rfl

def effectIn (server : Server Object Record) (ready : SetChunk Object) (known : BTreeMap Id Id)
    (record : Id → Option Record) : Server.Effect Object Record :=
  server.effect ready.create known record ready.update.entries ready.destroy

/-- What is known after the answer to a chunk. -/
structure Merged (server : Server Object Record) (ready : SetChunk Object)
    (progress next : Progress Object) (records after : Records Record) : Prop where
  createdIds : ∀ cid, next.createdIds.get? cid =
    (if cid ∈ ready.create.keys then
      (server.create ready.create progress.createdIds cid).toOption.map (·.id)
    else none).or (progress.createdIds.get? cid)
  failed : ∀ cid, cid ∈ next.failedCreates ↔ cid ∈ progress.failedCreates ∨
    cid ∈ ready.create.keys ∧
      Server.errorOf (server.create ready.create progress.createdIds cid) ≠ none
  created : ∀ cid, (next.merged.created.getD ∅).get? cid =
    (if cid ∈ ready.create.keys then
      (server.create ready.create progress.createdIds cid).toOption.map (·.shown)
    else none).or ((progress.merged.created.getD ∅).get? cid)
  notCreated : ∀ cid, (next.merged.notCreated.getD ∅).get? cid =
    (if cid ∈ ready.create.keys then
      Server.errorOf (server.create ready.create progress.createdIds cid)
    else none).or ((progress.merged.notCreated.getD ∅).get? cid)
  record : after.record = (effectIn server ready progress.createdIds records.record).record
  updated : next.merged.updated.getD ∅ = (progress.merged.updated.getD ∅).extend
    (effectIn server ready progress.createdIds records.record).updated
  notUpdated : next.merged.notUpdated.getD ∅ = (progress.merged.notUpdated.getD ∅).extend
    (effectIn server ready progress.createdIds records.record).notUpdated
  destroyed : next.merged.destroyed.getD [] = progress.merged.destroyed.getD [] ++
    (effectIn server ready progress.createdIds records.record).destroyed
  notDestroyed : next.merged.notDestroyed.getD ∅ = (progress.merged.notDestroyed.getD ∅).extend
    (effectIn server ready progress.createdIds records.record).notDestroyed

section Merge

variable {server : Server Object Record} {toValue : Object → Except Error Value}
  {ready : SetChunk Object} {progress next : Progress Object} {records after : Records Record}

theorem get?_filterMapValues_key {W : Type} [LinearOrder K] (map : BTreeMap K V)
    (image : K → Option W) (key : K) :
    (map.filterMapValues fun key _ => image key).get? key =
      if key ∈ map.keys then image key else none := by
  rw [get?_filterMapValues]
  split
  · next present =>
    obtain ⟨value, found⟩ := map.mem_keys.mp present
    rw [found, bind_some]
  · next absent =>
    rw [map.get?_eq_none_iff.mpr absent, bind_none]

theorem mem_keys_filterMapValues {W : Type} [LinearOrder K] (map : BTreeMap K V)
    (image : K → Option W) (key : K) :
    key ∈ (map.filterMapValues fun key _ => image key).keys ↔
      key ∈ map.keys ∧ image key ≠ none := by
  rw [BTreeMap.mem_keys, ← ne_none_iff_exists', get?_filterMapValues_key, ite_ne_right_iff]

theorem getD_extendWith_ifAny [LinearOrder K] (held : Option (BTreeMap K V))
    (map : BTreeMap K V) : (extendWith held (ifAny map)).getD ∅ = (held.getD ∅).extend map := by
  rw [getD_extendWith, getD_ifAny]

section

variable {creates : BTreeMap String Object}
  {verdict : String → Except SetError (Created Object Record)}

theorem ite_mem_shown (cid : String) (known : Option Id) :
    (if cid ∈ (creates.filterMapValues fun cid _ => (verdict cid).toOption.map (·.shown)).keys then
      (verdict cid).toOption.map (·.id) else known) =
      (if cid ∈ creates.keys then (verdict cid).toOption.map (·.id) else none).or known := by
  have listed := mem_keys_filterMapValues creates
    (fun cid => (verdict cid).toOption.map (·.shown)) cid
  rw [if_congr listed rfl rfl, ite_and]
  split
  · cases verdict cid <;> rfl
  · rfl

theorem exists_id_of_shown (shows : ∀ cid made, verdict cid = .ok made → ∃ value,
      toValue made.shown = .ok value ∧ (value.get? "id").bind Value.asStr = some made.id) :
    ∀ entry ∈ (creates.filterMapValues fun cid _ =>
      (verdict cid).toOption.map (·.shown)).entries, ∃ value id, toValue entry.2 = .ok value ∧
      (value.get? "id").bind Value.asStr = some id ∧
      (verdict entry.1).toOption.map (·.id) = some id := by
  intro entry mem
  have found := (mem_entries _).mp mem
  rw [get?_filterMapValues, bind_eq_some_iff] at found
  obtain ⟨_, -, isShown⟩ := found
  cases isMade : verdict entry.1 with
  | error error =>
    rw [isMade] at isShown
    cases isShown
  | ok made =>
    rw [isMade] at isShown
    obtain ⟨value, isValue, isId⟩ := shows _ made isMade
    exact ⟨value, made.id, Option.some.inj isShown ▸ isValue, isId, rfl⟩

end

theorem merged_of_empty (empty : ready.isEmpty = true) :
    Merged server ready progress progress records records := by
  simp only [SetChunk.isEmpty, Bool.and_eq_true] at empty
  obtain ⟨⟨noCreate, noUpdate⟩, noDestroy⟩ := empty
  have noKeys : ready.create.keys = [] := by
    rw [(ready.create.isEmpty_iff).mp noCreate]
    rfl
  have effect : effectIn server ready progress.createdIds records.record =
      { record := records.record } := by
    rw [effectIn, Server.effect, noKeys, isEmpty_iff.mp noUpdate, isEmpty_iff.mp noDestroy,
      Server.perform_nil]
    rfl
  have absent : ∀ cid, cid ∉ ready.create.keys := fun cid => by rw [noKeys]; exact not_mem_nil
  refine ⟨fun cid => ?_, fun cid => ?_, fun cid => ?_, fun cid => ?_, ?_, ?_, ?_, ?_, ?_⟩
  · rw [if_neg (absent cid), none_or]
  · exact ⟨.inl, fun either => either.resolve_right fun present => absent cid present.1⟩
  · rw [if_neg (absent cid), none_or]
  · rw [if_neg (absent cid), none_or]
  · rw [effect]
  · rw [effect]; rfl
  · rw [effect]; rfl
  · rw [effect]; exact (append_nil _).symm
  · rw [effect]; rfl

theorem effectOf_chunkRequest (accountId : Id) (state : Option State) (known : BTreeMap Id Id)
    (record : Id → Option Record) :
    server.effectOf (chunkRequest accountId state ready) known record =
      effectIn server ready known record := by
  simp only [Server.effectOf, chunkRequest, getD_ifAny, getD_ifNonempty, effectIn]

theorem merged_of_call (conforms : server.Conforms toValue) (accountId : Id)
    (state : Option State) :
    ∃ next, merge toValue { progress with applied := true }
        (server.response (chunkRequest accountId state ready) progress.createdIds records) =
          .ok next ∧
      Merged server ready progress next records
        ⟨(effectIn server ready progress.createdIds records.record).record,
          records.version + 1⟩ ∧
      next.applied = true ∧
      next.currentState = some (server.stateName (records.version + 1)) := by
  have effect := @effectOf_chunkRequest _ _ server ready accountId state progress.createdIds
    records.record
  have creates : (chunkRequest accountId state ready).create.getD ∅ = ready.create :=
    getD_ifAny _
  generalize isAnswer : server.response (chunkRequest accountId state ready) progress.createdIds
    records = answer
  rw [Server.response, creates, effect] at isAnswer
  have shown := @exists_id_of_shown _ _ toValue ready.create _
    (conforms.shows ready.create progress.createdIds)
  rcases @foldlM_mergeCreated Object toValue (mergeStates { progress with applied := true } answer)
    _ (fun cid => (server.create ready.create progress.createdIds cid).toOption.map (·.id))
    (keys_nodup _) shown with ⟨createdIds, objects, ran, ids, isObjects⟩
  have created := (congrArg (·.created.getD ∅) isAnswer.symm).trans (getD_ifAny _)
  have notCreated := (congrArg (·.notCreated.getD ∅) isAnswer.symm).trans (getD_ifAny _)
  refine ⟨_, by rw [merge, created, ran]; rfl, ?_, rfl, ?_⟩
  · refine ⟨fun cid => (ids cid).trans (ite_mem_shown cid _), fun cid => ?_, fun cid => ?_,
      fun cid => ?_, rfl, ?_, ?_, ?_, ?_⟩
    · refine mem_append.trans (or_comm.trans (or_congr_right ?_))
      rw [notCreated, mem_keys_filterMapValues _ fun cid => Server.errorOf _]
    · have shownAt := get?_filterMapValues_key ready.create (fun cid =>
        (server.create ready.create progress.createdIds cid).toOption.map (·.shown)) cid
      exact (isObjects cid).trans (congrArg (Option.or · _) shownAt)
    · have errorAt := get?_filterMapValues_key ready.create (fun cid =>
        Server.errorOf (server.create ready.create progress.createdIds cid)) cid
      rw [← errorAt, ← notCreated, ← get?_extend]
      exact congrArg (BTreeMap.get? · cid) (getD_extendWith _ _)
    · subst isAnswer
      exact getD_extendWith_ifAny _ _
    · subst isAnswer
      exact getD_extendWith_ifAny _ _
    · subst isAnswer
      dsimp only [mergeOthers, mergeStates]
      split
      · next empty => rw [isEmpty_iff.mp empty, append_nil]; rfl
      · rfl
    · subst isAnswer
      exact getD_extendWith_ifAny _ _
  · subst isAnswer
    rfl

end Merge

end EvolutionJmap.Chunked
