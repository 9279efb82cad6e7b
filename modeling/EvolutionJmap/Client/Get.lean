import EvolutionJmap.Client.Changes

/-!
# Chunked `/get` (`jmap-client`, `client.rs`)

`getChunked` names the ids in as many requests as the session's limits make necessary.
Other clients may act between the chunks, so the specification gives each id the moment
at which it was read.
-/

namespace EvolutionJmap

open Interaction

def jsonCharBytes (char : Char) : Nat :=
  if char = '"' ∨ char = '\\' then 2
  else if char.toNat ∈ [8, 9, 10, 12, 13] then 2
  else if char.toNat < 32 then 6
  else char.utf8Size

def jsonStringBytes (text : String) : Nat :=
  2 + (text.toList.map jsonCharBytes).sum

/-- What one more id adds to a request that names `taken` ids. -/
def idCost (taken : Nat) (id : Id) : Nat :=
  jsonStringBytes id + (if taken > 0 then 1 else 0)

/-- The loop of `ids_that_fit`: how many more ids fit behind the `taken` ones. -/
def idsThatFitFrom (limit : Nat) : Nat → Nat → List Id → Except Error Nat
  | _, taken, [] => .ok taken
  | used, taken, id :: ids =>
    if used + idCost taken id > limit then
      if taken = 0 then .error (.requestTooLarge (used + idCost taken id) limit)
      else .ok taken
    else
      idsThatFitFrom limit (used + idCost taken id) (taken + 1) ids

def idsThatFit (used limit : Nat) (ids : List Id) : Except Error Nat :=
  if used > limit then
    .error (.requestTooLarge used limit)
  else
    idsThatFitFrom limit used 0 ids

/-- How many of the remaining ids one request has room for. -/
def fittingIds (client : Client) (method : String) (rest : List Id) : Except Error Nat :=
  match client.maxSizeRequest with
  | some limit => idsThatFit (client.emptyRequestBytes method) limit rest
  | none => .ok rest.length

/-- How many objects the server lets one request name; zero is no limit. -/
def limitObjects (client : Client) (take : Nat) : Nat :=
  match client.maxObjectsInGet.filter (0 < ·) with
  | some maxObjects => min take maxObjects
  | none => take

/-- How many of the remaining ids the next chunk takes. -/
def chunkSize (client : Client) (method : String) (rest : List Id) : Except Error Nat :=
  (fittingIds client method rest).map (limitObjects client)

/-- Drop each object that was not requested. The first object without an id
stays, so that the caller can report it. -/
def keepRequested {α : Type} (requested : List Id) (id : α → Option Id) :
    Bool → List α → List α
  | _, [] => []
  | keptOne, object :: objects =>
    match id object with
    | some given =>
      if given ∈ requested then object :: keepRequested requested id keptOne objects
      else keepRequested requested id keptOne objects
    | none =>
      if keptOne then keepRequested requested id keptOne objects
      else object :: keepRequested requested id true objects

/-- Add one chunk's answer to the answers of the earlier chunks. -/
def GetResponse.extend {Object : Type} (combined : Option (GetResponse Object))
    (chunk : GetResponse Object) : GetResponse Object :=
  match combined with
  | none => chunk
  | some combined =>
    ⟨chunk.state, combined.list ++ chunk.list, combined.notFound ++ chunk.notFound⟩

theorem idsThatFitFrom_pos {limit used taken count : Nat} {ids : List Id}
    (ok : idsThatFitFrom limit used taken ids = .ok count) :
    taken ≤ count ∧ (ids ≠ [] → 0 < count) := by
  induction ids generalizing used taken with
  | nil =>
    cases ok
    exact ⟨le_rfl, fun impossible => absurd rfl impossible⟩
  | cons id ids ih =>
    simp only [idsThatFitFrom] at ok
    split at ok
    · split at ok
      · cases ok
      · cases ok
        exact ⟨le_rfl, fun _ => by omega⟩
    · have takenLt := (ih ok).1
      exact ⟨by omega, fun _ => by omega⟩

theorem limitObjects_pos {client : Client} {take : Nat} (positive : 0 < take) :
    0 < limitObjects client take := by
  unfold limitObjects
  split
  · next maxObjects limited =>
    have limitPos : 0 < maxObjects := by
      simpa using (Option.filter_eq_some_iff.mp limited).2
    exact lt_min positive limitPos
  · exact positive

section

variable {client : Client} {method : String} {rest : List Id} {take : Nat}
  (ok : chunkSize client method rest = .ok take)

include ok

theorem chunkSize_pos (nonempty : rest ≠ []) : 0 < take := by
  unfold chunkSize at ok
  cases fits : fittingIds client method rest with
  | error error =>
    rw [fits] at ok
    cases ok
  | ok fitting =>
    rw [fits] at ok
    cases ok
    apply limitObjects_pos
    unfold fittingIds at fits
    split at fits
    · unfold idsThatFit at fits
      split at fits
      · cases fits
      · exact (idsThatFitFrom_pos fits).2 nonempty
    · cases fits
      exact List.length_pos_iff.mpr nonempty

theorem chunkSize_shorter (more : rest.drop take ≠ []) : (rest.drop take).length < rest.length := by
  have remaining : take < rest.length := by
    by_contra all
    exact more (List.drop_eq_nil_of_le (not_lt.mp all))
  have nonempty : rest ≠ [] := by
    intro empty
    simp [empty] at remaining
  have positive := chunkSize_pos ok nonempty
  rw [List.length_drop]
  omega

end

section Programs

variable {lookups : Lookups} {Object : Type}

def getChunkedFrom (client : Client) (method : String) (idOf : Object → Option Id)
    (rest : List Id) (combined : Option (GetResponse Object)) :
    ClientM lookups Object Error (GetResponse Object) :=
  match _fits : chunkSize client method rest with
  | .error error => .fail error
  | .ok take => do
      let response ← ClientM.send (.get method (rest.take take))
      let chunk : GetResponse Object :=
        ⟨response.state, keepRequested (rest.take take) idOf false response.list,
          keepRequested (rest.take take) some false response.notFound⟩
      if _last : rest.drop take = [] then
        .done (GetResponse.extend combined chunk)
      else
        getChunkedFrom client method idOf (rest.drop take)
          (some (GetResponse.extend combined chunk))
termination_by rest.length
decreasing_by exact chunkSize_shorter _fits _last

/-- Read objects by id in as many requests as necessary; one request without
ids reads the current state. -/
def getChunked (client : Client) (method : String) (idOf : Object → Option Id)
    (ids : List Id) : ClientM lookups Object Error (GetResponse Object) :=
  getChunkedFrom client method idOf ids none

theorem getChunkedFrom_ok {client : Client} {method : String} {idOf : Object → Option Id}
    {rest : List Id} {combined : Option (GetResponse Object)} {take : Nat}
    (fits : chunkSize client method rest = .ok take) :
    (getChunkedFrom client method idOf rest combined :
      ClientM lookups Object Error (GetResponse Object)) =
      ClientM.send (.get method (rest.take take)) >>= fun response =>
        let chunk := GetResponse.extend combined ⟨response.state,
          keepRequested (rest.take take) idOf false response.list,
          keepRequested (rest.take take) some false response.notFound⟩
        if rest.drop take = [] then .done chunk
        else getChunkedFrom client method idOf (rest.drop take) (some chunk) := by
  rw [getChunkedFrom]
  split
  · next error failed => cases fits.symm.trans failed
  · next other same =>
    cases fits.symm.trans same
    rfl

theorem getChunked_unlimited (method : String) (idOf : Object → Option Id) (ids : List Id) :
    (getChunked {} method idOf ids : ClientM lookups Object Error (GetResponse Object)) =
      ClientM.send (.get method ids) >>= fun response =>
        .done ⟨response.state, keepRequested ids idOf false response.list,
          keepRequested ids some false response.notFound⟩ := by
  have all : chunkSize {} method ids = .ok ids.length := rfl
  rw [getChunked, getChunkedFrom_ok all, List.take_length, List.drop_length]
  rfl

theorem getChunkedFrom_sends (client : Client) (method : String) (idOf : Object → Option Id)
    (rest : List Id) (combined : Option (GetResponse Object)) :
    (getChunkedFrom client method idOf rest combined :
      ClientM lookups Object Error (GetResponse Object)).Sends
        fun call => ∃ ids, call = .get method ids := by
  induction size : rest.length using Nat.strong_induction_on generalizing rest combined with
  | _ size ih =>
  rw [getChunkedFrom]
  split
  · exact trivial
  · next take fits =>
    apply (ClientM.sends_send ⟨_, rfl⟩).bind
    intro response
    split
    · exact trivial
    · next more => exact ih _ (size ▸ chunkSize_shorter fits more) _ _ rfl

theorem getChunked_sends (client : Client) (method : String) (idOf : Object → Option Id)
    (ids : List Id) :
    (getChunked client method idOf ids :
      ClientM lookups Object Error (GetResponse Object)).Sends
        fun call => ∃ ids, call = .get method ids :=
  getChunkedFrom_sends client method idOf ids none

end Programs

/-! ## What a chunked `/get` reads -/

theorem keepRequested_mem {α : Type} {requested : List Id} {id : α → Option Id}
    {objects : List α} (keptOne : Bool)
    (named : ∀ object ∈ objects, ∃ given ∈ requested, id object = some given) :
    keepRequested requested id keptOne objects = objects := by
  induction objects generalizing keptOne with
  | nil => rfl
  | cons object objects ih =>
    obtain ⟨given, inRequested, idEq⟩ := named object List.mem_cons_self
    simp only [keepRequested, idEq, if_pos inRequested]
    rw [ih keptOne fun other mem => named other (List.mem_cons_of_mem _ mem)]

/-- The ids that the `/get` requests of a trace name, with the moments of their
answers. -/
def readsOf {lookups : Lookups} {Object : Type} (trace : Trace lookups Object) :
    List (Id × Nat) :=
  trace.flatMap fun exchange =>
    match exchange.request with
    | .get _ ids => ids.map fun id => (id, exchange.before)
    | _ => []

theorem readsOf_append {lookups : Lookups} {Object : Type} (first second : Trace lookups Object) :
    readsOf (first ++ second) = readsOf first ++ readsOf second := List.flatMap_append

/-- A response read object by object: `fetched` pairs each requested id with the
moment at which it was read. -/
structure GetResponse.Reads {Object : Type} {data : DataType Object}
    (response : GetResponse Object)
    (store : Store data) (fetched : List (Id × Nat)) : Prop where
  list : ∀ object, object ∈ response.list ↔
    ∃ read ∈ fetched, store.history.value read.2 read.1 = some object
  notFound : ∀ id, id ∈ response.notFound ↔
    ∃ read ∈ fetched, read.1 = id ∧ store.history.value read.2 id = none

section Runs

variable {lookups : Lookups} {Object : Type} {data : DataType Object} {store : Store data}
  {client : Client} {method : String} {finish start : Nat} {response : GetResponse Object}
  {ids : List Id} {trace : Trace lookups Object}

theorem Store.AnswersGet.reads {moment : Nat} {chunk : List Id}
    (answered : store.AnswersGet moment chunk response) :
    GetResponse.Reads ⟨response.state, keepRequested chunk data.id false response.list,
      keepRequested chunk some false response.notFound⟩ store
      (chunk.map fun id => (id, moment)) := by
  have list : keepRequested chunk data.id false response.list = response.list := by
    apply keepRequested_mem
    intro object mem
    obtain ⟨id, inChunk, value⟩ := (answered.list object).mp mem
    exact ⟨id, inChunk, store.id_eq value⟩
  have notFound : keepRequested chunk some false response.notFound = response.notFound := by
    apply keepRequested_mem
    intro id mem
    exact ⟨id, ((answered.notFound id).mp mem).1, rfl⟩
  constructor
  · intro object
    rw [list, answered.list]
    simp
  · intro id
    rw [notFound, answered.notFound]
    simp

theorem GetResponse.Reads.extend {combined chunk : GetResponse Object}
    {earlier later : List (Id × Nat)} (first : combined.Reads store earlier)
    (second : chunk.Reads store later) :
    (GetResponse.extend (some combined) chunk).Reads store (earlier ++ later) := by
  constructor
  · intro object
    simp only [GetResponse.extend, List.mem_append, first.list, second.list, or_and_right,
      exists_or]
  · intro id
    simp only [GetResponse.extend, List.mem_append, first.notFound, second.notFound,
      or_and_right, exists_or]

/-- The chunks that are still to be read extend what has been read. The state is the
one of the last chunk. -/
theorem getChunkedFrom_run {rest : List Id}
    {combined : Option (GetResponse Object)} {earlier : List (Id × Nat)}
    (run : store.Run start
      (getChunkedFrom client method data.id rest combined) trace (.ok response) finish)
    (before : ∀ previous ∈ combined, previous.Reads store earlier)
    (noneBefore : combined = none → earlier = []) :
    ∃ last, (readsOf trace).map Prod.fst = rest ∧ trace.getLast?.map (·.before) = some last ∧
      start ≤ last ∧ last ≤ finish ∧ (∀ read ∈ readsOf trace, start ≤ read.2 ∧ read.2 ≤ last) ∧
      response.state = store.stateAt last ∧ response.Reads store (earlier ++ readsOf trace) := by
  induction size : rest.length using Nat.strong_induction_on
    generalizing start rest combined earlier trace with
  | _ size ih =>
  rw [getChunkedFrom] at run
  split at run
  · exact run.not_failed.elim
  · next take fits =>
    obtain ⟨answer, middle, first, second, sent, after, rfl⟩ := Run.bind_ok run
    obtain ⟨_, moment, startLe, momentLe, ⟨rfl, answered⟩, rfl⟩ := Store.send_run sent
    have middleLe := after.le store.monotone
    have chunkReads := Store.AnswersGet.reads answered
    have reads : (GetResponse.extend combined ⟨answer.state,
        keepRequested (rest.take take) data.id false answer.list,
        keepRequested (rest.take take) some false answer.notFound⟩).Reads store
          (earlier ++ (rest.take take).map fun id => (id, moment)) := by
      cases combined with
      | none =>
        rw [noneBefore rfl]
        exact chunkReads
      | some previous => exact (before previous rfl).extend chunkReads
    have isRead : readsOf ([⟨moment, .get method (rest.take take), .ok answer, moment⟩] ++ second) =
        ((rest.take take).map fun id => (id, moment)) ++ readsOf second := rfl
    have chunkIds : ((rest.take take).map fun id => (id, moment)).map Prod.fst =
      rest.take take := by
      simp [Function.comp_def]
    have chunkTimes : ∀ read ∈ (rest.take take).map fun id => (id, moment), read.2 = moment := by
      intro read mem
      obtain ⟨id, -, rfl⟩ := List.mem_map.mp mem
      rfl
    rw [isRead, List.map_append, chunkIds]
    split at after
    · next last =>
      obtain ⟨rfl, outcome, -⟩ := Run.done_iff.mp after
      cases outcome
      refine ⟨moment, ?_, rfl, startLe, momentLe.trans middleLe, ?_, ?_, ?_⟩
      · conv_rhs => rw [← List.take_append_drop take rest, last]
        rfl
      · intro read mem
        rw [chunkTimes read (by simpa [readsOf] using mem)]
        exact ⟨startLe, le_rfl⟩
      · cases combined <;> exact answered.state
      · simpa [readsOf] using reads
    · next more =>
      have shorter := chunkSize_shorter fits more
      obtain ⟨last, fetchedIds, isLast, lastGe, lastLe, times, state, allReads⟩ :=
        ih _ (size ▸ shorter) after
        (fun previous same => by cases same; exact reads)
        (fun impossible => by cases impossible) rfl
      have momentToLast := momentLe.trans lastGe
      refine ⟨last, ?_, ?_, startLe.trans momentToLast, lastLe, ?_, state, ?_⟩
      · rw [fetchedIds, List.take_append_drop]
      · rw [List.getLast?_append, Option.map_or, isLast]
        rfl
      · intro read mem
        rcases List.mem_append.mp mem with inChunk | later
        · rw [chunkTimes read inChunk]
          exact ⟨startLe, momentToLast⟩
        · have bounds := times read later
          exact ⟨(startLe.trans momentLe).trans bounds.1, bounds.2⟩
      · rwa [List.append_assoc] at allReads

theorem getChunked_run
    (run : store.Run start (getChunked client method data.id ids) trace
      (.ok response) finish) :
    ∃ fetched, fetched.map Prod.fst = ids ∧
      (∀ read ∈ fetched, start ≤ read.2 ∧ read.2 ≤ finish) ∧
      response.Reads store fetched := by
  obtain ⟨last, fetchedIds, -, -, lastLe, times, -, reads⟩ :=
    getChunkedFrom_run run (fun _ impossible => by cases impossible) fun _ => rfl
  exact ⟨readsOf trace, fetchedIds, fun read mem =>
    ⟨(times read mem).1, (times read mem).2.trans lastLe⟩, reads⟩

/-- Distinct ids are each read once, so the moment is a function of the id. -/
theorem exists_readMoment {fetched : List (Id × Nat)}
    (nodup : (fetched.map Prod.fst).Nodup) (startLe : start ≤ finish)
    (times : ∀ read ∈ fetched, start ≤ read.2 ∧ read.2 ≤ finish) :
    ∃ fetch : Id → Nat, (∀ id, start ≤ fetch id ∧ fetch id ≤ finish) ∧
      ∀ id moment, (id, moment) ∈ fetched ↔
        id ∈ fetched.map Prod.fst ∧ moment = fetch id := by
  classical
  let fetch : Id → Nat := fun id =>
    if found : ∃ read ∈ fetched, read.1 = id then found.choose.2 else start
  have fetchEq : ∀ read ∈ fetched, fetch read.1 = read.2 := by
    intro read mem
    have found : ∃ other ∈ fetched, other.1 = read.1 := ⟨read, mem, rfl⟩
    have chosen := found.choose_spec
    simp only [fetch, dif_pos found]
    rw [List.inj_on_of_nodup_map nodup chosen.1 mem chosen.2]
  refine ⟨fetch, ?_, ?_⟩
  · intro id
    by_cases found : ∃ read ∈ fetched, read.1 = id
    · simp only [fetch, dif_pos found]
      exact times _ found.choose_spec.1
    · simp only [fetch, dif_neg found]
      exact ⟨le_rfl, startLe⟩
  · intro id moment
    constructor
    · intro mem
      exact ⟨List.mem_map_of_mem mem, (fetchEq _ mem).symm⟩
    · intro ⟨mem, momentEq⟩
      obtain ⟨read, readIn, rfl⟩ := List.mem_map.mp mem
      rw [momentEq, fetchEq read readIn]
      exact readIn

theorem getChunked_run_nodup (nodup : ids.Nodup)
    (run : store.Run start (getChunked client method data.id ids) trace
      (.ok response) finish) :
    ∃ fetch : Id → Nat, (∀ id, start ≤ fetch id ∧ fetch id ≤ finish) ∧
      (∀ object, object ∈ response.list ↔
        ∃ id ∈ ids, store.history.value (fetch id) id = some object) ∧
      (∀ id, id ∈ response.notFound ↔
        id ∈ ids ∧ store.history.value (fetch id) id = none) := by
  obtain ⟨fetched, rfl, times, reads⟩ := getChunked_run run
  obtain ⟨fetch, window, readIff⟩ := exists_readMoment nodup (run.le store.monotone) times
  refine ⟨fetch, window, ?_, ?_⟩
  · intro object
    rw [reads.list]
    constructor
    · intro ⟨⟨id, moment⟩, mem, value⟩
      obtain ⟨idIn, rfl⟩ := (readIff id moment).mp mem
      exact ⟨id, idIn, value⟩
    · intro ⟨id, mem, value⟩
      exact ⟨(id, fetch id), (readIff _ _).mpr ⟨mem, rfl⟩, value⟩
  · intro id
    rw [reads.notFound]
    constructor
    · intro ⟨⟨given, moment⟩, mem, named, value⟩
      obtain ⟨idIn, rfl⟩ := (readIff given moment).mp mem
      cases named
      exact ⟨idIn, value⟩
    · intro ⟨mem, value⟩
      exact ⟨(id, fetch id), (readIff _ _).mpr ⟨mem, rfl⟩, rfl, value⟩

theorem getChunked_single
    (run : store.Run start (getChunked client method data.id ids) trace
      (.ok response) finish) (short : ids.length ≤ 1) :
    ∃ moment, start ≤ moment ∧ moment ≤ finish ∧ readsOf trace = ids.map (fun id => (id, moment)) ∧
      response.state = store.stateAt moment ∧
      response.Reads store (ids.map fun id => (id, moment)) := by
  rw [getChunked, getChunkedFrom] at run
  split at run
  · exact run.not_failed.elim
  · next take fits =>
    obtain ⟨answer, middle, first, second, sent, after, rfl⟩ := Run.bind_ok run
    obtain ⟨_, moment, startLe, momentLe, ⟨rfl, answered⟩, rfl⟩ := Store.send_run sent
    have middleLe := after.le store.monotone
    have all : ids.length ≤ take := by
      cases ids with
      | nil => exact Nat.zero_le _
      | cons id ids =>
        have positive := chunkSize_pos fits (List.cons_ne_nil _ _)
        omega
    rw [dif_pos (List.drop_eq_nil_of_le all)] at after
    obtain ⟨rfl, outcome, -⟩ := Run.done_iff.mp after
    cases outcome
    have reads := Store.AnswersGet.reads answered
    rw [List.take_of_length_le all] at reads
    exact ⟨moment, startLe, momentLe.trans middleLe, by simp [readsOf, List.take_of_length_le all],
      answered.state, by simpa [GetResponse.extend, List.take_of_length_le all] using reads⟩

/-- Every change of a returned object after its read is reported by each `/changes`
from the state. -/
def Store.Resumable (store : Store data) (state : State) (fetched : List (Id × Nat)) : Prop :=
  ∀ read ∈ fetched, store.history.value read.2 read.1 ≠ none → ∀ now changes,
    store.AnswersChanges now state changes →
    store.history.Changed read.1 read.2 (store.cut changes.newState read.1) →
    read.1 ∈ changes.updated ∨ read.1 ∈ changes.destroyed

/-- The combined state is the one of the last chunk. It is safe to go on from exactly if
no returned object changes between its read and the last chunk, both as the trace has
them. -/
theorem getChunked_resumable_iff
    (run : store.Run start (getChunked client method data.id ids) trace
      (.ok response) finish) :
    ∃ last, trace.getLast?.map (·.before) = some last ∧ (readsOf trace).map Prod.fst = ids ∧
      start ≤ last ∧ last ≤ finish ∧ (∀ read ∈ readsOf trace, start ≤ read.2 ∧ read.2 ≤ last) ∧
      response.Reads store (readsOf trace) ∧
      (store.Resumable response.state (readsOf trace) ↔ ∀ read ∈ readsOf trace,
        store.history.value read.2 read.1 ≠ none → ¬ store.history.Changed read.1 read.2 last) := by
  obtain ⟨last, fetchedIds, isLast, lastGe, lastLe, times, state, reads⟩ :=
    getChunkedFrom_run run (fun _ impossible => by cases impossible) fun _ => rfl
  refine ⟨last, isLast, fetchedIds, lastGe, lastLe, times, reads, ?_⟩
  constructor
  · intro safe read mem held changed
    -- nothing happens after the last chunk, so nothing has to be reported
    have silent : store.AnswersChanges last response.state ⟨response.state, false, [], [], []⟩ := by
      refine ⟨fun _ => le_rfl, fun id => ?_, fun id => .refl, fun _ => state⟩
      rw [state, store.cut_stateAt]
    rw [← store.cut_stateAt last read.1, ← state] at changed
    rcases safe read mem held last _ silent changed with updated | destroyed
    · exact List.not_mem_nil updated
    · exact List.not_mem_nil destroyed
  · intro still read mem held now changes answered ⟨moment, afterRead, before, differs⟩
    have unchanged := still read mem held
    have atLast := ChangeFeed.History.value_eq_of_not_changed (times read mem).2 unchanged
    have afterLast : last ≤ moment := by
      by_contra early
      exact unchanged ⟨moment, afterRead, Nat.not_le.mp early, differs⟩
    have reports := answered.reports read.1
    rw [state, store.cut_stateAt] at reports
    rw [← atLast] at held
    by_cases gone : store.history.value (store.cut changes.newState read.1) read.1 = none
    · exact .inr (of_decide_eq_true (reports.lost held gone).2)
    · exact .inl (of_decide_eq_true
        ((reports.kept held gone).2.2 ⟨moment, afterLast, before, differs⟩))

end Runs

/-! ## A change between two chunks -/

def revised : DataType (Id × Nat) := ⟨fun object => some object.1, fun _ => none⟩

def revisedStore : Store revised :=
  .ofLives revised [("a", ⟨0, none, fun moment => ("a", min moment 1)⟩),
    ("b", ⟨0, none, fun _ => ("b", 0)⟩)] (by decide) (by simp [revised]) fun _ _ _ => False

def revisedTrace : Trace .none (Id × Nat) :=
  [⟨0, .get "Foo/get" ["a"], .ok ⟨"", [("a", 0)], []⟩, 0⟩,
    ⟨1, .get "Foo/get" ["b"], .ok ⟨"x", [("b", 0)], []⟩, 1⟩]

theorem revised_run :
    Run (revisedStore.service .none) 0
      (getChunked { maxObjectsInGet := some 1 } "Foo/get" revised.id ["a", "b"]) revisedTrace
      (.ok ⟨"x", [("a", 0), ("b", 0)], []⟩) 1 := by
  have first : chunkSize { maxObjectsInGet := some 1 } "Foo/get" ["a", "b"] = .ok 1 := rfl
  have second : chunkSize { maxObjectsInGet := some 1 } "Foo/get" ["b"] = .ok 1 := rfl
  rw [getChunked, getChunkedFrom_ok first]
  refine .call ⟨rfl, revisedStore.answersGet_all 0 ["a"]⟩ (.move rfl ?_)
  change Run _ _ (getChunkedFrom _ _ _ ["b"] _) _ _ _
  rw [getChunkedFrom_ok second]
  exact .call ⟨rfl, revisedStore.answersGet_all 1 ["b"]⟩ .done

theorem getChunked_resumable_revised :
    readsOf revisedTrace = [("a", 0), ("b", 1)] ∧
    (revisedStore.Resumable "x" (readsOf revisedTrace) ↔ ∀ read ∈ readsOf revisedTrace,
      revisedStore.history.value read.2 read.1 ≠ none →
        ¬ revisedStore.history.Changed read.1 read.2 1) := by
  obtain ⟨last, isLast, -, -, -, -, -, safe⟩ := getChunked_resumable_iff revised_run
  cases isLast
  exact ⟨rfl, safe⟩

/-- The first object changes after its read, and `/changes` from the combined state
does not say so. -/
theorem getChunked_forgets :
    ∃ trace response finish, Run (revisedStore.service .none) 0
        (getChunked { maxObjectsInGet := some 1 } "Foo/get" revised.id ["a", "b"]) trace
        (.ok response) finish ∧
      ("a", 0) ∈ response.list ∧ revisedStore.history.Changed "a" 0 1 ∧
      revisedStore.AnswersChanges 1 response.state ⟨"x", false, [], [], []⟩ := by
  refine ⟨_, _, _, revised_run, List.mem_cons_self, by decide, ?_⟩
  apply Store.ofLives_answersChanges <;> decide

end EvolutionJmap
