import EvolutionJmap.ChangeFeed
import EvolutionJmap.Client.Protocol
import EvolutionJmap.Paging

/-!
# A conforming server

`Store` is one data type of one account on a server that follows RFC 8620 §5.1
to §5.5.  Time is the number of changes that the account has seen, and the whole
history is fixed in advance, so quantifying over stores quantifies over everything
that other clients do.
-/

namespace EvolutionJmap

open ChangeFeed Interaction List

/-- A server that keeps the objects of one type over time. -/
structure Store {Object : Type} (data : DataType Object) where
  history : History Id Object
  patched : Patch → Object → Object → Prop
  /-- The state string of the data at a moment. -/
  stateAt : Nat → State
  /-- What a state string stands for: how far each object's changes are
  included. The server may order the changes of different objects as it likes
  when it splits a delta, so the moment depends on the object. -/
  cut : State → Id → Nat
  /-- The order of query results. -/
  precedes : Id → Id → Prop
  /-- The results of the collection's query at a moment. -/
  listing : Id → Nat → List Id
  id_eq : ∀ {moment : Nat} {id : Id} {object : Object},
    history.value moment id = some object → data.id object = some id
  cut_stateAt : ∀ (moment : Nat) (id : Id), cut (stateAt moment) id = moment
  strictOrder : IsStrictOrder Id precedes
  listing_sorted : ∀ (collection : Id) (moment : Nat),
    (listing collection moment).Pairwise precedes
  mem_listing : ∀ {collection id : Id} {moment : Nat},
    id ∈ listing collection moment ↔
      ∃ object, history.value moment id = some object ∧ data.filed collection object

variable {moment : Nat}

namespace Store

variable {Object : Type} {data : DataType Object} {lookups : Lookups}

instance (store : Store data) : IsStrictOrder Id store.precedes := store.strictOrder

def marksOf (response : ChangesResponse) (id : Id) : Marks :=
  ⟨id ∈ response.created, id ∈ response.updated, id ∈ response.destroyed⟩

/-- A `/changes` response moves every object's cut forward, reports what that
passes over, and reaches the present if nothing is left (RFC 8620 §5.2). -/
structure AnswersChanges (store : Store data) (moment : Nat) (since : State)
    (response : ChangesResponse) : Prop where
  forward : ∀ id, store.cut since id ≤ store.cut response.newState id
  past : ∀ id, store.cut response.newState id ≤ moment
  reports : ∀ id, Reports store.history id (store.cut since id)
    (store.cut response.newState id) (marksOf response id)
  last : response.hasMoreChanges = false → response.newState = store.stateAt moment

/-- A `/get` response holds the requested objects that exist, names the others,
and gives the state they belong to (RFC 8620 §5.1). -/
structure AnswersGet (store : Store data) (moment : Nat) (ids : List Id)
    (response : GetResponse Object) : Prop where
  state : response.state = store.stateAt moment
  list : ∀ object, object ∈ response.list ↔
    ∃ id ∈ ids, store.history.value moment id = some object
  notFound : ∀ id, id ∈ response.notFound ↔
    id ∈ ids ∧ store.history.value moment id = none

/-- A `/query` response is a page of the results with their number. A server
that states no limit gives all the remaining results (RFC 8620 §5.5). -/
structure AnswersQuery (store : Store data) (moment : Nat) (collection : Id)
    (position : Nat) (response : QueryResponse) : Prop where
  ids : ∃ size, response.ids = Paging.page (store.listing collection moment) position size
  total : response.total = some (store.listing collection moment).length
  unlimited : response.limit = none →
    response.ids = (store.listing collection moment).drop position

/-- One object was patched and nothing else changed. -/
structure Applied (store : Store data) (moment : Nat) (request : UpdateRequest) :
    Prop where
  patched : ∃ before after, store.history.value moment request.id = some before ∧
    store.patched request.patch before after ∧
    store.history.value (moment + 1) request.id = some after
  others : ∀ id, id ≠ request.id →
    store.history.value (moment + 1) id = store.history.value moment id

/-- Errors after which the client cannot know whether the request was carried
out. Every other error is a refusal. -/
def Lost : Error → Prop
  | .transport _ | .json _ | .http _ | .cancelled | .rateLimited _ | .other => True
  | .method error => error.errorType = "serverPartialFail"
  | _ => False

variable (store : Store data)

/-- A `/set` with one update (RFC 8620 §5.3). It is carried out only in the state
that `ifInState` names, and only if the response reports the update. -/
def AnswersUpdate (moment : Nat) (request : UpdateRequest) :
    Except Error UpdateResponse → Nat → Prop
  | .ok response, after =>
    (after = moment + 1 ∧ request.id ∈ response.updated ∧
      (∀ state, request.ifInState = some state → state = store.stateAt moment) ∧
      store.Applied moment request) ∨
    (after = moment ∧ request.id ∉ response.updated)
  | .error error, after =>
    (after = moment) ∨
    (after = moment + 1 ∧ Lost error ∧
      (∀ state, request.ifInState = some state → state = store.stateAt moment) ∧
      store.Applied moment request)

/-- How the server answers a request. -/
def Answers (moment : Nat) : (call : Call lookups) → call.Answer Object → Nat → Prop
  | .changes _ since, .ok response, after =>
    after = moment ∧ store.AnswersChanges moment since response
  | .get _ ids, .ok response, after =>
    after = moment ∧ store.AnswersGet moment ids response
  | .query _ collection position, .ok response, after =>
    after = moment ∧ store.AnswersQuery moment collection position response
  | .update _ request, answer, after => store.AnswersUpdate moment request answer after
  | .lookup _, .ok _, after => after = moment
  | .changes _ _, .error _, after => after = moment
  | .get _ _, .error _, after => after = moment
  | .query _ _ _, .error _, after => after = moment
  | .lookup _, .error _, after => after = moment

/-- The server together with the other clients. -/
def service (lookups : Lookups) : Service (Call lookups) (Call.Answer Object) Nat where
  answers := store.Answers
  moves before after := after = before + 1

theorem monotone : (store.service lookups).Monotone where
  moves_le move := by
    subst move
    exact Nat.le_succ _
  answers_le {before after request answer} answered := by
    change store.Answers before request answer after at answered
    cases request with
    | changes _ _ | get _ _ | query _ _ _ =>
      cases answer with
      | ok response => exact le_of_eq answered.1.symm
      | error error => exact le_of_eq (Eq.symm answered)
    | update method request =>
      cases answer with
      | ok response =>
        rcases answered with ⟨rfl, _⟩ | ⟨rfl, _⟩
        · exact Nat.le_succ _
        · exact le_rfl
      | error error =>
        rcases answered with rfl | ⟨rfl, _⟩
        · exact le_rfl
        · exact Nat.le_succ _
    | lookup request => cases answer <;> exact le_of_eq (Eq.symm answered)

/-- A run of a program of the client against the server. -/
abbrev Run (store : Store data) {ε α : Type} (start : Nat) (program : ClientM lookups Object ε α)
    (trace : Trace lookups Object) (outcome : Except ε α) (finish : Nat) : Prop :=
  Interaction.Run (store.service lookups) start program trace outcome finish

theorem send_run {store : Store data} {start finish : Nat}
    {trace : Trace lookups Object}
    {call : Call lookups} {response : call.Response Object}
    (run : store.Run start (ClientM.send call) trace (.ok response) finish) :
    ∃ moment after, start ≤ moment ∧ after ≤ finish ∧
      store.Answers moment call (.ok response) after ∧
      trace = [⟨moment, call, .ok response, after⟩] := by
  obtain ⟨moment, answer, after, rest, moves, answered, resumed, traceEq⟩ :=
    Run.call_iff.mp run
  have startLe := store.monotone.of_reflTransGen moves
  have finishLe := resumed.le store.monotone
  cases answer with
  | error error =>
    exact resumed.not_failed.elim
  | ok value =>
    obtain ⟨restEq, valueEq, -⟩ := Run.done_iff.mp resumed
    cases valueEq
    subst restEq
    exact ⟨moment, after, startLe, finishLe, answered, traceEq⟩

/-- The life of one object: when it is created, when it is destroyed, and its
value in between. -/
structure Life (Object : Type) where
  born : Nat
  died : Option Nat
  content : Nat → Object

def Life.valueAt (life : Life Object) (moment : Nat) : Option Object :=
  if life.born ≤ moment ∧ life.died.all (fun died => decide (moment < died)) = true then
    some (life.content moment)
  else
    none

theorem Life.valueAt_eq_none {life : Life Object} :
    life.valueAt moment = none ↔ moment < life.born ∨ ∃ died ∈ life.died, died ≤ moment := by
  unfold valueAt
  cases life.died with
  | none => simp
  | some died => simp [imp_iff_not_or]

theorem Life.valueAt_none {life : Life Object} {earlier later latest : Nat}
    (earlierLe : earlier ≤ later) (laterLe : later ≤ latest)
    (held : life.valueAt earlier ≠ none) (lost : life.valueAt later = none) :
    life.valueAt latest = none := by
  rw [ne_eq, valueAt_eq_none, not_or, not_lt] at held
  rw [valueAt_eq_none] at lost ⊢
  cases lost with
  | inl early => exact absurd (held.1.trans earlierLe) (not_le.mpr early)
  | inr ended =>
    cases ended with
    | intro died ended => exact .inr ⟨died, ended.1, ended.2.trans laterLe⟩

theorem mem_of_lookup {Value : Type} {entries : List (Id × Value)} {id : Id} {value : Value}
    (found : entries.lookup id = some value) : (id, value) ∈ entries := by
  obtain ⟨front, back, split, -⟩ := lookup_eq_some_iff.mp found
  simp [split]

/-- A server whose data is the given objects, in the order of their ids. -/
def ofLives (data : DataType Object) (lives : List (Id × Life Object))
    (sorted : (lives.map Prod.fst).Pairwise (· < ·))
    (named : ∀ entry ∈ lives, ∀ moment, data.id (entry.2.content moment) = some entry.1)
    (patched : Patch → Object → Object → Prop) : Store data where
  history := {
    value := fun moment id => (lives.lookup id).bind (·.valueAt moment)
    no_reuse := by
      intro id earlier later latest earlierLe laterLe held lost
      cases found : lives.lookup id with
      | none => rfl
      | some life =>
        rw [found] at held lost
        exact Life.valueAt_none earlierLe laterLe held lost }
  patched := patched
  stateAt moment := String.ofList (List.replicate moment 'x')
  cut state _ := state.toList.length
  precedes := (· < ·)
  listing collection moment := (lives.map Prod.fst).filter fun id =>
    (((lives.lookup id).bind (·.valueAt moment)).bind data.membership).bind (·.get? collection) =
      some true
  id_eq := by
    intro moment id object found
    cases member : lives.lookup id with
    | none => simp [member] at found
    | some life =>
      simp only [member, Option.bind_some, Life.valueAt] at found
      split at found
      · cases found
        exact named (id, life) (mem_of_lookup member) moment
      · cases found
  cut_stateAt moment _ := by simp
  strictOrder := inferInstance
  listing_sorted collection moment := sorted.filter _
  mem_listing := by
    intro collection id moment
    simp only [mem_filter, decide_eq_true_eq]
    constructor
    · intro listed
      cases held : (lives.lookup id).bind (·.valueAt moment) with
      | none => simp [held] at listed
      | some object =>
        rw [held] at listed
        exact ⟨object, rfl, listed.2⟩
    · intro filed
      cases filed with
      | intro object filed =>
        refine ⟨?_, by rw [filed.1]; exact filed.2⟩
        cases member : lives.lookup id with
        | none => simp [member] at filed
        | some life =>
          exact mem_map.mpr ⟨(id, life), mem_of_lookup member, rfl⟩

theorem ofLives_never {lives : List (Id × Life Object)}
    {sorted : (lives.map Prod.fst).Pairwise (· < ·)}
    {named : ∀ entry ∈ lives, ∀ moment, data.id (entry.2.content moment) = some entry.1}
    {patched : Patch → Object → Object → Prop} {id : Id} (other : id ∉ lives.map Prod.fst)
    (moment : Nat) : (ofLives data lives sorted named patched).history.value moment id = none := by
  have missing : lives.lookup id = none := by
    rw [lookup_eq_none_iff]
    intro entry mem
    simpa using fun same => other (mem_map.mpr ⟨entry, mem, same.symm⟩)
  simp [ofLives, missing]

theorem ofLives_unborn {life : Life Object} {sorted : ([("a", life)].map Prod.fst).Pairwise (· < ·)}
    {named : ∀ entry ∈ [("a", life)], ∀ moment, data.id (entry.2.content moment) = some entry.1}
    {patched : Patch → Object → Object → Prop} (born : 0 < life.born) (id : Id) :
    (ofLives data [("a", life)] sorted named patched).history.value 0 id = none := by
  by_cases isNewcomer : id = "a"
  · subst isNewcomer
    exact Life.valueAt_eq_none.mpr (.inl born)
  · exact ofLives_never (by simpa using isNewcomer) 0

theorem ofLives_answersChanges {lives : List (Id × Life Object)}
    {sorted : (lives.map Prod.fst).Pairwise (· < ·)}
    {named : ∀ entry ∈ lives, ∀ moment, data.id (entry.2.content moment) = some entry.1}
    {patched : Patch → Object → Object → Prop} {since : State} {response : ChangesResponse}
    (forward : since.toList.length ≤ response.newState.toList.length)
    (past : response.newState.toList.length ≤ moment)
    (mentions : response.created ++ response.updated ++ response.destroyed ⊆ lives.map Prod.fst)
    (reports : ∀ id ∈ lives.map Prod.fst, Reports (ofLives data lives sorted named patched).history
      id since.toList.length response.newState.toList.length (marksOf response id))
    (last : response.hasMoreChanges = false →
      response.newState = String.ofList (List.replicate moment 'x')) :
    (ofLives data lives sorted named patched).AnswersChanges moment since response where
  forward _ := forward
  past _ := past
  reports id := by
    by_cases known : id ∈ lives.map Prod.fst
    · exact reports id known
    · have silent : marksOf response id = .none := by
        have unmentioned : id ∉ response.created ++ response.updated ++ response.destroyed :=
          fun mem => known (mentions mem)
        simpa [marksOf, Marks.none, and_assoc] using unmentioned
      rw [silent]
      exact .of_never (ofLives_never known)
  last := last

theorem answersGet_all (moment : Nat) (ids : List Id) :
    store.AnswersGet moment ids ⟨store.stateAt moment, ids.filterMap (store.history.value moment),
      ids.filter fun id => (store.history.value moment id).isNone⟩ where
  state := rfl
  list object := by simp
  notFound id := by simp

theorem answersQuery_page (moment : Nat) (collection : Id) (position size : Nat) :
    store.AnswersQuery moment collection position
      ⟨Paging.page (store.listing collection moment) position size,
        some (store.listing collection moment).length, some size⟩ where
  ids := ⟨size, rfl⟩
  total := rfl
  unlimited impossible := nomatch impossible

theorem send_trace {store : Store data} {start finish : Nat}
    {trace : Trace lookups Object}
    {call : Call lookups} {outcome : call.Answer Object}
    (run : store.Run start (ClientM.send call) trace outcome finish) :
    ∃ before after, trace = [⟨before, call, outcome, after⟩] := by
  obtain ⟨before, answer, after, rest, -, -, resumed, traceEq⟩ := Run.call_iff.mp run
  cases answer with
  | ok response =>
    obtain ⟨rfl, rfl, -⟩ := Run.done_iff.mp resumed
    exact ⟨before, after, traceEq⟩
  | error error =>
    obtain ⟨rfl, rfl, -⟩ := Run.fail_iff.mp resumed
    exact ⟨before, after, traceEq⟩

end Store

end EvolutionJmap
