import EvolutionJmap.Client.Changes

/-!
# Every id that a query matches (`jmap-client`, `query.rs`)

`queryEveryId` reads the results of a query page by page, each from the position the
earlier pages reached, and compares their number with the server's total.  The total of
the last page makes the list complete while nothing leaves the collection.
-/

namespace EvolutionJmap

open Interaction List

def maxQueryPages : Nat := 1024

/-- Charge every id of a page; `none` when one does not fit. -/
def chargeAll : IdBudget → List Id → Option IdBudget
  | budget, [] => some budget
  | budget, id :: ids =>
    match budget.charge id with
    | some budget => chargeAll budget ids
    | none => none

section Programs

variable {lookups : Lookups} {Object : Type}

/-- What the last page makes of the ids that were read. -/
def checkTotal (method : String) (ids : List Id) (total : Option Nat) :
    Except Error (List Id) :=
  match total with
  | some total =>
    if total ≠ ids.length then
      .error (.protocol
        s!"{method} gave {ids.length} ids, but reports a total of {total}")
    else
      .ok ids
  | none => .ok ids

def queryEveryIdFrom (method : String) (collection : Id) :
    Nat → List Id → IdBudget → ClientM lookups Object Error (List Id)
  | 0, _, _ => .fail (.protocol s!"{method} never stopped reporting a limited answer")
  | pages + 1, ids, budget => do
      let response ← ClientM.send (.query method collection ids.length)
      match chargeAll budget response.ids with
      | none =>
        .fail (.protocol s!"{method} reports more ids than the budget for one sync")
      | some budget =>
        -- no limit: all remaining ids are in this page; a limited empty page: none remain
        if response.limit.isNone || response.ids.isEmpty then
          .ofExcept (checkTotal method (ids ++ response.ids) response.total)
        else
          queryEveryIdFrom method collection pages (ids ++ response.ids) budget

/-- All pages of `method` for the objects filed in `collection`. -/
def queryEveryId (client : Client) (method : String) (collection : Id) :
    ClientM lookups Object Error (List Id) :=
  queryEveryIdFrom method collection maxQueryPages [] client.idBudget

end Programs

theorem checkTotal_ok {method : String} {ids result : List Id} {total : Option Nat}
    (ok : checkTotal method ids total = .ok result) :
    result = ids ∧ ∀ count, total = some count → count = ids.length := by
  cases total with
  | none =>
    cases ok
    exact ⟨rfl, fun count impossible => by cases impossible⟩
  | some count =>
    simp only [checkTotal] at ok
    by_cases differs : count ≠ ids.length
    · rw [if_pos differs] at ok
      cases ok
    · rw [if_neg differs] at ok
      cases ok
      refine ⟨rfl, fun other same => ?_⟩
      cases same
      exact not_not.mp differs

section Runs

variable {lookups : Lookups} {Object : Type} {data : DataType Object} {store : Store data}
  {method : String} {collection : Id} {finish start : Nat} {result ids : List Id} {client : Client}
  {budget : IdBudget} {trace : Trace lookups Object}

/-- One iteration of the loop: a page was answered, and the loop ends with the
total of that page or goes on behind it. -/
theorem queryEveryIdFrom_step {pages start : Nat}
    (run : store.Run start
      (queryEveryIdFrom method collection (pages + 1) ids budget) trace (.ok result) finish) :
    ∃ moment response answer rest,
      start ≤ moment ∧ moment ≤ finish ∧
      store.AnswersQuery moment collection ids.length response ∧
      trace = ⟨moment, .query method collection ids.length, answer, moment⟩ :: rest ∧
      ((result = ids ++ response.ids ∧
          (store.listing collection moment).length = (ids ++ response.ids).length ∧
          rest = []) ∨
        ∃ budget' middle, moment ≤ middle ∧ store.Run middle
          (queryEveryIdFrom method collection pages (ids ++ response.ids) budget')
          rest (.ok result) finish) := by
  obtain ⟨response, middle, first, second, sent, rest, rfl⟩ := Run.bind_ok run
  obtain ⟨moment, after, startLe, momentLe, ⟨rfl, answered⟩, rfl⟩ := Store.send_run sent
  have middleLe := rest.le store.monotone
  refine ⟨after, response, .ok response, second, startLe, momentLe.trans middleLe, answered,
    rfl, ?_⟩
  cases charged : chargeAll budget response.ids with
  | none =>
    simp only [charged] at rest
    exact rest.not_failed.elim
  | some budget' =>
    simp only [charged] at rest
    split at rest
    · cases checked : checkTotal method (ids ++ response.ids) response.total with
      | error error =>
        rw [checked] at rest
        exact rest.not_failed.elim
      | ok value =>
        rw [checked] at rest
        obtain ⟨noMore, outcome, -⟩ := Run.done_iff.mp rest
        cases outcome
        obtain ⟨resultEq, total⟩ := checkTotal_ok checked
        exact .inl ⟨resultEq, total _ answered.total, noMore⟩
    · exact .inr ⟨budget', middle, momentLe, rest⟩

section

variable (pages : Nat)
  (run : store.Run start
    (queryEveryIdFrom method collection pages ids budget) trace (.ok result) finish)

include pages run

theorem queryEveryIdFrom_sound {id : Id} (listed : id ∈ result) :
    id ∈ ids ∨ ∃ moment, start ≤ moment ∧ moment ≤ finish ∧
      id ∈ store.listing collection moment := by
  induction pages generalizing start ids budget trace with
  | zero =>
    exact run.not_failed.elim
  | succ pages ih =>
    obtain ⟨moment, response, answer, rest, startLe, finishLe, answered, -, ends⟩ :=
      queryEveryIdFrom_step run
    obtain ⟨size, page⟩ := answered.ids
    have onPage : id ∈ ids ++ response.ids → id ∈ ids ∨ ∃ moment,
        start ≤ moment ∧ moment ≤ finish ∧ id ∈ store.listing collection moment := by
      intro mem
      rcases mem_append.mp mem with earlier | here
      · exact .inl earlier
      · rw [page] at here
        exact .inr ⟨moment, startLe, finishLe,
          mem_of_mem_drop (mem_of_mem_take here)⟩
    rcases ends with ⟨resultEq, -, -⟩ | ⟨budget', middle, momentLe, next⟩
    · exact onPage (resultEq ▸ listed)
    · rcases ih next with mem | ⟨later, laterGe, laterLe, mem⟩
      · exact onPage mem
      · exact .inr ⟨later, (startLe.trans momentLe).trans laterGe, laterLe, mem⟩

theorem queryEveryIdFrom_queries : ∀ exchange ∈ trace, exchange.request.isQuery = true := by
  induction pages generalizing start ids budget trace with
  | zero =>
    exact run.not_failed.elim
  | succ pages ih =>
    obtain ⟨moment, response, answer, rest, -, -, -, rfl, ends⟩ := queryEveryIdFrom_step run
    intro exchange mem
    rcases mem_cons.mp mem with same | later
    · subst same
      rfl
    · rcases ends with ⟨-, -, empty⟩ | ⟨budget', middle, momentLe, next⟩
      · subst empty
        cases later
      · exact ih next exchange later

end

/-- Nothing leaves the collection between two query pages of `trace`. -/
def Steady (store : Store data) (collection : Id)
    (trace : Trace lookups Object) : Prop :=
  ∀ first ∈ trace, ∀ last ∈ trace, first.request.isQuery = true →
    last.request.isQuery = true → ∀ moment, first.before ≤ moment → moment < last.before →
      store.listing collection moment ⊆ store.listing collection (moment + 1)

theorem Steady.subset {trace part : Trace lookups Object}
    (steady : Steady store collection trace) (subset : part ⊆ trace) :
    Steady store collection part :=
  fun first firstIn last lastIn => steady first (subset firstIn) last (subset lastIn)

theorem steady_of_at (moment : Nat) (atMoment : ∀ exchange ∈ trace,
    exchange.request.isQuery = true → exchange.before = moment) :
    Steady store collection trace := by
  intro first firstIn last lastIn firstQuery lastQuery between firstLe lt
  have firstAt := atMoment first firstIn firstQuery
  have lastAt := atMoment last lastIn lastQuery
  omega

theorem steady_of_quiet {ε α : Type} {moment : Nat}
    {program : ClientM lookups Object ε α} {outcome : Except ε α}
    (run : store.Run moment program trace outcome moment) :
    Steady store collection trace := by
  intro first firstIn last lastIn _ _ between firstLe lt
  have startLe := (run.mem_trace store.monotone firstIn).1
  obtain ⟨-, afterLe, answered⟩ := run.mem_trace store.monotone lastIn
  have beforeLe := store.monotone.answers_le answered
  omega

theorem Steady.rank_le {trace : Trace lookups Object}
    (steady : Steady store collection trace)
    (queries : ∀ exchange ∈ trace, exchange.request.isQuery = true)
    {first last : Exchange (Call lookups) (Call.Answer Object) Nat}
    (firstIn : first ∈ trace) (lastIn : last ∈ trace) (le : first.before ≤ last.before)
    (id : Id) :
    Paging.rank store.precedes (store.listing collection first.before) id ≤
      Paging.rank store.precedes (store.listing collection last.before) id := by
  have grows : ∀ moment, first.before ≤ moment → moment ≤ last.before →
      store.listing collection first.before ⊆ store.listing collection moment := by
    intro moment firstLe
    induction moment, firstLe using Nat.le_induction with
    | base => exact fun _ => List.Subset.refl _
    | succ moment firstLe ih =>
      intro momentLe
      exact List.Subset.trans (ih (Nat.le_of_succ_le momentLe))
        (steady first firstIn last lastIn (queries first firstIn) (queries last lastIn)
          moment firstLe momentLe)
  exact Paging.rank_mono (store.listing_sorted _ _).nodup
    (grows last.before le le_rfl)

/-- An id that no page may step over is listed. The invariant is that the next
page starts at or in front of it. -/
theorem queryEveryIdFrom_complete (pages : Nat)
    (run : store.Run start
      (queryEveryIdFrom method collection pages ids budget) trace (.ok result) finish)
    (steady : Steady store collection trace) {id : Id}
    (present : ∀ moment, start ≤ moment → moment ≤ finish →
      id ∈ store.listing collection moment)
    (reached : ∀ exchange ∈ trace.head?, id ∈ ids ∨
      ids.length ≤ Paging.rank store.precedes (store.listing collection exchange.before) id) :
    id ∈ result := by
  induction pages generalizing start ids budget trace with
  | zero =>
    exact run.not_failed.elim
  | succ pages ih =>
    obtain ⟨moment, response, answer, rest, startLe, finishLe, answered, rfl, ends⟩ :=
      queryEveryIdFrom_step run
    obtain ⟨size, page⟩ := answered.ids
    have listed := present moment startLe finishLe
    -- after this page the id has been read or lies behind everything read
    have behind : id ∈ ids ++ response.ids ∨ (ids ++ response.ids).length ≤
        Paging.rank store.precedes (store.listing collection moment) id := by
      rcases reached _ rfl with read | inFront
      · exact .inl (mem_append_left _ read)
      · by_cases onPage : id ∈ response.ids
        · exact .inl (mem_append_right _ onPage)
        · rw [page] at onPage
          have pageLe := Paging.page_length_le_rank (store.listing_sorted _ _) listed
            inFront onPage
          rw [← page, ← length_append] at pageLe
          exact .inr pageLe
    rcases ends with ⟨resultEq, total, -⟩ | ⟨budget', middle, momentLe, next⟩
    · rw [resultEq]
      apply behind.resolve_right
      intro lengthLe
      have rankLt := Paging.rank_lt_length store.precedes listed
      omega
    · apply ih next (steady.subset (subset_cons_self _ _))
      · intro later laterGe
        exact present later ((startLe.trans momentLe).trans laterGe)
      · intro exchange isNext
        have mem : exchange ∈ rest := mem_of_mem_head? isNext
        have momentLe' : moment ≤ exchange.before :=
          momentLe.trans (next.mem_trace store.monotone mem).1
        exact behind.imp_right fun lengthLe =>
          lengthLe.trans (steady.rank_le (queryEveryIdFrom_queries _ run)
            mem_cons_self (mem_cons_of_mem _ mem) momentLe' id)

section

variable
  (run : store.Run start (queryEveryId client method collection) trace
    (.ok result) finish)

include run

theorem queryEveryId_queried : ∃ exchange ∈ trace, exchange.request.isQuery = true := by
  obtain ⟨moment, response, answer, rest, -, -, -, rfl, -⟩ := queryEveryIdFrom_step run
  exact ⟨_, mem_cons_self, rfl⟩

/-- The ids of a collection's listing: each was in the collection at some moment
of the run, and each id that was in it throughout is among them, unless
something left the collection between two pages. -/
theorem queryEveryId_run : (∀ id ∈ result, ∃ moment, start ≤ moment ∧ moment ≤ finish ∧
      id ∈ store.listing collection moment) ∧
    (Steady store collection trace → ∀ id,
      (∀ moment, start ≤ moment → moment ≤ finish → id ∈ store.listing collection moment) →
        id ∈ result) := by
  constructor
  · intro id listed
    rcases queryEveryIdFrom_sound _ run listed with impossible | found
    · cases impossible
    · exact found
  · intro steady id present
    apply queryEveryIdFrom_complete _ run steady present
    intro exchange _
    exact .inr (Nat.zero_le _)

end

end Runs

end EvolutionJmap
