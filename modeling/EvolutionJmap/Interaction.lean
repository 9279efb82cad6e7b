import Mathlib

/-!
# Programs that call a shared service

A program has its result, has failed, or makes one call and goes on with the answer.
Between two calls other parties may move the service's state.  `Run` relates a program
to every way it can be answered under every interleaving, and records the calls.

The rules take a run of a composed program apart into the runs of its parts.
-/

namespace EvolutionJmap.Interaction

open List

/-- A program over the calls `Call`, where the call `request` is answered by a
value of type `Answer request`. -/
inductive Program (Call : Type) (Answer : Call → Type) (ε α : Type) : Type where
  | done (value : α)
  | fail (error : ε)
  | call (request : Call) (resume : Answer request → Program Call Answer ε α)

namespace Program

variable {Call : Type} {Answer : Call → Type} {ε ε' α β : Type}

/-- Run `next` on the result of a program; a failure skips it. -/
protected def bind : Program Call Answer ε α →
    (α → Program Call Answer ε β) → Program Call Answer ε β
  | .done value, next => next value
  | .fail error, _ => .fail error
  | .call request resume, next =>
    .call request fun answer => (resume answer).bind next

instance : Monad (Program Call Answer ε) where
  pure := .done
  bind := Program.bind

@[simp] theorem pure_eq (value : α) :
    (pure value : Program Call Answer ε α) = .done value := rfl

@[simp] theorem done_bind (value : α) (next : α → Program Call Answer ε β) :
    (.done value : Program Call Answer ε α) >>= next = next value := rfl

@[simp] theorem fail_bind (error : ε) (next : α → Program Call Answer ε β) :
    (.fail error : Program Call Answer ε α) >>= next = .fail error := rfl

@[simp] theorem call_bind (request : Call)
    (resume : Answer request → Program Call Answer ε α)
    (next : α → Program Call Answer ε β) :
    (.call request resume : Program Call Answer ε α) >>= next =
      .call request fun answer => resume answer >>= next := rfl

def ofExcept : Except ε α → Program Call Answer ε α
  | .ok value => .done value
  | .error error => .fail error

@[simp] theorem ofExcept_ok (value : α) :
    (ofExcept (.ok value) : Program Call Answer ε α) = .done value := rfl

@[simp] theorem ofExcept_error (error : ε) :
    (ofExcept (.error error) : Program Call Answer ε α) = .fail error := rfl

/-- The outcome of a program as a value, so that the caller decides what a
failure means. -/
def attempt : Program Call Answer ε α → Program Call Answer ε' (Except ε α)
  | .done value => .done (.ok value)
  | .fail error => .done (.error error)
  | .call request resume => .call request fun answer => (resume answer).attempt

def mapError (translate : ε → ε') : Program Call Answer ε α → Program Call Answer ε' α
  | .done value => .done value
  | .fail error => .fail (translate error)
  | .call request resume =>
    .call request fun answer => (resume answer).mapError translate

/-- A program for each element, in order. The first failure ends it. -/
def forEach (step : α → Program Call Answer ε β) :
    List α → Program Call Answer ε (List β)
  | [] => .done []
  | value :: values => do
      let first ← step value
      let rest ← forEach step values
      .done (first :: rest)

/-- The program makes only allowed calls. -/
def Sends (allowed : Call → Prop) : Program Call Answer ε α → Prop
  | .done _ => True
  | .fail _ => True
  | .call request resume => allowed request ∧ ∀ answer, (resume answer).Sends allowed

variable {allowed : Call → Prop} {program : Program Call Answer ε α}

theorem Sends.bind {next : α → Program Call Answer ε β}
    (first : program.Sends allowed) (rest : ∀ value, (next value).Sends allowed) :
    (program >>= next).Sends allowed := by
  induction program with
  | done value => exact rest value
  | fail error => exact trivial
  | call request resume ih => exact ⟨first.1, fun answer => ih answer (first.2 answer)⟩

section

variable (sends : program.Sends allowed)

include sends

theorem Sends.mono {wider : Call → Prop} (imp : ∀ request, allowed request → wider request) :
    program.Sends wider := by
  induction program with
  | done value | fail error => exact trivial
  | call request resume ih => exact ⟨imp _ sends.1, fun answer => ih answer (sends.2 answer)⟩

theorem Sends.attempt : (program.attempt : Program Call Answer ε' (Except ε α)).Sends allowed := by
  induction program with
  | done value | fail error => exact trivial
  | call request resume ih => exact ⟨sends.1, fun answer => ih answer (sends.2 answer)⟩

theorem Sends.mapError (translate : ε → ε') : (program.mapError translate).Sends allowed := by
  induction program with
  | done value | fail error => exact trivial
  | call request resume ih => exact ⟨sends.1, fun answer => ih answer (sends.2 answer)⟩

end

theorem sends_ofExcept (result : Except ε α) :
    (ofExcept result : Program Call Answer ε α).Sends allowed := by
  cases result <;> exact trivial

theorem Sends.forEach {step : α → Program Call Answer ε β}
    (sends : ∀ value, (step value).Sends allowed) (values : List α) :
    (Program.forEach step values).Sends allowed := by
  induction values with
  | nil => exact trivial
  | cons value values ih => exact (sends value).bind fun _ => ih.bind fun _ => trivial

end Program

theorem exceptBind_ok {ε α β : Type} {first : Except ε α} {next : α → Except ε β} {value : β} :
    (first >>= next) = .ok value ↔
      ∃ intermediate, first = .ok intermediate ∧ next intermediate = .ok value := by
  cases first with
  | error error => simp [bind, Except.bind]
  | ok intermediate => simp [bind, Except.bind]

theorem exceptBind_error {ε α β : Type} {first : Except ε α} {next : α → Except ε β} {error : ε} :
    (first >>= next) = .error error ↔
      first = .error error ∨
        ∃ intermediate, first = .ok intermediate ∧ next intermediate = .error error := by
  cases first with
  | error cause => simp [bind, Except.bind]
  | ok intermediate => simp [bind, Except.bind]

/-- What a shared service does: how it answers a call, and how other parties
move it between calls. -/
structure Service (Call : Type) (Answer : Call → Type) (State : Type) where
  answers : State → (request : Call) → Answer request → State → Prop
  moves : State → State → Prop

/-- One answered call, with the states of the service around it. -/
structure Exchange (Call : Type) (Answer : Call → Type) (State : Type) where
  before : State
  request : Call
  answer : Answer request
  after : State

variable {Call : Type} {Answer : Call → Type} {State ε ε' α β : Type}

/-- `Run service start program trace outcome finish`: interleaved with moves of
other parties, the program makes the calls of `trace` and ends in `outcome`. -/
inductive Run (service : Service Call Answer State) :
    State → Program Call Answer ε α → List (Exchange Call Answer State) →
      Except ε α → State → Prop where
  | done {state : State} {value : α} :
      Run service state (.done value) [] (.ok value) state
  | fail {state : State} {error : ε} :
      Run service state (.fail error) [] (.error error) state
  | move {start next finish : State} {program : Program Call Answer ε α}
      {trace : List (Exchange Call Answer State)} {outcome : Except ε α} :
      service.moves start next → Run service next program trace outcome finish →
      Run service start program trace outcome finish
  | call {start next finish : State} {request : Call} {answer : Answer request}
      {resume : Answer request → Program Call Answer ε α}
      {trace : List (Exchange Call Answer State)} {outcome : Except ε α} :
      service.answers start request answer next →
      Run service next (resume answer) trace outcome finish →
      Run service start (.call request resume)
        (⟨start, request, answer, next⟩ :: trace) outcome finish

variable {middle : State} {exchange : Exchange Call Answer State} {result : Except ε α} {value : α}

namespace Run

variable {service : Service Call Answer State} {start finish : State}
  {trace : List (Exchange Call Answer State)} {outcome : Except ε α}

theorem afterMoves {program : Program Call Answer ε α}
    (moves : Relation.ReflTransGen service.moves start middle)
    (run : Run service middle program trace outcome finish) :
    Run service start program trace outcome finish := by
  induction moves using Relation.ReflTransGen.head_induction_on with
  | refl => exact run
  | head move _ ih => exact .move move ih

theorem ofExcept_iff :
    Run service start (.ofExcept result) trace outcome finish ↔
      trace = [] ∧ outcome = result ∧ Relation.ReflTransGen service.moves start finish := by
  constructor
  · intro run
    generalize programEq : (.ofExcept result : Program Call Answer ε α) = program at run
    induction run with
    | done | fail =>
      cases result <;> cases programEq
      exact ⟨rfl, rfl, .refl⟩
    | move move _ ih =>
      obtain ⟨traceEq, outcomeEq, rest⟩ := ih programEq
      exact ⟨traceEq, outcomeEq, rest.head move⟩
    | call => cases result <;> cases programEq
  · rintro ⟨rfl, rfl, moves⟩
    cases outcome with
    | ok value => exact Run.done.afterMoves moves
    | error error => exact Run.fail.afterMoves moves

theorem done_iff :
    Run service start (.done value) trace outcome finish ↔ trace = [] ∧ outcome = .ok value ∧
        Relation.ReflTransGen service.moves start finish := by
  rw [← Program.ofExcept_ok, ofExcept_iff]

theorem fail_iff {error : ε} :
    Run service start (.fail error) trace outcome finish ↔ trace = [] ∧ outcome = .error error ∧
        Relation.ReflTransGen service.moves start finish := by
  rw [← Program.ofExcept_error, ofExcept_iff]

theorem not_failed {error : ε} (run : Run service start (.fail error) trace (.ok value) finish) :
    False :=
  nomatch (fail_iff.mp run).2.1

theorem done_ok {result : α}
    (run : Run service start (.done value : Program Call Answer ε α) trace (.ok result) finish) :
    result = value :=
  Except.ok.inj (done_iff.mp run).2.1

theorem call_iff {request : Call} {resume : Answer request → Program Call Answer ε α} :
    Run service start (.call request resume) trace outcome finish ↔
      ∃ before answer after rest,
        Relation.ReflTransGen service.moves start before ∧
        service.answers before request answer after ∧
        Run service after (resume answer) rest outcome finish ∧
        trace = ⟨before, request, answer, after⟩ :: rest := by
  constructor
  · intro run
    generalize programEq : Program.call request resume = program at run
    induction run with
    | done => cases programEq
    | fail => cases programEq
    | move move _ ih =>
      obtain ⟨before, answer, after, rest, moves, answered, resumed, traceEq⟩ :=
        ih programEq
      exact ⟨before, answer, after, rest, moves.head move, answered, resumed, traceEq⟩
    | call answered resumed =>
      cases programEq
      exact ⟨_, _, _, _, .refl, answered, resumed, rfl⟩
  · rintro ⟨before, answer, after, rest, moves, answered, resumed, rfl⟩
    exact (Run.call answered resumed).afterMoves moves

section

variable {next : α → Program Call Answer ε β} {program : Program Call Answer ε α}

/-- A run of a sequence fails in its first part, or is a run of the first part
followed by a run of the second. -/
theorem bind_iff {outcome : Except ε β} :
    Run service start (program >>= next) trace outcome finish ↔
      (∃ error, Run service start program trace (.error error) finish ∧
        outcome = .error error) ∨
      ∃ value middle first second,
        Run service start program first (.ok value) middle ∧
        Run service middle (next value) second outcome finish ∧
        trace = first ++ second := by
  induction program generalizing start trace with
  | done value =>
    simp only [Program.done_bind, done_iff, reduceCtorEq, false_and, and_false,
      exists_false, false_or]
    constructor
    · intro run
      exact ⟨value, start, [], trace, ⟨rfl, rfl, .refl⟩, run, rfl⟩
    · rintro ⟨_, middle, _, second, ⟨rfl, valueEq, moves⟩, run, rfl⟩
      cases valueEq
      exact run.afterMoves moves
  | fail error =>
    simp only [Program.fail_bind, fail_iff, reduceCtorEq, false_and, and_false,
      exists_false, or_false]
    constructor
    · rintro ⟨rfl, rfl, moves⟩
      exact ⟨error, ⟨rfl, rfl, moves⟩, rfl⟩
    · rintro ⟨_, ⟨rfl, errorEq, moves⟩, rfl⟩
      cases errorEq
      exact ⟨rfl, rfl, moves⟩
  | call request resume ih =>
    simp only [Program.call_bind, call_iff]
    constructor
    · rintro ⟨before, answer, after, rest, moves, answered, resumed, rfl⟩
      rcases (ih answer).mp resumed with
        ⟨error, failed, rfl⟩ | ⟨value, middle, first, second, ran, rest, rfl⟩
      · exact .inl ⟨error, ⟨before, answer, after, _, moves, answered, failed, rfl⟩, rfl⟩
      · exact .inr ⟨value, middle, _, second,
          ⟨before, answer, after, first, moves, answered, ran, rfl⟩, rest, rfl⟩
    · rintro (⟨error, ⟨before, answer, after, rest, moves, answered, failed, rfl⟩, rfl⟩ |
        ⟨value, middle, _, second,
          ⟨before, answer, after, first, moves, answered, ran, rfl⟩, rest, rfl⟩)
      · exact ⟨before, answer, after, rest, moves, answered,
          (ih answer).mpr (.inl ⟨error, failed, rfl⟩), rfl⟩
      · exact ⟨before, answer, after, _, moves, answered,
          (ih answer).mpr (.inr ⟨value, middle, first, second, ran, rest, rfl⟩), rfl⟩

theorem bind_ok {value : β} (run : Run service start (program >>= next) trace (.ok value) finish) :
    ∃ intermediate middle first second,
      Run service start program first (.ok intermediate) middle ∧
      Run service middle (next intermediate) second (.ok value) finish ∧
      trace = first ++ second := by
  rcases bind_iff.mp run with ⟨error, _, impossible⟩ | parts
  · cases impossible
  · exact parts

/-- What holds of every exchange of a sequence: it holds in the first part, and in
the second part after a run of the first. -/
theorem bind_forall {outcome : Except ε β} {property : Exchange Call Answer State → Prop}
    (run : Run service start (program >>= next) trace outcome finish)
    (inFirst : ∀ {part : List (Exchange Call Answer State)} {outcome : Except ε α}
      {middle : State}, Run service start program part outcome middle →
        ∀ exchange ∈ part, property exchange)
    (inSecond : ∀ {part rest : List (Exchange Call Answer State)} {value : α} {middle : State},
      Run service start program part (.ok value) middle →
        Run service middle (next value) rest outcome finish → part ⊆ trace → rest ⊆ trace →
          ∀ exchange ∈ rest, property exchange) : ∀ exchange ∈ trace, property exchange := by
  intro exchange mem
  rcases bind_iff.mp run with ⟨error, failed, -⟩ | ⟨value, middle, first, second, ran, rest, rfl⟩
  · exact inFirst failed exchange mem
  · cases mem_append.mp mem with
    | inl early => exact inFirst ran exchange early
    | inr late =>
      exact inSecond ran rest (subset_append_left _ _) (subset_append_right _ _)
        exchange late

theorem ofExcept_ok_bind {value : β}
    (run : Run service start (Program.ofExcept result >>= next) trace (.ok value) finish) :
    ∃ intermediate, result = .ok intermediate ∧
      Run service start (next intermediate) trace (.ok value) finish := by
  cases result with
  | error error =>
    exact run.not_failed.elim
  | ok intermediate => exact ⟨intermediate, rfl, run⟩

theorem andThen {outcome : Except ε β} {first second : List (Exchange Call Answer State)}
    (ran : Run service start program first (.ok value) middle)
    (rest : Run service middle (next value) second outcome finish) :
    Run service start (program >>= next) (first ++ second) outcome finish :=
  bind_iff.mpr (.inr ⟨value, middle, first, second, ran, rest, rfl⟩)

end

theorem forEach_ok {step : α → Program Call Answer ε β} {values : List α}
    {results : List β}
    (run : Run service start (Program.forEach step values) trace (.ok results) finish) :
    (∀ result ∈ results, ∃ value ∈ values, ∃ before part after,
      Run service before (step value) part (.ok result) after) ∧
    (∀ value ∈ values, ∃ result ∈ results, ∃ before part after,
      Run service before (step value) part (.ok result) after) := by
  induction values generalizing start trace results finish with
  | nil =>
    cases run.done_ok
    exact ⟨nofun, nofun⟩
  | cons value values ih =>
    obtain ⟨first, middle, _, _, stepped, rest, -⟩ := bind_ok run
    obtain ⟨others, last, _, _, looped, ended, -⟩ := bind_ok rest
    cases ended.done_ok
    obtain ⟨sound, complete⟩ := ih looped
    constructor
    · intro result mem
      rcases mem_cons.mp mem with same | later
      · subst same
        exact ⟨value, mem_cons_self, _, _, _, stepped⟩
      · obtain ⟨source, sourceIn, made⟩ := sound result later
        exact ⟨source, mem_cons_of_mem _ sourceIn, made⟩
    · intro source mem
      rcases mem_cons.mp mem with same | later
      · subst same
        exact ⟨first, mem_cons_self, _, _, _, stepped⟩
      · obtain ⟨result, resultIn, made⟩ := complete source later
        exact ⟨result, mem_cons_of_mem _ resultIn, made⟩

section

variable {program : Program Call Answer ε α}

theorem relabel_iff {relabel : Except ε α → Except ε' β}
    {change : Program Call Answer ε α → Program Call Answer ε' β}
    (atDone : ∀ value, change (.done value) = .ofExcept (relabel (.ok value)))
    (atFail : ∀ error, change (.fail error) = .ofExcept (relabel (.error error)))
    (atCall : ∀ request resume,
      change (.call request resume) = .call request fun answer => change (resume answer))
    {outcome : Except ε' β} : Run service start (change program) trace outcome finish ↔
      ∃ inner, outcome = relabel inner ∧ Run service start program trace inner finish := by
  have atEnd : ∀ {start : State} {trace : List (Exchange Call Answer State)} inner,
      Run service start (.ofExcept (relabel inner)) trace outcome finish ↔
        ∃ ended, outcome = relabel ended ∧
          Run service start (.ofExcept inner) trace ended finish := by
    intro start trace inner
    simp only [ofExcept_iff]
    constructor
    · rintro ⟨rfl, rfl, moves⟩
      exact ⟨_, rfl, rfl, rfl, moves⟩
    · rintro ⟨_, rfl, rfl, rfl, moves⟩
      exact ⟨rfl, rfl, moves⟩
  induction program generalizing start trace with
  | done value =>
    rw [atDone]
    exact atEnd (.ok value)
  | fail error =>
    rw [atFail]
    exact atEnd (.error error)
  | call request resume ih =>
    simp only [atCall, call_iff, ih]
    constructor
    · rintro ⟨before, answer, after, rest, moves, answered, ⟨inner, rfl, ran⟩, rfl⟩
      exact ⟨inner, rfl, before, answer, after, rest, moves, answered, ran, rfl⟩
    · rintro ⟨inner, rfl, before, answer, after, rest, moves, answered, ran, rfl⟩
      exact ⟨before, answer, after, rest, moves, answered, ⟨inner, rfl, ran⟩, rfl⟩

/-- Attempting a program makes the same calls and never fails. -/
theorem attempt_iff {outcome : Except ε' (Except ε α)} :
    Run service start program.attempt trace outcome finish ↔
      ∃ inner, outcome = .ok inner ∧ Run service start program trace inner finish :=
  relabel_iff (fun _ => rfl) (fun _ => rfl) fun _ _ => rfl

/-- Translating failures changes no call and no result. -/
theorem mapError_iff {translate : ε → ε'} {outcome : Except ε' α} :
    Run service start (program.mapError translate) trace outcome finish ↔
      ∃ inner, outcome = inner.mapError translate ∧
        Run service start program trace inner finish :=
  relabel_iff (fun _ => rfl) (fun _ => rfl) fun _ _ => rfl

theorem mapError_ok {translate : ε → ε'}
    (run : Run service start (program.mapError translate) trace (.ok value) finish) :
    Run service start program trace (.ok value) finish := by
  obtain ⟨inner, innerEq, ran⟩ := mapError_iff.mp run
  cases inner with
  | error error => cases innerEq
  | ok given =>
    cases innerEq
    exact ran

theorem mapError_error {translate : ε → ε'} {error : ε'}
    (run : Run service start (program.mapError translate) trace (.error error) finish) :
    ∃ cause, error = translate cause := by
  obtain ⟨inner, innerEq, -⟩ := mapError_iff.mp run
  cases inner with
  | ok value => cases innerEq
  | error cause =>
    cases innerEq
    exact ⟨cause, rfl⟩

theorem sends {allowed : Call → Prop} (run : Run service start program trace outcome finish)
    (sends : program.Sends allowed) (mem : exchange ∈ trace) : allowed exchange.request := by
  induction run with
  | done | fail => cases mem
  | move _ _ ih => exact ih sends mem
  | call _ _ ih =>
    cases mem with
    | head => exact sends.1
    | tail _ mem => exact ih (sends.2 _) mem

end

end Run

/-! ## Services that only move forward -/

/-- Neither calls nor other parties take the service back. -/
structure Service.Monotone [Preorder State] (service : Service Call Answer State) :
    Prop where
  moves_le : ∀ {before after : State}, service.moves before after → before ≤ after
  answers_le : ∀ {before after : State} {request : Call} {answer : Answer request},
    service.answers before request answer after → before ≤ after

namespace Run

variable [Preorder State] {service : Service Call Answer State} {start finish : State}
  {trace : List (Exchange Call Answer State)} {program : Program Call Answer ε α}
  {outcome : Except ε α}

theorem le (monotone : service.Monotone)
    (run : Run service start program trace outcome finish) : start ≤ finish := by
  induction run with
  | done | fail => exact le_rfl
  | move move _ ih => exact (monotone.moves_le move).trans ih
  | call answered _ ih => exact (monotone.answers_le answered).trans ih

theorem mem_trace (monotone : service.Monotone)
    (run : Run service start program trace outcome finish) (mem : exchange ∈ trace) :
    start ≤ exchange.before ∧ exchange.after ≤ finish ∧
      service.answers exchange.before exchange.request exchange.answer exchange.after := by
  induction run with
  | done | fail => cases mem
  | move move _ ih =>
    obtain ⟨startLe, finishLe, answered⟩ := ih mem
    exact ⟨(monotone.moves_le move).trans startLe, finishLe, answered⟩
  | call answered resumed ih =>
    cases mem with
    | head => exact ⟨le_rfl, resumed.le monotone, answered⟩
    | tail _ mem =>
      obtain ⟨startLe, finishLe, later⟩ := ih mem
      exact ⟨(monotone.answers_le answered).trans startLe, finishLe, later⟩

end Run

theorem Service.Monotone.of_reflTransGen [Preorder State]
    {service : Service Call Answer State} (monotone : service.Monotone)
    {start finish : State}
    (moves : Relation.ReflTransGen service.moves start finish) : start ≤ finish := by
  induction moves with
  | refl => exact le_rfl
  | tail _ move ih => exact ih.trans (monotone.moves_le move)

end EvolutionJmap.Interaction
