import Mathlib

/-!
# Pending deletes of collections (`jmap-collection-sync`, `pending.rs`)

A delete disables its source and records when the destroy is due on the wall clock.
`decide` reads that time, and the thread of `watch` (`deferred_delete.rs`) checks again
after each wait.  It also keeps the end of its first wait on the monotonic clock, since
a wall clock can be set back.

All times are in nanoseconds, real time is that of the monotonic clock, and a wall clock
shows the time since the Unix epoch, whose seconds the source has in an `i64`.
-/

namespace EvolutionJmap.PendingDelete

def second : Nat := 1000000000

/-- The time between the delete and the destroy. -/
def undoWindow : Nat := 60 * second

def i64Max : Nat := 2 ^ 63 - 1

/-- The time at which a destroy is due, in seconds since the epoch. -/
structure Due where
  stamp : Int
  deriving DecidableEq

def roundedUp (nanos : Nat) : Nat := nanos / second + if 0 < nanos % second then 1 else 0

namespace Due

/-- A time that does not fit the stamp is the last that does. -/
def afterWindow (now : Int) : Due :=
  let seconds := min (2 ^ 64 - 1) (roundedUp (now.toNat + undoWindow))
  ⟨if seconds ≤ i64Max then seconds else i64Max⟩

/-- The due time since the epoch. -/
def nanos (due : Due) : Nat := due.stamp.natAbs * second

end Due

inductive Pending where
  | notPending
  | undone
  | wait (left : Nat)
  | destroy
  deriving DecidableEq

def decide (enabled : Bool) (due : Option Due) (now : Int) : Pending :=
  match due with
  | none => .notPending
  | some due =>
    if enabled then
      .undone
    else if now < 0 then
      .wait undoWindow
    else
      -- `checked_sub`, whose zero is no wait either
      if now.toNat < due.nanos then
        .wait (min (due.nanos - now.toNat) undoWindow)
      else
        .destroy

/-- A wall clock that runs steadily from `shown` on, except that it is set back once. -/
structure Clock where
  shown : Int
  step : Nat
  size : Nat

def Clock.now (clock : Clock) (moment : Nat) : Int :=
  clock.shown + moment - if clock.step ≤ moment then (clock.size : Int) else 0

section

variable (clock : Clock) (due : Due)

/-- The moment of the destroy if each check only follows the wait of the one before. -/
def checkAgain : (checks moment : Nat) → Option Nat
  | 0, _ => none
  | checks + 1, moment =>
    match decide false (some due) (clock.now moment) with
    | .wait left => checkAgain checks (moment + left)
    | .destroy => some moment
    | .notPending | .undone => none

/-- The loop of `watch` for a source that stays disabled: the moment of the destroy. The
first wait sets the end. -/
def watch : (checks : Nat) → (ending : Option Nat) → (moment : Nat) → Option Nat
  | 0, _, _ => none
  | checks + 1, ending, moment =>
    match decide false (some due) (clock.now moment) with
    | .wait left =>
      if moment < ending.getD (moment + left) then
        watch checks (some (ending.getD (moment + left)))
          (moment + min left (ending.getD (moment + left) - moment))
      else
        some moment
    | .destroy => some moment
    | .notPending | .undone => none

end

variable {clock : Clock} {due : Due} {now : Int}

theorem decide_cases (due : Due) (now : Int) :
    (∃ left, decide false (some due) now = .wait left ∧ 0 < left ∧
      (left = undoWindow ∨ now + left = due.nanos) ∧ left ≤ undoWindow) ∨
    decide false (some due) now = .destroy ∧ due.nanos ≤ now := by
  have window : 0 < undoWindow := by decide
  simp only [decide, Bool.false_eq_true, if_false]
  split
  · exact .inl ⟨undoWindow, rfl, window, .inl rfl, le_rfl⟩
  · next afterEpoch =>
    split
    · next early =>
      refine .inl ⟨_, rfl, by omega, ?_, min_le_right _ _⟩
      rcases le_total (due.nanos - now.toNat) undoWindow with short | long
      · rw [min_eq_left short]
        omega
      · exact .inl (min_eq_right long)
    · exact .inr ⟨rfl, by omega⟩

theorem watch_ending (checks moment : Nat) :
    watch clock due (checks + 1) (some moment) moment = some moment := by
  rcases decide_cases due (clock.now moment) with ⟨left, waits, -⟩ | ⟨destroys, -⟩
  · simp [watch, waits]
  · simp [watch, destroys]

theorem watch_cases (checks start : Nat) :
    (watch clock due (checks + 2) none start = some start ∧
      due.nanos ≤ clock.now start) ∨
    ∃ left, watch clock due (checks + 2) none start = some (start + left) ∧ left ≤ undoWindow ∧
      (left = undoWindow ∨ clock.now start + left = due.nanos) := by
  rcases decide_cases due (clock.now start) with
    ⟨left, waits, positive, length, bounded⟩ | ⟨destroys, reached⟩
  · refine .inr ⟨left, ?_, bounded, length⟩
    have before : start < start + left := by omega
    rw [watch, waits]
    simp only [Option.getD_none, if_pos before, Nat.add_sub_cancel_left, min_self]
    exact watch_ending checks (start + left)
  · refine .inl ⟨?_, reached⟩
    rw [watch, destroys]

theorem le_roundedUp (nanos : Nat) : nanos ≤ roundedUp nanos * second := by
  unfold roundedUp second
  split <;> omega

theorem afterWindow_ge (fits : (Due.afterWindow now).stamp < i64Max) :
    now + undoWindow ≤ (Due.afterWindow now).nanos := by
  rw [Due.nanos]
  have rounded := le_roundedUp (now.toNat + undoWindow)
  have afterEpoch := Int.self_le_toNat now
  simp only [Due.afterWindow] at fits ⊢
  generalize roundedUp (now.toNat + undoWindow) = seconds at *
  have small : seconds < i64Max := by
    unfold i64Max at *
    split at fits <;> omega
  have least : min (2 ^ 64 - 1) seconds = seconds :=
    min_eq_right (small.le.trans (by decide))
  rw [least, if_pos small.le, Int.natAbs_natCast]
  omega

/-- A watched delete ends at the latest one window after the first check, however the
clock is set back. On a steady clock it ends no earlier than one window after the
delete, if the due time fits its stamp. -/
theorem watch_ends_in_time (clock : Clock) (deleted start checks : Nat)
    (later : deleted ≤ start) :
    ∃ destroyed,
      watch clock (Due.afterWindow (clock.now deleted)) (checks + 2) none start =
        some destroyed ∧
      destroyed ≤ start + undoWindow ∧
      (clock.size = 0 → (Due.afterWindow (clock.now deleted)).stamp < i64Max →
        deleted + undoWindow ≤ destroyed) := by
  rcases @watch_cases clock (Due.afterWindow (clock.now deleted)) checks start with
    ⟨destroys, reached⟩ | ⟨left, destroys, bounded, length⟩
  · refine ⟨start, destroys, Nat.le_add_right _ _, fun steady fits => ?_⟩
    have window := afterWindow_ge fits
    simp only [Clock.now, steady] at window reached
    omega
  · refine ⟨start + left, destroys, by omega, fun steady fits => ?_⟩
    have window := afterWindow_ge fits
    simp only [Clock.now, steady] at window length
    omega

theorem watch_ends_in_time_steady :
    ∃ destroyed, watch ⟨100000 * second + 1, 0, 0⟩ ⟨100061⟩ 2 none 0 = some destroyed ∧
      destroyed ≤ undoWindow ∧ undoWindow ≤ destroyed := by
  obtain ⟨destroyed, ran, bounded, least⟩ :=
    watch_ends_in_time ⟨100000 * second + 1, 0, 0⟩ 0 0 0 le_rfl
  rw [Nat.zero_add] at bounded least
  exact ⟨destroyed, ran, bounded, least rfl (by decide)⟩

def setBack : Clock := ⟨100000 * second, second, 86400 * second⟩

/-- Checks that only follow the waits still wait two minutes after the delete, and
destroy when the clock shows the due time, a day later. A due time that does not fit
is less than one window away. -/
theorem checkAgain_outlasts_window :
    checkAgain setBack (Due.afterWindow (setBack.now 0)) 3 0 = none ∧
    checkAgain setBack (Due.afterWindow (setBack.now 0)) 1442 0 = some (86460 * second) ∧
    checkAgain ⟨(i64Max - 10) * second, 0, 0⟩ (Due.afterWindow ((i64Max - 10) * second)) 2 0 =
      some (10 * second) := by
  decide +kernel

end EvolutionJmap.PendingDelete
