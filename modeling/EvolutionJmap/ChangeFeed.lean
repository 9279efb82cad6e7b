import Mathlib

/-!
# Change feeds over a keyed store

A store gives each key a value or none at every moment, and never reuses a key.
A change feed describes by marks what happened to a key between two moments.  The
marks of consecutive windows add up, and a mirror of the store stays in step when it
applies a feed and reads the changed keys a little later.
-/

namespace EvolutionJmap.ChangeFeed

/-- The contents of a store at every moment. -/
structure History (Key Value : Type) where
  value : Nat → Key → Option Value
  /-- A key that lost its value never gets one again. -/
  no_reuse : ∀ {key : Key} {earlier later latest : Nat},
    earlier ≤ later → later ≤ latest → value earlier key ≠ none →
      value later key = none → value latest key = none

variable {Key Value Item : Type}

namespace History

/-- The key had no value up to the moment. -/
def Unborn (history : History Key Value) (key : Key) (moment : Nat) : Prop :=
  ∀ earlier, earlier ≤ moment → history.value earlier key = none

/-- The value of the key changed in some step between two moments. -/
def Changed (history : History Key Value) (key : Key) (start finish : Nat) : Prop :=
  ∃ moment, start ≤ moment ∧ moment < finish ∧
    history.value moment key ≠ history.value (moment + 1) key

section Decide

variable [DecidableEq Value] (history : History Key Value) (key : Key)

instance (moment : Nat) : Decidable (history.Unborn key moment) :=
  inferInstanceAs (Decidable (∀ earlier, earlier ≤ moment → history.value earlier key = none))

instance (start finish : Nat) : Decidable (history.Changed key start finish) :=
  decidable_of_iff (∃ moment, moment < finish ∧ start ≤ moment ∧
      history.value moment key ≠ history.value (moment + 1) key)
    (exists_congr fun _ => and_left_comm)

end Decide

variable {history : History Key Value} {key : Key} {start middle finish : Nat}

theorem Unborn.value (unborn : history.Unborn key start) :
    history.value start key = none :=
  unborn start le_rfl

theorem Unborn.earlier (unborn : history.Unborn key finish) (le : start ≤ finish) :
    history.Unborn key start :=
  fun earlier earlierLe => unborn earlier (earlierLe.trans le)

theorem Changed.mono {start' finish' : Nat} (changed : history.Changed key start finish)
    (startLe : start' ≤ start) (finishLe : finish ≤ finish') :
    history.Changed key start' finish' := by
  obtain ⟨moment, afterStart, beforeFinish, differs⟩ := changed
  exact ⟨moment, startLe.trans afterStart, beforeFinish.trans_le finishLe, differs⟩

theorem not_changed_self : ¬ history.Changed key start start := by
  rintro ⟨moment, afterStart, beforeFinish, -⟩
  exact absurd beforeFinish (not_lt.mpr afterStart)

theorem value_eq_of_not_changed (le : start ≤ finish)
    (unchanged : ¬ history.Changed key start finish) :
    history.value finish key = history.value start key := by
  induction finish, le using Nat.le_induction with
  | base => rfl
  | succ finish le ih =>
    have same := ih fun changed => unchanged (changed.mono le_rfl (Nat.le_succ _))
    by_contra differs
    exact unchanged ⟨finish, le, Nat.lt_succ_self _,
      fun step => differs (step.symm.trans same)⟩

theorem value_ne_none_between (startLe : start ≤ middle) (le : middle ≤ finish)
    (atStart : history.value start key ≠ none)
    (atFinish : history.value finish key ≠ none) :
    history.value middle key ≠ none :=
  fun lost => atFinish (history.no_reuse startLe le atStart lost)

theorem gone_later (le : start ≤ finish) (gone : history.value start key = none)
    (born : ¬ history.Unborn key start) :
    history.value finish key = none ∧ ¬ history.Unborn key finish := by
  simp only [Unborn, not_forall] at born
  obtain ⟨earlier, earlierLe, held⟩ := born
  exact ⟨history.no_reuse earlierLe le held gone,
    fun unborn => held (unborn earlier (earlierLe.trans le))⟩

theorem unborn_of_later (le : start ≤ finish) (atStart : history.value start key = none)
    (atFinish : history.value finish key ≠ none) : history.Unborn key start := by
  by_contra born
  exact atFinish (gone_later le atStart born).1

end History

/-- What a feed says about one key. -/
structure Marks where
  created : Bool
  updated : Bool
  destroyed : Bool
  deriving DecidableEq, Repr

namespace Marks

/-- The key is not mentioned. -/
def none : Marks := ⟨false, false, false⟩

/-- Everything that either of two windows says. -/
def union (left right : Marks) : Marks :=
  ⟨left.created || right.created, left.updated || right.updated,
    left.destroyed || right.destroyed⟩

@[simp] theorem none_union (marks : Marks) : none.union marks = marks := by
  simp [union, none]

@[simp] theorem union_none (marks : Marks) : marks.union none = marks := by
  simp [union, none]

end Marks

/-- The marks a feed may give a key for a window. A key that exists at both ends
is marked updated if it changed; whether other existing keys are is left open. A
key that came and went inside the window may be left out, marked destroyed, or
marked created and destroyed. -/
structure Reports (history : History Key Value) (key : Key) (start finish : Nat)
    (marks : Marks) : Prop where
  kept : history.value start key ≠ none → history.value finish key ≠ none →
    marks.created = false ∧ marks.destroyed = false ∧
      (history.Changed key start finish → marks.updated = true)
  lost : history.value start key ≠ none → history.value finish key = none →
    marks.created = false ∧ marks.destroyed = true
  gained : history.Unborn key start → history.value finish key ≠ none →
    marks.created = true ∧ marks.destroyed = false
  passed : history.Unborn key start → history.value finish key = none →
    (marks.created = true ∨ marks.updated = true) → marks.destroyed = true
  absent : history.Unborn key finish → marks = .none
  gone : history.value start key = none → ¬ history.Unborn key start → marks = .none

/-- A key is reported by the conditions for each way it can live through the window. -/
theorem reports_iff {history : History Key Value} {key : Key} {start finish : Nat}
    {marks : Marks} :
    Reports history key start finish marks ↔
      (history.value start key ≠ none → history.value finish key ≠ none →
        marks.created = false ∧ marks.destroyed = false ∧
          (history.Changed key start finish → marks.updated = true)) ∧
      (history.value start key ≠ none → history.value finish key = none →
        marks.created = false ∧ marks.destroyed = true) ∧
      (history.Unborn key start → history.value finish key ≠ none →
        marks.created = true ∧ marks.destroyed = false) ∧
      (history.Unborn key start → history.value finish key = none →
        (marks.created = true ∨ marks.updated = true) → marks.destroyed = true) ∧
      (history.Unborn key finish → marks = .none) ∧
      (history.value start key = none → ¬ history.Unborn key start → marks = .none) := by
  constructor
  · intro reports
    exact ⟨reports.kept, reports.lost, reports.gained, reports.passed, reports.absent,
      reports.gone⟩
  · intro conditions
    exact ⟨conditions.1, conditions.2.1, conditions.2.2.1, conditions.2.2.2.1,
      conditions.2.2.2.2.1, conditions.2.2.2.2.2⟩

set_option synthInstance.maxSize 512 in
instance [DecidableEq Value] (history : History Key Value) (key : Key) (start finish : Nat)
    (marks : Marks) : Decidable (Reports history key start finish marks) :=
  decidable_of_iff' _ reports_iff

namespace Reports

variable {history : History Key Value} {key : Key} {start middle finish : Nat}
  {marks first second : Marks}

/-- The marks of consecutive windows add up to marks of the whole window. -/
theorem trans (startLe : start ≤ middle) (finishLe : middle ≤ finish)
    (left : Reports history key start middle first)
    (right : Reports history key middle finish second) :
    Reports history key start finish (first.union second) where
  kept atStart atFinish := by
    have atMiddle := History.value_ne_none_between startLe finishLe atStart atFinish
    obtain ⟨leftCreated, leftDestroyed, leftUpdated⟩ := left.kept atStart atMiddle
    obtain ⟨rightCreated, rightDestroyed, rightUpdated⟩ := right.kept atMiddle atFinish
    refine ⟨by simp [Marks.union, *], by simp [Marks.union, *], ?_⟩
    rintro ⟨moment, afterStart, beforeFinish, differs⟩
    by_cases early : moment < middle
    · simp [Marks.union, leftUpdated ⟨moment, afterStart, early, differs⟩]
    · simp [Marks.union, rightUpdated ⟨moment, not_lt.mp early, beforeFinish, differs⟩]
  lost atStart atFinish := by
    by_cases atMiddle : history.value middle key = none
    · have unborn : ¬ history.Unborn key middle :=
        fun unborn => atStart (unborn start startLe)
      rw [right.gone atMiddle unborn, Marks.union_none]
      exact left.lost atStart atMiddle
    · obtain ⟨leftCreated, leftDestroyed, -⟩ := left.kept atStart atMiddle
      obtain ⟨rightCreated, rightDestroyed⟩ := right.lost atMiddle atFinish
      exact ⟨by simp [Marks.union, *], by simp [Marks.union, *]⟩
  gained unborn atFinish := by
    by_cases atMiddle : history.value middle key = none
    · have unbornMiddle : history.Unborn key middle := by
        by_contra born
        exact atFinish (History.gone_later finishLe atMiddle born).1
      rw [left.absent unbornMiddle, Marks.none_union]
      exact right.gained unbornMiddle atFinish
    · obtain ⟨leftCreated, leftDestroyed⟩ := left.gained unborn atMiddle
      obtain ⟨rightCreated, rightDestroyed, -⟩ := right.kept atMiddle atFinish
      exact ⟨by simp [Marks.union, *], by simp [Marks.union, *]⟩
  passed unborn atFinish := by
    by_cases atMiddle : history.value middle key = none
    · by_cases unbornMiddle : history.Unborn key middle
      · rw [left.absent unbornMiddle, Marks.none_union]
        exact right.passed unbornMiddle atFinish
      · rw [right.gone atMiddle unbornMiddle, Marks.union_none]
        exact left.passed unborn atMiddle
    · obtain ⟨-, rightDestroyed⟩ := right.lost atMiddle atFinish
      simp [Marks.union, rightDestroyed]
  absent unborn := by
    rw [left.absent (unborn.earlier finishLe), right.absent unborn, Marks.none_union]
  gone atStart born := by
    obtain ⟨atMiddle, bornMiddle⟩ := History.gone_later startLe atStart born
    rw [left.gone atStart born, right.gone atMiddle bornMiddle, Marks.none_union]

theorem refl : Reports history key start start .none where
  kept _ _ := ⟨rfl, rfl, fun changed => absurd changed History.not_changed_self⟩
  lost held lost := absurd lost held
  gained unborn held := absurd unborn.value held
  passed _ _ marked := by simp [Marks.none] at marked
  absent _ := rfl
  gone _ _ := rfl

theorem of_never (never : ∀ moment, history.value moment key = none) :
    Reports history key start finish .none where
  kept held _ := absurd (never _) held
  lost held _ := absurd (never _) held
  gained _ held := absurd (never _) held
  passed _ _ marked := by simp [Marks.none] at marked
  absent _ := rfl
  gone _ _ := rfl

section

variable (reports : Reports history key start finish marks)

include reports

theorem of_created (created : marks.created = true) (destroyed : marks.destroyed = false) :
    history.Unborn key start ∧ history.value finish key ≠ none := by
  by_cases atStart : history.value start key = none
  · by_cases unborn : history.Unborn key start
    · refine ⟨unborn, fun atFinish => ?_⟩
      have := reports.passed unborn atFinish (.inl created)
      simp [destroyed] at this
    · simp [reports.gone atStart unborn, Marks.none] at created
  · by_cases atFinish : history.value finish key = none
    · simp [(reports.lost atStart atFinish).1] at created
    · simp [(reports.kept atStart atFinish).1] at created

theorem of_updated (created : marks.created = false) (updated : marks.updated = true)
    (destroyed : marks.destroyed = false) :
    history.value start key ≠ none ∧ history.value finish key ≠ none := by
  by_cases atStart : history.value start key = none
  · by_cases unborn : history.Unborn key start
    · by_cases atFinish : history.value finish key = none
      · have := reports.passed unborn atFinish (.inr updated)
        simp [destroyed] at this
      · simp [(reports.gained unborn atFinish).1] at created
    · simp [reports.gone atStart unborn, Marks.none] at updated
  · refine ⟨atStart, fun atFinish => ?_⟩
    simp [(reports.lost atStart atFinish).2] at destroyed

theorem of_destroyed (destroyed : marks.destroyed = true) : history.value finish key = none := by
  by_contra atFinish
  by_cases atStart : history.value start key = none
  · by_cases unborn : history.Unborn key start
    · simp [(reports.gained unborn atFinish).2] at destroyed
    · simp [reports.gone atStart unborn, Marks.none] at destroyed
  · simp [(reports.kept atStart atFinish).2.1] at destroyed

end

theorem of_silent (le : start ≤ finish)
    (reports : Reports history key start finish marks)
    (created : marks.created = false) (updated : marks.updated = false)
    (destroyed : marks.destroyed = false) :
    (history.value start key ≠ none ∧ ¬ history.Changed key start finish) ∨
      (history.value start key = none ∧ history.value finish key = none) := by
  by_cases atStart : history.value start key = none
  · refine .inr ⟨atStart, ?_⟩
    by_contra atFinish
    by_cases unborn : history.Unborn key start
    · simp [(reports.gained unborn atFinish).1] at created
    · exact atFinish (History.gone_later le atStart unborn).1
  · refine .inl ⟨atStart, fun changed => ?_⟩
    by_cases atFinish : history.value finish key = none
    · simp [(reports.lost atStart atFinish).2] at destroyed
    · simp [(reports.kept atStart atFinish).2.2 changed] at updated

end Reports

/-! ## Mirrors

`shows value entry` says that `entry` is the mirror's picture of `value`. -/

section Mirror

variable (shows : Option Value → Option Item → Prop)

/-- A mirror entry is the picture of the key at `moment`, or the key changed
after that moment, so the feed from there will mention it. -/
def Tracks (history : History Key Value) (key : Key) (moment now : Nat)
    (entry : Option Item) : Prop :=
  shows (history.value moment key) entry ∨ history.Changed key moment now

/-- `Tracks`, where only a key that exists at `moment` may be out of step. -/
def TracksKnown (history : History Key Value) (key : Key) (moment now : Nat)
    (entry : Option Item) : Prop :=
  shows (history.value moment key) entry ∨
    (history.value moment key ≠ none ∧ history.Changed key moment now)

variable {shows} {history : History Key Value} {key : Key} {start finish now fetch : Nat}
  {entry next : Option Item} {marks : Marks}

theorem TracksKnown.tracks (tracks : TracksKnown shows history key start now entry) :
    Tracks shows history key start now entry :=
  tracks.imp id And.right

/-- In a store at rest a tracking entry is the picture of the present. -/
theorem TracksKnown.settled (tracks : TracksKnown shows history key start start entry) :
    shows (history.value start key) entry :=
  tracks.resolve_right fun stale => History.not_changed_self stale.2

theorem TracksKnown.mono (tracks : TracksKnown shows history key start now entry)
    (le : now ≤ finish) : TracksKnown shows history key start finish entry :=
  tracks.imp id fun stale => ⟨stale.1, stale.2.mono le_rfl le⟩

/-- One round of a mirror. The feed runs from `start` to `finish`; keys it calls
created or updated are read at `fetch`. The round repairs an entry that is out of
step, unless its key came and went unseen by the feed. -/
theorem Tracks.round (le : start ≤ finish) (seen : now ≤ finish) (fetchLe : finish ≤ fetch)
    (reports : Reports history key start finish marks)
    (tracks : Tracks shows history key start now entry)
    (survives : ¬ shows (history.value start key) entry →
      history.value start key = none → history.value finish key ≠ none)
    (onCreated : marks.created = true → marks.destroyed = false →
      shows (history.value fetch key) next)
    (onUpdated : marks.created = false → marks.updated = true →
      marks.destroyed = false → shows (history.value fetch key) next)
    (onDestroyed : marks.created = false → marks.destroyed = true → shows none next)
    (onDropped : marks.created = true → marks.destroyed = true → next = entry)
    (onSilent : marks.created = false → marks.updated = false →
      marks.destroyed = false → next = entry) :
    TracksKnown shows history key finish fetch next := by
  -- what was read at `fetch` is the value at `finish`, or the key changed since
  have reread : history.value finish key ≠ none →
      shows (history.value fetch key) next →
      TracksKnown shows history key finish fetch next := by
    intro held shown
    by_cases changed : history.Changed key finish fetch
    · exact .inr ⟨held, changed⟩
    · rw [History.value_eq_of_not_changed fetchLe changed] at shown
      exact .inl shown
  cases created : marks.created with
  | true =>
    cases destroyed : marks.destroyed with
    | true =>
      have atFinish := reports.of_destroyed destroyed
      have atStart : history.value start key = none := by
        by_contra held
        simp [(reports.lost held atFinish).1] at created
      rw [onDropped created destroyed]
      refine .inl ?_
      rw [atFinish]
      by_contra notShown
      rw [← atStart] at notShown
      exact survives notShown atStart atFinish
    | false =>
      exact reread (reports.of_created created destroyed).2
        (onCreated created destroyed)
  | false =>
    cases destroyed : marks.destroyed with
    | true =>
      refine .inl ?_
      rw [reports.of_destroyed destroyed]
      exact onDestroyed created destroyed
    | false =>
      cases updated : marks.updated with
      | true =>
        exact reread (reports.of_updated created updated destroyed).2
          (onUpdated created updated destroyed)
      | false =>
        rw [onSilent created updated destroyed]
        rcases reports.of_silent le created updated destroyed with
          ⟨held, unchanged⟩ | ⟨atStart, atFinish⟩
        · refine .inl ?_
          rw [History.value_eq_of_not_changed le unchanged]
          exact tracks.resolve_right fun stale =>
            unchanged (stale.mono le_rfl seen)
        · refine .inl ?_
          rw [atFinish]
          by_contra notShown
          rw [← atStart] at notShown
          exact survives notShown atStart atFinish

end Mirror

end EvolutionJmap.ChangeFeed
