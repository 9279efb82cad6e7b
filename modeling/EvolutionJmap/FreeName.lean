import Mathlib

/-!
# Free names

A numbered sequence of names is searched for the first one that is not taken.
Different numbers have different names, so one more try than there are taken
names is always enough.
-/

namespace EvolutionJmap

open Nat List String

/-- The first number above `last` whose name is free. As many names as can be
taken are tried. -/
def nextFree (taken : String → Bool) (name : Nat → String) : (tries last : Nat) → Nat
  | 0, last => last + 1
  | tries + 1, last =>
    if taken (name (last + 1)) then nextFree taken name tries (last + 1) else last + 1

def inventedKey (stem : String) (number : Nat) : String := stem ++ toString number

theorem toString_injective : Function.Injective (toString : Nat → String) := by
  intro left right same
  have digits : Nat.toDigits 10 left = Nat.toDigits 10 right := ofList_injective same
  have numbers := congrArg (Nat.ofDigitChars 10 · 0) digits
  simpa [ofDigitChars_toDigits] using numbers

theorem inventedKey_injective (stem : String) : Function.Injective (inventedKey stem) := by
  intro left right same
  have lists := congrArg String.toList same
  simp only [inventedKey, toList_append, append_cancel_left_eq] at lists
  exact toString_injective (toList_inj.mp lists)

section

variable {taken : String → Bool} {name : Nat → String}

theorem nextFree_free (injective : Function.Injective name) {tries last : Nat} {names : List String}
    (covers : ∀ number, last < number → taken (name number) = true → name number ∈ names)
    (enough : names.length ≤ tries) : taken (name (nextFree taken name tries last)) = false := by
  induction tries generalizing last names with
  | zero =>
    rw [length_eq_zero_iff.mp (le_zero.mp enough)] at covers
    apply Bool.eq_false_iff.mpr
    intro isTaken
    nomatch covers (last + 1) (lt_succ_self last) isTaken
  | succ tries ih =>
    rw [nextFree]
    split
    · next isTaken =>
      -- the taken name is not met again, so one name less can be taken
      have listed := covers (last + 1) (lt_succ_self last) isTaken
      apply ih
      · intro number later numberTaken
        have other : name number ≠ name (last + 1) := fun same => by
          have := injective same
          omega
        exact (mem_erase_of_ne other).mpr (covers number (by omega) numberTaken)
      · rw [length_erase_of_mem listed]
        omega
    · next free => exact Bool.eq_false_iff.mpr free

theorem nextFree_least {tries last number : Nat} (above : last < number)
    (below : number < nextFree taken name tries last) : taken (name number) = true := by
  induction tries generalizing last with
  | zero =>
    rw [nextFree] at below
    omega
  | succ tries ih =>
    rw [nextFree] at below
    split at below
    · next isTaken =>
      rcases Nat.lt_or_eq_of_le above with later | rfl
      · exact ih later below
      · exact isTaken
    · omega

theorem nextFree_pos (tries last : Nat) : last < nextFree taken name tries last := by
  induction tries generalizing last with
  | zero => exact lt_succ_self last
  | succ tries ih =>
    rw [nextFree]
    split
    · exact lt_of_succ_lt (ih (last + 1))
    · exact lt_succ_self last

end

end EvolutionJmap
