import Mathlib

/-!
# Reading a sorted listing by position

A listing in a fixed order is read page by page, each from the position that the earlier
pages reached.  While nothing leaves the listing, an element can only move to a later
position, so a page never steps over it.
-/

namespace EvolutionJmap.Paging

open Classical List

variable {α : Type} {precedes : α → α → Prop}

/-- How many elements of the listing come before `item`. -/
noncomputable def rank (precedes : α → α → Prop) (listing : List α) (item : α) : Nat :=
  listing.countP fun other => decide (precedes other item)

def page (listing : List α) (position size : Nat) : List α :=
  (listing.drop position).take size

variable [IsStrictOrder α precedes] {listing : List α} {item : α}

omit [IsStrictOrder α precedes] in
theorem rank_mono {larger : List α} (nodup : listing.Nodup)
    (subset : listing ⊆ larger) :
    rank precedes listing item ≤ rank precedes larger item := by
  simp only [rank, countP_eq_length_filter]
  refine (subperm_of_subset (nodup.filter _) fun other mem => ?_).length_le
  rw [mem_filter] at mem ⊢
  exact ⟨subset mem.1, mem.2⟩

theorem rank_append_of_mem {front back : List α}
    (sorted : (front ++ back).Pairwise precedes) (mem : item ∈ front) :
    rank precedes (front ++ back) item = rank precedes front item := by
  have later : back.countP (fun other => decide (precedes other item)) = 0 := by
    rw [countP_eq_zero]
    intro other inBack
    have before := (pairwise_append.mp sorted).2.2 item mem other inBack
    simpa using asymm_of precedes before
  simp [rank, countP_append, later]

variable (precedes) in
theorem rank_lt_length (mem : item ∈ listing) :
    rank precedes listing item < listing.length := by
  refine lt_of_le_of_ne countP_le_length fun all => ?_
  have before := countP_eq_length.mp all item mem
  exact irrefl_of precedes item (by simpa using before)

theorem page_length_le_rank {position size : Nat} (sorted : listing.Pairwise precedes)
    (mem : item ∈ listing) (reached : position ≤ rank precedes listing item)
    (missed : item ∉ page listing position size) :
    position + (page listing position size).length ≤ rank precedes listing item := by
  have split : listing = (listing.take position ++ page listing position size) ++
      (listing.drop position).drop size := by
    rw [page, append_assoc, take_append_drop, take_append_drop]
  have positionLe : position ≤ listing.length :=
    reached.trans (countP_le_length)
  have frontLength : (listing.take position).length = position := by
    simp [positionLe]
  have notFront : item ∉ listing.take position := by
    intro inFront
    have counted : rank precedes listing item = rank precedes (listing.take position) item := by
      conv_lhs => rw [← take_append_drop position listing]
      exact rank_append_of_mem (by rwa [take_append_drop]) inFront
    have small := rank_lt_length precedes inFront
    omega
  have inRest : item ∈ (listing.drop position).drop size := by
    rw [split] at mem
    simpa [notFront, missed] using mem
  -- everything in front of the rest precedes the element
  have front : ∀ other ∈ listing.take position ++ page listing position size,
      precedes other item := fun other inFront =>
    (pairwise_append.mp (split ▸ sorted)).2.2 other inFront item inRest
  calc position + (page listing position size).length
      = (listing.take position ++ page listing position size).length := by
        rw [length_append, frontLength]
    _ = rank precedes (listing.take position ++ page listing position size) item := by
        refine (countP_eq_length.mpr fun other inFront => ?_).symm
        simpa using front other inFront
    _ ≤ rank precedes listing item := by
        conv_rhs => rw [split, rank, countP_append]
        exact Nat.le_add_right _ _

end EvolutionJmap.Paging
