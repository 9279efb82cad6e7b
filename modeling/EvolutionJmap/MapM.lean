import Mathlib

/-!
# Lists mapped by a function that can fail
-/

namespace EvolutionJmap

open List

variable {α β ε : Type*} {items : List α} {images : List β}

theorem mapM_eq_some_iff {f : α → Option β} :
    items.mapM f = some images ↔ Forall₂ (fun item image => f item = some image) items images := by
  induction items generalizing images with
  | nil => simp [eq_comm]
  | cons item items ih =>
    simp [mapM_cons, Option.bind_eq_some_iff, ih, forall₂_cons_left_iff, @eq_comm _ images]

theorem mapM_eq_ok_iff {f : α → Except ε β} :
    items.mapM f = .ok images ↔ Forall₂ (fun item image => f item = .ok image) items images := by
  induction items generalizing images with
  | nil => simp [pure, Except.pure, eq_comm]
  | cons item items ih =>
    rw [mapM_cons, forall₂_cons_left_iff]
    simp only [← ih]
    cases f item <;> cases items.mapM f <;> simp [bind, Except.bind, pure, Except.pure, eq_comm]

theorem exists_of_forall₂ {R : α → β → Prop} (related : Forall₂ R items images) {image : β}
    (mem : image ∈ images) : ∃ item ∈ items, R item image := by
  induction related with
  | nil => cases mem
  | cons here _ ih =>
    rcases mem_cons.mp mem with rfl | mem
    · exact ⟨_, mem_cons_self, here⟩
    · obtain ⟨item, isItem, holds⟩ := ih mem
      exact ⟨item, mem_cons_of_mem _ isItem, holds⟩

end EvolutionJmap
