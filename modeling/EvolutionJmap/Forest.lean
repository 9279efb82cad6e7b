import Mathlib

/-!
# Building a forest bottom up

Nodes are numbers with at most one parent each.  `assemble` goes through an order of the
nodes from its end, makes the tree of each node from the trees that wait for it, and
hands the tree on to the parent.  When each parent stands in front of its children, the
result is the forest of the parent links.
-/

namespace EvolutionJmap.Forest

open List Function

variable {T : Type} (parent : Nat → Option Nat) (make : Nat → List T → T)

/-- The trees that wait for their parent, and those without one, each list in the
order in which they were made. -/
structure Assembly (T : Type) where
  built : Nat → List T
  roots : List T

/-- Make the tree of a node and hand it on. -/
def Assembly.place (index : Nat) (assembly : Assembly T) : Assembly T :=
  let tree := make index (assembly.built index).reverse
  let taken := Function.update assembly.built index []
  match parent index with
  | some above => { assembly with built := Function.update taken above (taken above ++ [tree]) }
  | none => { built := taken, roots := assembly.roots ++ [tree] }

/-- The trees of an order, from its end. -/
def assembly (order : List Nat) : Assembly T :=
  order.foldr (Assembly.place parent make) { built := fun _ => [], roots := [] }

def assemble (order : List Nat) : List T := (assembly parent make order).roots.reverse

/-- No node comes twice or stands in front of its parent. -/
inductive ParentsFirst : List Nat → Prop where
  | nil : ParentsFirst []
  | cons {index : Nat} {back : List Nat} (fresh : index ∉ back)
      (behind : ∀ above ∈ index :: back, parent index ≠ some above)
      (rest : ParentsFirst back) : ParentsFirst (index :: back)

def below (above : Option Nat) (order : List Nat) : List Nat :=
  order.filter fun index => parent index = above

/-- The tree of each node has the trees of its children in their order. -/
def Grows (grow : Nat → T) (order : List Nat) : Prop :=
  ∀ index ∈ order, grow index = make index ((below parent (some index) order).map grow)

variable {parent} {make} {index : Nat} {order back : List Nat} {above : Option Nat}

theorem mem_below : index ∈ below parent above order ↔ index ∈ order ∧ parent index = above := by
  simp [below]

@[simp] theorem below_nil : below parent above [] = [] := rfl

theorem below_cons_of_eq (isParent : parent index = above) :
    below parent above (index :: back) = index :: below parent above back := by
  simp [below, isParent]

theorem below_cons_of_ne (notParent : parent index ≠ above) :
    below parent above (index :: back) = below parent above back := by
  simp [below, notParent]

/-- What a step leaves for the parent of the trees, with the tree of `index` as the
last one there. -/
theorem place_spec {assembly : Assembly T} {grow : Nat → T}
    (built : ∀ above ∉ back, assembly.built above =
      ((below parent (some above) back).map grow).reverse)
    (roots : assembly.roots = ((below parent none back).map grow).reverse)
    (isTree : grow index = make index (assembly.built index).reverse) :
    (assembly.place parent make index).roots =
      ((below parent none (index :: back)).map grow).reverse ∧
      ∀ above ∉ index :: back, (assembly.place parent make index).built above =
        ((below parent (some above) (index :: back)).map grow).reverse := by
  have taken : ∀ above ∉ index :: back, Function.update assembly.built index [] above =
      ((below parent (some above) back).map grow).reverse := by
    intro above outside
    rw [mem_cons, not_or] at outside
    rw [update_of_ne outside.1]
    exact built above outside.2
  rw [Assembly.place]
  cases isParent : parent index with
  | none =>
    constructor
    · rw [below_cons_of_eq isParent, map_cons, reverse_cons, isTree, ← roots]
    · intro above outside
      rw [below_cons_of_ne (by simp [isParent])]
      exact taken above outside
  | some parentIndex =>
    constructor
    · rw [below_cons_of_ne (by simp [isParent])]
      exact roots
    · intro above outside
      by_cases same : above = parentIndex
      · subst same
        rw [below_cons_of_eq isParent, map_cons, reverse_cons, isTree, ← taken above outside]
        simp
      · rw [below_cons_of_ne (by simpa [isParent] using Ne.symm same), ← taken above outside]
        simp [update_of_ne same]

/-! ## The nodes of the forest -/

def tops (parent : Nat → Option Nat) (order : List Nat) : List Nat :=
  order.filter fun index => ∀ above ∈ order, parent index ≠ some above

section

variable (first : ParentsFirst parent order)

include first

theorem ParentsFirst.snoc (fresh : index ∉ order)
    (notParent : ∀ other ∈ index :: order, parent other ≠ some index) :
    ParentsFirst parent (order ++ [index]) := by
  induction first with
  | nil =>
    refine .cons not_mem_nil ?_ .nil
    simpa using notParent index mem_cons_self
  | @cons head back headFresh behind _ ih =>
    rw [mem_cons, not_or] at fresh
    have others : ∀ other ∈ index :: back, parent other ≠ some index := by
      intro other mem
      apply notParent
      rcases mem_cons.mp mem with rfl | mem
      · exact mem_cons_self
      · exact mem_cons_of_mem _ (mem_cons_of_mem _ mem)
    rw [cons_append]
    refine .cons ?_ ?_ (ih fresh.2 others)
    · simpa [headFresh] using Ne.symm fresh.1
    · intro above mem
      rw [← cons_append, mem_append, mem_singleton] at mem
      rcases mem with inside | rfl
      · exact behind above inside
      · exact notParent head (mem_cons_of_mem _ mem_cons_self)

theorem assembly_grows :
    ∃ grow : Nat → T, Grows parent make grow order ∧
      (assembly parent make order).roots = ((below parent none order).map grow).reverse ∧
      ∀ above ∉ order, (assembly parent make order).built above =
        ((below parent (some above) order).map grow).reverse := by
  induction first with
  | nil => exact ⟨fun index => make index [], by simp [Grows], rfl, fun _ _ => rfl⟩
  | @cons index back fresh behind _ ih =>
    obtain ⟨grow, grows, roots, built⟩ := ih
    let grown := Function.update grow index
      (make index ((assembly parent make back).built index).reverse)
    have same (above : Option Nat) :
        (below parent above back).map grown = (below parent above back).map grow := by
      apply map_congr_left
      intro other mem
      apply update_of_ne
      rintro rfl
      exact fresh (mem_below.mp mem).1
    have children : ∀ above ∈ index :: back,
        below parent (some above) (index :: back) = below parent (some above) back :=
      fun above mem => below_cons_of_ne (behind above mem)
    have isTree : grown index = make index ((assembly parent make back).built index).reverse :=
      update_self ..
    simp only [← same] at built roots
    refine ⟨grown, ?_, place_spec built roots isTree⟩
    intro other mem
    rw [children other mem]
    rcases mem_cons.mp mem with rfl | mem
    · rw [isTree, built other fresh, reverse_reverse]
    · have differ : other ≠ index := fun equal => fresh (equal ▸ mem)
      rw [same, ← grows other mem]
      exact update_of_ne differ _ _

theorem assemble_grows :
    ∃ grow : Nat → T, Grows parent make grow order ∧
      assemble parent make order = (below parent none order).map grow := by
  obtain ⟨grow, grows, roots, -⟩ := assembly_grows first
  refine ⟨grow, grows, ?_⟩
  rw [assemble, roots, reverse_reverse]

/-- The nodes below the tops are all the nodes, each once.  `nodes` lists a tree,
with the node itself in front of the trees below it. -/
theorem tops_perm {nodes : T → List T} {grow : Nat → T}
    (node : ∀ index ∈ order, nodes (grow index) =
      grow index :: ((below parent (some index) order).map grow).flatMap nodes) :
    (((tops parent order).map grow).flatMap nodes).Perm (order.map grow) := by
  induction first with
  | nil => exact .nil
  | @cons index back fresh behind rest ih =>
    -- the trees of the children stood at the top before
    have isTop : tops parent (index :: back) =
        index :: (tops parent back).filter fun other => !decide (parent other = some index) := by
      have top : ∀ above ∈ index :: back, parent index ≠ some above := behind
      rw [tops, filter_cons_of_pos (by simpa using top), tops, filter_filter]
      simp
    have children : below parent (some index) (index :: back) =
        (tops parent back).filter fun other => parent other = some index := by
      rw [below_cons_of_ne (behind index mem_cons_self), below, tops, filter_filter]
      apply filter_congr
      intro other mem
      by_cases isChild : parent other = some index
      · have differ : ∀ above ∈ back, index ≠ above :=
          fun above inBack same => fresh (same ▸ inBack)
        simpa [isChild] using differ
      · simp [isChild]
    have rests : ∀ other ∈ back, nodes (grow other) =
        grow other :: ((below parent (some other) back).map grow).flatMap nodes := by
      intro other mem
      rw [node other (mem_cons_of_mem _ mem),
        below_cons_of_ne (behind other (mem_cons_of_mem _ mem))]
    rw [isTop, map_cons, flatMap_cons, node index mem_cons_self, children,
      cons_append, map_cons, ← flatMap_append, ← map_append]
    apply List.Perm.cons
    refine List.Perm.trans ?_ (ih rests)
    exact ((filter_append_perm _ _).map grow).flatMap_right nodes

end

end EvolutionJmap.Forest
