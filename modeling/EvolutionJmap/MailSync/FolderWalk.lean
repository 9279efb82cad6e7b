import Mathlib

/-!
# The walk over the mailboxes (`walk` of `jmap-mail-sync/src/folder.rs`)

Depth-first pre-order from the mailboxes without a parent.  A mailbox that is too deep,
or the first one that the walk did not reach, loses its parent link and is walked as a
root.  In the end every mailbox was visited once and behind its parent, and no chain of
parents is longer than the limit.
-/

namespace EvolutionJmap.MailSync

open List Nat

def maxDepth : Nat := 64

/-- The state of the walk: the links, the mailboxes whose `visited` flag is not set,
those visited in their order, the stack with its top first, and the number up to
which an unvisited mailbox was looked for. -/
structure Walk where
  parent : Nat → Option Nat
  children : Nat → List Nat
  unvisited : List Nat
  order : List Nat
  stack : List (Nat × Nat)
  cut : Nat

variable {parent' : Nat → Option Nat} {level' : Nat → Nat} {front order : List Nat} {depth : Nat}
  {stack : List (Nat × Nat)}

namespace Walk

def cutLink (walk : Walk) (index : Nat) : Walk :=
  match walk.parent index with
  | none => walk
  | some above =>
    { walk with
      parent := Function.update walk.parent index none
      children := Function.update walk.children above
        ((walk.children above).filter (· ≠ index)) }

def visit (walk : Walk) (index depth : Nat) (stack : List (Nat × Nat)) : Walk :=
  { walk with
    unvisited := walk.unvisited.erase index
    order := walk.order ++ [index]
    stack := (walk.children index).map (fun child => (child, depth + 1)) ++ stack }

/-- One turn of the loops, or nothing at the end. -/
def step (size : Nat) (walk : Walk) : Option Walk :=
  match walk.stack with
  | (index, depth) :: stack =>
    if index ∈ walk.unvisited then
      -- too deep: the mailbox becomes top-level
      some (if maxDepth < depth then (walk.cutLink index).visit index 1 stack
        else walk.visit index depth stack)
    else some { walk with stack }
  | [] =>
    match (List.range size).find? fun index => walk.cut ≤ index ∧ index ∈ walk.unvisited with
    | none => none
    | some orphan => some { walk.cutLink orphan with cut := orphan + 1, stack := [(orphan, 1)] }

section Fields

variable (walk : Walk) (index : Nat)

@[simp] theorem cutLink_unvisited : (walk.cutLink index).unvisited = walk.unvisited := by
  rw [cutLink]
  split <;> rfl

@[simp] theorem cutLink_order : (walk.cutLink index).order = walk.order := by
  rw [cutLink]
  split <;> rfl

@[simp] theorem cutLink_cut : (walk.cutLink index).cut = walk.cut := by
  rw [cutLink]
  split <;> rfl

theorem cutLink_parent_self : (walk.cutLink index).parent index = none := by
  rw [cutLink]
  split
  · assumption
  · simp

theorem cutLink_parent_of_ne {other : Nat} (differ : other ≠ index) :
    (walk.cutLink index).parent other = walk.parent other := by
  rw [cutLink]
  split
  · rfl
  · simp [differ]

end Fields

/-- Each turn visits a mailbox, or looks further for one, or takes one off the stack. -/
theorem step_decreases {size : Nat} {walk next : Walk} (taken : walk.step size = some next) :
    Prod.Lex (· < ·) (Prod.Lex (· < ·) (· < ·))
      (next.unvisited.length, size - next.cut, next.stack.length)
      (walk.unvisited.length, size - walk.cut, walk.stack.length) := by
  rw [step] at taken
  split at taken
  · next index depth stack isStack =>
    split at taken
    · next unvisited =>
      have shorter : (walk.unvisited.erase index).length < walk.unvisited.length := by
        rw [length_erase_of_mem unvisited]
        exact Nat.sub_lt (length_pos_of_mem unvisited) Nat.one_pos
      cases taken
      apply Prod.Lex.left
      split
      · simpa [visit] using shorter
      · simpa [visit] using shorter
    · cases taken
      rw [isStack]
      exact .right _ (.right _ (lt_succ_self _))
  · split at taken
    · cases taken
    · next orphan found =>
      cases taken
      obtain ⟨here, inRange, -⟩ := find?_range_eq_some.mp found
      rw [decide_eq_true_eq] at here
      rw [mem_range] at inRange
      simp only [cutLink_unvisited]
      apply Prod.Lex.right
      apply Prod.Lex.left
      omega

def finish (size : Nat) (walk : Walk) : Walk :=
  match _taken : walk.step size with
  | none => walk
  | some next => finish size next
termination_by (walk.unvisited.length, size - walk.cut, walk.stack.length)
decreasing_by exact step_decreases _taken

/-- What every turn keeps holds at the end, where there is no further turn. -/
theorem finish_induction {size : Nat} {property : Walk → Prop}
    (keeps : ∀ walk next, property walk → walk.step size = some next → property next)
    {walk : Walk} (start : property walk) :
    property (walk.finish size) ∧ (walk.finish size).step size = none := by
  fun_induction finish size walk with
  | case1 walk taken => exact ⟨start, taken⟩
  | case2 walk next taken ih => exact ih (keeps walk next start taken)

/-! ## The order of the walk -/

/-- The place of a mailbox: a root, or below one that was visited. -/
def Follows (parent : Nat → Option Nat) (level : Nat → Nat) (front : List Nat)
    (index depth : Nat) : Prop :=
  (parent index = none ∧ depth = 1) ∨
    ∃ above ∈ front, parent index = some above ∧ depth = level above + 1

/-- Each mailbox comes behind its parent and one level below it. -/
inductive Ordered (parent : Nat → Option Nat) (level : Nat → Nat) : List Nat → Prop where
  | nil : Ordered parent level []
  | snoc {front : List Nat} {index : Nat} (rest : Ordered parent level front)
      (follows : Follows parent level front index (level index))
      (shallow : level index ≤ maxDepth) : Ordered parent level (front ++ [index])

theorem Follows.congr {parent : Nat → Option Nat} {level : Nat → Nat} {front' : List Nat}
    {index : Nat} (follows : Follows parent level front index depth)
    (sameParent : parent' index = parent index) (more : ∀ above ∈ front, above ∈ front')
    (sameLevel : ∀ above ∈ front, level' above = level above) :
    Follows parent' level' front' index depth := by
  rcases follows with ⟨root, top⟩ | ⟨above, mem, isParent, below⟩
  · exact .inl ⟨sameParent.trans root, top⟩
  · exact .inr ⟨above, more above mem, sameParent.trans isParent,
      below.trans (by rw [sameLevel above mem])⟩

theorem Ordered.congr {parent : Nat → Option Nat} {level : Nat → Nat}
    (ordered : Ordered parent level order)
    (same : ∀ index ∈ order, parent' index = parent index ∧ level' index = level index) :
    Ordered parent' level' order := by
  induction ordered with
  | nil => exact .nil
  | snoc rest follows shallow ih =>
    have last := same _ (mem_append_right _ mem_cons_self)
    have others := fun index mem => same index (mem_append_left _ mem)
    refine .snoc (ih others) ?_ (last.2 ▸ shallow)
    rw [last.2]
    exact follows.congr last.1 (fun _ => id) fun above mem => (others above mem).2

variable {parent : Nat → Option Nat}

theorem Follows.mem {level : Nat → Nat} {index above : Nat}
    (follows : Follows parent level front index depth) (isParent : parent index = some above) :
    above ∈ front ∧ depth = level above + 1 := by
  rcases follows with ⟨root, -⟩ | ⟨other, mem, isOther, below⟩
  · rw [root] at isParent
    cases isParent
  · rw [isOther, Option.some.injEq] at isParent
    exact isParent ▸ ⟨mem, below⟩

section

variable {level : Nat → Nat} (ordered : Ordered parent level order)

include ordered

section

variable {index : Nat} (mem : index ∈ order)

include mem

theorem Ordered.parent_mem {above : Nat} (isParent : parent index = some above) :
    above ∈ order ∧ level index = level above + 1 := by
  induction ordered with
  | nil => cases mem
  | snoc _ follows _ ih =>
    rcases mem_append.mp mem with old | last
    · exact (ih old).imp_left (mem_append_left _)
    · rw [mem_singleton.mp last] at isParent ⊢
      exact (follows.mem isParent).imp_left (mem_append_left _)

theorem Ordered.root_level (isRoot : parent index = none) : level index = 1 := by
  induction ordered with
  | nil => cases mem
  | snoc _ follows _ ih =>
    rcases mem_append.mp mem with old | last
    · exact ih old
    · rw [mem_singleton.mp last] at isRoot ⊢
      rcases follows with ⟨-, top⟩ | ⟨above, -, isParent, -⟩
      · exact top
      · rw [isRoot] at isParent
        cases isParent

theorem Ordered.shallow : level index ≤ maxDepth := by
  induction ordered with
  | nil => cases mem
  | snoc _ _ shallow ih =>
    rcases mem_append.mp mem with old | last
    · exact ih old
    · exact mem_singleton.mp last ▸ shallow

end

end

/-! ## What a turn keeps -/

/-- The invariant of the walk. -/
structure Sound (size : Nat) (level : Nat → Nat) (walk : Walk) : Prop where
  perm : (walk.order ++ walk.unvisited).Perm (List.range size)
  children : ∀ index, ∀ child ∈ walk.children index,
    child < size ∧ walk.parent child = some index
  stack : ∀ entry ∈ walk.stack, entry.1 ∈ walk.unvisited →
    Follows walk.parent level walk.order entry.1 entry.2
  ordered : Ordered walk.parent level walk.order
  passed : ∀ index < walk.cut, index ∈ walk.unvisited → index ∈ walk.stack.map Prod.fst

section Step

variable {size : Nat} {level : Nat → Nat} {walk next : Walk} {index : Nat}

section

variable (sound : Sound size level walk)

include sound

theorem Sound.nodup : (walk.order ++ walk.unvisited).Nodup :=
  sound.perm.nodup_iff.mpr nodup_range

theorem Sound.cutLink_children {above child : Nat}
    (mem : child ∈ (walk.cutLink index).children above) :
    child ∈ walk.children above ∧ child ≠ index := by
  rw [cutLink] at mem
  split at mem
  · next root =>
    refine ⟨mem, ?_⟩
    rintro rfl
    rw [(sound.children above child mem).2] at root
    cases root
  · next parent isParent =>
    by_cases same : above = parent
    · subst same
      simpa using mem
    · change child ∈ Function.update walk.children parent _ above at mem
      rw [Function.update_of_ne same] at mem
      refine ⟨mem, ?_⟩
      rintro rfl
      rw [(sound.children above child mem).2, Option.some.injEq] at isParent
      exact same isParent

theorem Sound.skip (isStack : walk.stack = (index, depth) :: stack)
    (visited : index ∉ walk.unvisited) : Sound size level { walk with stack } where
  perm := sound.perm
  children := sound.children
  stack entry mem := sound.stack entry (isStack ▸ mem_cons_of_mem _ mem)
  ordered := sound.ordered
  passed other before unvisited := by
    have stacked := sound.passed other before unvisited
    rw [isStack, map_cons, mem_cons] at stacked
    apply stacked.resolve_left
    rintro rfl
    exact visited unvisited

section

variable (unvisited : index ∈ walk.unvisited)

include unvisited

theorem Sound.fresh : index ∉ walk.order :=
  fun visited => (nodup_append.mp sound.nodup).2.2 index visited index unvisited rfl

theorem Sound.ne_of_visited {other : Nat} (visited : other ∈ walk.order) : other ≠ index :=
  fun same => sound.fresh unvisited (same ▸ visited)

theorem Sound.uproot {cut : Nat} (rest : ∀ entry ∈ stack, entry ∈ walk.stack ∧ entry.1 ≠ index)
    (passed : ∀ other < cut, other ∈ walk.unvisited → other = index ∨ other ∈ stack.map Prod.fst) :
    Sound size level { walk.cutLink index with cut, stack := (index, 1) :: stack } where
  perm := by simpa using sound.perm
  children above child mem := by
    obtain ⟨old, differ⟩ := sound.cutLink_children mem
    rw [cutLink_parent_of_ne walk index differ]
    exact sound.children above child old
  stack entry mem isUnvisited := by
    rcases mem_cons.mp mem with rfl | mem
    · exact .inl ⟨cutLink_parent_self walk index, rfl⟩
    · obtain ⟨old, differ⟩ := rest entry mem
      simp only [cutLink_unvisited] at isUnvisited
      simp only [cutLink_order]
      exact (sound.stack entry old isUnvisited).congr
        (cutLink_parent_of_ne walk index differ) (fun _ => id) fun _ _ => rfl
  ordered := by
    simp only [cutLink_order]
    apply sound.ordered.congr
    intro other visited
    exact ⟨cutLink_parent_of_ne walk index (sound.ne_of_visited unvisited visited), rfl⟩
  passed other before isUnvisited := by
    simp only [cutLink_unvisited] at isUnvisited
    exact mem_cons.mpr (passed other before isUnvisited)

theorem Sound.visit (follows : Follows walk.parent level walk.order index depth)
    (shallow : depth ≤ maxDepth) (isStack : ∀ entry ∈ stack, entry.1 ≠ index → entry ∈ walk.stack)
    (rest : ∀ other ∈ walk.stack.map Prod.fst, other ≠ index → other ∈ stack.map Prod.fst) :
    Sound size (Function.update level index depth) (walk.visit index depth stack) := by
  have sameLevel : ∀ other ∈ walk.order, Function.update level index depth other = level other :=
    fun other visited => Function.update_of_ne (sound.ne_of_visited unvisited visited) _ _
  have nodup := (nodup_append.mp sound.nodup).2.1
  constructor
  · refine List.Perm.trans ?_ sound.perm
    simp only [Walk.visit, append_assoc, singleton_append]
    exact (perm_cons_erase unvisited).symm.append_left _
  · exact sound.children
  · intro entry mem isUnvisited
    have differ : entry.1 ≠ index := by
      rintro rfl
      exact nodup.not_mem_erase isUnvisited
    rcases mem_append.mp mem with pushed | old
    · obtain ⟨child, isChild, rfl⟩ := mem_map.mp pushed
      exact .inr ⟨index, mem_append_right _ mem_cons_self,
        (sound.children index child isChild).2, by simp⟩
    · exact (sound.stack entry (isStack entry old differ) (mem_of_mem_erase isUnvisited)).congr rfl
        (fun _ => mem_append_left _) sameLevel
  · refine .snoc (sound.ordered.congr fun other visited => ⟨rfl, sameLevel other visited⟩) ?_ ?_
    · rw [Function.update_self]
      exact follows.congr rfl (fun _ => id) sameLevel
    · rwa [Function.update_self]
  · intro other before isUnvisited
    have differ : other ≠ index := by
      rintro rfl
      exact nodup.not_mem_erase isUnvisited
    have stacked := sound.passed other before (mem_of_mem_erase isUnvisited)
    simp only [Walk.visit, map_append, mem_append]
    exact .inr (rest other stacked differ)

theorem Sound.visitRoot (isStack : ∀ entry ∈ stack, entry.1 ≠ index → entry ∈ walk.stack)
    (rest : ∀ other ∈ walk.stack.map Prod.fst, other ≠ index → other ∈ stack.map Prod.fst) :
    Sound size (Function.update level index 1) ((walk.cutLink index).visit index 1 stack) := by
  -- other entries of the mailbox can be on the stack, but they do not count any more
  let others := stack.filter (·.1 ≠ index)
  have mem_others : ∀ entry, entry ∈ others ↔ entry ∈ stack ∧ entry.1 ≠ index := by
    simp [others]
  have uprooted : Sound size level
      { walk.cutLink index with cut := walk.cut, stack := (index, 1) :: others } := by
    apply sound.uproot unvisited
    · intro entry mem
      obtain ⟨inStack, differ⟩ := (mem_others entry).mp mem
      exact ⟨isStack entry inStack differ, differ⟩
    · intro other before isUnvisited
      by_cases same : other = index
      · exact .inl same
      · have stacked := rest other (sound.passed other before isUnvisited) same
        obtain ⟨entry, mem, rfl⟩ := mem_map.mp stacked
        exact .inr (mem_map_of_mem ((mem_others entry).mpr ⟨mem, same⟩))
  have isWalk : (walk.cutLink index).visit index 1 stack =
      Walk.visit { walk.cutLink index with cut := walk.cut, stack := (index, 1) :: others }
        index 1 stack := by
    simp [Walk.visit]
  rw [isWalk]
  apply uprooted.visit
  · simpa using unvisited
  · exact .inl ⟨cutLink_parent_self walk index, rfl⟩
  · decide
  · intro entry mem differ
    exact mem_cons_of_mem _ ((mem_others entry).mpr ⟨mem, differ⟩)
  · intro other stacked differ
    obtain ⟨entry, mem, rfl⟩ := mem_map.mp ((mem_cons.mp stacked).resolve_left differ)
    exact mem_map_of_mem ((mem_others entry).mp mem).1

end

theorem Sound.step (taken : walk.step size = some next) : ∃ level, Sound size level next := by
  rw [Walk.step] at taken
  split at taken
  · next index depth stack isStack =>
    have rest : ∀ other ∈ walk.stack.map Prod.fst, other ≠ index → other ∈ stack.map Prod.fst := by
      rw [isStack]
      intro other stacked differ
      exact (mem_cons.mp stacked).resolve_left differ
    have smaller : ∀ entry ∈ stack, entry.1 ≠ index → entry ∈ walk.stack :=
      fun entry mem _ => isStack ▸ mem_cons_of_mem _ mem
    split at taken
    · next unvisited =>
      cases taken
      split
      · exact ⟨_, sound.visitRoot unvisited smaller rest⟩
      · next shallow =>
        refine ⟨_, sound.visit unvisited ?_ (Nat.le_of_not_lt shallow) smaller rest⟩
        exact sound.stack (index, depth) (isStack ▸ mem_cons_self) unvisited
    · next visited =>
      cases taken
      exact ⟨level, sound.skip isStack visited⟩
  · next isEmpty =>
    split at taken
    · cases taken
    · next orphan found =>
      cases taken
      obtain ⟨here, -, first⟩ := find?_range_eq_some.mp found
      rw [decide_eq_true_eq] at here
      refine ⟨level, sound.uproot here.2 (fun entry mem => nomatch mem) ?_⟩
      intro other before isUnvisited
      rcases lt_or_ge other walk.cut with passed | later
      · have stacked := sound.passed other passed isUnvisited
        rw [isEmpty] at stacked
        cases stacked
      · rcases Nat.lt_succ_iff_lt_or_eq.mp before with earlier | same
        · have absent := first other earlier
          simp [later, isUnvisited] at absent
        · exact .inl same

theorem Sound.unvisited_nil (ended : walk.step size = none) : walk.unvisited = [] := by
  rw [Walk.step] at ended
  split at ended
  · split at ended <;> nomatch ended
  · next isEmpty =>
    split at ended
    · next notFound =>
      rw [eq_nil_iff_forall_not_mem]
      intro index unvisited
      have inRange : index ∈ List.range size :=
        sound.perm.subset (mem_append_right _ unvisited)
      have passed : ¬ walk.cut ≤ index := by
        simpa [unvisited] using find?_eq_none.mp notFound index inRange
      have stacked := sound.passed index (Nat.lt_of_not_le passed) unvisited
      rw [isEmpty] at stacked
      cases stacked
    · cases ended

end

end Step

end Walk

def walk (size : Nat) (parent : Nat → Option Nat) (children : Nat → List Nat)
    (roots : List Nat) : Walk :=
  Walk.finish size
    { parent, children, unvisited := List.range size, order := []
      stack := roots.map fun root => (root, 1), cut := 0 }

/-- The walk visits every mailbox once, behind its parent, and within the depth
limit. -/
theorem walk_ordered {size : Nat} {parent : Nat → Option Nat} {children : Nat → List Nat}
    {roots : List Nat}
    (isChild : ∀ index, ∀ child ∈ children index, child < size ∧ parent child = some index)
    (isRoot : ∀ root ∈ roots, parent root = none) :
    (walk size parent children roots).order.Perm (List.range size) ∧
      ∃ level, Walk.Ordered (walk size parent children roots).parent level
        (walk size parent children roots).order := by
  have start : ∃ level, Walk.Sound size level
      { parent, children, unvisited := List.range size, order := []
        stack := roots.map fun root => (root, 1), cut := 0 } := by
    refine ⟨fun _ => 1, List.Perm.refl _, isChild, ?_, .nil, fun _ before => nomatch before⟩
    intro entry mem _
    obtain ⟨root, rootMem, rfl⟩ := mem_map.mp mem
    exact .inl ⟨isRoot root rootMem, rfl⟩
  have keeps : ∀ walk next, (∃ level, Walk.Sound size level walk) → walk.step size = some next →
      ∃ level, Walk.Sound size level next := by
    rintro walk next ⟨level, sound⟩ taken
    exact sound.step taken
  obtain ⟨⟨level, sound⟩, ended⟩ := Walk.finish_induction keeps start
  have perm := sound.perm
  rw [sound.unvisited_nil ended, append_nil] at perm
  exact ⟨perm, level, sound.ordered⟩

end EvolutionJmap.MailSync
