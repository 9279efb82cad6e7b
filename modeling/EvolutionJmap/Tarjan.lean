import Mathlib

/-!
# Strongly connected components

The depth-first search that finds the strongly connected components of a graph in
one pass.  It numbers the nodes as it meets them and keeps, for each node, the smallest
number of a node on the stack that it knows to reach.

A component comes out after the components that it refers to.
-/

namespace EvolutionJmap.Tarjan

open Relation List Nat Function

variable {α : Type}

/-- A path leads from one node to the other. -/
def Reach (successors : α → List α) : α → α → Prop :=
  ReflTransGen fun source target => target ∈ successors source

/-- The members are all nodes that reach one of them and are reached from it. -/
structure IsComponent (successors : α → List α) (component : List α) : Prop where
  nonempty : component ≠ []
  mem_iff : ∀ node ∈ component, ∀ other,
    other ∈ component ↔ Reach successors node other ∧ Reach successors other node

/-- The variables of the search. A map without an entry gives `none`; the top of the
stack comes first. -/
structure State (α : Type) where
  index : Nat := 0
  indices : α → Option Nat := fun _ => none
  lowlink : α → Option Nat := fun _ => none
  onStack : α → Bool := fun _ => false
  stack : List α := []
  sccs : List (List α) := []

section Search

variable [DecidableEq α] (successors : α → List α)

/-- Give a node the next number and put it on the stack. -/
def enter (node : α) (state : State α) : State α where
  index := state.index + 1
  indices := Function.update state.indices node (some state.index)
  lowlink := Function.update state.lowlink node (some state.index)
  onStack := Function.update state.onStack node true
  stack := node :: state.stack
  sccs := state.sccs

/-- Lower the link of a node. Without an entry for the node, or without the other
number, the search panics. -/
def lower (node : α) (other : Option Nat) (state : State α) : Option (State α) :=
  match other, state.lowlink node with
  | some other, some low =>
    some { state with lowlink := Function.update state.lowlink node (some (min low other)) }
  | _, _ => none

/-- The elements down to `node`, and those below. -/
def popUntil (node : α) : List α → List α × List α
  | [] => ([], [])
  | top :: rest =>
    if top = node then ([top], rest)
    else (top :: (popUntil node rest).1, (popUntil node rest).2)

/-- A node whose link is its own number is the first one of its component. -/
def finish (node : α) (state : State α) : Option (State α) :=
  match state.lowlink node, state.indices node with
  | some low, some index =>
    if low = index then
      let popped := popUntil node state.stack
      some { state with
        stack := popped.2
        onStack := fun other => state.onStack other && !popped.1.contains other
        sccs := state.sccs ++ [popped.1] }
    else some state
  | _, _ => none

def visit (connect : α → State α → Option (State α)) (node : α) (state : State α) (dep : α) :
    Option (State α) :=
  if (state.indices dep).isNone then
    (connect dep state).bind fun state => lower node (state.lowlink dep) state
  else if state.onStack dep then lower node (state.indices dep) state
  else some state

/-- Search from a node without a number. The result is `none` when the depth is used
up, or on a panic. -/
def strongconnect : Nat → α → State α → Option (State α)
  | 0, _, _ => none
  | depth + 1, node, state =>
    ((successors node).foldlM (visit (strongconnect depth) node) (enter node state)).bind
      (finish node)

def search (depth : Nat) (nodes : List α) : Option (State α) :=
  nodes.foldlM (fun state node =>
    if (state.indices node).isNone then strongconnect successors depth node state
    else some state) {}

end Search

/-! ## The invariant -/

namespace State

variable (state : State α)

/-- The node has an index. -/
def Visited (node : α) : Prop := (state.indices node).isSome = true

def num (node : α) : Nat := (state.indices node).getD 0

theorem not_visited_iff {node : α} :
    ¬ state.Visited node ↔ (state.indices node).isNone = true := by
  simp [Visited]

end State

section Invariant

variable (successors : α → List α)

/-- What holds between two steps. `path` are the nodes whose search is under way. -/
structure Inv (path : List α) (state : State α) : Prop where
  visited_iff : ∀ node, state.Visited node ↔ node ∈ state.stack ∨ node ∈ state.sccs.flatten
  apart : ∀ node ∈ state.stack, node ∉ state.sccs.flatten
  onStack_iff : ∀ node, state.onStack node = true ↔ node ∈ state.stack
  num_lt : ∀ node ∈ state.stack, state.num node < state.index
  sorted : state.stack.Pairwise fun upper below => state.num below < state.num upper
  path_stack : path ⊆ state.stack
  -- the search of a node off the path has followed all its edges
  followed : ∀ node, state.Visited node → node ∉ path →
    ∀ target ∈ successors node, state.Visited target
  closed : ∀ node ∈ state.sccs.flatten, ∀ target ∈ successors node,
    target ∈ state.sccs.flatten
  -- a node stays on the stack because it reaches an older one of the path
  back : ∀ node ∈ state.stack, ∃ older ∈ path, state.num older ≤ state.num node ∧
    Reach successors node older
  forth : ∀ older ∈ path, ∀ node ∈ state.stack, state.num older ≤ state.num node →
    Reach successors older node
  component : ∀ component ∈ state.sccs, IsComponent successors component
  ordered : state.sccs.Pairwise fun earlier later =>
    ∀ node ∈ earlier, ∀ target ∈ successors node, target ∉ later
  nodup : state.sccs.flatten.Nodup

/-- Nodes that have a number keep it, and keep their link. -/
structure Extends (start state : State α) : Prop where
  indices : ∀ node, start.Visited node → state.indices node = start.indices node
  lowlink : ∀ node, start.Visited node → state.lowlink node = start.lowlink node

/-- What a search from `node` leaves above the stack that it found, and the link of the
node: it is the node's own number, or that of a node of the old stack, and no edge
goes from the new part of the stack to an older node of the old stack. -/
structure Connected (node : α) (start state : State α) (above : List α) (low : Nat) : Prop
    extends Extends start state where
  index_lt : start.index < state.index
  number : state.indices node = some start.index
  stack : state.stack = above ++ start.stack
  link : state.lowlink node = some low
  reached : low = start.index ∨
    ∃ older ∈ start.stack, start.num older = low ∧ Reach successors node older
  edges : ∀ upper ∈ above, ∀ target ∈ successors upper, target ∈ start.stack →
    low ≤ start.num target
  met : ∀ other, state.Visited other → start.Visited other ∨ Reach successors node other

/-- A search from `node` on the way: it has followed the edges to `done`. -/
structure Scan (path : List α) (node : α) (start state : State α) (done above : List α)
    (low : Nat) : Prop extends Extends start state where
  before : Inv successors path start
  fresh : ¬ start.Visited node
  inv : Inv successors (node :: path) state
  index_lt : start.index < state.index
  number : state.indices node = some start.index
  stack : state.stack = above ++ node :: start.stack
  link : state.lowlink node = some low
  reached : ∃ older ∈ state.stack, state.num older = low ∧ Reach successors node older
  low_le : low ≤ start.index
  edges : ∀ upper ∈ above, ∀ target ∈ successors upper, target ∈ start.stack →
    low ≤ start.num target
  doneEdges : ∀ target ∈ done, target ∈ start.stack → low ≤ start.num target
  doneVisited : ∀ target ∈ done, state.Visited target
  met : ∀ other, state.Visited other → start.Visited other ∨ Reach successors node other

end Invariant

variable {successors : α → List α}

namespace Extends

variable {start state : State α}

section

variable (grown : Extends start state)

include grown

theorem visited {node : α} (earlier : start.Visited node) : state.Visited node := by
  rw [State.Visited, grown.indices node earlier]
  exact earlier

theorem num_eq {node : α} (earlier : start.Visited node) : state.num node = start.num node := by
  rw [State.num, grown.indices node earlier, State.num]

theorem trans {later : State α} (further : Extends state later) : Extends start later where
  indices node earlier :=
    (further.indices node (grown.visited earlier)).trans (grown.indices node earlier)
  lowlink node earlier :=
    (further.lowlink node (grown.visited earlier)).trans (grown.lowlink node earlier)

end

end Extends

variable {other : α}

namespace Inv

variable {path : List α} {state : State α}

theorem visited_of_stack (inv : Inv successors path state) {node : α}
    (mem : node ∈ state.stack) : state.Visited node :=
  (inv.visited_iff node).mpr (.inl mem)

theorem closed_reach (inv : Inv successors path state) {node : α} (out : node ∈ state.sccs.flatten)
    (reach : Reach successors node other) : other ∈ state.sccs.flatten := by
  induction reach with
  | refl => exact out
  | tail _ edge ih => exact inv.closed _ ih _ edge

end Inv

/-! ## Entering a node -/

variable [DecidableEq α]

section Enter

variable {path : List α} {start : State α} {node : α}

theorem enter_extends (fresh : ¬ start.Visited node) : Extends start (enter node start) where
  indices other earlier := by
    have different : other ≠ node := fun same => fresh (same ▸ earlier)
    exact update_of_ne different _ _
  lowlink other earlier := by
    have different : other ≠ node := fun same => fresh (same ▸ earlier)
    exact update_of_ne different _ _

theorem enter_visited (other : α) :
    (enter node start).Visited other ↔ other = node ∨ start.Visited other := by
  simp only [State.Visited, enter, update_apply]
  split
  · next same => simp [same]
  · next different => simp [different]

theorem enter_num : (enter node start).num node = start.index := by
  simp [State.num, enter]

section

variable (inv : Inv successors path start) (fresh : ¬ start.Visited node)
  (reached : ∀ older ∈ path, Reach successors older node)

include inv fresh reached

theorem enter_inv : Inv successors (node :: path) (enter node start) := by
  have grown := enter_extends fresh
  have notStacked : node ∉ start.stack := fun mem => fresh (inv.visited_of_stack mem)
  have notOut : node ∉ start.sccs.flatten := fun mem =>
    fresh ((inv.visited_iff node).mpr (.inr mem))
  have numOf : ∀ other ∈ start.stack, (enter node start).num other = start.num other :=
    fun other mem => grown.num_eq (inv.visited_of_stack mem)
  refine
    { visited_iff := ?_, apart := ?_, onStack_iff := ?_, num_lt := ?_, sorted := ?_
      path_stack := ?_, followed := ?_, closed := inv.closed, back := ?_, forth := ?_
      component := inv.component, ordered := inv.ordered, nodup := inv.nodup }
  · intro other
    rw [enter_visited, inv.visited_iff, ← or_assoc, enter, mem_cons]
  · intro other mem
    rcases mem_cons.mp mem with rfl | mem
    · exact notOut
    · exact inv.apart other mem
  · intro other
    simp only [enter, update_apply, mem_cons]
    split
    · next same => simp [same]
    · next different => simp [different, inv.onStack_iff]
  · intro other mem
    rcases mem_cons.mp mem with rfl | mem
    · rw [enter_num]
      exact lt_succ_self _
    · rw [numOf other mem]
      exact lt_succ_of_lt (inv.num_lt other mem)
  · refine pairwise_cons.mpr ⟨?_, ?_⟩
    · intro below mem
      rw [enter_num, numOf below mem]
      exact inv.num_lt below mem
    · refine inv.sorted.imp_of_mem ?_
      intro upper below isUpper isBelow less
      rwa [numOf upper isUpper, numOf below isBelow]
  · exact cons_subset_cons _ inv.path_stack
  · intro other visited offPath target edge
    rw [mem_cons, not_or] at offPath
    rw [enter_visited] at visited ⊢
    exact .inr (inv.followed other (visited.resolve_left offPath.1) offPath.2 target edge)
  · intro other mem
    rcases mem_cons.mp mem with rfl | mem
    · exact ⟨other, mem_cons_self, le_refl _, .refl⟩
    · obtain ⟨older, onPath, less, reach⟩ := inv.back other mem
      refine ⟨older, mem_cons_of_mem _ onPath, ?_, reach⟩
      rwa [numOf older (inv.path_stack onPath), numOf other mem]
  · intro older onPath other mem less
    rcases mem_cons.mp onPath with rfl | onPath
    · rcases mem_cons.mp mem with rfl | mem
      · exact .refl
      · rw [enter_num, numOf other mem] at less
        exact absurd (inv.num_lt other mem) (not_lt.mpr less)
    · rcases mem_cons.mp mem with same | mem
      · rw [same]
        exact reached older onPath
      · rw [numOf older (inv.path_stack onPath), numOf other mem] at less
        exact inv.forth older onPath other mem less

theorem enter_scan : Scan successors path node start (enter node start) [] [] start.index where
  toExtends := enter_extends fresh
  before := inv
  fresh := fresh
  inv := enter_inv inv fresh reached
  index_lt := lt_succ_self _
  number := update_self _ _ _
  stack := rfl
  link := update_self _ _ _
  reached := ⟨node, mem_cons_self, enter_num, .refl⟩
  low_le := le_refl _
  edges := nofun
  doneEdges := nofun
  doneVisited := nofun
  met other visited := by
    rcases (enter_visited other).mp visited with rfl | earlier
    · exact .inr .refl
    · exact .inl earlier

end

end Enter

/-! ## Following the edges -/

theorem lower_eq {node : α} {state : State α} {low : Nat} (link : state.lowlink node = some low)
    (other : Nat) : lower node (some other) state =
      some { state with
        lowlink := Function.update state.lowlink node (some (min low other)) } := by
  simp only [lower, link]

omit [DecidableEq α] in
theorem Inv.relink {path : List α} {state : State α} (inv : Inv successors path state)
    (lowlink : α → Option Nat) : Inv successors path { state with lowlink := lowlink } :=
  { inv with }

theorem Extends.relink {start state : State α} (grown : Extends start state) {node : α}
    (fresh : ¬ start.Visited node) (link : Option Nat) :
    Extends start { state with lowlink := Function.update state.lowlink node link } where
  indices := grown.indices
  lowlink other earlier := by
    have different : other ≠ node := fun same => fresh (same ▸ earlier)
    rw [← grown.lowlink other earlier]
    exact update_of_ne different _ _

namespace Scan

variable {path : List α} {node : α} {start state : State α} {done above : List α} {low : Nat}

section

omit [DecidableEq α]

section

variable (scan : Scan successors path node start state done above low)

include scan

theorem node_stacked : node ∈ state.stack := by
  rw [scan.stack]
  exact mem_append_right _ mem_cons_self

theorem start_stacked (mem : other ∈ start.stack) : other ∈ state.stack := by
  rw [scan.stack]
  exact mem_append_right _ (mem_cons_of_mem _ mem)

theorem num_start (mem : other ∈ start.stack) : state.num other = start.num other :=
  scan.num_eq (scan.before.visited_of_stack mem)

theorem num_node : state.num node = start.index := by
  rw [State.num, scan.number, Option.getD_some]

theorem reach_of_path {older : α} (onPath : older ∈ node :: path) :
    Reach successors older node := by
  rcases mem_cons.mp onPath with rfl | earlier
  · exact .refl
  · have stacked := scan.before.path_stack earlier
    refine scan.inv.forth older onPath node scan.node_stacked ?_
    rw [scan.num_start stacked, scan.num_node]
    exact le_of_lt (scan.before.num_lt older stacked)

theorem skip {dep : α} (visited : state.Visited dep) (offStack : dep ∉ state.stack) :
    Scan successors path node start state (dep :: done) above low :=
  { scan with
    doneEdges := forall_mem_cons.mpr
      ⟨fun stacked => absurd (scan.start_stacked stacked) offStack, scan.doneEdges⟩
    doneVisited := forall_mem_cons.mpr ⟨visited, scan.doneVisited⟩ }

end

end

section

variable (scan : Scan successors path node start state done above low) {dep : α}
  (edge : dep ∈ successors node)

include scan edge

theorem meet (stacked : dep ∈ state.stack) : Scan successors path node start
      { state with
        lowlink := Function.update state.lowlink node (some (min low (state.num dep))) }
      (dep :: done) above (min low (state.num dep)) where
  toExtends := scan.relink scan.fresh _
  before := scan.before
  fresh := scan.fresh
  inv := scan.inv.relink _
  index_lt := scan.index_lt
  number := scan.number
  stack := scan.stack
  link := update_self _ _ _
  reached := by
    rcases le_total low (state.num dep) with less | less
    · rw [min_eq_left less]
      exact scan.reached
    · rw [min_eq_right less]
      exact ⟨dep, stacked, rfl, .single edge⟩
  low_le := le_trans (min_le_left _ _) scan.low_le
  edges upper isAbove target isTarget inStart :=
    le_trans (min_le_left _ _) (scan.edges upper isAbove target isTarget inStart)
  doneEdges := by
    intro target mem inStart
    rcases mem_cons.mp mem with rfl | mem
    · rw [scan.num_start inStart]
      exact min_le_right _ _
    · exact le_trans (min_le_left _ _) (scan.doneEdges target mem inStart)
  doneVisited := forall_mem_cons.mpr ⟨scan.inv.visited_of_stack stacked, scan.doneVisited⟩
  met := scan.met

theorem connect (unvisited : ¬ state.Visited dep) {next : State α} {depAbove : List α}
    {depLow : Nat} (inv : Inv successors (node :: path) next)
    (connected : Connected successors dep state next depAbove depLow) :
    Scan successors path node start
      { next with lowlink := Function.update next.lowlink node (some (min low depLow)) }
      (dep :: done) (depAbove ++ above) (min low depLow) where
  toExtends := (scan.toExtends.trans connected.toExtends).relink scan.fresh _
  before := scan.before
  fresh := scan.fresh
  inv := inv.relink _
  index_lt := lt_trans scan.index_lt connected.index_lt
  number := by
    have visited := scan.inv.visited_of_stack scan.node_stacked
    exact (connected.indices node visited).trans scan.number
  stack := by
    rw [append_assoc, ← scan.stack]
    exact connected.stack
  link := update_self _ _ _
  reached := by
    have stacked : ∀ other ∈ state.stack, other ∈ next.stack := by
      intro other mem
      rw [connected.stack]
      exact mem_append_right _ mem
    rcases le_total low depLow with less | less
    · rw [min_eq_left less]
      obtain ⟨older, mem, same, reach⟩ := scan.reached
      refine ⟨older, stacked older mem, ?_, reach⟩
      exact (connected.num_eq (scan.inv.visited_of_stack mem)).trans same
    · rw [min_eq_right less]
      rcases connected.reached with own | ⟨older, mem, same, reach⟩
      · -- the new node has a larger number than the node
        have := scan.low_le
        have := scan.index_lt
        omega
      · refine ⟨older, stacked older mem, ?_, .head edge reach⟩
        exact (connected.num_eq (scan.inv.visited_of_stack mem)).trans same
  low_le := le_trans (min_le_left _ _) scan.low_le
  edges := by
    intro upper isAbove target isTarget inStart
    rcases mem_append.mp isAbove with isNew | isAbove
    · rw [← scan.num_start inStart]
      exact le_trans (min_le_right _ _)
        (connected.edges upper isNew target isTarget (scan.start_stacked inStart))
    · exact le_trans (min_le_left _ _) (scan.edges upper isAbove target isTarget inStart)
  doneEdges := by
    intro target mem inStart
    rcases mem_cons.mp mem with rfl | mem
    · exact absurd (scan.inv.visited_of_stack (scan.start_stacked inStart)) unvisited
    · exact le_trans (min_le_left _ _) (scan.doneEdges target mem inStart)
  doneVisited := by
    intro target mem
    rcases mem_cons.mp mem with rfl | mem
    · rw [State.Visited, connected.number]
      rfl
    · exact connected.visited (scan.doneVisited target mem)
  met := by
    intro other visited
    rcases connected.met other visited with earlier | reach
    · exact scan.met other earlier
    · exact .inr (.head edge reach)

end

/-! ## Finishing a node -/

section Finish

omit [DecidableEq α]

variable {upper : α}

section

variable (scan : Scan successors path node start state done above low)

include scan

theorem stack_eq : state.stack = (above ++ [node]) ++ start.stack := by
  rw [scan.stack, append_assoc, singleton_append]

section

variable (isUpper : upper ∈ above ++ [node])

include isUpper

theorem newer : start.index ≤ state.num upper := by
  rcases mem_append.mp isUpper with isAbove | isNode
  · have sorted := scan.inv.sorted
    rw [scan.stack] at sorted
    have less := (pairwise_append.mp sorted).2.2 upper isAbove node mem_cons_self
    rw [scan.num_node] at less
    exact le_of_lt less
  · exact le_of_eq (by rw [mem_singleton.mp isNode, scan.num_node])

theorem upper_stacked : upper ∈ state.stack := by
  rw [scan.stack_eq]
  exact mem_append_left _ isUpper

theorem upper_not_start : upper ∉ start.stack := by
  intro inStart
  have newer := scan.newer isUpper
  rw [scan.num_start inStart] at newer
  exact not_lt.mpr newer (scan.before.num_lt upper inStart)

end

theorem followed (all : successors node ⊆ done) (visited : state.Visited other)
    (offPath : other ∉ path) {target : α} (edge : target ∈ successors other) :
    state.Visited target := by
  by_cases isNode : other = node
  · subst isNode
    exact scan.doneVisited target (all edge)
  · refine scan.inv.followed other visited ?_ target edge
    rw [mem_cons, not_or]
    exact ⟨isNode, offPath⟩

theorem upper_edges (all : successors node ⊆ done) (isUpper : upper ∈ above ++ [node]) {target : α}
    (edge : target ∈ successors upper) (inStart : target ∈ start.stack) :
    low ≤ start.num target := by
  rcases mem_append.mp isUpper with isAbove | isNode
  · exact scan.edges upper isAbove target edge inStart
  · rw [mem_singleton.mp isNode] at edge
    exact scan.doneEdges target (all edge) inStart

end

section

variable (scan : Scan successors path node start state done above start.index)
  (all : successors node ⊆ done) (isUpper : upper ∈ above ++ [node]) {target : α}

include scan all isUpper

/-- No edge leads from the new part of the stack to the old one, if the node reaches
no older node. -/
theorem target_of_root (edge : target ∈ successors upper) :
    target ∈ above ++ [node] ∨ target ∈ state.sccs.flatten := by
  have offPath : upper ∉ path := fun onPath =>
    scan.upper_not_start isUpper (scan.before.path_stack onPath)
  have visited := scan.followed all (scan.inv.visited_of_stack (scan.upper_stacked isUpper))
    offPath edge
  rcases (scan.inv.visited_iff target).mp visited with stacked | out
  · rw [scan.stack_eq] at stacked
    refine .inl ((mem_append.mp stacked).resolve_right fun inStart => ?_)
    exact not_lt.mpr (scan.upper_edges all isUpper edge inStart)
      (scan.before.num_lt target inStart)
  · exact .inr out

theorem reached_of_root (reach : Reach successors upper target) :
    target ∈ above ++ [node] ∨ target ∈ state.sccs.flatten := by
  induction reach with
  | refl => exact .inl isUpper
  | tail _ edge ih =>
    rcases ih with isUpper | out
    · exact scan.target_of_root all isUpper edge
    · exact .inr (scan.inv.closed _ out _ edge)

end

section

variable (scan : Scan successors path node start state done above low)

include scan

theorem reach_upper (isUpper : upper ∈ above ++ [node]) : Reach successors node upper := by
  refine scan.inv.forth node mem_cons_self upper (scan.upper_stacked isUpper) ?_
  rw [scan.num_node]
  exact scan.newer isUpper

theorem inv_of_linked (all : successors node ⊆ done) {older : α} (inStart : older ∈ start.stack)
    (reach : Reach successors node older) : Inv successors path state :=
  { scan.inv with
    path_stack := fun _ onPath => scan.start_stacked (scan.before.path_stack onPath)
    followed := fun _ visited offPath _ edge => scan.followed all visited offPath edge
    forth := fun above onPath => scan.inv.forth above (mem_cons_of_mem _ onPath)
    back := by
      intro other stacked
      obtain ⟨first, onPath, less, reachFirst⟩ := scan.inv.back other stacked
      rcases mem_cons.mp onPath with rfl | earlier
      · -- the node itself reaches the path by way of the older node
        obtain ⟨second, isSecond, lessOlder, reachSecond⟩ := scan.before.back older inStart
        refine ⟨second, isSecond, ?_, reachFirst.trans (reach.trans reachSecond)⟩
        have secondStart := scan.before.path_stack isSecond
        have older := scan.before.num_lt second secondStart
        rw [scan.num_start secondStart]
        rw [scan.num_node] at less
        omega
      · exact ⟨first, earlier, less, reachFirst⟩ }

end

section

variable (scan : Scan successors path node start state done above start.index)
  (all : successors node ⊆ done)

include scan all

theorem reach_root (isUpper : upper ∈ above ++ [node]) : Reach successors upper node := by
  obtain ⟨older, onPath, _, reach⟩ := scan.inv.back upper (scan.upper_stacked isUpper)
  rcases mem_cons.mp onPath with rfl | earlier
  · exact reach
  · have inStart := scan.before.path_stack earlier
    rcases scan.reached_of_root all isUpper reach with isUpper | out
    · exact absurd inStart (scan.upper_not_start isUpper)
    · exact absurd out (scan.inv.apart older (scan.start_stacked inStart))

theorem component : IsComponent successors (above ++ [node]) where
  nonempty := append_ne_nil_of_right_ne_nil _ (cons_ne_nil _ _)
  mem_iff := by
    intro upper isUpper other
    constructor
    · intro isOther
      exact ⟨(scan.reach_root all isUpper).trans (scan.reach_upper isOther),
        (scan.reach_root all isOther).trans (scan.reach_upper isUpper)⟩
    · rintro ⟨forth, back⟩
      refine (scan.reached_of_root all isUpper forth).resolve_right fun out => ?_
      exact scan.inv.apart upper (scan.upper_stacked isUpper) (scan.inv.closed_reach out back)

end

end Finish

theorem popUntil_append {above rest : List α} (absent : node ∉ above) :
    popUntil node (above ++ node :: rest) = (above ++ [node], rest) := by
  induction above with
  | nil => simp [popUntil]
  | cons top above ih =>
    rw [mem_cons, not_or] at absent
    rw [cons_append, popUntil, if_neg (Ne.symm absent.1), ih absent.2]
    rfl

def popped (state start : State α) (component : List α) : State α :=
  { state with
    stack := start.stack
    onStack := fun other => state.onStack other && !component.contains other
    sccs := state.sccs ++ [component] }

theorem inv_popped (scan : Scan successors path node start state done above start.index)
    (all : successors node ⊆ done) :
    Inv successors path (popped state start (above ++ [node])) := by
  have flatten : (state.sccs ++ [above ++ [node]]).flatten =
      state.sccs.flatten ++ (above ++ [node]) := by
    rw [flatten_append, flatten_singleton]
  refine
    { visited_iff := ?_, apart := ?_, onStack_iff := ?_
      num_lt := fun other mem => scan.inv.num_lt other (scan.start_stacked mem)
      sorted := ?_, path_stack := scan.before.path_stack
      followed := fun _ visited offPath _ edge => scan.followed all visited offPath edge
      closed := ?_, back := ?_, forth := ?_, component := ?_, ordered := ?_, nodup := ?_ }
  · intro other
    simp only [popped, flatten]
    have := scan.inv.visited_iff other
    rw [scan.stack_eq] at this
    refine this.trans ?_
    simp only [mem_append]
    tauto
  · intro other inStart
    simp only [popped, flatten, mem_append (s := state.sccs.flatten), not_or]
    exact ⟨scan.inv.apart other (scan.start_stacked inStart),
      fun isUpper => scan.upper_not_start isUpper inStart⟩
  · intro other
    have stacked := scan.inv.onStack_iff other
    rw [scan.stack_eq, mem_append] at stacked
    simp only [popped, Bool.and_eq_true, stacked, Bool.not_eq_true', contains_eq_mem,
      decide_eq_false_iff_not]
    constructor
    · rintro ⟨either, notUpper⟩
      exact either.resolve_left notUpper
    · intro inStart
      exact ⟨.inr inStart, fun isUpper => scan.upper_not_start isUpper inStart⟩
  · have sorted := scan.inv.sorted
    rw [scan.stack_eq] at sorted
    exact (pairwise_append.mp sorted).2.1
  · intro other out target edge
    simp only [popped, flatten] at out ⊢
    rcases mem_append.mp out with out | isUpper
    · exact mem_append_left _ (scan.inv.closed other out target edge)
    · exact mem_append.mpr (scan.target_of_root all isUpper edge).symm
  · intro other inStart
    obtain ⟨older, onPath, less, reach⟩ := scan.before.back other inStart
    refine ⟨older, onPath, ?_, reach⟩
    have num := scan.num_start (scan.before.path_stack onPath)
    have numOther := scan.num_start inStart
    simp only [State.num, popped] at num numOther ⊢
    rw [num, numOther]
    exact less
  · intro older onPath other inStart less
    exact scan.inv.forth older (mem_cons_of_mem _ onPath) other
      (scan.start_stacked inStart) less
  · intro component mem
    rcases mem_append.mp mem with earlier | new
    · exact scan.inv.component component earlier
    · rw [mem_singleton.mp new]
      exact scan.component all
  · refine pairwise_append.mpr ⟨scan.inv.ordered, pairwise_singleton _ _, ?_⟩
    intro earlier mem later isLater other isOther target edge isTarget
    rw [mem_singleton.mp isLater] at isTarget
    have out := scan.inv.closed other (mem_flatten_of_mem mem isOther) target edge
    exact scan.inv.apart target (scan.upper_stacked isTarget) out
  · have stacked := scan.inv.sorted
    rw [scan.stack_eq] at stacked
    have nodup : (above ++ [node]).Nodup :=
      (pairwise_append.mp stacked).1.imp fun less same => by simp [same] at less
    simp only [popped, flatten]
    refine nodup_append.mpr ⟨scan.inv.nodup, nodup, ?_⟩
    rintro other out _ isUpper rfl
    exact scan.inv.apart other (scan.upper_stacked isUpper) out

theorem finish (scan : Scan successors path node start state done above low)
    (all : successors node ⊆ done) :
    ∃ next above low, Tarjan.finish node state = some next ∧ Inv successors path next ∧
      Connected successors node start next above low := by
  have absent : node ∉ above := by
    have sorted := scan.inv.sorted
    rw [scan.stack] at sorted
    intro isAbove
    exact lt_irrefl _
      ((pairwise_append.mp sorted).2.2 node isAbove node mem_cons_self)
  by_cases root : low = start.index
  · subst root
    refine ⟨popped state start (above ++ [node]), [], start.index, ?_, scan.inv_popped all, ?_⟩
    · simp only [Tarjan.finish, scan.link, scan.number, if_true, scan.stack,
        popUntil_append absent, popped]
    · exact
        { toExtends := ⟨scan.indices, scan.lowlink⟩
          index_lt := scan.index_lt
          number := scan.number
          stack := rfl
          link := scan.link
          reached := .inl rfl
          edges := nofun
          met := scan.met }
  · obtain ⟨older, stacked, same, reach⟩ := scan.reached
    have inStart : older ∈ start.stack := by
      rw [scan.stack_eq] at stacked
      refine (mem_append.mp stacked).resolve_left fun isUpper => root ?_
      have newer := scan.newer isUpper
      rw [same] at newer
      exact le_antisymm scan.low_le newer
    refine ⟨state, above ++ [node], low, ?_, scan.inv_of_linked all inStart reach, ?_⟩
    · simp only [Tarjan.finish, scan.link, scan.number, if_neg root]
    · exact
        { toExtends := scan.toExtends
          index_lt := scan.index_lt
          number := scan.number
          stack := scan.stack_eq
          link := scan.link
          reached := .inr ⟨older, inStart, (scan.num_start inStart).symm.trans same, reach⟩
          edges := fun _ isUpper _ edge inStart => scan.upper_edges all isUpper edge inStart
          met := scan.met }

end Scan

/-! ## The whole search -/

/-- How many nodes have no number yet. -/
def remaining (nodes : List α) (state : State α) : Nat :=
  nodes.countP fun node => (state.indices node).isNone

omit [DecidableEq α] in
theorem remaining_le (nodes : List α) {start state : State α} (grown : Extends start state) :
    remaining nodes state ≤ remaining nodes start := by
  refine countP_mono_left fun node _ unvisited => ?_
  cases visited : start.indices node with
  | none => rfl
  | some number =>
    rw [grown.indices node (by rw [State.Visited, visited]; rfl), visited] at unvisited
    exact unvisited

variable {nodes : List α}

omit [DecidableEq α] in
theorem remaining_lt {start state : State α} (grown : Extends start state)
    {node : α} (mem : node ∈ nodes) (fresh : ¬ start.Visited node)
    (visited : state.Visited node) : remaining nodes state < remaining nodes start := by
  obtain ⟨front, back, rfl⟩ := append_of_mem mem
  have here : (state.indices node).isNone = false :=
    Bool.eq_false_iff.mpr fun unvisited => state.not_visited_iff.mpr unvisited visited
  have earlier := start.not_visited_iff.mp fresh
  have inFront := remaining_le front grown
  have inBack := remaining_le back grown
  simp only [remaining, countP_append, countP_cons, here, earlier] at inFront inBack ⊢
  simp only [if_true, Bool.false_eq_true, if_false]
  omega

/-- What a search promises in every state that has no more than `depth` nodes left. -/
def Connects (successors : α → List α) (nodes : List α) (depth : Nat)
    (connect : α → State α → Option (State α)) : Prop :=
  ∀ {path : List α} {node : α} {state : State α}, Inv successors path state →
    ¬ state.Visited node → node ∈ nodes → (∀ older ∈ path, Reach successors older node) →
    remaining nodes state ≤ depth →
    ∃ next above low, connect node state = some next ∧ Inv successors path next ∧
      Connected successors node state next above low

namespace Scan

variable {path : List α} {node : α} {start state : State α} {done above : List α} {low : Nat}
  {nodes : List α} {depth : Nat} {connect : α → State α → Option (State α)}

omit [DecidableEq α] in
theorem remaining_lt (scan : Scan successors path node start state done above low)
    (mem : node ∈ nodes) : remaining nodes state < remaining nodes start :=
  Tarjan.remaining_lt scan.toExtends mem scan.fresh
    (scan.inv.visited_of_stack scan.node_stacked)

theorem visit (scan : Scan successors path node start state done above low)
    (connects : Connects successors nodes depth connect)
    (enough : remaining nodes state ≤ depth) {dep : α} (edge : dep ∈ successors node)
    (isNode : dep ∈ nodes) :
    ∃ next above low, Tarjan.visit connect node state dep = some next ∧
      Scan successors path node start next (dep :: done) above low := by
  cases number : state.indices dep with
  | none =>
    have unvisited : ¬ state.Visited dep := by
      rw [state.not_visited_iff, number]
      rfl
    rcases connects scan.inv unvisited isNode
      (fun older onPath => (scan.reach_of_path onPath).tail edge) enough with
      ⟨next, depAbove, depLow, ran, inv, connected⟩
    have link : next.lowlink node = some low :=
      (connected.lowlink node (scan.inv.visited_of_stack scan.node_stacked)).trans scan.link
    refine ⟨_, _, _, ?_, scan.connect edge unvisited inv connected⟩
    rw [Tarjan.visit, number, Option.isNone_none, if_pos rfl, ran, Option.bind_some,
      connected.link, lower_eq link]
  | some index =>
    have visited : state.Visited dep := by
      rw [State.Visited, number]
      rfl
    rw [Tarjan.visit, number, Option.isNone_some, if_neg Bool.false_ne_true]
    split
    · next stacked =>
      have met := scan.meet edge ((scan.inv.onStack_iff dep).mp stacked)
      refine ⟨_, _, _, ?_, met⟩
      rw [lower_eq scan.link, State.num, number, Option.getD_some]
    · next offStack =>
      refine ⟨_, _, _, rfl, scan.skip visited fun stacked => ?_⟩
      exact offStack ((scan.inv.onStack_iff dep).mpr stacked)

theorem foldlM_visit (connects : Connects successors nodes depth connect)
    (inNodes : node ∈ nodes) (enough : remaining nodes start ≤ depth + 1) {deps : List α}
    (edges : deps ⊆ successors node) (areNodes : deps ⊆ nodes) :
    ∀ {state : State α} {done above : List α} {low : Nat},
      Scan successors path node start state done above low →
      ∃ next done' above low, deps.foldlM (Tarjan.visit connect node) state = some next ∧
        Scan successors path node start next done' above low ∧ done ⊆ done' ∧ deps ⊆ done' := by
  induction deps with
  | nil =>
    intro state done above low scan
    exact ⟨state, done, above, low, rfl, scan, fun _ => id, nil_subset _⟩
  | cons dep deps ih =>
    intro state done above low scan
    rw [cons_subset] at edges areNodes
    have less := scan.remaining_lt inNodes
    rcases scan.visit connects (by omega) edges.1 areNodes.1 with
      ⟨middle, middleAbove, middleLow, visited, scanned⟩
    rcases ih edges.2 areNodes.2 scanned with
      ⟨next, done', above', low', ran, rest, kept, followed⟩
    refine ⟨next, done', above', low', ?_, rest, ?_, ?_⟩
    · rw [foldlM_cons, visited]
      exact ran
    · exact fun other mem => kept (mem_cons_of_mem _ mem)
    · exact cons_subset.mpr ⟨kept mem_cons_self, followed⟩

end Scan

/-- The components of a graph, in the order of the search. -/
structure Components (successors : α → List α) (nodes : List α) (sccs : List (List α)) :
    Prop where
  mem_iff : ∀ node, node ∈ sccs.flatten ↔ node ∈ nodes
  nodup : sccs.flatten.Nodup
  component : ∀ component ∈ sccs, IsComponent successors component
  ordered : sccs.Pairwise fun earlier later =>
    ∀ node ∈ earlier, ∀ target ∈ successors node, target ∉ later

omit [DecidableEq α] in
theorem inv_empty : Inv successors [] ({} : State α) where
  visited_iff node := by simp [State.Visited]
  apart := nofun
  onStack_iff node := by simp
  num_lt := nofun
  sorted := List.Pairwise.nil
  path_stack := nofun
  followed node visited := by simp [State.Visited] at visited
  closed := nofun
  back := nofun
  forth := nofun
  component := nofun
  ordered := List.Pairwise.nil
  nodup := nodup_nil

omit [DecidableEq α] in
theorem mem_of_reach (closed : ∀ node ∈ nodes, successors node ⊆ nodes) {node : α}
    (mem : node ∈ nodes) (reach : Reach successors node other) : other ∈ nodes := by
  induction reach with
  | refl => exact mem
  | tail _ edge ih => exact closed _ ih edge

section

variable (closed : ∀ node ∈ nodes, successors node ⊆ nodes)

include closed

theorem connects_strongconnect (depth : Nat) :
    Connects successors nodes depth (strongconnect successors depth) := by
  induction depth with
  | zero =>
    intro path node state inv fresh mem _ enough
    have positive := countP_pos_iff (p := fun node => (state.indices node).isNone) |>.mpr
      ⟨node, mem, state.not_visited_iff.mp fresh⟩
    exact absurd positive (not_lt.mpr enough)
  | succ depth ih =>
    intro path node state inv fresh mem reached enough
    rcases Scan.foldlM_visit ih mem enough (fun _ edge => edge) (closed node mem)
      (enter_scan inv fresh reached) with ⟨scanned, done, above, low, ran, scan, _, all⟩
    obtain ⟨next, nextAbove, nextLow, finished, nextInv, connected⟩ := scan.finish all
    refine ⟨next, nextAbove, nextLow, ?_, nextInv, connected⟩
    rw [strongconnect, ran, Option.bind_some, finished]

theorem foldlM_strongconnect {todo : List α} (subset : todo ⊆ nodes) :
    ∀ {state : State α}, Inv successors [] state → (∀ node, state.Visited node → node ∈ nodes) →
      ∃ next, todo.foldlM (fun state node =>
          if (state.indices node).isNone then
            strongconnect successors nodes.length node state
          else some state) state = some next ∧
        Inv successors [] next ∧ (∀ node, next.Visited node → node ∈ nodes) ∧
        ∀ node, state.Visited node ∨ node ∈ todo → next.Visited node := by
  induction todo with
  | nil =>
    intro state inv known
    exact ⟨state, rfl, inv, known, fun node either => either.resolve_right nofun⟩
  | cons node todo ih =>
    intro state inv known
    rw [cons_subset] at subset
    have step : ∃ middle, (if (state.indices node).isNone then
          strongconnect successors nodes.length node state else some state) = some middle ∧
        Inv successors [] middle ∧ (∀ node, middle.Visited node → node ∈ nodes) ∧
        ∀ other, state.Visited other ∨ other = node → middle.Visited other := by
      cases number : state.indices node with
      | none =>
        have fresh : ¬ state.Visited node := by
          rw [state.not_visited_iff, number]
          rfl
        rcases connects_strongconnect closed nodes.length inv fresh subset.1 nofun
          countP_le_length with ⟨middle, _, _, ran, middleInv, connected⟩
        refine ⟨middle, by simp only [Option.isNone_none, if_true, ran], middleInv, ?_, ?_⟩
        · intro other visited
          rcases connected.met other visited with earlier | reach
          · exact known other earlier
          · exact mem_of_reach closed subset.1 reach
        · rintro other (earlier | rfl)
          · exact connected.visited earlier
          · rw [State.Visited, connected.number]
            rfl
      | some index =>
        refine ⟨state, by simp, inv, known, ?_⟩
        rintro other (earlier | rfl)
        · exact earlier
        · rw [State.Visited, number]
          rfl
    obtain ⟨middle, ran, middleInv, middleKnown, middleVisited⟩ := step
    obtain ⟨next, rest, nextInv, nextKnown, visited⟩ := ih subset.2 middleInv middleKnown
    refine ⟨next, ?_, nextInv, nextKnown, ?_⟩
    · rw [foldlM_cons, ran]
      exact rest
    · rintro other (earlier | mem)
      · exact visited other (.inl (middleVisited other (.inl earlier)))
      · rcases mem_cons.mp mem with rfl | later
        · exact visited other (.inl (middleVisited other (.inr rfl)))
        · exact visited other (.inr later)

theorem search_spec :
    ∃ state, search successors nodes.length nodes = some state ∧
      Components successors nodes state.sccs := by
  rcases foldlM_strongconnect closed (fun _ mem => mem) inv_empty
    (fun node visited => by simp [State.Visited] at visited) with
    ⟨state, ran, inv, known, visited⟩
  refine ⟨state, ran, ?_, inv.nodup, inv.component, inv.ordered⟩
  intro node
  -- with no search under way, nothing is on the stack
  have settled : state.Visited node ↔ node ∈ state.sccs.flatten := by
    rw [inv.visited_iff]
    refine or_iff_right fun stacked => ?_
    obtain ⟨older, onPath, _⟩ := inv.back node stacked
    cases onPath
  exact settled.symm.trans ⟨known node, fun mem => visited node (.inr mem)⟩

end

end EvolutionJmap.Tarjan
