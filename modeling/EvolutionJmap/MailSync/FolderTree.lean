import EvolutionJmap.MapM
import EvolutionJmap.Forest
import EvolutionJmap.MailSync.FolderWalk
import EvolutionJmap.MailSync.Message
import EvolutionJmap.MailSync.Path

/-!
# The folder tree of an account (`jmap-mail-sync/src/folder.rs`)

`fromMailboxes` makes a forest of folders from the reply of a `Mailbox/get`, in which
parents can be missing or form loops, names can repeat, and two mailboxes can claim one
role.
-/

namespace EvolutionJmap.MailSync

open List

structure MailboxRights where
  mayAddItems : Option Bool

/-- A `Mailbox` of RFC 8621. -/
structure Mailbox where
  id : Option Id := none
  name : String := ""
  parentId : Option Id := none
  role : Option String := none
  sortOrder : Option Nat := none
  totalEmails : Option Nat := none
  unreadEmails : Option Nat := none
  isSubscribed : Option Bool := none
  myRights : Option MailboxRights := none
  deriving Inhabited

inductive FolderRole where
  | inbox
  | drafts
  | sent
  | trash
  | junk
  | archive
  deriving DecidableEq

def FolderRole.fromJmap (role : String) : Option FolderRole :=
  match toAsciiLowercase role with
  | "inbox" => some inbox
  | "drafts" => some drafts
  | "sent" => some sent
  | "trash" => some trash
  | "junk" => some junk
  | "archive" => some archive
  | _ => none

/-- A folder with those below it. -/
structure FolderInfo where
  id : Id
  path : String
  displayName : String
  role : Option FolderRole
  total : Nat
  unread : Nat
  subscribed : Bool
  mayAddItems : Option Bool
  accountId : Option Id
  children : List FolderInfo

/-- All mailboxes of an account, as a forest. -/
structure FolderTree where
  roots : List FolderInfo

/-- A mailbox that was checked, and its id. -/
structure Node where
  mailbox : Mailbox
  id : Id
  deriving Inhabited

namespace Node

def sortOrder (node : Node) : Nat := node.mailbox.sortOrder.getD 0

/-- What siblings are sorted by. -/
def key (node : Node) : Nat ×ₗ String ×ₗ Id :=
  toLex (node.sortOrder, toLex (node.mailbox.name, node.id))

/-- The order of siblings: sort order, name, id. -/
def Before (left right : Node) : Prop := left.key ≤ right.key

instance : DecidableRel Before := fun left right =>
  inferInstanceAs (Decidable (left.key ≤ right.key))

instance : Std.Total Before := ⟨fun left right => le_total left.key right.key⟩

instance : IsTrans Node Before := ⟨fun _ _ _ => le_trans⟩

end Node

def Mailbox.check (mailbox : Mailbox) : Except SyncError Node :=
  match mailbox.id with
  | none => .error (.protocol "Mailbox/get returned a mailbox without an id")
  | some id =>
    if mailbox.name = "" then
      .error (.protocol ("Mailbox/get returned mailbox " ++ id ++ " without a name"))
    else .ok { mailbox, id }

/-- Number the mailboxes, none with an id that was already `seen`. -/
def checkDistinct (seen : List Id) : List Node → Except SyncError Unit
  | [] => .ok ()
  | node :: rest =>
    if node.id ∈ seen then
      .error (.protocol ("Mailbox/get returned mailbox " ++ node.id ++ " twice"))
    else checkDistinct (node.id :: seen) rest

variable (nodes : List Node)

def indexOf (id : Id) : Option Nat := nodes.findIdx? (·.id = id)

def parentOf (index : Nat) : Option Nat :=
  nodes[index]?.bind fun node => node.mailbox.parentId.bind (indexOf nodes)

def claimRoles (claimed : List FolderRole) : List Node → List (Option FolderRole)
  | [] => []
  | node :: rest =>
    let role := (node.mailbox.role.bind FolderRole.fromJmap).filter (· ∉ claimed)
    role :: claimRoles (role.toList ++ claimed) rest

/-- The paths of the mailboxes so far. -/
structure Paths where
  path : Nat → String
  used : List String

def Paths.next (name id : Nat → String) (parent : Nat → Option Nat) (paths : Paths) (index : Nat) :
    String :=
  let parentPath := (parent index).map paths.path
  let named := join parentPath (encodeComponent (name index))
  if named ∈ paths.used then join parentPath (markedComponent (name index) (id index)) else named

def Paths.add (name id : Nat → String) (parent : Nat → Option Nat) (paths : Paths) (index : Nat) :
    Paths where
  path := Function.update paths.path index (paths.next name id parent index)
  used := paths.next name id parent index :: paths.used

def pathsOf (name id : Nat → String) (parent : Nat → Option Nat) (order : List Nat) : Paths :=
  order.foldl (Paths.add name id parent) { path := fun _ => "", used := [] }

def saturate (count : Option Nat) : Nat := min (count.getD 0) (2 ^ 32 - 1)

def folderOf (roles : List (Option FolderRole)) (path : Nat → String)
    (index : Nat) (children : List FolderInfo) : FolderInfo :=
  let mailbox := nodes[index]!.mailbox
  { id := nodes[index]!.id
    path := path index
    displayName := mailbox.name
    role := roles[index]!
    total := saturate mailbox.totalEmails
    unread := saturate mailbox.unreadEmails
    -- no value means that the server has no subscriptions
    subscribed := mailbox.isSubscribed.getD true
    mayAddItems := mailbox.myRights.bind MailboxRights.mayAddItems
    accountId := none
    children }

def walkOf : Walk :=
  let below := fun above => Forest.below (parentOf nodes) above (List.range nodes.length)
  walk nodes.length (parentOf nodes) (fun index => below (some index)) (below none)

def pathOf : Nat → String :=
  (pathsOf (fun index => nodes[index]!.mailbox.name) (fun index => nodes[index]!.id)
    (walkOf nodes).parent (walkOf nodes).order).path

def treeOf : FolderTree where
  roots := Forest.assemble (walkOf nodes).parent
    (folderOf nodes (claimRoles [] nodes) (pathOf nodes)) (walkOf nodes).order

/-- Build the tree of an account. -/
def fromMailboxes (mailboxes : List Mailbox) : Except SyncError FolderTree := do
  let nodes ← mailboxes.mapM Mailbox.check
  let nodes := nodes.insertionSort Node.Before
  checkDistinct [] nodes
  return treeOf nodes

/-- The folders of a subtree, depth first, each parent before its children. -/
def FolderInfo.iter (folder : FolderInfo) : List FolderInfo :=
  folder :: folder.children.attach.flatMap fun child => child.1.iter
termination_by folder
decreasing_by
  have smaller := sizeOf_lt_of_mem child.2
  cases folder
  simp only [FolderInfo.mk.sizeOf_spec] at smaller ⊢
  omega

def FolderTree.iter (tree : FolderTree) : List FolderInfo := tree.roots.flatMap FolderInfo.iter

/-- A folder of the tree and its depth. -/
inductive FolderTree.At (tree : FolderTree) : Nat → FolderInfo → Prop where
  | root {folder : FolderInfo} (member : folder ∈ tree.roots) : At tree 1 folder
  | child {depth : Nat} {parent folder : FolderInfo} (above : At tree depth parent)
      (member : folder ∈ parent.children) : At tree (depth + 1) folder

theorem FolderInfo.iter_eq (folder : FolderInfo) :
    folder.iter = folder :: folder.children.flatMap FolderInfo.iter := by
  have values : folder.children.attach.flatMap (fun child => child.1.iter) =
      (folder.children.attach.map Subtype.val).flatMap FolderInfo.iter :=
    (flatMap_map ..).symm
  rw [FolderInfo.iter, values, attach_map_subtype_val]

/-! ## Which lists are accepted -/

/-- A mailbox that passes its check. -/
def Mailbox.node (mailbox : Mailbox) : Node := { mailbox, id := mailbox.id.getD "" }

/-- The mailbox has an id and a name. -/
def Mailbox.Valid (mailbox : Mailbox) : Prop := mailbox.id.isSome ∧ mailbox.name ≠ ""

theorem Mailbox.check_eq_ok_iff (mailbox : Mailbox) (node : Node) :
    mailbox.check = .ok node ↔ mailbox.Valid ∧ node = mailbox.node := by
  rw [check, Valid, Mailbox.node]
  cases mailbox.id with
  | none => simp
  | some id =>
    by_cases noName : mailbox.name = ""
    · simp [noName]
    · simp [noName, eq_comm]

variable (mailboxes : List Mailbox)

theorem mapM_check_iff (nodes : List Node) :
    mailboxes.mapM Mailbox.check = .ok nodes ↔
      (∀ mailbox ∈ mailboxes, mailbox.Valid) ∧ nodes = mailboxes.map Mailbox.node := by
  rw [mapM_eq_ok_iff, @eq_comm _ nodes, ← forall₂_eq_eq_eq, forall₂_map_left_iff,
    ← forall₂_and_left]
  simp only [Mailbox.check_eq_ok_iff]
  simp only [eq_comm]

theorem checkDistinct_iff (seen : List Id) (nodes : List Node) :
    checkDistinct seen nodes = .ok () ↔
      (nodes.map Node.id).Nodup ∧ ∀ node ∈ nodes, node.id ∉ seen := by
  induction nodes generalizing seen with
  | nil => simp [checkDistinct]
  | cons node rest ih =>
    rw [checkDistinct]
    by_cases repeated : node.id ∈ seen
    · simp [repeated]
    · rw [if_neg repeated, ih, forall_mem_cons]
      simp only [mem_cons, not_or, map_cons, nodup_cons, mem_map, not_exists,
        not_and]
      constructor
      · rintro ⟨distinct, fresh⟩
        exact ⟨⟨fun other mem => (fresh other mem).1, distinct⟩, repeated,
          fun other mem => (fresh other mem).2⟩
      · rintro ⟨⟨differ, distinct⟩, -, fresh⟩
        exact ⟨distinct, fun other mem => ⟨differ other mem, fresh other mem⟩⟩

theorem fromMailboxes_eq_ok_iff (tree : FolderTree) :
    fromMailboxes mailboxes = .ok tree ↔
      (∀ mailbox ∈ mailboxes, mailbox.Valid) ∧
      ((mailboxes.map Mailbox.node).map Node.id).Nodup ∧
      tree = treeOf ((mailboxes.map Mailbox.node).insertionSort Node.Before) := by
  rw [fromMailboxes]
  cases checked : mailboxes.mapM Mailbox.check with
  | error error =>
    have invalid : ¬ ∀ mailbox ∈ mailboxes, mailbox.Valid := by
      intro valid
      rw [(mapM_check_iff ..).mpr ⟨valid, rfl⟩] at checked
      cases checked
    simp [invalid, bind, Except.bind]
  | ok nodes =>
    obtain ⟨valid, rfl⟩ := (mapM_check_iff ..).mp checked
    have ids := ((perm_insertionSort Node.Before
      (mailboxes.map Mailbox.node)).map Node.id).nodup_iff
    have distinct := checkDistinct_iff [] ((mailboxes.map Mailbox.node).insertionSort Node.Before)
    simp only [not_mem_nil, not_false_eq_true, implies_true, and_true, ids] at distinct
    rw [and_iff_right valid, ← distinct]
    simp only [bind, Except.bind, pure, Except.pure]
    split
    · next refused => simp [refused]
    · next accepted => simp [accepted, eq_comm]

theorem fromMailboxes_perm {mailboxes other : List Mailbox} {tree : FolderTree}
    (accepted : fromMailboxes mailboxes = .ok tree) (perm : other.Perm mailboxes) :
    fromMailboxes other = .ok tree := by
  obtain ⟨valid, distinct, rfl⟩ := (fromMailboxes_eq_ok_iff ..).mp accepted
  have nodes := perm.map Mailbox.node
  refine (fromMailboxes_eq_ok_iff ..).mpr ⟨?_, (nodes.map Node.id).nodup_iff.mpr distinct, ?_⟩
  · exact fun mailbox mem => valid mailbox (perm.mem_iff.mp mem)
  · congr 1
    -- the id breaks every tie, so the order of the mailboxes has one solution
    apply List.Perm.eq_of_pairwise _ (pairwise_insertionSort ..) (pairwise_insertionSort ..)
    · exact ((perm_insertionSort ..).trans nodes.symm).trans (perm_insertionSort ..).symm
    · intro left right leftMem rightMem before after
      have sameKey : left.key = right.key := le_antisymm before after
      have sameId : left.id = right.id := congrArg (fun key => (ofLex (ofLex key).2).2) sameKey
      rw [mem_insertionSort] at leftMem rightMem
      exact inj_on_of_nodup_map distinct leftMem (nodes.mem_iff.mp rightMem) sameId

/-! ## Paths -/

section Paths

variable (name id : Nat → String) (parent : Nat → Option Nat)

/-- A path is the parent's path and the component of the mailbox. -/
def NamedPath (path : Nat → String) (index : Nat) : Prop :=
  path index = join ((parent index).map path) (encodeComponent (name index)) ∨
    path index = join ((parent index).map path) (markedComponent (name index) (id index))

/-- The paths given so far are distinct and marked as used. -/
structure Paths.Sound (front : List Nat) (paths : Paths) : Prop where
  named : ∀ index ∈ front, NamedPath name id parent paths.path index
  used : ∀ index ∈ front, paths.path index ∈ paths.used
  distinct : ∀ one ∈ front, ∀ other ∈ front, paths.path one = paths.path other → one = other

variable {name id parent} {level : Nat → Nat} {front : List Nat} {index : Nat}

section

variable {path : Nat → String} (named : NamedPath name id parent path index)

include named

theorem NamedPath.congr {path' : Nat → String} (same : path' index = path index)
    (sameAbove : (parent index).map path' = (parent index).map path) :
    NamedPath name id parent path' index := by
  rwa [NamedPath, same, sameAbove]

theorem NamedPath.lastComponent :
    lastComponent (path index) = (encodeComponent (name index)).toList ∨
      lastComponent (path index) = (markedComponent (name index) (id index)).toList := by
  rcases named with isPath | isPath
  · rw [isPath, lastComponent_join _ (isComponent_encode _).oneLevel]
    exact .inl rfl
  · rw [isPath, lastComponent_join _ (isComponent_marked _ _).oneLevel]
    exact .inr rfl

theorem NamedPath.ne_marked {other : Nat} (above : Option String) (otherId : id other ≠ id index) :
    path index ≠ join above (markedComponent (name other) (id other)) := by
  intro same
  have last := congrArg MailSync.lastComponent same
  rw [lastComponent_join _ (isComponent_marked _ _).oneLevel] at last
  rcases named.lastComponent with isLast | isLast
  · exact encodeComponent_ne_marked _ _ _ (String.toList_inj.mp (isLast.symm.trans last))
  · exact otherId (markedComponent_id (String.toList_inj.mp (isLast.symm.trans last))).symm

end

theorem Paths.next_named (paths : Paths) (index : Nat) :
    paths.next name id parent index =
        join ((parent index).map paths.path) (encodeComponent (name index)) ∨
      paths.next name id parent index =
        join ((parent index).map paths.path) (markedComponent (name index) (id index)) := by
  simp only [next]
  split
  · exact .inr rfl
  · exact .inl rfl

section

variable {paths : Paths} (sound : Paths.Sound name id parent front paths)

include sound

theorem Paths.Sound.next_ne (otherId : ∀ other ∈ front, id index ≠ id other) {other : Nat}
    (mem : other ∈ front) : paths.path other ≠ paths.next name id parent index := by
  simp only [next]
  split
  · exact (sound.named other mem).ne_marked _ (otherId other mem)
  · next unused =>
    intro same
    exact unused (same ▸ sound.used other mem)

theorem Paths.Sound.add (fresh : index ∉ front) (otherId : ∀ other ∈ front, id index ≠ id other)
    (closed : ∀ other ∈ front ++ [index], ∀ above, parent other = some above → above ∈ front) :
    Paths.Sound name id parent (front ++ [index]) (paths.add name id parent index) := by
  have last : (paths.add name id parent index).path index = paths.next name id parent index :=
    Function.update_self ..
  have kept : ∀ other ∈ front, (paths.add name id parent index).path other = paths.path other := by
    intro other mem
    apply Function.update_of_ne
    rintro rfl
    exact fresh mem
  have above : ∀ other ∈ front ++ [index],
      (parent other).map (paths.add name id parent index).path = (parent other).map paths.path := by
    intro other mem
    cases isParent : parent other with
    | none => rfl
    | some above =>
      rw [Option.map_some, Option.map_some, kept above (closed other mem above isParent)]
  have cases_mem : ∀ {other}, other ∈ front ++ [index] → other ∈ front ∨ other = index := by simp
  constructor
  · intro other mem
    rcases cases_mem mem with old | rfl
    · exact (sound.named other old).congr (kept other old) (above other mem)
    · rw [NamedPath, above other mem, last]
      exact paths.next_named other
  · intro other mem
    rcases cases_mem mem with old | rfl
    · rw [kept other old]
      exact mem_cons_of_mem _ (sound.used other old)
    · rw [last]
      exact mem_cons_self
  · intro one oneMem other otherMem same
    rcases cases_mem oneMem with oneOld | rfl <;> rcases cases_mem otherMem with otherOld | rfl
    · rw [kept one oneOld, kept other otherOld] at same
      exact sound.distinct one oneOld other otherOld same
    · rw [kept one oneOld, last] at same
      exact absurd same (sound.next_ne otherId oneOld)
    · rw [kept other otherOld, last] at same
      exact absurd same.symm (sound.next_ne otherId otherOld)
    · rfl

end

theorem pathsOf_sound (ordered : Walk.Ordered parent level front) (nodup : front.Nodup)
    (ids : ∀ one ∈ front, ∀ other ∈ front, id one = id other → one = other) :
    Paths.Sound name id parent front (pathsOf name id parent front) := by
  induction ordered with
  | nil => constructor <;> simp
  | @snoc front index rest follows shallow ih =>
    rw [nodup_append] at nodup
    obtain ⟨nodup, -, differ⟩ := nodup
    have fresh : index ∉ front := fun mem => differ index mem index mem_cons_self rfl
    have old : ∀ {other}, other ∈ front → other ∈ front ++ [index] := mem_append_left _
    have last : index ∈ front ++ [index] := mem_append_right _ mem_cons_self
    have sound := ih nodup fun one oneMem other otherMem =>
      ids one (old oneMem) other (old otherMem)
    rw [pathsOf, foldl_append]
    apply sound.add fresh
    · intro other mem same
      exact fresh (ids index last other (old mem) same ▸ mem)
    · intro other mem above isParent
      rcases mem_append.mp mem with inFront | isLast
      · exact (rest.parent_mem inFront isParent).1
      · exact (follows.mem (mem_singleton.mp isLast ▸ isParent)).1

end Paths

/-! ## Roles -/

variable (claimed : List FolderRole)

theorem claimRoles_nodup (nodes : List Node) :
    ((claimRoles claimed nodes).filterMap id).Nodup ∧
      ∀ role ∈ (claimRoles claimed nodes).filterMap id, role ∉ claimed := by
  induction nodes generalizing claimed with
  | nil => simp [claimRoles]
  | cons node rest ih =>
    simp only [claimRoles]
    cases isRole : (node.mailbox.role.bind FolderRole.fromJmap).filter (· ∉ claimed) with
    | none => exact ih claimed
    | some role =>
      have unclaimed : role ∉ claimed := by
        simpa using (Option.filter_eq_some_iff.mp isRole).2
      obtain ⟨distinct, fresh⟩ := ih (role :: claimed)
      have isCons (roles : List (Option FolderRole)) :
          (some role :: roles).filterMap id = role :: roles.filterMap id := rfl
      rw [Option.toList_some, singleton_append, isCons, nodup_cons,
        forall_mem_cons]
      refine ⟨⟨?_, distinct⟩, unclaimed, ?_⟩
      · exact fun again => fresh role again mem_cons_self
      · exact fun other mem claimedBefore =>
          fresh other mem (mem_cons_of_mem _ claimedBefore)

theorem length_claimRoles (nodes : List Node) :
    (claimRoles claimed nodes).length = nodes.length := by
  induction nodes generalizing claimed with
  | nil => rfl
  | cons node rest ih => simp [claimRoles, ih]

/-! ## The tree -/

theorem walkOf_ordered : (walkOf nodes).order.Perm (List.range nodes.length) ∧
      ∃ level, Walk.Ordered (walkOf nodes).parent level (walkOf nodes).order := by
  apply walk_ordered
  · intro index child mem
    simpa using Forest.mem_below.mp mem
  · intro root mem
    exact (Forest.mem_below.mp mem).2

theorem parentsFirst_of_ordered {parent : Nat → Option Nat} {level : Nat → Nat} {order : List Nat}
    (ordered : Walk.Ordered parent level order) (nodup : order.Nodup) :
    Forest.ParentsFirst parent order := by
  induction ordered with
  | nil => exact .nil
  | @snoc front index rest follows _ ih =>
    rw [nodup_append] at nodup
    obtain ⟨nodup, -, differ⟩ := nodup
    have fresh : index ∉ front := fun mem => differ index mem index mem_cons_self rfl
    apply (ih nodup).snoc fresh
    intro other mem isParent
    rcases mem_cons.mp mem with rfl | mem
    · exact fresh (follows.mem isParent).1
    · exact fresh (rest.parent_mem mem isParent).1

/-- The tree is grown from the walk over all nodes. -/
structure Grown (nodes : List Node) (grow : Nat → FolderInfo) (level : Nat → Nat) : Prop where
  perm : (walkOf nodes).order.Perm (List.range nodes.length)
  ordered : Walk.Ordered (walkOf nodes).parent level (walkOf nodes).order
  grows : Forest.Grows (walkOf nodes).parent (folderOf nodes (claimRoles [] nodes) (pathOf nodes))
    grow (walkOf nodes).order
  roots : (treeOf nodes).roots =
    (Forest.below (walkOf nodes).parent none (walkOf nodes).order).map grow

theorem exists_grown : ∃ grow level, Grown nodes grow level := by
  obtain ⟨perm, level, ordered⟩ := walkOf_ordered nodes
  have nodup := perm.nodup_iff.mpr nodup_range
  obtain ⟨grow, grows, roots⟩ := Forest.assemble_grows (parentsFirst_of_ordered ordered nodup)
  exact ⟨grow, level, perm, ordered, grows, roots⟩

variable {folder : FolderInfo}

section Grown

variable {nodes : List Node} {grow : Nat → FolderInfo} {level : Nat → Nat}

section

variable (grown : Grown nodes grow level)

include grown

theorem Grown.nodup : (walkOf nodes).order.Nodup :=
  grown.perm.nodup_iff.mpr nodup_range

theorem Grown.children {index : Nat} (mem : index ∈ (walkOf nodes).order) :
    (grow index).children =
      (Forest.below (walkOf nodes).parent (some index) (walkOf nodes).order).map grow := by
  rw [grown.grows index mem]
  rfl

theorem Grown.iter_perm : (treeOf nodes).iter.Perm ((walkOf nodes).order.map grow) := by
  have tops : Forest.tops (walkOf nodes).parent (walkOf nodes).order =
      Forest.below (walkOf nodes).parent none (walkOf nodes).order := by
    apply filter_congr
    intro index mem
    cases isParent : (walkOf nodes).parent index with
    | none => simp
    | some above => simp [(grown.ordered.parent_mem mem isParent).1]
  rw [FolderTree.iter, grown.roots, ← tops]
  apply Forest.tops_perm (parentsFirst_of_ordered grown.ordered grown.nodup)
  intro index mem
  rw [FolderInfo.iter_eq, grown.children mem]

theorem Grown.mem_iter :
    folder ∈ (treeOf nodes).iter ↔ ∃ index ∈ (walkOf nodes).order, grow index = folder := by
  rw [grown.iter_perm.mem_iff, mem_map]

theorem Grown.map_perm {α β : Type} [Inhabited β] {ofFolder : FolderInfo → α} {values : List β}
    {ofValue : β → α} (length : values.length = nodes.length)
    (isValue : ∀ index ∈ (walkOf nodes).order, ofFolder (grow index) = ofValue values[index]!) :
    ((treeOf nodes).iter.map ofFolder).Perm (values.map ofValue) := by
  have all : (List.range nodes.length).map (fun index => values[index]!) = values := by
    rw [← length]
    apply ext_getElem
    · simp
    · intro index _ inRange
      simp [inRange]
  calc (treeOf nodes).iter.map ofFolder
    _ |>.Perm (((walkOf nodes).order.map grow).map ofFolder) := grown.iter_perm.map ofFolder
    _ = ((walkOf nodes).order.map fun index => values[index]!).map ofValue := by
        rw [map_map, map_map]
        exact map_congr_left isValue
    _ |>.Perm (((List.range nodes.length).map fun index => values[index]!).map ofValue) :=
        (grown.perm.map _).map ofValue
    _ = values.map ofValue := by rw [all]

end

section

variable (grown : Grown nodes grow level) (distinct : (nodes.map Node.id).Nodup)

include grown distinct

theorem Grown.paths_sound :
    Paths.Sound (fun index => nodes[index]!.mailbox.name) (fun index => nodes[index]!.id)
      (walkOf nodes).parent (walkOf nodes).order
      (pathsOf (fun index => nodes[index]!.mailbox.name) (fun index => nodes[index]!.id)
        (walkOf nodes).parent (walkOf nodes).order) := by
  apply pathsOf_sound grown.ordered grown.nodup
  intro one oneMem other otherMem same
  have oneInRange := mem_range.mp (grown.perm.mem_iff.mp oneMem)
  have otherInRange := mem_range.mp (grown.perm.mem_iff.mp otherMem)
  rw [getElem!_pos nodes one oneInRange, getElem!_pos nodes other otherInRange] at same
  rw [← getElem_map Node.id (h := by simpa), ← getElem_map Node.id (h := by simpa)] at same
  exact (distinct.getElem_inj_iff).mp same

theorem Grown.path {index : Nat} (mem : index ∈ (walkOf nodes).order) :
    ∃ component, IsComponent component ∧
      (grow index).path = join (((walkOf nodes).parent index).map fun above => (grow above).path)
        component := by
  have isPath : ∀ other ∈ (walkOf nodes).order, (grow other).path = pathOf nodes other := by
    intro other mem
    rw [grown.grows other mem]
    rfl
  have above : ((walkOf nodes).parent index).map (fun above => (grow above).path) =
      ((walkOf nodes).parent index).map (pathOf nodes) := by
    cases isParent : (walkOf nodes).parent index with
    | none => rfl
    | some above =>
      rw [Option.map_some, Option.map_some, isPath above (grown.ordered.parent_mem mem isParent).1]
  rw [isPath index mem, above]
  rcases (grown.paths_sound distinct).named index mem with named | marked
  · exact ⟨_, isComponent_encode _, named⟩
  · exact ⟨_, isComponent_marked _ _, marked⟩

theorem Grown.root_path (mem : folder ∈ (treeOf nodes).roots) : IsComponent folder.path := by
  rw [grown.roots] at mem
  obtain ⟨index, below, rfl⟩ := mem_map.mp mem
  obtain ⟨inOrder, isRoot⟩ := Forest.mem_below.mp below
  obtain ⟨component, isComponent, isPath⟩ := grown.path distinct inOrder
  rw [isRoot] at isPath
  exact isPath ▸ isComponent

theorem Grown.child_path {child : FolderInfo} (inTree : folder ∈ (treeOf nodes).iter)
    (mem : child ∈ folder.children) :
    ∃ component, IsComponent component ∧ child.path = folder.path ++ "/" ++ component := by
  obtain ⟨above, aboveMem, rfl⟩ := grown.mem_iter.mp inTree
  rw [grown.children aboveMem] at mem
  obtain ⟨index, below, rfl⟩ := mem_map.mp mem
  obtain ⟨inOrder, isChild⟩ := Forest.mem_below.mp below
  obtain ⟨component, isComponent, isPath⟩ := grown.path distinct inOrder
  rw [isChild] at isPath
  exact ⟨component, isComponent, isPath⟩

theorem Grown.path_nodup : ((treeOf nodes).iter.map FolderInfo.path).Nodup := by
  have paths : ((treeOf nodes).iter.map FolderInfo.path).Perm
      ((walkOf nodes).order.map (pathOf nodes)) := by
    have mapped := grown.iter_perm.map FolderInfo.path
    rw [map_map] at mapped
    refine mapped.trans (List.Perm.of_eq (map_congr_left ?_))
    intro index mem
    rw [Function.comp_apply, grown.grows index mem]
    rfl
  rw [paths.nodup_iff]
  exact grown.nodup.map_on fun one oneMem other otherMem =>
    (grown.paths_sound distinct).distinct one oneMem other otherMem

end

theorem Grown.role_nodup (grown : Grown nodes grow level) :
    ((treeOf nodes).iter.filterMap FolderInfo.role).Nodup := by
  have roles : ((treeOf nodes).iter.map FolderInfo.role).Perm ((claimRoles [] nodes).map id) := by
    apply grown.map_perm (length_claimRoles [] nodes)
    intro index mem
    rw [grown.grows index mem]
    rfl
  have held := roles.filterMap id
  rw [filterMap_map, map_id, Function.id_comp] at held
  exact held.nodup_iff.mpr (claimRoles_nodup [] nodes).1

theorem Grown.level_of_at (grown : Grown nodes grow level) {depth : Nat}
    (isAt : (treeOf nodes).At depth folder) :
    ∃ index ∈ (walkOf nodes).order, grow index = folder ∧ level index = depth := by
  induction isAt with
  | root mem =>
    rw [grown.roots] at mem
    obtain ⟨index, below, rfl⟩ := mem_map.mp mem
    obtain ⟨inOrder, isRoot⟩ := Forest.mem_below.mp below
    exact ⟨index, inOrder, rfl, grown.ordered.root_level inOrder isRoot⟩
  | child _ mem ih =>
    obtain ⟨above, aboveMem, rfl, rfl⟩ := ih
    rw [grown.children aboveMem] at mem
    obtain ⟨index, below, rfl⟩ := mem_map.mp mem
    obtain ⟨inOrder, isChild⟩ := Forest.mem_below.mp below
    exact ⟨index, inOrder, rfl, (grown.ordered.parent_mem inOrder isChild).2⟩

end Grown

/-- The tree of an accepted list: each mailbox once, with distinct paths of safe
components within the depth limit, and each role at most once.  It does not depend on
the order of the list. -/
theorem fromMailboxes_sound {mailboxes : List Mailbox} {tree : FolderTree}
    (accepted : fromMailboxes mailboxes = .ok tree) :
    (tree.iter.map fun folder => (some folder.id, folder.displayName)).Perm
        (mailboxes.map fun mailbox => (mailbox.id, mailbox.name)) ∧
      (tree.iter.map FolderInfo.id).Nodup ∧
      (tree.iter.map FolderInfo.path).Nodup ∧
      (∀ folder ∈ tree.roots, IsComponent folder.path) ∧
      (∀ folder ∈ tree.iter, ∀ child ∈ folder.children, ∃ component, IsComponent component ∧
        child.path = folder.path ++ "/" ++ component) ∧
      (∀ depth folder, tree.At depth folder → depth ≤ 64) ∧
      (tree.iter.filterMap FolderInfo.role).Nodup ∧
      ∀ other, other.Perm mailboxes → fromMailboxes other = .ok tree := by
  have anyOrder := fun other => @fromMailboxes_perm mailboxes other tree accepted
  obtain ⟨valid, distinct, rfl⟩ := (fromMailboxes_eq_ok_iff ..).mp accepted
  have sorted := perm_insertionSort Node.Before (mailboxes.map Mailbox.node)
  generalize (mailboxes.map Mailbox.node).insertionSort Node.Before = nodes at sorted anyOrder ⊢
  rw [← (sorted.map Node.id).nodup_iff] at distinct
  obtain ⟨grow, level, grown⟩ := exists_grown nodes
  have ids : ((treeOf nodes).iter.map FolderInfo.id).Perm (nodes.map Node.id) :=
    grown.map_perm rfl fun index mem => by rw [grown.grows index mem]; rfl
  refine ⟨?_, ids.nodup_iff.mpr distinct, grown.path_nodup distinct,
    fun folder => grown.root_path distinct,
    fun folder inTree child => grown.child_path distinct inTree,
    ?_, grown.role_nodup, anyOrder⟩
  · have data : ((treeOf nodes).iter.map fun folder => (some folder.id, folder.displayName)).Perm
        (nodes.map fun node => (some node.id, node.mailbox.name)) :=
      grown.map_perm rfl fun index mem => by rw [grown.grows index mem]; rfl
    refine data.trans ((sorted.map _).trans (List.Perm.of_eq ?_))
    rw [map_map]
    apply map_congr_left
    intro mailbox mem
    obtain ⟨id, isId⟩ := Option.isSome_iff_exists.mp (valid mailbox mem).1
    simp [Mailbox.node, isId]
  · intro depth folder isAt
    obtain ⟨index, mem, -, rfl⟩ := grown.level_of_at isAt
    exact grown.ordered.shallow mem

/-- A mailbox that is its own parent, a loop of two with one role, and a missing
parent, all with one name. -/
def loops : List Mailbox :=
  [{ id := some "a", name := "/", parentId := some "a" },
    { id := some "b", name := "/", parentId := some "c", role := some "Inbox" },
    { id := some "c", name := "/", parentId := some "b", role := some "inbox" },
    { id := some "d", name := "/", parentId := some "e" }]

theorem fromMailboxes_sound_loops :
    ∃ tree, fromMailboxes loops = .ok tree ∧ fromMailboxes loops.reverse = .ok tree ∧
      (tree.iter.map FolderInfo.path).Nodup := by
  have valid : ∀ mailbox ∈ loops, mailbox.Valid := by simp [loops, Mailbox.Valid]
  have accepted := (fromMailboxes_eq_ok_iff loops _).mpr ⟨valid, by decide, rfl⟩
  obtain ⟨-, -, paths, -, -, -, -, anyOrder⟩ := fromMailboxes_sound accepted
  exact ⟨_, accepted, anyOrder _ (reverse_perm _), paths⟩

end EvolutionJmap.MailSync
