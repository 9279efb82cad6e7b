import EvolutionJmap.MapM
import EvolutionJmap.Client.Protocol
import EvolutionJmap.Tarjan

/-!
# Splitting a `/set` request (`jmap-client`, `set.rs`)

A request with more items than the server takes in one call is split.  Creates that
refer to each other stay together, and a create comes no earlier than those that it
refers to.

References are found by the shape of the texts.  `toValue` is the serialisation of
an object, and `order` the iteration order of the hash set with its references.
-/

namespace EvolutionJmap

open Relation List Option Nat Entries

variable {Object : Type}

/-- The part of a request that goes into one call. -/
structure SetChunk (Object : Type) where
  create : BTreeMap String Object := ∅
  update : BTreeMap Id Value := ∅
  destroy : List Id := []

namespace SetChunk

def isEmpty (chunk : SetChunk Object) : Bool :=
  chunk.create.isEmpty && chunk.update.isEmpty && chunk.destroy.isEmpty

def size (chunk : SetChunk Object) : Nat :=
  chunk.create.entries.length + chunk.update.entries.length + chunk.destroy.length

end SetChunk

variable {relation : SetChunk Object → SetChunk Object → Prop} {current : SetChunk Object}
  {cids : List String}

namespace Partition

def target (candidates : List String) (text : String) : List String :=
  match text.toList with
  | '#' :: name => if String.ofList name ∈ candidates then [String.ofList name] else []
  | _ => []

theorem candidate_of_target (candidates : List String) (text : String) :
    ∀ name ∈ target candidates text, name ∈ candidates := by
  intro name mem
  rw [target] at mem
  split at mem
  · split at mem
    · next isCandidate =>
      rw [mem_singleton.mp mem]
      exact isCandidate
    · cases mem
  · cases mem

mutual
def collectCreationReferences (candidates : List String) : Value → List String
  | .string text => target candidates text
  | .object members => collectInMembers candidates members
  | .array items => collectInItems candidates items
  | _ => []

def collectInMembers (candidates : List String) : List (String × Value) → List String
  | [] => []
  | (key, value) :: members =>
    (splitText '/' key).flatMap (target candidates) ++
      collectCreationReferences candidates value ++ collectInMembers candidates members

def collectInItems (candidates : List String) : List Value → List String
  | [] => []
  | item :: items =>
    collectCreationReferences candidates item ++ collectInItems candidates items
end

def findCreationReferences (value : Value) (candidates : List String) : List String :=
  collectCreationReferences candidates value

/-- The error for a component that does not fit into one call. -/
def oversized (limit : Nat) (scc : List String) : Error :=
  .chunkBoundaryReferenceBroken (scc.headD "")
    ("dependency cycle of size " ++ toString scc.length ++ " exceeds maxObjectsInSet limit " ++
      toString limit)

/-- The components of the reference graph, or an error for one that does not fit. The
result is `none` if the search panics. -/
def sortCreationComponents (nodes : List String) (successors : String → List String)
    (limit : Nat) : Option (Except Error (List (List String))) :=
  (Tarjan.search successors nodes.length nodes).map fun tarjan =>
    match tarjan.sccs.find? fun scc => decide (limit < scc.length) with
    | some scc => .error (oversized limit scc)
    | none => .ok tarjan.sccs

/-! ## Packing -/

/-- The chunks so far, the chunk that is filled, and its number of items. -/
structure Packing (Object : Type) where
  chunks : List (SetChunk Object) := []
  current : SetChunk Object := {}
  count : Nat := 0

namespace Packing

variable (packing : Packing Object)

def flush : Packing Object where
  chunks := packing.chunks ++ [packing.current]

def addCreate (cid : String) (object : Object) : Packing Object where
  chunks := packing.chunks
  current := { packing.current with create := packing.current.create.insert cid object }
  count := packing.count + 1

def addUpdate (id : Id) (patch : Value) : Packing Object where
  chunks := packing.chunks
  current := { packing.current with update := packing.current.update.insert id patch }
  count := packing.count + 1

def addDestroy (id : Id) : Packing Object where
  chunks := packing.chunks
  current := { packing.current with destroy := packing.current.destroy ++ [id] }
  count := packing.count + 1

def packComponent (creates : BTreeMap String Object) (limit : Nat) (packing : Packing Object)
    (scc : List String) : Packing Object :=
  scc.foldl (fun packing cid =>
      match creates.get? cid with
      | some object => packing.addCreate cid object
      | none => packing)
    (if limit < packing.count + scc.length ∧ 0 < packing.count then packing.flush else packing)

def makeRoom (limit : Nat) (packing : Packing Object) : Packing Object :=
  if limit ≤ packing.count then packing.flush else packing

def packUpdate (limit : Nat) (packing : Packing Object) (entry : Id × Value) : Packing Object :=
  (packing.makeRoom limit).addUpdate entry.1 entry.2

def packDestroy (limit : Nat) (packing : Packing Object) (id : Id) : Packing Object :=
  (packing.makeRoom limit).addDestroy id

def all : List (SetChunk Object) :=
  packing.chunks ++ [packing.current]

def result : List (SetChunk Object) :=
  if !packing.current.isEmpty || packing.chunks.isEmpty then packing.all else packing.chunks

end Packing

/-- Pack the components of the creates, then the updates, then the destroys. -/
def pack (request : SetRequest Object) (limit : Nat) (sccs : List (List String)) :
    List (SetChunk Object) :=
  let created := sccs.foldl (Packing.packComponent (request.create.getD ∅) limit) {}
  let updated := (request.update.getD ∅).entries.foldl (Packing.packUpdate limit) created
  let destroyed := (request.destroy.getD []).foldl (Packing.packDestroy limit) updated
  destroyed.result

variable (toValue : Object → Except Error Value) (order : String → List String → List String)

/-- The references of each create, without those to itself. -/
def dependencies (creates : BTreeMap String Object) : Except Error (List (String × List String)) :=
  creates.entries.mapM fun entry => do
    let value ← toValue entry.2
    pure (entry.1, (findCreationReferences value creates.keys).filter (· ≠ entry.1))

/-- The references of a create in iteration order. -/
def successors (dependencies : List (String × List String)) (cid : String) : List String :=
  order cid ((Entries.get? cid dependencies).getD [])

/-- Split a request into chunks of at most `limit` items. The result is `none` if the
search panics. -/
def partitionSetRequest (request : SetRequest Object) (limit : Nat) :
    Option (Except Error (List (SetChunk Object))) :=
  let creates := request.create.getD ∅
  match dependencies toValue creates with
  | .error error => some (.error error)
  | .ok dependencies =>
    (sortCreationComponents creates.keys (successors order dependencies) limit).map fun sorted =>
      sorted.map (pack request limit)

/-! ## What the packing keeps -/

variable {toValue} {order} {limit : Nat} {successors : String → List String}

/-- No create of the earlier chunk refers to one of the later. -/
def TargetsFirst (successors : String → List String) (earlier later : SetChunk Object) : Prop :=
  ∀ cid ∈ earlier.create.keys, ∀ target ∈ successors cid, target ∉ later.create.keys

/-- No update or destroy of the earlier chunk stands before a create of the later one. -/
def CreatesFirst (earlier later : SetChunk Object) : Prop :=
  earlier.update = ∅ ∧ earlier.destroy = [] ∨ later.create = ∅

/-- No destroy stands before an update. -/
def UpdatesFirst (earlier later : SetChunk Object) : Prop :=
  earlier.destroy = [] ∨ later.update = ∅

/-- Chunks that hold the given items. -/
structure Holds (limit : Nat) (successors : String → List String)
    (creates : List (String × Object)) (updates : List (Id × Value)) (destroys : List Id)
    (chunks : List (SetChunk Object)) : Prop where
  creates : (chunks.flatMap (·.create.entries)).Perm creates
  updates : chunks.flatMap (·.update.entries) = updates
  destroys : chunks.flatMap (·.destroy) = destroys
  sizes : ∀ chunk ∈ chunks, chunk.size ≤ max limit 1
  targetsFirst : chunks.Pairwise (TargetsFirst successors)
  createsFirst : chunks.Pairwise CreatesFirst
  updatesFirst : chunks.Pairwise UpdatesFirst

/-- The packing holds the items and counts the open chunk. -/
structure Packing.Packed (limit : Nat) (successors : String → List String)
    (creates : List (String × Object)) (updates : List (Id × Value)) (destroys : List Id)
    (packing : Packing Object) : Prop where
  holds : Holds limit successors creates updates destroys packing.all
  count : packing.current.size = packing.count

namespace Packing.Packed

variable {creates : List (String × Object)} {updates : List (Id × Value)} {destroys : List Id}
  {packing : Packing Object}

theorem empty : Packed limit successors [] [] [] ({} : Packing Object) where
  holds :=
    { creates := .refl _
      updates := rfl
      destroys := rfl
      sizes := by
        intro chunk mem
        rw [mem_singleton.mp mem]
        exact zero_le _
      targetsFirst := pairwise_singleton _ _
      createsFirst := pairwise_singleton _ _
      updatesFirst := pairwise_singleton _ _ }
  count := rfl

theorem pairwise_snoc {chunks : List (SetChunk Object)} (ordered : chunks.Pairwise relation)
    (last : ∀ chunk ∈ chunks, relation chunk current) :
    (chunks ++ [current]).Pairwise relation := by
  refine pairwise_append.mpr ⟨ordered, pairwise_singleton _ _, ?_⟩
  intro chunk mem later isLater
  rw [mem_singleton.mp isLater]
  exact last chunk mem

theorem pairwise_current (ordered : packing.all.Pairwise relation)
    (last : ∀ chunk ∈ packing.chunks, relation chunk packing.current → relation chunk current) :
    (packing.chunks ++ [current]).Pairwise relation := by
  obtain ⟨earlier, _, before⟩ := pairwise_append.mp ordered
  exact pairwise_snoc earlier fun chunk mem =>
    last chunk mem (before chunk mem _ (mem_singleton_self _))

theorem all_flush : packing.flush.all = packing.all ++ [({} : SetChunk Object)] := rfl

theorem flatMap_all {Item : Type} (items : SetChunk Object → List Item) :
    packing.all.flatMap items = packing.chunks.flatMap items ++ items packing.current := by
  rw [all, flatMap_append, flatMap_singleton]

section

variable (packed : packing.Packed limit successors creates updates destroys)

include packed

theorem flush : packing.flush.Packed limit successors creates updates destroys where
  holds :=
    { creates := by
        rw [all_flush, flatMap_append]
        exact (append_nil _).symm ▸ packed.holds.creates
      updates := by
        rw [all_flush, flatMap_append]
        exact (append_nil _).trans packed.holds.updates
      destroys := by
        rw [all_flush, flatMap_append]
        exact (append_nil _).trans packed.holds.destroys
      sizes := by
        intro chunk mem
        rcases mem_append.mp mem with earlier | new
        · exact packed.holds.sizes chunk earlier
        · rw [mem_singleton.mp new]
          exact zero_le _
      targetsFirst :=
        pairwise_snoc packed.holds.targetsFirst fun _ _ _ _ _ _ => not_mem_nil
      createsFirst := pairwise_snoc packed.holds.createsFirst fun _ _ => .inr rfl
      updatesFirst := pairwise_snoc packed.holds.updatesFirst fun _ _ => .inr rfl }
  count := rfl

theorem sizes_of_current (size : current.size = packing.count + 1)
    (room : packing.count + 1 ≤ max limit 1) :
    ∀ chunk ∈ packing.chunks ++ [current], chunk.size ≤ max limit 1 := by
  intro chunk mem
  rcases mem_append.mp mem with earlier | new
  · exact packed.holds.sizes chunk (mem_append_left _ earlier)
  · rw [mem_singleton.mp new, size]
    exact room

theorem create_perm {cid : String} (absent : cid ∉ creates.map Prod.fst) (object : Object) :
    (packing.current.create.insert cid object).entries.Perm
      (packing.current.create.entries ++ [(cid, object)]) := by
  refine insert_perm fun present => absent ?_
  refine (packed.holds.creates.map Prod.fst).subset ?_
  rw [flatMap_all, map_append]
  exact mem_append_right _ present

theorem orders_of_current (current : SetChunk Object)
    (same : current.create = packing.current.create) :
    (packing.chunks ++ [current]).Pairwise (TargetsFirst successors) ∧
      (packing.chunks ++ [current]).Pairwise CreatesFirst := by
  constructor
  · apply pairwise_current packed.holds.targetsFirst
    intro chunk _ last
    rwa [TargetsFirst, same]
  · apply pairwise_current packed.holds.createsFirst
    intro chunk _ last
    rwa [CreatesFirst, same]

theorem addDestroy {id : Id} (room : packing.count + 1 ≤ max limit 1) :
    (packing.addDestroy id).Packed limit successors creates updates (destroys ++ [id]) := by
  have size : (packing.addDestroy id).current.size = packing.count + 1 := by
    rw [← packed.count]
    simp only [SetChunk.size, Packing.addDestroy, length_append, length_singleton]
    omega
  rcases packed.orders_of_current (packing.addDestroy id).current rfl with
    ⟨targetsFirst, createsFirst⟩
  refine ⟨⟨?_, ?_, ?_, packed.sizes_of_current size room, targetsFirst, createsFirst,
    ?_⟩, size⟩
  · have earlier := packed.holds.creates
    rw [flatMap_all] at earlier ⊢
    exact earlier
  · have earlier := packed.holds.updates
    rw [flatMap_all] at earlier ⊢
    exact earlier
  · rw [flatMap_all, ← packed.holds.destroys, flatMap_all, append_assoc]
    rfl
  · apply pairwise_current packed.holds.updatesFirst
    exact fun _ _ last => last

theorem makeRoom :
    (packing.makeRoom limit).Packed limit successors creates updates destroys ∧
      (packing.makeRoom limit).count + 1 ≤ max limit 1 := by
  rw [Packing.makeRoom]
  split
  · exact ⟨packed.flush, le_max_right _ _⟩
  · next room =>
    refine ⟨packed, ?_⟩
    omega

end

theorem updatesFirst_of_current
    (packed : packing.Packed limit successors creates updates [])
    (current : SetChunk Object) : (packing.chunks ++ [current]).Pairwise UpdatesFirst := by
  apply pairwise_current packed.holds.updatesFirst
  intro chunk mem _
  exact .inl (flatMap_eq_nil_iff.mp packed.holds.destroys chunk
    (mem_append_left _ mem))

theorem addCreate {cid : String} (object : Object)
    (packed : packing.Packed limit successors creates [] [])
    (absent : cid ∉ creates.map Prod.fst) (room : packing.count + 1 ≤ max limit 1)
    (targets : ∀ chunk ∈ packing.chunks, ∀ other ∈ chunk.create.keys, cid ∉ successors other) :
    (packing.addCreate cid object).Packed limit successors (creates ++ [(cid, object)]) [] [] := by
  have inserted := packed.create_perm absent object
  have size : (packing.addCreate cid object).current.size = packing.count + 1 := by
    rw [← packed.count]
    simp only [SetChunk.size, Packing.addCreate, inserted.length_eq, length_append,
      length_singleton]
    omega
  refine ⟨⟨?_, ?_, ?_, packed.sizes_of_current size room, ?_, ?_,
    packed.updatesFirst_of_current _⟩, size⟩
  · have earlier := packed.holds.creates
    rw [flatMap_all] at earlier ⊢
    refine (inserted.append_left _).trans ?_
    rw [← append_assoc]
    exact earlier.append_right _
  · have earlier := packed.holds.updates
    rw [flatMap_all] at earlier ⊢
    exact earlier
  · have earlier := packed.holds.destroys
    rw [flatMap_all] at earlier ⊢
    exact earlier
  · apply pairwise_current packed.holds.targetsFirst
    intro chunk mem last other isOther target edge isTarget
    have either := (inserted.map Prod.fst).subset isTarget
    rw [map_append] at either
    rcases mem_append.mp either with held | new
    · exact last other isOther target edge held
    · rw [mem_singleton.mp new] at edge
      exact targets chunk mem other isOther edge
  · apply pairwise_current packed.holds.createsFirst
    intro chunk mem _
    have held : chunk ∈ packing.all := mem_append_left _ mem
    refine .inl ⟨?_, flatMap_eq_nil_iff.mp packed.holds.destroys chunk held⟩
    apply (BTreeMap.isEmpty_iff _).mp
    exact isEmpty_iff.mpr (flatMap_eq_nil_iff.mp packed.holds.updates chunk held)

theorem addUpdate {id : Id} (patch : Value)
    (packed : packing.Packed limit successors creates updates [])
    (last : ∀ other ∈ updates.map Prod.fst, other < id)
    (room : packing.count + 1 ≤ max limit 1) :
    (packing.addUpdate id patch).Packed limit successors creates (updates ++ [(id, patch)])
      [] := by
  have inserted : (packing.current.update.insert id patch).entries =
      packing.current.update.entries ++ [(id, patch)] := by
    refine insert_last fun other held => last other ?_
    rw [← packed.holds.updates, flatMap_all, map_append]
    exact mem_append_right _ held
  have size : (packing.addUpdate id patch).current.size = packing.count + 1 := by
    rw [← packed.count]
    simp only [SetChunk.size, Packing.addUpdate, inserted, length_append,
      length_singleton]
    omega
  rcases packed.orders_of_current (packing.addUpdate id patch).current rfl with
    ⟨targetsFirst, createsFirst⟩
  refine ⟨⟨?_, ?_, ?_, packed.sizes_of_current size room, targetsFirst, createsFirst,
    packed.updatesFirst_of_current _⟩, size⟩
  · have earlier := packed.holds.creates
    rw [flatMap_all] at earlier ⊢
    exact earlier
  · rw [flatMap_all, ← packed.holds.updates, flatMap_all, append_assoc, ← inserted]
    rfl
  · have earlier := packed.holds.destroys
    rw [flatMap_all] at earlier ⊢
    exact earlier

theorem foldl_packUpdate {rest : List (Id × Value)} :
    ∀ {updates : List (Id × Value)} {packing : Packing Object},
      Entries.Sorted (updates ++ rest) →
      packing.Packed limit successors creates updates [] →
      (rest.foldl (packUpdate limit) packing).Packed limit successors creates (updates ++ rest)
        [] := by
  induction rest with
  | nil =>
    intro updates packing _ packed
    rw [append_nil]
    exact packed
  | cons entry rest ih =>
    intro updates packing sorted packed
    have last : ∀ other ∈ updates.map Prod.fst, other < entry.1 := by
      intro other mem
      obtain ⟨held, isHeld, rfl⟩ := mem_map.mp mem
      exact (pairwise_append.mp sorted).2.2 held isHeld entry mem_cons_self
    have added := packed.makeRoom.1.addUpdate entry.2 last packed.makeRoom.2
    rw [append_cons] at sorted ⊢
    exact ih sorted added

theorem foldl_packDestroy {rest : List Id} :
    ∀ {destroys : List Id} {packing : Packing Object},
      packing.Packed limit successors creates updates destroys →
      (rest.foldl (packDestroy limit) packing).Packed limit successors creates updates
        (destroys ++ rest) := by
  induction rest with
  | nil =>
    intro destroys packing packed
    rw [append_nil]
    exact packed
  | cons id rest ih =>
    intro destroys packing packed
    rw [append_cons]
    exact ih (packed.makeRoom.1.addDestroy packed.makeRoom.2)

theorem result (packed : packing.Packed limit successors creates updates destroys) :
    Holds limit successors creates updates destroys packing.result := by
  rw [Packing.result]
  split
  · exact packed.holds
  · next empty =>
    have isEmpty : packing.current.isEmpty = true := by
      rw [Bool.or_eq_true, not_or] at empty
      simpa using empty.1
    simp only [SetChunk.isEmpty, Bool.and_eq_true] at isEmpty
    obtain ⟨⟨noCreate, noUpdate⟩, noDestroy⟩ := isEmpty
    have holds := packed.holds
    refine ⟨?_, ?_, ?_, ?_, ?_, ?_, ?_⟩
    · have earlier := holds.creates
      rw [flatMap_all, isEmpty_iff.mp noCreate, append_nil] at earlier
      exact earlier
    · have earlier := holds.updates
      rw [flatMap_all, isEmpty_iff.mp noUpdate, append_nil] at earlier
      exact earlier
    · have earlier := holds.destroys
      rw [flatMap_all, isEmpty_iff.mp noDestroy, append_nil] at earlier
      exact earlier
    · exact fun chunk mem => holds.sizes chunk (mem_append_left _ mem)
    · exact (pairwise_append.mp holds.targetsFirst).1
    · exact (pairwise_append.mp holds.createsFirst).1
    · exact (pairwise_append.mp holds.updatesFirst).1

/-! ### The creates -/

variable {request : BTreeMap String Object}

def entriesOf (request : BTreeMap String Object) (cids : List String) : List (String × Object) :=
  cids.filterMap fun cid => (request.get? cid).map (Prod.mk cid)

theorem entriesOf_append (front back : List String) :
    entriesOf request (front ++ back) = entriesOf request front ++ entriesOf request back :=
  filterMap_append

theorem mem_of_mem_entriesOf {cid : String} (mem : cid ∈ (entriesOf request cids).map Prod.fst) :
    cid ∈ cids := by
  obtain ⟨entry, isEntry, rfl⟩ := mem_map.mp mem
  obtain ⟨other, isOther, found⟩ := mem_filterMap.mp isEntry
  cases object : request.get? other with
  | none => rw [object] at found; cases found
  | some _ => rw [object] at found; cases found; exact isOther

theorem entriesOf_perm (nodup : cids.Nodup) (all : ∀ cid, cid ∈ cids ↔ cid ∈ request.keys) :
    (entriesOf request cids).Perm request.entries := by
  have keys : cids.Perm request.keys :=
    (perm_ext_iff_of_nodup nodup request.keys_nodup).mpr all
  refine (keys.filterMap _).trans (.of_eq ?_)
  have found : ∀ entry ∈ request.entries,
      (request.get? entry.1).map (Prod.mk entry.1) = some entry := by
    intro entry mem
    rw [request.mem_entries.mp mem, map_some]
  rw [BTreeMap.keys, filterMap_map]
  exact (filterMap_congr found).trans filterMap_some

theorem foldl_addCreate {scc : List String} :
    ∀ {handled : List String} {packing : Packing Object},
      packing.Packed limit successors (entriesOf request handled) [] [] →
      (handled ++ scc).Nodup → packing.count + scc.length ≤ limit →
      (∀ chunk ∈ packing.chunks, ∀ other ∈ chunk.create.keys,
        ∀ cid ∈ scc, cid ∉ successors other) →
      (scc.foldl (fun packing cid =>
        match request.get? cid with
        | some object => packing.addCreate cid object
        | none => packing) packing).Packed limit successors (entriesOf request (handled ++ scc))
          [] [] := by
  induction scc with
  | nil =>
    intro handled packing packed _ _ _
    rw [append_nil]
    exact packed
  | cons cid scc ih =>
    intro handled packing packed nodup room targets
    rw [length_cons] at room
    have single : entriesOf request (handled ++ [cid]) =
        entriesOf request handled ++ entriesOf request [cid] := entriesOf_append _ _
    rw [foldl_cons]
    rw [append_cons] at nodup ⊢
    cases found : request.get? cid with
    | none =>
      refine ih ?_ nodup ?_ fun chunk mem other isOther later isLater =>
        targets chunk mem other isOther later (mem_cons_of_mem _ isLater)
      · rw [single]
        simpa [entriesOf, found] using packed
      · show packing.count + scc.length ≤ limit
        omega
    | some object =>
      have absent : cid ∉ (entriesOf request handled).map Prod.fst := by
        intro mem
        have disjoint := (nodup_append.mp (nodup_append.mp nodup).1).2.2
        exact disjoint cid (mem_of_mem_entriesOf mem) cid (mem_singleton_self _) rfl
      have added := packed.addCreate object absent (by omega)
        fun chunk mem other isOther => targets chunk mem other isOther cid
          mem_cons_self
      refine ih ?_ nodup ?_ ?_
      · rw [single]
        simpa [entriesOf, found] using added
      · show packing.count + 1 + scc.length ≤ limit
        omega
      · exact fun chunk mem other isOther later isLater =>
          targets chunk mem other isOther later (mem_cons_of_mem _ isLater)

theorem packComponent {handled scc : List String}
    (packed : packing.Packed limit successors (entriesOf request handled) [] [])
    (nodup : (handled ++ scc).Nodup) (fits : scc.length ≤ limit)
    (targets : ∀ other ∈ handled, ∀ cid ∈ scc, cid ∉ successors other) :
    (packing.packComponent request limit scc).Packed limit successors
      (entriesOf request (handled ++ scc)) [] [] := by
  have known : ∀ {packing : Packing Object},
      packing.Packed limit successors (entriesOf request handled) [] [] →
      ∀ chunk ∈ packing.chunks, ∀ other ∈ chunk.create.keys,
        ∀ cid ∈ scc, cid ∉ successors other := by
    intro packing packed chunk mem other isOther
    refine targets other ?_
    refine mem_of_mem_entriesOf ((packed.holds.creates.map Prod.fst).subset ?_)
    obtain ⟨entry, isEntry, rfl⟩ := mem_map.mp isOther
    exact mem_map_of_mem
      (mem_flatMap.mpr ⟨chunk, mem_append_left _ mem, isEntry⟩)
  rw [Packing.packComponent]
  split
  · refine foldl_addCreate packed.flush nodup ?_ (known packed.flush)
    exact (zero_add _).trans_le fits
  · refine foldl_addCreate packed nodup ?_ (known packed)
    omega

theorem foldl_packComponent {sccs : List (List String)} :
    ∀ {handled : List String} {packing : Packing Object},
      packing.Packed limit successors (entriesOf request handled) [] [] →
      (handled ++ sccs.flatten).Nodup → (∀ scc ∈ sccs, scc.length ≤ limit) →
      (∀ other ∈ handled, ∀ cid ∈ sccs.flatten, cid ∉ successors other) →
      (sccs.Pairwise fun earlier later =>
        ∀ node ∈ earlier, ∀ target ∈ successors node, target ∉ later) →
      (sccs.foldl (Packing.packComponent request limit) packing).Packed limit successors
        (entriesOf request (handled ++ sccs.flatten)) [] [] := by
  induction sccs with
  | nil =>
    intro handled packing packed _ _ _ _
    rw [flatten_nil, append_nil]
    exact packed
  | cons scc sccs ih =>
    intro handled packing packed nodup fits targets ordered
    rw [flatten_cons, ← append_assoc] at nodup ⊢
    rw [forall_mem_cons] at fits
    obtain ⟨first, rest⟩ := pairwise_cons.mp ordered
    refine ih (packed.packComponent (nodup_append.mp nodup).1 fits.1 ?_) nodup fits.2 ?_ rest
    · exact fun other isHandled cid mem =>
        targets other isHandled cid (mem_append_left _ mem)
    · intro other either cid mem edge
      rcases mem_append.mp either with isHandled | inScc
      · exact targets other isHandled cid (mem_append_right _ mem) edge
      · obtain ⟨later, isLater, inLater⟩ := mem_flatten.mp mem
        exact first later isLater other inScc cid edge inLater

end Packing.Packed

/-! ## The reference graph -/

/-- One create refers to another. -/
def Refers (toValue : Object → Except Error Value) (creates : BTreeMap String Object)
    (cid target : String) : Prop :=
  ∃ object value, creates.get? cid = some object ∧ toValue object = .ok value ∧
    target ∈ findCreationReferences value creates.keys

/-- A strongly connected component of a relation on some nodes. -/
structure IsScc (refers : String → String → Prop) (nodes : List String)
    (component : Finset String) : Prop where
  subset : ∀ cid ∈ component, cid ∈ nodes
  mem_iff : ∀ cid ∈ component, ∀ other, other ∈ component ↔
    ReflTransGen refers cid other ∧ ReflTransGen refers other cid

mutual
theorem candidate_of_collected (candidates : List String) :
    ∀ value : Value, ∀ target ∈ collectCreationReferences candidates value, target ∈ candidates
  | .null, _, mem | .bool _, _, mem | .int _, _, mem | .float _, _, mem => by
      simp [collectCreationReferences] at mem
  | .string text, _, mem => candidate_of_target candidates text _ mem
  | .array items, target, mem => by
      rw [collectCreationReferences] at mem
      exact candidate_of_items candidates items target mem
  | .object members, target, mem => by
      rw [collectCreationReferences] at mem
      exact candidate_of_members candidates members target mem

theorem candidate_of_items (candidates : List String) :
    ∀ items : List Value, ∀ target ∈ collectInItems candidates items, target ∈ candidates
  | [], _, mem => by simp [collectInItems] at mem
  | item :: items, target, mem => by
      rw [collectInItems] at mem
      rcases mem_append.mp mem with first | rest
      · exact candidate_of_collected candidates item target first
      · exact candidate_of_items candidates items target rest

theorem candidate_of_members (candidates : List String) :
    ∀ members : List (String × Value), ∀ target ∈ collectInMembers candidates members,
      target ∈ candidates
  | [], _, mem => by simp [collectInMembers] at mem
  | (key, value) :: members, target, mem => by
      rw [collectInMembers, append_assoc] at mem
      rcases mem_append.mp mem with inKey | mem
      · obtain ⟨segment, _, found⟩ := mem_flatMap.mp inKey
        exact candidate_of_target candidates segment target found
      · rcases mem_append.mp mem with first | rest
        · exact candidate_of_collected candidates value target first
        · exact candidate_of_members candidates members target rest
end

section

variable {image : String → Value → List String} {found : List (String × List String)}

theorem get?_mapM {entries : List (String × Object)}
    (mapped : (entries.mapM fun entry => do
      let value ← toValue entry.2
      pure (entry.1, image entry.1 value)) = .ok found) :
    found.map Prod.fst = entries.map Prod.fst ∧
    ∀ cid, Entries.get? cid found = (Entries.get? cid entries).bind fun object =>
      (toValue object).toOption.map (image cid) := by
  rw [mapM_eq_ok_iff] at mapped
  induction mapped with
  | nil => exact ⟨rfl, fun _ => rfl⟩
  | @cons entry _ _ _ here _ ih =>
    cases value : toValue entry.2 with
    | error error =>
      rw [value] at here
      cases here
    | ok _ =>
      rw [value] at here
      cases here
      refine ⟨congrArg (entry.1 :: ·) ih.1, fun cid => ?_⟩
      rw [get?_cons, get?_cons, ih.2]
      split
      · next same =>
        subst same
        rw [bind_some, value]
        rfl
      · rfl

theorem mem_of_images {creates : BTreeMap String Object}
    (mapped : (creates.entries.mapM fun entry => do
      let value ← toValue entry.2
      pure (entry.1, image entry.1 value)) = .ok found) {cid target : String} :
    target ∈ (Entries.get? cid found).getD [] ↔ ∃ object value,
      creates.get? cid = some object ∧ toValue object = .ok value ∧ target ∈ image cid value := by
  rw [(get?_mapM mapped).2]
  change target ∈ ((creates.get? cid).bind _).getD [] ↔ _
  cases creates.get? cid with
  | none => simp
  | some object => cases value : toValue object <;> simp [value, Except.toOption]

end

section Serializes

variable (serializes : ∀ object, ∃ value, toValue object = .ok value)
include serializes

theorem mapM_ok (image : String → Value → List String) (entries : List (String × Object)) :
    ∃ found, (entries.mapM fun entry => do
      let value ← toValue entry.2
      pure (entry.1, image entry.1 value)) = .ok found := by
  induction entries with
  | nil => exact ⟨[], rfl⟩
  | cons entry rest ih =>
    obtain ⟨value, isValue⟩ := serializes entry.2
    obtain ⟨found, rest⟩ := ih
    refine ⟨(entry.1, image entry.1 value) :: found, ?_⟩
    rw [mapM_cons, rest, isValue]
    rfl

theorem dependencies_ok (creates : BTreeMap String Object) :
    ∃ found, dependencies toValue creates = .ok found :=
  mapM_ok serializes
    (fun cid value => (findCreationReferences value creates.keys).filter (· ≠ cid)) creates.entries

end Serializes

theorem mem_successors (iterates : ∀ cid refs target, target ∈ order cid refs ↔ target ∈ refs)
    {creates : BTreeMap String Object} {found : List (String × List String)}
    (isFound : dependencies toValue creates = .ok found) {cid target : String} :
    target ∈ Partition.successors order found cid ↔
      Refers toValue creates cid target ∧ target ≠ cid := by
  rw [Partition.successors, iterates, @mem_of_images _ _
    (fun cid value => (findCreationReferences value creates.keys).filter (· ≠ cid)) _ _ isFound]
  simp only [mem_filter, decide_eq_true_eq, Refers]
  constructor
  · rintro ⟨object, value, isObject, isValue, refers, different⟩
    exact ⟨⟨object, value, isObject, isValue, refers⟩, different⟩
  · rintro ⟨⟨object, value, isObject, isValue, refers⟩, different⟩
    exact ⟨object, value, isObject, isValue, refers, different⟩

theorem reach_iff {successors : String → List String} {creates : BTreeMap String Object}
    (edges : ∀ cid target, target ∈ successors cid ↔
      Refers toValue creates cid target ∧ target ≠ cid) {cid other : String} :
    Tarjan.Reach successors cid other ↔ ReflTransGen (Refers toValue creates) cid other := by
  constructor
  · exact ReflTransGen.mono (fun source target edge => ((edges source target).mp edge).1) cid other
  · intro path
    induction path with
    | refl => exact .refl
    | @tail middle target _ edge ih =>
      by_cases same : target = middle
      · subst same
        exact ih
      · exact ih.tail ((edges middle target).mpr ⟨edge, same⟩)

theorem exists_large_iff {successors : String → List String} {creates : BTreeMap String Object}
    {sccs : List (List String)} (components : Tarjan.Components successors creates.keys sccs)
    (edges : ∀ cid target, target ∈ successors cid ↔
      Refers toValue creates cid target ∧ target ≠ cid) :
    (∃ scc ∈ sccs, limit < scc.length) ↔
      ∃ component, IsScc (Refers toValue creates) creates.keys component ∧
        limit < component.card := by
  have memIff : ∀ scc ∈ sccs, ∀ cid ∈ scc, ∀ other, other ∈ scc ↔
      ReflTransGen (Refers toValue creates) cid other ∧
        ReflTransGen (Refers toValue creates) other cid := by
    intro scc mem cid inScc other
    rw [(components.component scc mem).mem_iff cid inScc other, reach_iff edges,
      reach_iff edges]
  constructor
  · rintro ⟨scc, mem, large⟩
    refine ⟨scc.toFinset, ⟨?_, ?_⟩, ?_⟩
    · intro cid inScc
      rw [List.mem_toFinset] at inScc
      exact (components.mem_iff cid).mp (mem_flatten_of_mem mem inScc)
    · intro cid inScc other
      rw [List.mem_toFinset] at inScc ⊢
      exact memIff scc mem cid inScc other
    · have nodup : scc.Nodup := (nodup_flatten.mp components.nodup).1 scc mem
      rwa [toFinset_card_of_nodup nodup]
  · rintro ⟨component, isScc, large⟩
    obtain ⟨cid, inComponent⟩ := Finset.card_pos.mp (zero_lt_of_lt large)
    have listed := (components.mem_iff cid).mpr (isScc.subset cid inComponent)
    obtain ⟨scc, mem, inScc⟩ := mem_flatten.mp listed
    refine ⟨scc, mem, large.trans_le ?_⟩
    have same : component ⊆ scc.toFinset := by
      intro other isOther
      rw [List.mem_toFinset, memIff scc mem cid inScc]
      exact (isScc.mem_iff cid inComponent other).mp isOther
    exact (Finset.card_le_card same).trans scc.toFinset_card_le

theorem pack_holds {request : SetRequest Object} {sccs : List (List String)}
    (components : Tarjan.Components successors (request.create.getD ∅).keys sccs)
    (fits : ∀ scc ∈ sccs, scc.length ≤ limit) :
    Holds limit successors (request.create.getD ∅).entries (request.update.getD ∅).entries
      (request.destroy.getD []) (pack request limit sccs) := by
  have created := @Packing.Packed.foldl_packComponent _ limit successors (request.create.getD ∅)
    sccs [] {} Packing.Packed.empty components.nodup fits nofun components.ordered
  have updated := @Packing.Packed.foldl_packUpdate _ _ _ _ (request.update.getD ∅).entries [] _
    (request.update.getD ∅).sorted created
  have held :=
    (@Packing.Packed.foldl_packDestroy _ _ _ _ _ (request.destroy.getD []) [] _ updated).result
  exact { held with
    creates := held.creates.trans
      (Packing.Packed.entriesOf_perm components.nodup components.mem_iff) }

section Whole

variable (iterates : ∀ cid refs target, target ∈ order cid refs ↔ target ∈ refs)
  (serializes : ∀ object, ∃ value, toValue object = .ok value)
include iterates serializes

theorem partitionSetRequest_spec (request : SetRequest Object) (limit : Nat) :
    ∃ result successors, partitionSetRequest toValue order request limit = some result ∧
      (∀ cid target, target ∈ successors cid ↔
        Refers toValue (request.create.getD ∅) cid target ∧ target ≠ cid) ∧
      ((∃ error, result = .error error) ↔
        ∃ component, IsScc (Refers toValue (request.create.getD ∅))
          (request.create.getD ∅).keys component ∧ limit < component.card) ∧
      ∀ chunks, result = .ok chunks →
        Holds limit successors (request.create.getD ∅).entries (request.update.getD ∅).entries
          (request.destroy.getD []) chunks := by
  obtain ⟨found, isFound⟩ := dependencies_ok serializes (request.create.getD ∅)
  have edges := fun cid target => @mem_successors _ _ _ iterates _ _ isFound cid target
  have closed : ∀ cid ∈ (request.create.getD ∅).keys,
      Partition.successors order found cid ⊆ (request.create.getD ∅).keys := by
    intro cid _ target edge
    obtain ⟨_, value, _, _, refers⟩ := ((edges cid target).mp edge).1
    exact candidate_of_collected _ value target refers
  obtain ⟨tarjan, searched, components⟩ := Tarjan.search_spec closed
  have large := @exists_large_iff _ _ limit _ _ _ components edges
  cases big : tarjan.sccs.find? fun scc => decide (limit < scc.length) with
  | some scc =>
    refine ⟨.error (oversized limit scc), Partition.successors order found, ?_, edges,
      ⟨fun _ => large.mp ?_, fun _ => ⟨_, rfl⟩⟩, nofun⟩
    · simp only [partitionSetRequest, isFound, sortCreationComponents, searched,
        map_some, big, Except.map]
    · have exceeds := find?_some big
      exact ⟨scc, mem_of_find?_eq_some big, of_decide_eq_true exceeds⟩
  | none =>
    have fits : ∀ scc ∈ tarjan.sccs, scc.length ≤ limit := by
      intro scc mem
      have small := find?_eq_none.mp big scc mem
      simpa using small
    refine ⟨.ok (pack request limit tarjan.sccs), Partition.successors order found, ?_, edges,
      ⟨nofun, fun isLarge => ?_⟩, ?_⟩
    · simp only [partitionSetRequest, isFound, sortCreationComponents, searched,
        map_some, big, Except.map]
    · obtain ⟨scc, mem, exceeds⟩ := large.mpr isLarge
      exact absurd (fits scc mem) (not_le.mpr exceeds)
    · rintro chunks ⟨⟩
      exact pack_holds components fits

/-- `partition_set_request` fails exactly for a strongly connected component with more
than `limit` members. Otherwise the chunks together hold each item of the request once,
no chunk has more than `limit` items (or one item, for the limit 0), a create is in the
same or a later chunk than those it refers to, and no update or destroy is in an earlier
chunk than a create. -/
theorem partitionSetRequest_correct (request : SetRequest Object) (limit : Nat) :
    ((∃ error, partitionSetRequest toValue order request limit = some (.error error)) ↔
      ∃ component, IsScc (Refers toValue (request.create.getD ∅))
        (request.create.getD ∅).keys component ∧ limit < component.card) ∧
    ((∃ error, partitionSetRequest toValue order request limit = some (.error error)) ∨
      ∃ chunks, partitionSetRequest toValue order request limit = some (.ok chunks) ∧
        (chunks.flatMap (·.create.entries)).Perm (request.create.getD ∅).entries ∧
        chunks.flatMap (·.update.entries) = (request.update.getD ∅).entries ∧
        chunks.flatMap (·.destroy) = request.destroy.getD [] ∧
        (∀ chunk ∈ chunks, chunk.size ≤ max limit 1) ∧
        (∀ (i j : Fin chunks.length), ∀ cid ∈ (chunks.get i).create.keys,
          ∀ target ∈ (chunks.get j).create.keys,
            Refers toValue (request.create.getD ∅) cid target → target ≠ cid → j ≤ i) ∧
        ∀ (i j : Fin chunks.length),
          ((chunks.get i).update ≠ ∅ ∨ (chunks.get i).destroy ≠ []) →
          (chunks.get j).create ≠ ∅ → j ≤ i) := by
  rcases partitionSetRequest_spec iterates serializes request limit with
    ⟨result, successors, ran, edges, fails, holds⟩
  rw [ran]
  cases result with
  | error error =>
    exact ⟨⟨fun _ => fails.mp ⟨error, rfl⟩, fun _ => ⟨error, rfl⟩⟩, .inl ⟨error, rfl⟩⟩
  | ok chunks =>
    have held := holds chunks rfl
    refine ⟨⟨nofun, fun large => ?_⟩, .inr ⟨chunks, rfl, held.creates, held.updates,
      held.destroys, held.sizes, ?_, ?_⟩⟩
    · obtain ⟨_, impossible⟩ := fails.mpr large
      cases impossible
    · intro i j cid inFirst target inLater refers different
      refine Fin.not_lt.mp fun earlier => ?_
      have edge := (edges cid target).mpr ⟨refers, different⟩
      exact pairwise_iff_get.mp held.targetsFirst i j earlier cid inFirst target edge inLater
    · intro i j others creates
      refine Fin.not_lt.mp fun earlier => ?_
      rcases pairwise_iff_get.mp held.createsFirst i j earlier with none | noCreate
      · exact others.elim (fun other => other none.1) fun other => other none.2
      · exact creates noCreate

end Whole

def folderIn (parent : String) : Value := .object [("parentId", .string parent)]

def threeFolders : SetRequest Value where
  accountId := "a"
  create := some (.ofList [("c0", folderIn "#c1"), ("c1", folderIn "#c0"), ("c2", folderIn "#c0")])
  update := some (.ofList [("m1", .object [("name", .string "new")])])
  destroy := some ["m2"]

theorem partitionSetRequest_correct_threeFolders :
    ∃ chunks, partitionSetRequest .ok (fun _ refs => refs) threeFolders 2 = some (.ok chunks) ∧
      chunks.map SetChunk.size = [2, 2, 1] ∧ ∀ chunk ∈ chunks, chunk.size ≤ 2 := by
  have sizes : ((partitionSetRequest .ok (fun _ refs => refs) threeFolders 2).bind
      Except.toOption).map (·.map SetChunk.size) = some [2, 2, 1] := by decide +kernel
  have correct := @partitionSetRequest_correct Value .ok (fun _ refs => refs)
    (fun _ _ _ => Iff.rfl) (fun value => ⟨value, rfl⟩) threeFolders 2
  rcases correct.2 with ⟨error, failed⟩ | ⟨chunks, ran, _, _, _, bounded, _⟩
  · rw [failed] at sizes
    cases sizes
  · rw [ran] at sizes
    exact ⟨chunks, ran, Option.some.inj sizes, bounded⟩

/-- With the limit 0, a chunk can have one item. -/
theorem partitionSetRequest_limitZero :
    ((partitionSetRequest .ok (fun _ refs => refs)
      ({ accountId := "a", destroy := some ["m1"] } : SetRequest Value) 0).bind
        Except.toOption).map (·.map SetChunk.size) = some [0, 1] := by
  decide +kernel

end Partition

end EvolutionJmap
