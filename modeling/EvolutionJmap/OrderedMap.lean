import Mathlib

/-!
# Maps ordered by key

`BTreeMap` is a finite map kept as its list of entries in strictly increasing
key order.  The order is a field, so two maps with the same lookups are equal.  The
operations are defined on entry lists first, where the lookup laws hold without the
order, so nested data can keep plain entry lists.
-/

namespace EvolutionJmap

open List

theorem foldl_gathers {α σ : Type} {step : σ → α → σ} (Holds : σ → Prop) {Adds : α → Prop}
    (each : ∀ state item, Holds (step state item) ↔ Adds item ∨ Holds state)
    (items : List α) (state : σ) :
    Holds (items.foldl step state) ↔ (∃ item ∈ items, Adds item) ∨ Holds state := by
  induction items generalizing state with
  | nil => simp
  | cons item items ih => rw [foldl_cons, ih, each, exists_mem_cons_iff, or_left_comm, or_assoc]

variable {K V W : Type} [LinearOrder K]

namespace Entries

/-- The value stored first under `key`. -/
def get? (key : K) : List (K × V) → Option V
  | [] => none
  | (other, value) :: rest => if key = other then some value else get? key rest

def insert (key : K) (value : V) : List (K × V) → List (K × V)
  | [] => [(key, value)]
  | (other, held) :: rest =>
    if key < other then (key, value) :: (other, held) :: rest
    else if key = other then (key, value) :: rest
    else (other, held) :: insert key value rest

/-- Strictly increasing keys. -/
def Sorted (entries : List (K × V)) : Prop :=
  entries.Pairwise fun left right => left.1 < right.1

instance (entries : List (K × V)) : Decidable (Sorted entries) :=
  inferInstanceAs (Decidable (entries.Pairwise fun left right => left.1 < right.1))

@[simp] theorem get?_nil (key : K) : get? key ([] : List (K × V)) = none := rfl

theorem get?_cons (key : K) (entry : K × V) (rest : List (K × V)) :
    get? key (entry :: rest) = if key = entry.1 then some entry.2 else get? key rest := rfl

theorem get?_insert (key query : K) (value : V) (entries : List (K × V)) :
    get? query (insert key value entries) =
      if query = key then some value else get? query entries := by
  induction entries with
  | nil => rfl
  | cons entry rest ih =>
    obtain ⟨other, held⟩ := entry
    simp only [insert]
    split
    · simp [get?_cons]
    · split
      · rename_i same
        subst same
        simp only [get?_cons]
        split <;> rfl
      · rename_i different
        simp only [get?_cons, ih]
        by_cases atOther : query = other
        · subst atOther
          simp [Ne.symm different]
        · simp [atOther]

theorem get?_append (key : K) (front back : List (K × V)) :
    get? key (front ++ back) = (get? key front).or (get? key back) := by
  induction front with
  | nil => rfl
  | cons entry rest ih =>
    rw [cons_append, get?_cons, get?_cons, ih]
    split <;> rfl

variable {entries : List (K × V)} {value : V} {key : K}

theorem mem_of_get?
    (found : get? key entries = some value) : (key, value) ∈ entries := by
  induction entries with
  | nil => cases found
  | cons entry rest ih =>
    rw [get?_cons] at found
    split at found
    · rename_i same
      cases found
      subst same
      exact mem_cons_self
    · exact mem_cons_of_mem _ (ih found)

theorem get?_eq_none :
    get? key entries = none ↔ ∀ entry ∈ entries, entry.1 ≠ key := by
  induction entries with
  | nil => simp
  | cons entry rest ih =>
    rw [get?_cons]
    by_cases same : key = entry.1
    · simp [same]
    · simp [same, ih, Ne.symm same]

theorem Sorted.mem_iff
    (sorted : Sorted entries) :
    (key, value) ∈ entries ↔ get? key entries = some value := by
  induction entries with
  | nil => simp
  | cons entry rest ih =>
    obtain ⟨first, tail⟩ := pairwise_cons.mp sorted
    rw [mem_cons, ih tail, get?_cons]
    constructor
    · rintro (same | found)
      · subst same
        simp
      · have later := first _ (mem_of_get? found)
        rw [if_neg (ne_of_gt later), found]
    · split
      · rename_i same
        intro valueEq
        exact .inl (Prod.ext same (Option.some.inj valueEq).symm)
      · exact .inr

theorem get?_of_nodup
    (nodup : (entries.map Prod.fst).Nodup) (mem : (key, value) ∈ entries) :
    get? key entries = some value := by
  induction entries with
  | nil => cases mem
  | cons entry rest ih =>
    rw [map_cons, nodup_cons] at nodup
    rcases mem_cons.mp mem with rfl | later
    · rw [get?_cons, if_pos rfl]
    · have other : key ≠ entry.1 := fun same =>
        nodup.1 (same ▸ mem_map_of_mem later)
      rw [get?_cons, if_neg other, ih nodup.2 later]

theorem mem_insert {entry : K × V}
    (mem : entry ∈ insert key value entries) :
    entry = (key, value) ∨ entry ∈ entries := by
  induction entries with
  | nil => exact .inl (mem_singleton.mp mem)
  | cons first rest ih =>
    simp only [insert] at mem
    split at mem
    · simpa using mem
    · split at mem
      · exact (mem_cons.mp mem).imp id (mem_cons_of_mem _)
      · rcases mem_cons.mp mem with rfl | mem
        · exact .inr mem_cons_self
        · exact (ih mem).imp id (mem_cons_of_mem _)

theorem Sorted.insert
    (sorted : Sorted entries) : Sorted (insert key value entries) := by
  induction entries with
  | nil => exact pairwise_singleton _ _
  | cons entry rest ih =>
    obtain ⟨first, tail⟩ := pairwise_cons.mp sorted
    simp only [Entries.insert]
    split
    · rename_i before
      refine pairwise_cons.mpr ⟨fun other mem => ?_, sorted⟩
      rcases mem_cons.mp mem with rfl | mem
      · exact before
      · exact before.trans (first other mem)
    · split
      · rename_i same
        subst same
        exact pairwise_cons.mpr ⟨first, tail⟩
      · rename_i notBefore different
        refine pairwise_cons.mpr ⟨fun other mem => ?_, ih tail⟩
        rcases mem_insert mem with rfl | mem
        · exact lt_of_le_of_ne (not_lt.mp notBefore) (Ne.symm different)
        · exact first other mem

theorem insert_perm
    (absent : key ∉ entries.map Prod.fst) :
    (Entries.insert key value entries).Perm (entries ++ [(key, value)]) := by
  induction entries with
  | nil => exact .refl _
  | cons entry rest ih =>
    rw [map_cons, mem_cons, not_or] at absent
    simp only [Entries.insert, if_neg absent.1]
    split
    · exact (perm_append_singleton _ _).symm
    · exact (ih absent.2).cons _

theorem insert_last
    (last : ∀ other ∈ entries.map Prod.fst, other < key) :
    Entries.insert key value entries = entries ++ [(key, value)] := by
  induction entries with
  | nil => rfl
  | cons entry rest ih =>
    rw [map_cons, forall_mem_cons] at last
    simp only [Entries.insert, if_neg last.1.not_gt, if_neg last.1.ne', ih last.2,
      cons_append]

theorem Sorted.ext {left right : List (K × V)} (leftSorted : Sorted left)
    (rightSorted : Sorted right)
    (same : ∀ key, get? key left = get? key right) : left = right := by
  refine List.Perm.eq_of_pairwise
    (fun a b _ _ ab ba => absurd ab (not_lt.mpr (le_of_lt ba))) leftSorted rightSorted ?_
  refine (perm_ext_iff_of_nodup ?_ ?_).mpr fun entry => ?_
  · exact leftSorted.imp fun before equal => absurd before (by simp [equal])
  · exact rightSorted.imp fun before equal => absurd before (by simp [equal])
  · rw [leftSorted.mem_iff, rightSorted.mem_iff, same]

end Entries

/-- A map from `K` to `V`, iterated in key order. -/
structure BTreeMap (K V : Type) [LinearOrder K] where
  entries : List (K × V)
  sorted : Entries.Sorted entries
  deriving DecidableEq

namespace BTreeMap

def empty : BTreeMap K V := ⟨[], List.Pairwise.nil⟩

instance : EmptyCollection (BTreeMap K V) := ⟨empty⟩

instance : Inhabited (BTreeMap K V) := ⟨empty⟩

def get? (map : BTreeMap K V) (key : K) : Option V := Entries.get? key map.entries

variable (map : BTreeMap K V)

def contains (key : K) : Bool := (map.get? key).isSome

def insert (map : BTreeMap K V) (key : K) (value : V) : BTreeMap K V :=
  ⟨Entries.insert key value map.entries, map.sorted.insert⟩

def retain (keep : K → V → Bool) : BTreeMap K V :=
  ⟨map.entries.filter fun entry => keep entry.1 entry.2, map.sorted.filter _⟩

def erase (key : K) : BTreeMap K V :=
  map.retain fun other _ => other ≠ key

/-- Replace each value, given its key. -/
def mapValues (image : K → V → W) : BTreeMap K W :=
  ⟨map.entries.map fun (entry : K × V) => (entry.1, image entry.1 entry.2),
    pairwise_map.mpr map.sorted⟩

/-- Replace each value, given its key, and leave out those without a new value. -/
def filterMapValues (image : K → V → Option W) : BTreeMap K W where
  entries := map.entries.filterMap fun (entry : K × V) =>
    (image entry.1 entry.2).map fun value => (entry.1, value)
  sorted := by
    refine List.Pairwise.filterMap _ ?_ map.sorted
    intro left right before leftImage isLeft rightImage isRight
    obtain ⟨_, _, rfl⟩ := Option.map_eq_some_iff.mp isLeft
    obtain ⟨_, _, rfl⟩ := Option.map_eq_some_iff.mp isRight
    exact before

def extend (map other : BTreeMap K V) : BTreeMap K V :=
  other.entries.foldl (fun map entry => map.insert entry.1 entry.2) map

def keys : List K := map.entries.map Prod.fst

def values : List V := map.entries.map Prod.snd

def isEmpty (map : BTreeMap K V) : Bool := map.entries.isEmpty

/-- The entries of a list, a later one in place of an earlier one. -/
def ofList (entries : List (K × V)) : BTreeMap K V :=
  entries.foldl (fun map entry => map.insert entry.1 entry.2) ∅

@[simp] theorem get?_empty (key : K) : (∅ : BTreeMap K V).get? key = none := rfl

theorem get?_insert (key query : K) (value : V) : (map.insert key value).get? query =
      if query = key then some value else map.get? query :=
  Entries.get?_insert key query value map.entries

@[simp] theorem get?_insert_self (key : K) (value : V) :
    (map.insert key value).get? key = some value := by
  simp [get?_insert]

variable {value : V}

theorem mem_entries {key : K} : (key, value) ∈ map.entries ↔ map.get? key = some value :=
  map.sorted.mem_iff

theorem mem_keys {key : K} : key ∈ map.keys ↔ ∃ value, map.get? key = some value := by
  simp only [keys, mem_map, Prod.exists, exists_and_right, exists_eq_right,
    mem_entries]

theorem contains_eq_true {key : K} : map.contains key = true ↔ ∃ value, map.get? key = some value :=
  Option.isSome_iff_exists

theorem contains_iff_mem_keys {key : K} : map.contains key = true ↔ key ∈ map.keys :=
  map.contains_eq_true.trans map.mem_keys.symm

theorem get?_eq_none_iff {key : K} : map.get? key = none ↔ key ∉ map.keys := by
  simp [mem_keys, Option.eq_none_iff_forall_ne_some]

theorem keys_sorted : map.keys.Pairwise (· < ·) :=
  pairwise_map.mpr map.sorted

theorem keys_nodup : map.keys.Nodup :=
  map.keys_sorted.imp ne_of_lt

@[ext] theorem ext {left right : BTreeMap K V}
    (same : ∀ key, left.get? key = right.get? key) : left = right := by
  cases left
  cases right
  congr
  exact Entries.Sorted.ext ‹_› ‹_› same

theorem get?_retain (keep : K → V → Bool) (key : K) :
    (map.retain keep).get? key = (map.get? key).filter (keep key) := by
  apply Option.ext
  intro value
  rw [← mem_entries, Option.filter_eq_some_iff, ← mem_entries]
  exact mem_filter

theorem keys_retain (keep : K → Bool) :
    (map.retain fun key _ => keep key).keys = map.keys.filter keep := by
  rw [keys, keys, filter_map]
  rfl

theorem get?_erase (key query : K) :
    (map.erase key).get? query = if query = key then none else map.get? query := by
  rw [erase, get?_retain]
  by_cases same : query = key
  · cases found : map.get? query <;> simp [same]
  · cases found : map.get? query <;> simp [same]

theorem get?_mapValues (image : K → V → W) (key : K) :
    (map.mapValues image).get? key = (map.get? key).map (image key) := by
  simp only [get?, mapValues]
  induction map.entries with
  | nil => rfl
  | cons entry rest ih =>
    simp only [map_cons, Entries.get?_cons, ih]
    split
    · rename_i same
      rw [same, Option.map_some]
    · rfl

theorem get?_foldl_insert (entries : List (K × V)) (map : BTreeMap K V) (key : K) :
    (entries.foldl (fun map entry => map.insert entry.1 entry.2) map).get? key =
      (Entries.get? key entries.reverse).or (map.get? key) := by
  induction entries generalizing map with
  | nil => rfl
  | cons entry rest ih =>
    rw [foldl_cons, ih, reverse_cons, Entries.get?_append, get?_insert,
      Option.or_assoc, Entries.get?_cons]
    split <;> rfl

theorem get?_filterMapValues (image : K → V → Option W) (key : K) :
    (map.filterMapValues image).get? key = (map.get? key).bind (image key) := by
  apply Option.ext
  intro value
  rw [← mem_entries, filterMapValues, mem_filterMap, Option.bind_eq_some_iff]
  constructor
  · rintro ⟨entry, mem, isImage⟩
    obtain ⟨_, isValue, same⟩ := Option.map_eq_some_iff.mp isImage
    cases same
    exact ⟨entry.2, map.mem_entries.mp mem, isValue⟩
  · rintro ⟨held, found, isValue⟩
    exact ⟨(key, held), map.mem_entries.mpr found, by rw [isValue, Option.map_some]⟩

theorem get?_extend (map other : BTreeMap K V) (key : K) :
    (map.extend other).get? key = (other.get? key).or (map.get? key) := by
  rw [extend, get?_foldl_insert]
  congr 1
  apply Option.ext
  intro value
  have nodup : (other.entries.reverse.map Prod.fst).Nodup := by
    rw [map_reverse]
    exact nodup_reverse.mpr other.keys_nodup
  constructor
  · intro found
    exact other.mem_entries.mp (mem_reverse.mp (Entries.mem_of_get? found))
  · intro found
    exact Entries.get?_of_nodup nodup (mem_reverse.mpr (other.mem_entries.mpr found))

theorem get?_ofList (entries : List (K × V)) (key : K) :
    (ofList entries).get? key = Entries.get? key entries.reverse := by
  rw [ofList, get?_foldl_insert, get?_empty, Option.or_none]

variable {entries : List (K × V)}

theorem mem_of_mem_ofList {key : K} (mem : (key, value) ∈ (ofList entries).entries) :
    (key, value) ∈ entries := by
  rw [mem_entries, get?_ofList] at mem
  exact mem_reverse.mp (Entries.mem_of_get? mem)

theorem exists_get?_ofList {key : K} (listed : key ∈ entries.map Prod.fst) :
    ∃ value, (ofList entries).get? key = some value := by
  rw [get?_ofList]
  apply Option.ne_none_iff_exists'.mp
  intro absent
  obtain ⟨entry, mem, same⟩ := mem_map.mp listed
  exact Entries.get?_eq_none.mp absent entry (mem_reverse.mpr mem) same

section

variable {α : Type} {keyOf : α → K} {valueOf : α → V} {items : List α} {map : BTreeMap K V}
  {key : K}

variable (keyOf valueOf items map key) in
theorem get?_insertAll :
    (∃ item ∈ items, keyOf item = key ∧
      (items.foldl (fun map item => map.insert (keyOf item) (valueOf item)) map).get? key =
        some (valueOf item)) ∨
    ((∀ item ∈ items, keyOf item ≠ key) ∧
      (items.foldl (fun map item => map.insert (keyOf item) (valueOf item)) map).get? key =
        map.get? key) := by
  induction items generalizing map with
  | nil => exact .inr ⟨nofun, rfl⟩
  | cons item items ih =>
    rw [foldl_cons]
    rcases ih (map.insert (keyOf item) (valueOf item)) with
      ⟨last, mem, named, found⟩ | ⟨others, found⟩
    · exact .inl ⟨last, mem_cons_of_mem _ mem, named, found⟩
    · rw [get?_insert] at found
      by_cases here : key = keyOf item
      · rw [if_pos here] at found
        exact .inl ⟨item, mem_cons_self, here.symm, found⟩
      · rw [if_neg here] at found
        exact .inr ⟨forall_mem_cons.mpr ⟨Ne.symm here, others⟩, found⟩

theorem of_get?_foldl_insert
    (found : (items.foldl (fun map item => map.insert (keyOf item) (valueOf item)) map).get? key =
      some value) :
    map.get? key = some value ∨ ∃ item ∈ items, key = keyOf item ∧ value = valueOf item := by
  rcases get?_insertAll keyOf valueOf items map key with ⟨item, mem, named, last⟩ | ⟨-, same⟩
  · exact .inr ⟨item, mem, named.symm, Option.some.inj (found.symm.trans last)⟩
  · exact .inl (same.symm.trans found)

theorem exists_get?_foldl_insert
    (known : (∃ value, map.get? key = some value) ∨ ∃ item ∈ items, key = keyOf item) :
    ∃ value, (items.foldl (fun map item => map.insert (keyOf item) (valueOf item)) map).get? key =
      some value := by
  rcases get?_insertAll keyOf valueOf items map key with ⟨item, -, -, last⟩ | ⟨others, same⟩
  · exact ⟨_, last⟩
  · rcases known with before | ⟨item, mem, isKey⟩
    · exact same ▸ before
    · exact absurd isKey.symm (others item mem)

end

@[simp] theorem isEmpty_empty : (∅ : BTreeMap K V).isEmpty = true := rfl

theorem isEmpty_iff : map.isEmpty = true ↔ map = ∅ := by
  cases map with
  | mk entries sorted =>
    cases entries with
    | nil => exact ⟨fun _ => rfl, fun _ => rfl⟩
    | cons entry rest =>
      constructor
      · intro impossible
        cases impossible
      · intro impossible
        cases impossible

end BTreeMap

abbrev BTreeSet (K : Type) [LinearOrder K] := BTreeMap K Unit

namespace BTreeSet

def add (set : BTreeSet K) (key : K) : BTreeSet K := BTreeMap.insert set key ()

def ofElems (keys : List K) : BTreeSet K := keys.foldl add ∅

def union (left right : BTreeSet K) : BTreeSet K := right.keys.foldl add left

theorem contains_add (set : BTreeSet K) (key query : K) :
    (add set key).contains query = true ↔ query = key ∨ set.contains query = true := by
  simp only [add, BTreeMap.contains, BTreeMap.get?_insert]
  by_cases same : query = key <;> simp [same]

theorem contains_foldl_add (keys : List K) (set : BTreeSet K) (query : K) :
    (keys.foldl add set).contains query = true ↔
      query ∈ keys ∨ set.contains query = true := by
  simpa using foldl_gathers (fun set => set.contains query = true)
    (fun set key => contains_add set key query) keys set

theorem mem_keys_iff (set : BTreeSet K) (key : K) :
    key ∈ set.keys ↔ set.contains key = true := by
  rw [BTreeMap.mem_keys, BTreeMap.contains_eq_true]

theorem contains_union (left right : BTreeSet K) (query : K) :
    (union left right).contains query = true ↔
      left.contains query = true ∨ right.contains query = true := by
  rw [union, contains_foldl_add, mem_keys_iff, or_comm]

@[simp] theorem contains_empty (query : K) :
    (∅ : BTreeSet K).contains query = false := rfl

theorem contains_ofElems (keys : List K) (query : K) :
    (ofElems keys).contains query = true ↔ query ∈ keys := by
  rw [ofElems, contains_foldl_add]
  simp

end BTreeSet

end EvolutionJmap
