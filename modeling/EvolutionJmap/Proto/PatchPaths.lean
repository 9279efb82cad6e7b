import EvolutionJmap.Proto.PatchObject

/-!
# Legal patches (RFC 8620 §5.3)

A server refuses a patch if a path leads through something that is not there or is no
object, or if one path leads into what another sets.  The paths of a legal patch do not
meet: each has its value afterwards, and what no path leads to or through is as before.
-/

namespace EvolutionJmap

open Pointer List Option

/-! ## Following a path -/

variable {key : String} {written : Value} (value : Value)

namespace Value

def follow : Value → List String → Option Value
  | value, [] => some value
  | value, key :: rest => (value.get? key).bind (follow · rest)

@[simp] theorem follow_nil : value.follow [] = some value := rfl

theorem follow_cons (key : String) (rest : List String) :
    value.follow (key :: rest) = (value.get? key).bind (follow · rest) := rfl

theorem follow_append (front back : List String) :
    value.follow (front ++ back) = (value.follow front).bind (follow · back) := by
  induction front generalizing value with
  | nil => rfl
  | cons key front ih =>
    rw [cons_append, follow_cons, follow_cons]
    cases value.get? key with
    | none => rfl
    | some inner => exact ih inner

theorem follow_ofMap {value inner : Value} {name : String} {map : BTreeMap String Value}
    (whole : value.follow [name] = some (.ofMap map)) (held : map.get? key = some inner) :
    value.follow [name, key] = some inner := by
  rw [← singleton_append, follow_append, whole]
  change (Entries.get? key map.entries).bind _ = _
  rw [show Entries.get? key map.entries = some inner from held]
  rfl

/-- There is an object at the end of the keys. -/
def HasObject (value : Value) (path : List String) : Prop :=
  ∃ members, value.follow path = some (.object members)

/-- Every key before the last one leads to an object. -/
def Leads (value : Value) (path : List String) : Prop :=
  ∃ parents last, path = parents ++ [last] ∧ value.HasObject parents

theorem hasObject_of_get? {value inner : Value} (found : value.get? key = some inner) :
    value.HasObject [] := by
  cases value with
  | object members => exact ⟨members, rfl⟩
  | null | bool _ | int _ | float _ | string _ | array _ => cases found

theorem hasObject_of_follow {value found : Value} {front : List String} {back : List String}
    (leads : value.follow (front ++ key :: back) = some found) : value.HasObject front := by
  rw [follow_append] at leads
  obtain ⟨inner, atFront, below⟩ := bind_eq_some_iff.mp leads
  rw [follow_cons] at below
  obtain ⟨deeper, got, -⟩ := bind_eq_some_iff.mp below
  obtain ⟨members, isObject⟩ := hasObject_of_get? got
  cases isObject
  exact ⟨members, atFront⟩

theorem Leads.hasObject {value : Value} {path parents : List String} (leads : value.Leads path)
    (before : parents <+: path) (proper : parents ≠ path) : value.HasObject parents := by
  obtain ⟨front, last, rfl, members, isObject⟩ := leads
  obtain ⟨back, split⟩ := before
  cases back using List.reverseRecOn with
  | nil => exact absurd (by simpa using split) proper
  | append_singleton back final _ =>
    rw [← append_assoc] at split
    have isFront : parents ++ back = front := (append_inj' split rfl).1
    rw [← isFront] at isObject
    cases back with
    | nil =>
      rw [append_nil] at isObject
      exact ⟨members, isObject⟩
    | cons key back => exact hasObject_of_follow isObject

theorem leads_key {members : List (String × Value)} (key : String) :
    (object members).Leads [key] :=
  ⟨[], key, rfl, members, rfl⟩

theorem leads_cons_cons {value : Value} {next : String} {rest : List String}
    (leads : value.Leads (key :: next :: rest)) :
    ∃ inner, value.get? key = some inner ∧ inner.Leads (next :: rest) := by
  obtain ⟨parents, last, split, members, isObject⟩ := leads
  cases parents with
  | nil => cases split
  | cons first parents =>
    rw [cons_append, List.cons.injEq] at split
    obtain ⟨rfl, isRest⟩ := split
    rw [follow_cons] at isObject
    obtain ⟨inner, found, isObject⟩ := bind_eq_some_iff.mp isObject
    exact ⟨inner, found, parents, last, isRest, members, isObject⟩

/-! ## One write -/

theorem get?_object_insert (key query : String) (written : Value)
    (members : List (String × Value)) :
    (object (Entries.insert key written members)).get? query =
      if query = key then some written else (object members).get? query := by
  change Entries.get? query (Entries.insert key written members) = _
  rw [Entries.get?_insert]
  rfl

theorem exists_write {value : Value} {path : List String} (leads : value.Leads path)
    (written : Value) : ∃ result, write path written value = some result := by
  induction path generalizing value with
  | nil =>
    obtain ⟨parents, last, split, -⟩ := leads
    simp at split
  | cons key rest ih =>
    obtain ⟨members, isObject⟩ := leads.hasObject nil_prefix (cons_ne_nil _ _).symm
    cases isObject
    cases rest with
    | nil => exact ⟨_, rfl⟩
    | cons next rest =>
      obtain ⟨inner, found, leadsInner⟩ := leads_cons_cons leads
      obtain ⟨result, wrote⟩ := ih leadsInner
      refine ⟨.object (Entries.insert key result members), ?_⟩
      have mem : Entries.get? key members = some inner := found
      rw [write, mem, bind_eq_bind, bind_some, wrote]
      · rfl
      · simp

theorem write_cases {rest : List String} {value result : Value}
    (wrote : write (key :: rest) written value = some result) :
    ∃ members, value = .object members ∧
      ((rest = [] ∧ result = .object (setMember key written members)) ∨
        ∃ inner deeper, Entries.get? key members = some inner ∧
          write rest written inner = some deeper ∧
          result = .object (Entries.insert key deeper members)) := by
  cases value with
  | object members =>
    refine ⟨members, rfl, ?_⟩
    cases rest with
    | nil =>
      cases wrote
      exact .inl ⟨rfl, rfl⟩
    | cons next rest =>
      rw [write] at wrote
      · obtain ⟨inner, found, wrote⟩ := bind_eq_some_iff.mp wrote
        obtain ⟨deeper, wroteInner, isResult⟩ := bind_eq_some_iff.mp wrote
        cases isResult
        exact .inr ⟨inner, deeper, found, wroteInner, rfl⟩
      · simp
  | null | bool _ | int _ | float _ | string _ | array _ => cases rest <;> cases wrote

/-- A written path has its value, or nothing if the value is `null`. -/
theorem follow_write_self {path : List String} {value result : Value}
    (wrote : write path written value = some result) :
    result.follow path = if written.isNull then none else some written := by
  induction path generalizing value result with
  | nil => cases wrote
  | cons key rest ih =>
    obtain ⟨members, rfl, ⟨rfl, rfl⟩ | ⟨inner, deeper, -, below, rfl⟩⟩ := write_cases wrote
    · have mem := get?_setMember key key written members
      rw [if_pos rfl] at mem
      change (Entries.get? key (setMember key written members)).bind _ = _
      rw [mem]
      split <;> rfl
    · rw [follow_cons, get?_object_insert, if_pos rfl, bind_some]
      exact ih below

/-- A write changes nothing that its path does not lead to or through. -/
theorem follow_write_apart {path other : List String} {value result : Value}
    (wrote : write path written value = some result) (apart : ¬ path <+: other)
    (apart' : ¬ other <+: path) : result.follow other = value.follow other := by
  induction path generalizing value result other with
  | nil => exact absurd nil_prefix apart
  | cons key rest ih =>
    cases other with
    | nil => exact absurd nil_prefix apart'
    | cons query later =>
      obtain ⟨members, rfl, ⟨rfl, rfl⟩ | ⟨inner, deeper, found, wroteInner, rfl⟩⟩ :=
        write_cases wrote
      · have isOther : query ≠ key := by
          rintro rfl
          exact apart ⟨later, rfl⟩
        rw [follow_cons, follow_cons]
        congr 1
        exact (get?_setMember key query written members).trans (if_neg isOther)
      · rw [follow_cons, follow_cons, get?_object_insert]
        split
        · next same =>
          subst same
          have below := @ih later inner deeper wroteInner
            (fun before => apart (cons_prefix_cons.mpr ⟨rfl, before⟩))
            (fun before => apart' (cons_prefix_cons.mpr ⟨rfl, before⟩))
          change _ = (Entries.get? query members).bind _
          rw [found]
          exact below
        · rfl

/-! ## A whole patch -/

/-- Paths of which none is a beginning of another. -/
def Apart (one other : List String) : Prop := ¬ one <+: other ∧ ¬ other <+: one

theorem Apart.symm {one other : List String} (apart : Apart one other) : Apart other one :=
  ⟨apart.2, apart.1⟩

section

variable {path : List String} {value result : Value}
  (wrote : Value.write path written value = some result)

include wrote

theorem HasObject.write {other : List String} (apart : ¬ path <+: other)
    (isObject : value.HasObject other) : result.HasObject other := by
  by_cases through : other <+: path
  · -- the path goes through the object
    induction path generalizing value result other with
    | nil => exact absurd nil_prefix apart
    | cons key rest ih =>
      obtain ⟨members, rfl, ⟨rfl, rfl⟩ | ⟨inner, deeper, found, wroteInner, rfl⟩⟩ :=
        write_cases wrote
      · cases other with
        | nil => exact ⟨_, rfl⟩
        | cons query later =>
          obtain ⟨rfl, isNil⟩ := cons_prefix_cons.mp through
          exact absurd ⟨later, rfl⟩ apart
      · cases other with
        | nil => exact ⟨_, rfl⟩
        | cons query later =>
          obtain ⟨rfl, throughInner⟩ := cons_prefix_cons.mp through
          have mem : (object members).get? query = some inner := found
          obtain ⟨below, isObject⟩ := isObject
          rw [follow_cons, mem, bind_some] at isObject
          rcases ih wroteInner (fun before => apart (cons_prefix_cons.mpr ⟨rfl, before⟩))
            ⟨below, isObject⟩ throughInner with ⟨changed, isChanged⟩
          refine ⟨changed, ?_⟩
          rw [follow_cons, get?_object_insert, if_pos rfl, bind_some]
          exact isChanged
  · obtain ⟨members, isObject⟩ := isObject
    exact ⟨members, by rw [follow_write_apart wrote apart through, isObject]⟩

theorem Leads.write {other : List String} (apart : Apart path other) (leads : value.Leads other) :
    result.Leads other := by
  obtain ⟨parents, last, rfl, isObject⟩ := leads
  refine ⟨parents, last, rfl, isObject.write wrote fun before => ?_⟩
  exact apart.1 (before.trans (prefix_append _ _))

end

/-- A patch whose paths lead somewhere and do not meet can be applied. Each path has its
value afterwards, and what no path meets is as before. -/
theorem exists_applyPatch {patch : List (String × Value)} {value : Value}
    (leads : ∀ entry ∈ patch, value.Leads (keys entry.1))
    (apart : patch.Pairwise fun one other => Apart (Pointer.keys one.1) (Pointer.keys other.1)) :
    ∃ result, applyPatch patch value = some result ∧
      (∀ entry ∈ patch, result.follow (keys entry.1) =
        if entry.2.isNull then none else some entry.2) ∧
      (∀ path, (∀ entry ∈ patch, Apart (keys entry.1) path) →
        result.follow path = value.follow path) := by
  induction patch generalizing value with
  | nil => exact ⟨value, rfl, nofun, fun _ _ => rfl⟩
  | cons entry patch ih =>
    rw [forall_mem_cons] at leads
    rw [pairwise_cons] at apart
    obtain ⟨middle, wrote⟩ := exists_write leads.1 entry.2
    rcases ih (fun later mem => (leads.2 later mem).write wrote (apart.1 later mem))
      apart.2 with ⟨result, applied, written, unchanged⟩
    refine ⟨result, ?_, ?_, ?_⟩
    · rw [applyPatch, wrote]
      exact applied
    · rw [forall_mem_cons]
      refine ⟨?_, written⟩
      rw [unchanged _ fun later mem => (apart.1 later mem).symm, follow_write_self wrote]
    · intro path away
      rw [forall_mem_cons] at away
      rw [unchanged path away.2, follow_write_apart wrote away.1.1 away.1.2]

end Value

/-! ## Legal patches -/

namespace Pointer

/-- The path that leads through the keys. -/
def path : List String → String
  | [] => ""
  | [key] => escapePointerSegment key
  | key :: rest => escapePointerSegment key ++ "/" ++ path rest

theorem path_cons (key : String) {rest : List String} (more : rest ≠ []) :
    path (key :: rest) = escapePointerSegment key ++ "/" ++ path rest := by
  cases rest with
  | nil => exact absurd rfl more
  | cons next rest => rfl

theorem keys_ne_nil (path : String) : keys path ≠ [] := by
  simp [keys, splitText, Text.split, List.splitOn, splitOnP_ne_nil]

theorem keys_path {segments : List String} (nonempty : segments ≠ []) :
    keys (path segments) = segments := by
  induction segments with
  | nil => exact absurd rfl nonempty
  | cons key rest ih =>
    cases rest with
    | nil => exact keys_escape key
    | cons next rest =>
      rw [path_cons key (cons_ne_nil _ _), keys_append, keys_escape,
        ih (cons_ne_nil _ _)]
      rfl

theorem escape_plain {text : String} (plain : Plain text) : escapePointerSegment text = text := by
  have same : text.toList.flatMap escapePointerChar = text.toList := by
    have each : ∀ char ∈ text.toList, escapePointerChar char = [char] := by
      intro char mem
      have notTilde : char ≠ '~' := fun isTilde => plain.2 (isTilde ▸ mem)
      have notSolidus : char ≠ '/' := fun isSolidus => plain.1 (isSolidus ▸ mem)
      rw [escapePointerChar, if_neg notTilde, if_neg notSolidus]
    rw [flatMap_congr each]
    simp
  rw [escapePointerSegment, same, String.ofList_toList]

end Pointer

/-- A patch that a server has to accept as it is written: the keys before the last one of
each path lead to objects, no path leads into another one, and the text of each path
states its keys. -/
structure Legal (current : Value) (patch : Patch) : Prop where
  leads : ∀ path ∈ patch.keys, ∀ parents, parents <+: keys path → parents ≠ keys path →
    current.HasObject parents
  apart : ∀ path ∈ patch.keys, ∀ other ∈ patch.keys, keys path <+: keys other → path = other
  escaped : ∀ path ∈ patch.keys, path = Pointer.path (keys path)

/-- The writes are below the base, at places that exist, none inside another. -/
structure Fits (current : Value) (base : List String) (writes : List (String × Value)) : Prop where
  located : ∀ write ∈ writes, ∃ rest,
    write.1 = Pointer.path (base ++ rest) ∧ current.Leads (base ++ rest)
  apart : ∀ one ∈ writes, ∀ other ∈ writes, keys one.1 <+: keys other.1 → one.1 = other.1

namespace Fits

variable {current : Value} {base : List String} {writes : List (String × Value)}

theorem ne_nil_of_leads {path : List String} (leads : current.Leads path) : path ≠ [] := by
  obtain ⟨parents, last, rfl, -⟩ := leads
  simp

theorem keys_eq (fits : Fits current base writes) {write : String × Value}
    (mem : write ∈ writes) :
    ∃ rest, keys write.1 = base ++ rest ∧ write.1 = Pointer.path (base ++ rest) ∧
      current.Leads (base ++ rest) := by
  obtain ⟨rest, isPath, leads⟩ := fits.located write mem
  exact ⟨rest, by rw [isPath, keys_path (ne_nil_of_leads leads)], isPath, leads⟩

theorem nil : Fits current base [] := ⟨nofun, nofun⟩

theorem single {path : String} {value : Value} (isPath : path = Pointer.path base)
    (leads : current.Leads base) : Fits current base [(path, value)] where
  located := by
    intro write mem
    rw [mem_singleton.mp mem]
    exact ⟨[], by rw [append_nil]; exact isPath, by rwa [append_nil]⟩
  apart := by
    intro one isOne other isOther _
    rw [mem_singleton.mp isOne, mem_singleton.mp isOther]

theorem weaken (more : List String) (fits : Fits current (base ++ more) writes) :
    Fits current base writes where
  located := by
    intro write mem
    obtain ⟨rest, isPath, leads⟩ := fits.located write mem
    rw [append_assoc] at isPath leads
    exact ⟨more ++ rest, isPath, leads⟩
  apart := fits.apart

theorem parts {parts : List (String × List (String × Value))}
    (nodup : (parts.map Prod.fst).Nodup)
    (each : ∀ part ∈ parts, Fits current (base ++ [part.1]) part.2) :
    Fits current base (parts.flatMap Prod.snd) where
  located := by
    intro write mem
    obtain ⟨part, inParts, inPart⟩ := mem_flatMap.mp mem
    exact (weaken _ (each part inParts)).located write inPart
  apart := by
    intro one isOne other isOther before
    obtain ⟨part, inParts, inPart⟩ := mem_flatMap.mp isOne
    obtain ⟨part', inParts', inPart'⟩ := mem_flatMap.mp isOther
    obtain ⟨rest, isKeys, -⟩ := (each part inParts).keys_eq inPart
    obtain ⟨rest', isKeys', -⟩ := (each part' inParts').keys_eq inPart'
    have sameKey : part.1 = part'.1 := by
      rw [isKeys, isKeys', append_assoc, append_assoc,
        prefix_append_right_inj, cons_append, cons_append,
        cons_prefix_cons] at before
      exact before.1
    have samePart := inj_on_of_nodup_map nodup inParts inParts' sameKey
    subst samePart
    exact (each part inParts).apart one inPart other inPart' before

/-- Writes of several items, of which each writes below a key of its own or nothing. -/
theorem flatMap {α : Type} {items : List α} {key : α → Option String}
    {image : α → List (String × Value)} (nodup : (items.filterMap key).Nodup)
    (each : ∀ item ∈ items, ∀ own, key item = some own → Fits current (base ++ [own]) (image item))
    (rest : ∀ item ∈ items, key item = none → image item = []) :
    Fits current base (items.flatMap image) := by
  have split : items.flatMap image =
      (items.filterMap fun item => (key item).map fun own => (own, image item)).flatMap
        Prod.snd := by
    clear nodup each
    induction items with
    | nil => rfl
    | cons item items ih =>
      rw [forall_mem_cons] at rest
      rw [flatMap_cons, ih rest.2]
      cases isKey : key item with
      | none => rw [rest.1 isKey, filterMap_cons_none (by simp [isKey]), nil_append]
      | some own => rw [filterMap_cons_some (by rw [isKey]; rfl), flatMap_cons]
  rw [split]
  apply parts
  · rw [map_filterMap]
    simpa [Function.comp_def] using nodup
  · intro part mem
    obtain ⟨item, inItems, isPart⟩ := mem_filterMap.mp mem
    obtain ⟨own, isKey, rfl⟩ := map_eq_some_iff.mp isPart
    exact each item inItems own isKey

theorem leaves (isObject : current.HasObject base)
    (each : ∀ write ∈ writes, ∃ last, write.1 = Pointer.path (base ++ [last])) :
    Fits current base writes where
  located := by
    intro write mem
    obtain ⟨last, isPath⟩ := each write mem
    exact ⟨[last], isPath, base, last, rfl, isObject⟩
  apart := by
    intro one isOne other isOther before
    obtain ⟨last, isPath⟩ := each one isOne
    obtain ⟨last', isPath'⟩ := each other isOther
    rw [isPath, isPath', keys_path (by simp), keys_path (by simp)] at before
    rw [isPath, isPath', before.eq_of_length (by simp)]

theorem append {first second : List (String × Value)} (inFirst : Fits current base first)
    (inSecond : Fits current base second)
    (differ : ∀ one ∈ first, ∀ other ∈ second, ∃ key rest key' rest',
      keys one.1 = base ++ key :: rest ∧ keys other.1 = base ++ key' :: rest' ∧ key ≠ key') :
    Fits current base (first ++ second) where
  located := by
    intro write mem
    cases mem_append.mp mem with
    | inl early => exact inFirst.located write early
    | inr late => exact inSecond.located write late
  apart := by
    have apart : ∀ one ∈ first, ∀ other ∈ second,
        ¬ keys one.1 <+: keys other.1 ∧ ¬ keys other.1 <+: keys one.1 := by
      intro one isOne other isOther
      obtain ⟨key, rest, key', rest', isKeys, isKeys', ne⟩ := differ one isOne other isOther
      rw [isKeys, isKeys', prefix_append_right_inj, prefix_append_right_inj,
        cons_prefix_cons, cons_prefix_cons]
      exact ⟨fun before => ne before.1, fun before => ne before.1.symm⟩
    intro one isOne other isOther before
    rcases mem_append.mp isOne with early | late <;>
      rcases mem_append.mp isOther with early' | late'
    · exact inFirst.apart one early other early' before
    · exact absurd before (apart one early other late').1
    · exact absurd before (apart other early' one late).2
    · exact inSecond.apart one late other late' before

theorem legal (fits : Fits current [] writes) {patch : Patch}
    (within : ∀ path ∈ patch.keys, ∃ value, (path, value) ∈ writes) : Legal current patch where
  leads := by
    intro path mem parents before proper
    obtain ⟨value, inWrites⟩ := within path mem
    obtain ⟨rest, isKeys, -, leads⟩ := fits.keys_eq inWrites
    rw [← isKeys] at leads
    exact leads.hasObject before proper
  apart := by
    intro path mem other member' before
    obtain ⟨value, inWrites⟩ := within path mem
    obtain ⟨value', inWrites'⟩ := within other member'
    exact fits.apart _ inWrites _ inWrites' before
  escaped := by
    intro path mem
    obtain ⟨value, inWrites⟩ := within path mem
    obtain ⟨rest, isKeys, isPath, -⟩ := fits.keys_eq inWrites
    exact isPath.trans (congrArg Pointer.path isKeys.symm)

end Fits

/-- The values that the paths of the patch have afterwards. -/
def WrittenBy (patch : Patch) (patched : Value) : Prop :=
  ∀ path value, patch.get? path = some value →
    patched.follow (keys path) = if value.isNull then none else some value

/-- A legal patch can be applied. Each path has its value afterwards, and what no path
meets is as before. -/
theorem Legal.exists_applyPatch {current : Value} {patch : Patch} (legal : Legal current patch) :
    ∃ result, Value.applyPatch patch.entries current = some result ∧ WrittenBy patch result ∧
      (∀ path, (∀ written ∈ patch.keys, Value.Apart (keys written) path) →
        result.follow path = current.follow path) := by
  have leads : ∀ entry ∈ patch.entries, current.Leads (keys entry.1) := by
    intro entry mem
    have named : entry.1 ∈ patch.keys := mem_map_of_mem mem
    have nonempty : keys entry.1 ≠ [] := keys_ne_nil entry.1
    refine ⟨(keys entry.1).dropLast, (keys entry.1).getLast nonempty,
      (dropLast_append_getLast nonempty).symm,
      legal.leads entry.1 named _ ( dropLast_prefix _) fun same => ?_⟩
    have shorter := congrArg List.length same
    rw [length_dropLast] at shorter
    have positive := length_pos_iff.mpr nonempty
    omega
  have apart : patch.entries.Pairwise fun one other =>
      Value.Apart (Pointer.keys one.1) (Pointer.keys other.1) := by
    apply (pairwise_map.mp patch.keys_nodup).imp_of_mem
    intro one other inPatch inPatch' differ
    have named : one.1 ∈ patch.keys := mem_map_of_mem inPatch
    have named' : other.1 ∈ patch.keys := mem_map_of_mem inPatch'
    exact ⟨fun before => differ (legal.apart _ named _ named' before),
      fun before => differ (legal.apart _ named' _ named before).symm⟩
  obtain ⟨result, applied, written, unchanged⟩ := Value.exists_applyPatch leads apart
  refine ⟨result, applied, ?_, ?_⟩
  · intro path value found
    exact written (path, value) (patch.mem_entries.mpr found)
  · intro path away
    exact unchanged path fun entry mem => away entry.1 (mem_map_of_mem mem)

end EvolutionJmap
