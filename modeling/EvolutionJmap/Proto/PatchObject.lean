import EvolutionJmap.Json
import EvolutionJmap.Proto.Text

/-!
# PatchObject (RFC 8620 §5.3)

A patch maps paths to values.  A path is a JSON Pointer (RFC 6901) without its
first solidus.  Each key before the last leads to an object that is already
there; the last key is set, or removed if the value is `null`.
-/

namespace EvolutionJmap

open List Option Entries

/-! ## Paths -/

variable (key : String)

namespace Pointer

/-- Resolve the escapes of a segment (RFC 6901 §4). -/
def unescapeChars : List Char → List Char
  | '~' :: '0' :: rest => '~' :: unescapeChars rest
  | '~' :: '1' :: rest => '/' :: unescapeChars rest
  | char :: rest => char :: unescapeChars rest
  | [] => []

def unescape (segment : String) : String := String.ofList (unescapeChars segment.toList)

def keys (path : String) : List String := (splitText '/' path).map unescape

theorem unescapeChars_flatMap_escape (chars : List Char) :
    unescapeChars (chars.flatMap escapePointerChar) = chars := by
  induction chars with
  | nil => rfl
  | cons char chars ih =>
    rw [flatMap_cons, escapePointerChar]
    split
    · next isTilde => rw [isTilde, cons_append, cons_append, unescapeChars,
        nil_append, ih]
    · split
      · next isSolidus => rw [isSolidus, cons_append, cons_append, unescapeChars,
          nil_append, ih]
      · next notTilde _ =>
        rw [cons_append, nil_append, unescapeChars, ih]
        all_goals
          intro rest isTilde
          exact absurd isTilde notTilde

@[simp] theorem unescape_escape : unescape (escapePointerSegment key) = key := by
  simp [unescape, escapePointerSegment, unescapeChars_flatMap_escape]

/-- Resolving escapes gives a text without special characters only from that
text itself. -/
theorem unescapeChars_eq {chars plain : List Char} (ends : unescapeChars chars = plain)
    (noTilde : '~' ∉ plain) (noSolidus : '/' ∉ plain) : chars = plain := by
  induction chars using unescapeChars.induct generalizing plain with
  | case1 rest ih =>
    rw [unescapeChars] at ends
    subst ends
    simp at noTilde
  | case2 rest ih =>
    rw [unescapeChars] at ends
    subst ends
    simp at noSolidus
  | case3 char rest _ _ ih =>
    rw [unescapeChars] at ends
    · subst ends
      rw [mem_cons, not_or] at noTilde noSolidus
      rw [← ih rfl noTilde.2 noSolidus.2]
    all_goals assumption
  | case4 =>
    rw [unescapeChars] at ends
    exact ends

/-- A text that is its own escaped form. -/
def Plain (text : String) : Prop := '/' ∉ text.toList ∧ '~' ∉ text.toList

instance (text : String) : Decidable (Plain text) :=
  inferInstanceAs (Decidable (_ ∧ _))

theorem keys_append (front back : String) :
    keys (front ++ "/" ++ back) = keys front ++ keys back := by
  have split : (front ++ "/" ++ back).toList = front.toList ++ '/' :: back.toList := by simp
  simp only [keys, splitText, Text.split, List.splitOn, split]
  rw [splitOnP_append_cons (p := fun char => char == '/') _ _ (by simp)]
  simp

theorem keys_of_noSolidus {segment : String} (noSolidus : '/' ∉ segment.toList) :
    keys segment = [unescape segment] := by
  simp [keys, splitText, Text.split, splitOn_eq_singleton noSolidus]

theorem unescapeChars_plain {chars : List Char} (noTilde : '~' ∉ chars) :
    unescapeChars chars = chars := by
  induction chars using unescapeChars.induct with
  | case1 rest ih => simp at noTilde
  | case2 rest ih => simp at noTilde
  | case3 char rest _ _ ih =>
    rw [mem_cons, not_or] at noTilde
    rw [unescapeChars, ih noTilde.2]
    all_goals assumption
  | case4 => rfl

@[simp] theorem keys_plain {text : String} (plain : Plain text) : keys text = [text] := by
  rw [keys_of_noSolidus plain.1, unescape, unescapeChars_plain plain.2, String.ofList_toList]

theorem noSolidus_escape : '/' ∉ (escapePointerSegment key).toList := by
  simp only [escapePointerSegment, String.toList_ofList, mem_flatMap, not_exists, not_and]
  intro char _
  rw [escapePointerChar]
  split
  · decide
  · split
    · decide
    · next notSolidus =>
      rw [mem_singleton]
      exact fun same => notSolidus same.symm

@[simp] theorem keys_escape : keys (escapePointerSegment key) = [key] := by
  rw [keys_of_noSolidus (noSolidus_escape key), unescape_escape]

/-- The path is the property or below it. -/
def Under (name path : String) : Prop := path = name ∨ ∃ rest, path = name ++ "/" ++ rest

theorem Under.of_rest (name rest : String) : Under name (name ++ "/" ++ rest) := .inr ⟨rest, rfl⟩

theorem Under.head_keys {name path : String} (under : Under name path) (plain : Plain name) :
    (keys path).head? = some name := by
  rcases under with rfl | ⟨rest, rfl⟩
  · simp [plain]
  · simp [keys_append, plain]

end Pointer

/-! ## Applying a patch -/

namespace Value

def setMember (key : String) (value : Value) (members : List (String × Value)) :
    List (String × Value) :=
  if value.isNull then members.filter (·.1 ≠ key) else Entries.insert key value members

/-- Set or remove the member at the end of a path. -/
def write : List String → Value → Value → Option Value
  | [key], value, .object members => some (.object (setMember key value members))
  | key :: rest, value, .object members => do
      let inner ← Entries.get? key members
      let written ← write rest value inner
      some (.object (Entries.insert key written members))
  | _, _, _ => none

/-- Apply the entries of a patch one after the other. A patch with a path that
leads nowhere has no result. -/
def applyPatch : List (String × Value) → Value → Option Value
  | [], value => some value
  | (path, written) :: rest, value => do
      let value ← write (Pointer.keys path) written value
      applyPatch rest value

theorem get?_filter_ne (query : String) (members : List (String × Value)) :
    Entries.get? query (members.filter (·.1 ≠ key)) =
      if query = key then none else Entries.get? query members := by
  induction members with
  | nil => simp
  | cons mem rest ih =>
    by_cases isKey : mem.1 = key
    · rw [filter_cons_of_neg (by simpa using isKey), ih, get?_cons, isKey]
      split <;> rfl
    · rw [filter_cons_of_pos (by simpa using isKey), get?_cons, get?_cons,
        ih]
      by_cases isQuery : query = mem.1
      · rw [if_pos isQuery, if_pos isQuery, if_neg (isQuery ▸ isKey)]
      · rw [if_neg isQuery, if_neg isQuery]

theorem get?_setMember (query : String) (value : Value) (members : List (String × Value)) :
    Entries.get? query (setMember key value members) =
      if query = key then (if value.isNull then none else some value)
      else Entries.get? query members := by
  rw [setMember]
  split
  · rw [get?_filter_ne]
  · rw [get?_insert]

theorem get?_write {key query : String} {rest : List String} {value target written : Value}
    (wrote : write (key :: rest) value target = some written) (other : query ≠ key) :
    written.get? query = target.get? query := by
  cases target with
  | object members =>
    cases rest with
    | nil =>
      cases wrote
      change Entries.get? query (setMember key value members) = Entries.get? query members
      rw [get?_setMember, if_neg other]
    | cons next rest =>
      rw [write] at wrote
      · obtain ⟨inner, -, wrote⟩ := bind_eq_some_iff.mp wrote
        obtain ⟨deeper, -, wrote⟩ := bind_eq_some_iff.mp wrote
        cases wrote
        change Entries.get? query (Entries.insert key deeper members) =
          Entries.get? query members
        rw [get?_insert, if_neg other]
      · simp
  | null | bool _ | int _ | float _ | string _ | array _ => cases rest <;> cases wrote

section

variable {patch : List (String × Value)} {target patched : Value}
  (applied : applyPatch patch target = some patched)

include applied

theorem get?_applyPatch {query : String}
    (unnamed : ∀ entry ∈ patch, (Pointer.keys entry.1).head? ≠ some query) :
    patched.get? query = target.get? query := by
  induction patch generalizing target with
  | nil =>
    cases applied
    rfl
  | cons entry rest ih =>
    obtain ⟨written, wrote, applied⟩ := bind_eq_some_iff.mp applied
    rw [ih applied fun later mem => unnamed later (mem_cons_of_mem _ mem)]
    have first := unnamed entry mem_cons_self
    generalize Pointer.keys entry.1 = keys at wrote first
    cases keys with
    | nil => cases wrote
    | cons key keys => exact get?_write wrote fun same => first (by simp [same])

theorem get?_applyPatch_property {name : String} {value : Value}
    (nodup : (patch.map Prod.fst).Nodup) (mem : (name, value) ∈ patch)
    (plain : Pointer.Plain name)
    (whole : ∀ entry ∈ patch, (Pointer.keys entry.1).head? = some name → entry.1 = name) :
    patched.get? name = if value.isNull then none else some value := by
  induction patch generalizing target with
  | nil => cases mem
  | cons entry rest ih =>
    rw [map_cons, nodup_cons] at nodup
    obtain ⟨written, wrote, restApplied⟩ := bind_eq_some_iff.mp applied
    have wholeRest : ∀ later ∈ rest, (Pointer.keys later.1).head? = some name →
        later.1 = name := fun later inRest => whole later (mem_cons_of_mem _ inRest)
    rcases mem_cons.mp mem with rfl | later
    · -- no later path writes the mem again
      have unnamed : ∀ later ∈ rest, (Pointer.keys later.1).head? ≠ some name := by
        intro later inRest isName
        have again : later.1 ∈ rest.map Prod.fst := mem_map_of_mem inRest
        rw [wholeRest later inRest isName] at again
        exact nodup.1 again
      rw [get?_applyPatch restApplied unnamed]
      rw [Pointer.keys_plain plain] at wrote
      cases target with
      | object members =>
        cases wrote
        change Entries.get? name (setMember name value members) = _
        rw [get?_setMember, if_pos rfl]
      | null | bool _ | int _ | float _ | string _ | array _ => cases wrote
    · exact ih restApplied nodup.2 later wholeRest

end

end Value

end EvolutionJmap
