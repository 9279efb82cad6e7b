import Mathlib

/-!
# Mailbox names as folder paths (`jmap-mail-sync/src/path.rs`)

A path is the components of a folder and its ancestors with a slash between them.
Each symbol of a name gives a code word, and no code word is the beginning of another.
So distinct names have distinct components, and none has the mark `%23` of a repeated
name.
-/

namespace EvolutionJmap.MailSync

open List

def separator : Char := '/'

def encodeChar (char : Char) : List Char :=
  if char = '%' then ['%', '2', '5']
  else if char = separator then ['%', '2', 'F']
  else if char = '\x00' then ['%', '0', '0']
  else [char]

def encodeComponent (name : String) : String :=
  if name = "." then "%2E"
  else if name = ".." then "%2E%2E"
  else String.ofList (name.toList.flatMap encodeChar)

def join (parent : Option String) (component : String) : String :=
  match parent with
  | some parent => parent ++ String.singleton separator ++ component
  | none => component

/-! ## The code -/

/-- A symbol of a name: a character, or a dot that is escaped. -/
inductive Symbol where
  | plain (char : Char)
  | dot

def Symbol.code : Symbol → List Char
  | .plain char => encodeChar char
  | .dot => ['%', '2', 'E']

def symbols (name : String) : List Symbol :=
  if name = "." then [.dot]
  else if name = ".." then [.dot, .dot]
  else name.toList.map .plain

/-- The symbol at the front of a text, if a code word is there. -/
def readSymbol : List Char → Option (Symbol × List Char)
  | '%' :: '2' :: '5' :: rest => some (.plain '%', rest)
  | '%' :: '2' :: 'F' :: rest => some (.plain '/', rest)
  | '%' :: '0' :: '0' :: rest => some (.plain '\x00', rest)
  | '%' :: '2' :: 'E' :: rest => some (.dot, rest)
  | '%' :: _ => none
  | char :: rest => some (.plain char, rest)
  | [] => none

theorem readSymbol_code (symbol : Symbol) (rest : List Char) :
    readSymbol (symbol.code ++ rest) = some (symbol, rest) := by
  cases symbol with
  | dot => rfl
  | plain char =>
    rw [Symbol.code, encodeChar]
    split_ifs with percent slash zero
    · rw [percent]
      rfl
    · rw [slash]
      rfl
    · rw [zero]
      rfl
    · simp [readSymbol, percent]

theorem code_unique {left right : List Symbol} {front back : List Char}
    (frontEnds : readSymbol front = none) (backEnds : readSymbol back = none)
    (same : left.flatMap Symbol.code ++ front = right.flatMap Symbol.code ++ back) :
    left = right ∧ front = back := by
  induction left generalizing right with
  | nil =>
    cases right with
    | nil => exact ⟨rfl, same⟩
    | cons symbol right =>
      have read := readSymbol_code symbol (right.flatMap Symbol.code ++ back)
      simp only [flatMap_nil, nil_append, flatMap_cons, append_assoc] at same
      rw [← same, frontEnds] at read
      cases read
  | cons symbol left ih =>
    have read := readSymbol_code symbol (left.flatMap Symbol.code ++ front)
    rw [flatMap_cons, append_assoc] at same
    cases right with
    | nil =>
      rw [same, flatMap_nil, nil_append, backEnds] at read
      cases read
    | cons other right =>
      rw [flatMap_cons, append_assoc] at same
      rw [same, readSymbol_code, Option.some.injEq, Prod.mk.injEq] at read
      obtain ⟨rfl, rest⟩ := read
      obtain ⟨rfl, ends⟩ := ih rest.symm
      exact ⟨rfl, ends⟩

variable (name : String)

theorem toList_encodeComponent :
    (encodeComponent name).toList = (symbols name).flatMap Symbol.code := by
  rw [encodeComponent, symbols]
  split
  · rfl
  · split
    · rfl
    · rw [String.toList_ofList, flatMap_map]
      rfl

theorem symbols_injective : Function.Injective symbols := by
  have dotless : ∀ name : String, .dot ∉ name.toList.map Symbol.plain := by simp
  have plain_injective : Function.Injective Symbol.plain := by
    intro left right same
    injection same
  intro one other same
  simp only [symbols] at same
  split_ifs at same with oneDot otherDot otherDots oneDots otherDot otherDots otherDot otherDots
  · rw [oneDot, otherDot]
  · cases same
  · exact absurd (same ▸ mem_cons_self) (dotless other)
  · cases same
  · rw [oneDots, otherDots]
  · exact absurd (same ▸ mem_cons_self) (dotless other)
  · exact absurd (same ▸ mem_cons_self) (dotless one)
  · exact absurd (same ▸ mem_cons_self) (dotless one)
  · exact String.toList_inj.mp (map_injective_iff.mpr plain_injective same)

/-! ## Components -/

/-- A component of a path: no separator, no NUL, and not the name of a directory
that every directory has. -/
structure IsComponent (component : String) : Prop where
  oneLevel : separator ∉ component.toList
  noNul : '\x00' ∉ component.toList
  notDot : component ≠ "."
  notDots : component ≠ ".."

theorem Symbol.code_safe (symbol : Symbol) : separator ∉ symbol.code ∧ '\x00' ∉ symbol.code := by
  cases symbol with
  | dot => decide
  | plain char =>
    simp only [code, encodeChar]
    split_ifs with percent slash zero
    · decide
    · decide
    · decide
    · simp [Ne.symm slash, Ne.symm zero]

theorem encodeComponent_safe :
    separator ∉ (encodeComponent name).toList ∧ '\x00' ∉ (encodeComponent name).toList := by
  simp only [toList_encodeComponent, mem_flatMap, not_exists, not_and]
  exact ⟨fun symbol _ => symbol.code_safe.1, fun symbol _ => symbol.code_safe.2⟩

/-- The mark in front of the id of a mailbox whose name is already used. -/
def mark : String := "%23"

def markedComponent (name id : String) : String :=
  encodeComponent name ++ mark ++ encodeComponent id

theorem readSymbol_mark (rest : List Char) : readSymbol (mark.toList ++ rest) = none := rfl

theorem encodeComponent_injective : Function.Injective encodeComponent := by
  intro one other same
  have texts := congrArg String.toList same
  rw [toList_encodeComponent, toList_encodeComponent] at texts
  apply symbols_injective
  apply And.left
  apply @code_unique _ _ [] [] rfl rfl
  simpa using texts

theorem markedComponent_id {name other id otherId : String}
    (same : markedComponent name id = markedComponent other otherId) : id = otherId := by
  have texts := congrArg String.toList same
  simp only [markedComponent, String.toList_append, append_assoc] at texts
  rw [toList_encodeComponent, toList_encodeComponent other] at texts
  have rest := (code_unique (readSymbol_mark _) (readSymbol_mark _) texts).2
  exact encodeComponent_injective (String.toList_inj.mp (append_cancel_left rest))

theorem encodeComponent_ne_marked (other id : String) :
    encodeComponent name ≠ markedComponent other id := by
  intro same
  have texts := congrArg String.toList same
  simp only [markedComponent, String.toList_append, append_assoc] at texts
  rw [toList_encodeComponent, toList_encodeComponent other,
    ← append_nil ((symbols name).flatMap Symbol.code)] at texts
  nomatch (code_unique rfl (readSymbol_mark _) texts).2

theorem encodeComponent_ne_dots {name dots : String} (isDots : dots = "." ∨ dots = "..") :
    encodeComponent name ≠ dots := by
  intro same
  have dotless : ∀ name : String, .dot ∉ name.toList.map Symbol.plain := by simp
  have codes : dots.toList = (dots.toList.map Symbol.plain).flatMap Symbol.code := by
    rcases isDots with rfl | rfl <;> rfl
  have texts := congrArg String.toList same
  rw [toList_encodeComponent, codes] at texts
  have plain : symbols name = dots.toList.map Symbol.plain := by
    apply And.left
    apply @code_unique _ _ [] [] rfl rfl
    simpa using texts
  rw [symbols] at plain
  split_ifs at plain with dot dotted
  · exact dotless dots (plain ▸ mem_cons_self)
  · exact dotless dots (plain ▸ mem_cons_self)
  · have injective : Function.Injective Symbol.plain := by
      intro left right same
      injection same
    have isName := String.toList_inj.mp (map_injective_iff.mpr injective plain)
    rcases isDots with rfl | rfl
    · exact dot isName
    · exact dotted isName

theorem isComponent_encode : IsComponent (encodeComponent name) where
  oneLevel := (encodeComponent_safe name).1
  noNul := (encodeComponent_safe name).2
  notDot := encodeComponent_ne_dots (.inl rfl)
  notDots := encodeComponent_ne_dots (.inr rfl)

theorem isComponent_marked (id : String) : IsComponent (markedComponent name id) := by
  have percent : '%' ∈ (markedComponent name id).toList := by
    simp [markedComponent, String.toList_append, mark]
  constructor
  · simp only [markedComponent, String.toList_append, mem_append, not_or]
    exact ⟨⟨(encodeComponent_safe name).1, by decide⟩, (encodeComponent_safe id).1⟩
  · simp only [markedComponent, String.toList_append, mem_append, not_or]
    exact ⟨⟨(encodeComponent_safe name).2, by decide⟩, (encodeComponent_safe id).2⟩
  · intro same
    rw [same] at percent
    exact absurd percent (by decide)
  · intro same
    rw [same] at percent
    exact absurd percent (by decide)

/-! ## The last component of a path -/

def lastComponent (path : String) : List Char :=
  (path.toList.reverse.takeWhile (· ≠ separator)).reverse

theorem lastComponent_join (parent : Option String) {component : String}
    (oneLevel : separator ∉ component.toList) :
    lastComponent (join parent component) = component.toList := by
  have each : ∀ char ∈ component.toList.reverse, decide (char ≠ separator) = true := by
    intro char mem
    rw [decide_eq_true_eq]
    rintro rfl
    exact oneLevel (mem_reverse.mp mem)
  have whole (rest : List Char) : (component.toList.reverse ++ rest).takeWhile (· ≠ separator) =
      component.toList.reverse ++ rest.takeWhile (· ≠ separator) :=
    takeWhile_append_of_pos each
  cases parent with
  | none =>
    have alone := whole []
    rw [append_nil, takeWhile_nil, append_nil] at alone
    rw [join, lastComponent, alone, reverse_reverse]
  | some parent =>
    have behind := whole (separator :: parent.toList.reverse)
    rw [takeWhile_cons_of_neg (by simp), append_nil] at behind
    simp only [join, lastComponent, String.toList_append, String.toList_singleton,
      reverse_append, reverse_singleton, singleton_append, behind,
      reverse_reverse]

end EvolutionJmap.MailSync
