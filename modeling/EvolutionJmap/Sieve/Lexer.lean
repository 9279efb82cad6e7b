import Mathlib

/-!
# The tokens of Sieve (RFC 5228 §8.1)

The lexical grammar with LF in the place of CRLF, as a machine that reads one
character after the other.  A token ends where the next character cannot continue
it.  CR and NUL are in no token.
-/

namespace EvolutionJmap.Sieve

open List Option

inductive Token where
  | identifier (name : String)
  | tag (name : String)
  | number (value : Nat)
  | string (content : String)
  | leftParen
  | rightParen
  | leftBracket
  | rightBracket
  | leftBrace
  | rightBrace
  | comma
  | semicolon
  deriving DecidableEq, Repr

/-- What the machine is inside of. -/
inductive Mode where
  | blank
  | identifier (letters : List Char)
  /-- Behind the colon of a tag. -/
  | colon
  | tag (letters : List Char)
  | number (value : Nat)
  /-- Behind the quantifier of a number. -/
  | quantified (value : Nat)
  | quoted (content : List Char)
  /-- Behind a backslash in a quoted string. -/
  | escaped (content : List Char)
  | hashComment
  | slash
  | bracketComment (star : Bool)
  /-- Behind `text:`, up to the end of the line. -/
  | multiHead
  | multiComment
  | multiLineStart (content : List Char)
  | multiLine (content : List Char)
  /-- Behind a dot at the start of a line. -/
  | multiDot (content : List Char)
  deriving DecidableEq, Repr

variable (char : Char)

/-- `ALPHA / "_"` -/
def isLetter : Bool := char.isAlpha || char = '_'

/-- `ALPHA / DIGIT / "_"` -/
def isWord : Bool := isLetter char || char.isDigit

def quantifier? : Option Nat :=
  if char = 'K' ∨ char = 'k' then some (2 ^ 10)
  else if char = 'M' ∨ char = 'm' then some (2 ^ 20)
  else if char = 'G' ∨ char = 'g' then some (2 ^ 30)
  else none

def punctuation? : Option Token :=
  if char = '(' then some .leftParen
  else if char = ')' then some .rightParen
  else if char = '[' then some .leftBracket
  else if char = ']' then some .rightBracket
  else if char = '{' then some .leftBrace
  else if char = '}' then some .rightBrace
  else if char = ',' then some .comma
  else if char = ';' then some .semicolon
  else none

def begin? : Option Mode :=
  if char = ' ' ∨ char = '\t' ∨ char = '\n' then some .blank
  else if char = '#' then some .hashComment
  else if char = '/' then some .slash
  else if char = '"' then some (.quoted [])
  else if char = ':' then some .colon
  else if isLetter char then some (.identifier [char])
  else if char.isDigit then some (.number (char.toNat - '0'.toNat))
  else none

def start : Option (List Token × Mode) :=
  match punctuation? char with
  | some token => some ([token], .blank)
  | none => (begin? char).map ([], ·)

def close (token : Token) (char : Char) : Option (List Token × Mode) :=
  (start char).map fun (tokens, mode) => (token :: tokens, mode)

def step (mode : Mode) (char : Char) : Option (List Token × Mode) :=
  if char = '\r' ∨ char = '\x00' then none
  else
    match mode with
    | .blank => start char
    | .identifier letters =>
      if isWord char then some ([], .identifier (letters ++ [char]))
      else if char = ':' ∧ letters.map Char.toLower = ['t', 'e', 'x', 't'] then
        some ([], .multiHead)
      else close (.identifier (String.ofList letters)) char
    | .colon => if isLetter char then some ([], .tag [char]) else none
    | .tag letters =>
      if isWord char then some ([], .tag (letters ++ [char]))
      else close (.tag (String.ofList letters)) char
    | .number value =>
      if char.isDigit then some ([], .number (value * 10 + (char.toNat - '0'.toNat)))
      else
        match quantifier? char with
        | some factor => some ([], .quantified (value * factor))
        | none => if isLetter char then none else close (.number value) char
    | .quantified value => if isWord char then none else close (.number value) char
    | .quoted content =>
      if char = '"' then some ([.string (String.ofList content)], .blank)
      else if char = '\\' then some ([], .escaped content)
      else some ([], .quoted (content ++ [char]))
    | .escaped content => if char = '\n' then none else some ([], .quoted (content ++ [char]))
    | .hashComment => some ([], if char = '\n' then .blank else .hashComment)
    | .slash => if char = '*' then some ([], .bracketComment false) else none
    | .bracketComment star =>
      some ([], if star ∧ char = '/' then .blank else .bracketComment (char = '*'))
    | .multiHead =>
      if char = ' ' ∨ char = '\t' then some ([], .multiHead)
      else if char = '#' then some ([], .multiComment)
      else if char = '\n' then some ([], .multiLineStart [])
      else none
    | .multiComment => some ([], if char = '\n' then .multiLineStart [] else .multiComment)
    | .multiLineStart content =>
      some ([], if char = '.' then .multiDot content
        else if char = '\n' then .multiLineStart (content ++ [char])
        else .multiLine (content ++ [char]))
    | .multiLine content =>
      some ([], if char = '\n' then .multiLineStart (content ++ [char])
        else .multiLine (content ++ [char]))
    | .multiDot content =>
      if char = '\n' then some ([.string (String.ofList content)], .blank)
      else if char = '.' then some ([], .multiLine (content ++ [char]))
      else some ([], .multiLine (content ++ ['.', char]))

def run : Mode → List Char → Option (List Token × Mode)
  | mode, [] => some ([], mode)
  | mode, char :: rest => do
      let (tokens, next) ← step mode char
      let (others, last) ← run next rest
      some (tokens ++ others, last)

/-- The token that the end of the text completes. Comments and strings are closed
before it. -/
def finish : Mode → Option (List Token)
  | .blank => some []
  | .identifier letters => some [.identifier (String.ofList letters)]
  | .tag letters => some [.tag (String.ofList letters)]
  | .number value | .quantified value => some [.number value]
  | _ => none

def lex (text : String) : Option (List Token) := do
  let (tokens, mode) ← run .blank text.toList
  let last ← finish mode
  some (tokens ++ last)

/-! ## Reading a text in parts -/

theorem run_append (mode : Mode) (front back : List Char) :
    run mode (front ++ back) = (run mode front).bind fun read =>
      (run read.2 back).map fun more => (read.1 ++ more.1, more.2) := by
  induction front generalizing mode with
  | nil => simp [run]
  | cons char front ih =>
    rw [cons_append, run, run]
    cases step mode char with
    | none => rfl
    | some read =>
      simp only [bind_eq_bind, bind_some, ih]
      cases run read.2 front with
      | none => rfl
      | some first =>
        simp only [bind_some]
        cases run first.2 back with
        | none => rfl
        | some second => simp

/-- The lexer reads the text as these tokens. -/
def Reads (mode : Mode) (text : List Char) (tokens : List Token) (next : Mode) : Prop :=
  run mode text = some (tokens, next)

namespace Reads

variable {mode middle next : Mode} {front back : List Char} {tokens others : List Token}

theorem nil : Reads mode [] [] mode := rfl

theorem append (first : Reads mode front tokens middle) (second : Reads middle back others next) :
    Reads mode (front ++ back) (tokens ++ others) next := by
  rw [Reads] at first second
  simp [Reads, run_append, first, second]

theorem flatMap {Item : Type*} {text : Item → List Char} {read : Item → List Token}
    {items : List Item} (each : ∀ item ∈ items, Reads .blank (text item) (read item) .blank) :
    Reads .blank (items.flatMap text) (items.flatMap read) .blank := by
  induction items with
  | nil => exact nil
  | cons item items ih =>
    rw [forall_mem_cons] at each
    exact each.1.append (ih each.2)

end Reads

/-- No text with this beginning has tokens. -/
def Refuses (mode : Mode) (text : List Char) : Prop := run mode text = none

theorem Reads.refuses {mode middle : Mode} {front back : List Char} {tokens : List Token}
    (first : Reads mode front tokens middle) (second : Refuses middle back) :
    Refuses mode (front ++ back) := by
  rw [Reads] at first
  rw [Refuses] at second
  simp [Refuses, run_append, first, second]

theorem Reads.not_refuses {mode next : Mode} {text : List Char} {tokens : List Token}
    (reads : Reads mode text tokens next) : ¬ Refuses mode text := by
  rw [Reads] at reads
  simp [Refuses, reads]

namespace Refuses

variable {mode : Mode} {front back : List Char}

theorem before (first : Refuses mode front) : Refuses mode (front ++ back) := by
  rw [Refuses, run_append, first, bind_none]

theorem flatMap {Item : Type*} {text : Item → List Char} {read : Item → List Token}
    {items : List Item}
    (each : ∀ item ∈ items, Reads .blank (text item) (read item) .blank ∨
      Refuses .blank (text item))
    (refused : ∃ item ∈ items, Refuses .blank (text item)) :
    Refuses .blank (items.flatMap text) := by
  induction items with
  | nil => simp at refused
  | cons item items ih =>
    rw [forall_mem_cons] at each
    obtain ⟨reads | refuses, rest⟩ := each
    · apply reads.refuses
      apply ih rest
      simpa [reads.not_refuses] using refused
    · exact refuses.before

end Refuses

variable {text : String}

theorem Reads.lex {tokens last : List Token} {mode : Mode}
    (reads : Reads .blank text.toList tokens mode) (finished : finish mode = some last) :
    lex text = some (tokens ++ last) := by
  rw [Reads] at reads
  simp [Sieve.lex, reads, finished]

theorem Reads.lex_blank {tokens : List Token}
    (reads : Reads .blank text.toList tokens .blank) : Sieve.lex text = some tokens := by
  have lexed := @Reads.lex _ _ [] _ reads rfl
  rwa [append_nil] at lexed

instance (mode : Mode) (text : List Char) (tokens : List Token) (next : Mode) :
    Decidable (Reads mode text tokens next) :=
  inferInstanceAs (Decidable (_ = _))

/-- A character that ends every token that the end of the text ends. -/
def Delimits (char : Char) : Prop :=
  isWord char = false ∧ char ∉ ['\r', '\x00', ':'] ∧ quantifier? char = none

instance (char : Char) : Decidable (Delimits char) := inferInstanceAs (Decidable (_ ∧ _))

theorem step_delimits {char : Char} (delimits : Delimits char) {mode : Mode} {last : List Token}
    (finished : finish mode = some last) :
    step mode char = (start char).map fun (tokens, next) => (last ++ tokens, next) := by
  obtain ⟨notWord, other, notQuantifier⟩ := delimits
  simp only [mem_cons, not_mem_nil, or_false, not_or] at other
  have notLetter : isLetter char = false := (Bool.or_eq_false_iff.mp notWord).1
  have notDigit : char.isDigit = false := (Bool.or_eq_false_iff.mp notWord).2
  cases mode <;> cases finished <;>
    simp [step, close, notWord, notLetter, notDigit, notQuantifier, other]

theorem reads_of_lex {tokens following : List Token} {char : Char} {next : Mode}
    (lexed : lex text = some tokens) (delimits : Delimits char)
    (starts : start char = some (following, next)) :
    Reads .blank (text.toList ++ [char]) (tokens ++ following) next := by
  rw [lex] at lexed
  cases read : run .blank text.toList with
  | none => rw [read] at lexed; nomatch lexed
  | some result =>
    obtain ⟨front, mode⟩ := result
    rw [read] at lexed
    simp only [bind_eq_bind, bind_some] at lexed
    cases finished : finish mode with
    | none => rw [finished] at lexed; nomatch lexed
    | some last =>
      rw [finished] at lexed
      cases lexed
      rw [append_assoc]
      apply Reads.append read
      simp [Reads, run, step_delimits delimits finished, starts]

theorem not_refuses_of_lex {tokens : List Token} (lexed : lex text = some tokens) :
    ¬ Refuses .blank text.toList := by
  intro refuses
  rw [lex, refuses] at lexed
  cases lexed

theorem lex_eq_none (refuses : Refuses .blank text.toList) : lex text = none := by
  rw [lex, refuses]
  rfl

/-! ## Comments and quoted strings -/

/-- The text can stand in a comment or in a quoted string. -/
def OneLine (text : List Char) : Prop := ∀ char ∈ text, char ≠ '\n' ∧ char ≠ '\r' ∧ char ≠ '\x00'

theorem OneLine.append {front back : List Char} (first : OneLine front) (second : OneLine back) :
    OneLine (front ++ back) := by
  intro char mem
  exact (mem_append.mp mem).elim (first char) (second char)

def quotedChar (char : Char) : List Char :=
  if char = '"' ∨ char = '\\' then ['\\', char] else [char]

section

variable {text : List Char} (oneLine : OneLine text)

include oneLine

theorem reads_hashComment : Reads .hashComment text [] .hashComment := by
  induction text with
  | nil => rfl
  | cons char text ih =>
    rw [OneLine, forall_mem_cons] at oneLine
    obtain ⟨⟨newline, carriage, zero⟩, rest⟩ := oneLine
    have here : Reads .hashComment [char] [] .hashComment := by
      simp [Reads, run, step, newline, carriage, zero]
    exact here.append (ih rest)

theorem reads_comment : Reads .blank ('#' :: text ++ ['\n']) [] .blank := by
  have opened : Reads .blank ['#'] [] .hashComment := rfl
  have closed : Reads .hashComment ['\n'] [] .blank := rfl
  exact (opened.append (reads_hashComment oneLine)).append closed

theorem reads_quotedChars (content : List Char) :
    Reads (.quoted content) (text.flatMap quotedChar) [] (.quoted (content ++ text)) := by
  induction text generalizing content with
  | nil => simpa using (Reads.nil : Reads (.quoted content) _ _ _)
  | cons char text ih =>
    rw [OneLine, List.forall_mem_cons] at oneLine
    obtain ⟨⟨newline, carriage, zero⟩, rest⟩ := oneLine
    have here : Reads (.quoted content) (quotedChar char) [] (.quoted (content ++ [char])) := by
      by_cases special : char = '"' ∨ char = '\\'
      · simp [Reads, quotedChar, special, run, step, newline, carriage, zero]
      · simp only [not_or] at special
        simp [Reads, quotedChar, special, run, step, carriage, zero]
    simpa using here.append (ih rest (content ++ [char]))

end

theorem reads_quoted (oneLine : OneLine text.toList) :
    Reads .blank ('"' :: text.toList.flatMap quotedChar ++ ['"']) [.string text] .blank := by
  have opened : Reads .blank ['"'] [] (.quoted []) := rfl
  have closed : Reads (.quoted text.toList) ['"'] [.string text] .blank := by
    simp [Reads, run, step, String.ofList_toList]
  exact (opened.append (reads_quotedChars oneLine [])).append closed

end EvolutionJmap.Sieve
