import EvolutionJmap.Text

/-!
# Text encoding of the protocol formats (`jmap-proto/src/text.rs`)

Line folding (RFC 5545 §3.1), caret escapes of parameter values (RFC 6868 §3),
URI schemes (RFC 3986 §3.1) and JSON Pointer segments (RFC 6901 §3).
-/

namespace EvolutionJmap

/-! ## Line folding -/

def maxLineOctets : Nat := 75

namespace Folding

/-- The longest beginning of a line with at most `budget` octets, and the rest. -/
def takeOctets : Nat → List Char → List Char × List Char
  | _, [] => ([], [])
  | budget, char :: rest =>
    if char.utf8Size ≤ budget then
      let (taken, left) := takeOctets (budget - char.utf8Size) rest
      (char :: taken, left)
    else ([], char :: rest)

/-- Cut a line at a character boundary, at most `budget` octets in. The cut does
not come between a backslash and the character it escapes, and takes at least
one character. -/
def cut (budget : Nat) (line : List Char) : List Char × List Char :=
  let (taken, left) := takeOctets budget line
  let escapes := (taken.reverse.takeWhile (· == '\\')).length
  let (taken, left) :=
    if escapes % 2 = 1 then (taken.dropLast, '\\' :: left) else (taken, left)
  if taken = [] then (line.take 1, line.drop 1) else (taken, left)

/-- The loop over one line. Each round takes at least one character, so as many
rounds as the line has characters are enough. -/
def foldLine (maxOctets : Nat) : (rounds : Nat) → (budget : Nat) → List Char → List Char
  | 0, _, rest => rest
  | rounds + 1, budget, rest =>
    if Text.byteLength rest ≤ budget then rest
    else
      let (piece, rest) := cut budget rest
      piece ++ ['\r', '\n', ' '] ++ foldLine maxOctets rounds (maxOctets - 1) rest

end Folding

/-- Fold the lines that are too long. -/
def foldOverlongLinesAt (text : List Char) (maxOctets : Nat) : List Char :=
  let lines := Text.splitCrlf text
  if lines.all fun line => Text.byteLength line ≤ maxOctets then text
  else
    ['\r', '\n'].intercalate
      (lines.map fun line => Folding.foldLine maxOctets line.length maxOctets line)

def foldOverlongLines (text : List Char) : List Char :=
  foldOverlongLinesAt text maxLineOctets

/-! ## Folding loses nothing -/

namespace Folding

open List Text Nat

/-- The text ends in a backslash that escapes what comes next: the run of backslashes at its end
is odd. -/
def EscapesNext (front : List Char) : Prop :=
  (front.reverse.takeWhile (· == '\\')).length % 2 = 1

def broken (lines : List (List Char)) : List Char := lines.flatMap fun line => '\r' :: '\n' :: line

def physicalLines : List (List Char) → List (List Char)
  | [] => []
  | first :: others => first :: others.map (' ' :: ·)

/-- What a line adds to the text before it. A line that begins with a space or a tab goes
on the line before it. -/
def continued : List Char → List Char
  | ' ' :: rest => rest
  | '\t' :: rest => rest
  | line => '\r' :: '\n' :: line

/-- The text without the line breaks that a space or a tab follows. -/
def unfolded (text : List Char) : List Char :=
  match splitCrlf text with
  | [] => []
  | first :: lines => first ++ lines.flatMap continued

/-- A line and its pieces. The first of them has the budget. -/
inductive Folded : Nat → List Char → List (List Char) → Prop where
  | short {budget : Nat} {line : List Char} (fits : byteLength line ≤ budget) :
      Folded budget line [line]
  | cut {budget : Nat} {piece rest : List Char} {pieces : List (List Char)} (some : piece ≠ [])
      (fits : byteLength piece ≤ budget) (whole : ¬ EscapesNext piece)
      (folded : Folded (maxLineOctets - 1) rest pieces) :
      Folded budget (piece ++ rest) (piece :: pieces)

/-! ### One line -/

theorem byteLength_append (front back : List Char) :
    byteLength (front ++ back) = byteLength front + byteLength back := by
  simp [byteLength]

theorem takeOctets_spec (budget : Nat) (line : List Char) :
    (takeOctets budget line).1 ++ (takeOctets budget line).2 = line ∧
      byteLength (takeOctets budget line).1 ≤ budget ∧
      (budget < byteLength line → budget < byteLength (takeOctets budget line).1 + 4) := by
  fun_induction takeOctets budget line with
  | case1 => simp [byteLength]
  | case2 budget char rest small taken left isTaken ih =>
    rw [isTaken] at ih
    simp only [byteLength, map_cons, sum_cons, cons_append, List.cons.injEq] at ih ⊢
    exact ⟨⟨trivial, ih.1⟩, by omega, by omega⟩
  | case3 budget char rest large =>
    have most := char.utf8Size_le_four
    exact ⟨rfl, zero_le _, fun _ => by omega⟩

theorem cut_spec {budget : Nat} {line : List Char} (wide : 8 < budget)
    (long : budget < byteLength line) :
    (cut budget line).1 ++ (cut budget line).2 = line ∧ (cut budget line).1 ≠ [] ∧
      byteLength (cut budget line).1 ≤ budget ∧ ¬ EscapesNext (cut budget line).1 := by
  obtain ⟨same, fits, most⟩ := takeOctets_spec budget line
  rw [cut]
  generalize takeOctets budget line = parts at same fits most
  obtain ⟨taken, left⟩ := parts
  dsimp only at same fits most ⊢
  have most := most long
  have nothing : byteLength [] = 0 := rfl
  rcases eq_nil_or_concat taken with rfl | ⟨front, last, rfl⟩
  · omega
  rw [concat_eq_append] at same fits most ⊢
  have lengths := byteLength_append front [last]
  split
  · next odd =>
    have isBackslash : last = '\\' := by
      by_contra other
      simp [other] at odd
    subst isBackslash
    have single : byteLength ['\\'] = 1 := rfl
    have some : front ≠ [] := by
      rintro rfl
      omega
    simp only [dropLast_concat, if_neg some]
    refine ⟨by rw [← same, append_assoc]; rfl, some, by omega, ?_⟩
    rw [reverse_append] at odd
    simp only [reverse_singleton, singleton_append, takeWhile_cons, beq_self_eq_true,
      if_true, length_cons] at odd
    rw [EscapesNext]
    omega
  · next even =>
    rw [if_neg (by simp)]
    exact ⟨same, by simp, fits, even⟩

theorem foldLine_folded {rounds budget : Nat} {line : List Char} (wide : 8 < budget)
    (enough : line.length ≤ rounds) : ∃ first others, Folded budget line (first :: others) ∧
      foldLine maxLineOctets rounds budget line = first ++ broken (others.map (' ' :: ·)) := by
  induction rounds generalizing budget line with
  | zero =>
    rw [length_eq_zero_iff.mp (le_zero.mp enough)]
    exact ⟨[], [], .short (zero_le _), rfl⟩
  | succ rounds ih =>
    rw [foldLine]
    split
    · next fits => exact ⟨line, [], .short fits, (append_nil line).symm⟩
    · next long =>
      obtain ⟨same, some, fits, whole⟩ := cut_spec wide (Nat.lt_of_not_le long)
      generalize cut budget line = parts at same some fits whole
      obtain ⟨piece, rest⟩ := parts
      dsimp only at same some fits whole ⊢
      have shorter : rest.length ≤ rounds := by
        have positive := length_pos_iff.mpr some
        rw [← same, length_append] at enough
        omega
      obtain ⟨first, others, folded, isFolded⟩ := @ih (maxLineOctets - 1) rest (by decide) shorter
      refine ⟨piece, first :: others, same ▸ .cut some fits whole folded, ?_⟩
      rw [isFolded]
      simp [broken]

theorem escapesNext_append {front back : List Char} (one : ¬ EscapesNext front)
    (two : ¬ EscapesNext back) : ¬ EscapesNext (front ++ back) := by
  rw [EscapesNext] at one two ⊢
  rw [reverse_append, takeWhile_append]
  split
  · rw [length_append]
    omega
  · exact two

theorem flatMap_continued (pieces : List (List Char)) :
    (pieces.map (' ' :: ·)).flatMap continued = pieces.flatten := by
  rw [flatMap_map]
  exact flatMap_id'

namespace Folded

variable {budget : Nat} {line : List Char} {pieces : List (List Char)}
  (folded : Folded budget line pieces)

include folded

theorem flatten : pieces.flatten = line := by
  induction folded with
  | short fits => simp
  | cut some fits whole folded ih => rw [flatten_cons, ih]

theorem fits (wide : maxLineOctets - 1 ≤ budget) : ∀ piece ∈ pieces, byteLength piece ≤ budget := by
  induction folded with
  | short fits => simpa using fits
  | cut some fits whole folded ih =>
    exact forall_mem_cons.mpr ⟨fits, fun piece mem => (ih le_rfl piece mem).trans wide⟩

theorem physicalLines_fit (atMost : budget ≤ maxLineOctets) :
    ∀ line ∈ physicalLines pieces, byteLength line ≤ maxLineOctets := by
  cases folded with
  | short fits => simpa [physicalLines] using fits.trans atMost
  | cut some fits whole folded =>
    refine forall_mem_cons.mpr ⟨fits.trans atMost, fun line mem => ?_⟩
    obtain ⟨piece, isPiece, rfl⟩ := mem_map.mp mem
    have small := folded.fits le_rfl piece isPiece
    have space : byteLength (' ' :: piece) = 1 + byteLength piece := byteLength_append [' '] piece
    have limit : maxLineOctets = 75 := rfl
    omega

theorem whole {front back : List (List Char)} (breaks : pieces = front ++ back)
    (before : front ≠ []) (behind : back ≠ []) : ¬ EscapesNext front.flatten := by
  induction folded generalizing front with
  | short fits =>
    rcases append_eq_singleton_iff.mp breaks.symm with ⟨noFront, _⟩ | ⟨_, noBack⟩
    · exact absurd noFront before
    · exact absurd noBack behind
  | cut some fits whole folded ih =>
    rcases append_eq_cons_iff.mp breaks.symm with ⟨noFront, _⟩ | ⟨rest, rfl, isRest⟩
    · exact absurd noFront before
    rw [flatten_cons]
    rcases eq_nil_or_concat rest with rfl | ⟨init, last, rfl⟩
    · rwa [flatten_nil, append_nil]
    · exact escapesNext_append whole (ih isRest (by simp))

theorem continued : (physicalLines pieces).flatMap Folding.continued = Folding.continued line := by
  cases folded with
  | short fits => simp [physicalLines]
  | cut some fits whole folded =>
    rw [physicalLines, flatMap_cons, flatMap_continued, folded.flatten]
    obtain ⟨char, piece, rfl⟩ := exists_cons_of_ne_nil some
    rw [cons_append]
    by_cases isSpace : char = ' '
    · rw [isSpace]
      rfl
    by_cases isTab : char = '\t'
    · rw [isTab]
      rfl
    rw [Folding.continued, Folding.continued]
    · rfl
    all_goals grind

end Folded

/-! ### The lines of a text -/

/-- No line break is in the line. -/
def Plain (line : List Char) : Prop := ¬ ['\r', '\n'] <:+: line

section

variable {line : List Char} (plain : Plain line)

include plain

theorem Plain.of_part {part : List Char} (isPart : part <:+: line) :
    Plain part := fun isBroken => plain (isBroken.trans isPart)

theorem Plain.cons {char : Char} (notBreak : ∀ rest, char = '\r' → line ≠ '\n' :: rest) :
    Plain (char :: line) := by
  intro isBroken
  rcases infix_cons_iff.mp isBroken with ⟨back, starts⟩ | inside
  · cases starts
    exact notBreak back rfl rfl
  · exact plain inside

theorem splitCrlf_append {lines parsed : List (List Char)}
    (atBreak : splitCrlf (broken lines) = [] :: parsed) :
    splitCrlf (line ++ broken lines) = line :: parsed := by
  induction line with
  | nil => exact atBreak
  | cons char line ih =>
    rw [cons_append, splitCrlf, ih (plain.of_part (suffix_cons _ _).isInfix)]
    rintro rest rfl starts
    cases line with
    | nil => cases lines <;> cases starts
    | cons next line =>
      cases starts
      exact plain ⟨[], line, rfl⟩

end

theorem splitCrlf_broken {first : List Char} {lines : List (List Char)}
    (plain : ∀ line ∈ first :: lines, Plain line) :
    splitCrlf (first ++ broken lines) = first :: lines := by
  induction lines generalizing first with
  | nil => exact splitCrlf_append (plain first mem_cons_self) rfl
  | cons next lines ih =>
    rw [forall_mem_cons] at plain
    exact splitCrlf_append plain.1 (congrArg ([] :: ·) (ih plain.2))

theorem splitCrlf_cases (text : List Char) : ∃ first lines, splitCrlf text = first :: lines ∧
    text = first ++ broken lines ∧ ∀ line ∈ first :: lines, Plain line := by
  fun_induction splitCrlf text with
  | case1 => exact ⟨[], [], rfl, rfl, by simp [Plain]⟩
  | case2 rest ih =>
    obtain ⟨first, lines, isSplit, isText, plain⟩ := ih
    refine ⟨[], first :: lines, by rw [isSplit], by rw [isText]; rfl, ?_⟩
    exact forall_mem_cons.mpr ⟨by simp [Plain], plain⟩
  | case3 char rest notBreak noLines ih =>
    obtain ⟨first, lines, isSplit, -⟩ := ih
    cases noLines.symm.trans isSplit
  | case4 char rest notBreak line others isLines ih =>
    obtain ⟨first, lines, isSplit, isText, plain⟩ := ih
    cases isLines.symm.trans isSplit
    rw [forall_mem_cons] at plain
    refine ⟨_, _, rfl, by rw [isText]; rfl, forall_mem_cons.mpr ⟨plain.1.cons ?_, plain.2⟩⟩
    rintro back isReturn rfl
    exact notBreak (back ++ broken others) isReturn isText

theorem intercalate_cons (first : List Char) (lines : List (List Char)) :
    ['\r', '\n'].intercalate (first :: lines) = first ++ broken lines := by
  induction lines generalizing first with
  | nil => simp [broken]
  | cons line lines ih =>
    rw [intercalate_cons_cons, ih]
    simp [broken]

theorem foldOverlongLinesAt_eq (text : List Char) : foldOverlongLinesAt text maxLineOctets =
    ['\r', '\n'].intercalate ((splitCrlf text).map fun line =>
      foldLine maxLineOctets line.length maxLineOctets line) := by
  rw [foldOverlongLinesAt]
  split
  · next short =>
    have kept : (splitCrlf text).map (fun line =>
        foldLine maxLineOctets line.length maxLineOctets line) = splitCrlf text := by
      conv_rhs => rw [← map_id (splitCrlf text)]
      apply map_congr_left
      intro line mem
      have fits := of_decide_eq_true (all_eq_true.mp short line mem)
      cases line with
      | nil => rfl
      | cons char line => rw [length_cons, foldLine, if_pos fits, id]
    obtain ⟨first, lines, isSplit, isText, -⟩ := splitCrlf_cases text
    rw [kept, isSplit, intercalate_cons, ← isText]
  · rfl

/-- Every line of the folded text has at most 75 octets. Its lines are the pieces of the
lines of the text, no break comes between a backslash and the character that it escapes in
the line, and without the folds it is the text without its folds. -/
theorem foldOverlongLinesAt_lossless (text : List Char) :
    (∀ line ∈ splitCrlf (foldOverlongLinesAt text maxLineOctets), byteLength line ≤ 75) ∧
    (∃ pieces : List Char → List (List Char),
      (∀ line, (pieces line).flatten = line ∧ ∀ front back, pieces line = front ++ back →
        front ≠ [] → back ≠ [] → ¬ EscapesNext front.flatten) ∧
      splitCrlf (foldOverlongLinesAt text maxLineOctets) =
        (splitCrlf text).flatMap fun line => physicalLines (pieces line)) ∧
    unfolded (foldOverlongLinesAt text maxLineOctets) = unfolded text := by
  obtain ⟨first, lines, isSplit, isText, plain⟩ := splitCrlf_cases text
  have foldedLine := fun line => @foldLine_folded line.length maxLineOctets line (by decide) le_rfl
  choose firsts others folded isFolded using foldedLine
  have spread : ∀ lines : List (List Char), broken (lines.map fun line =>
      foldLine maxLineOctets line.length maxLineOctets line) =
        broken (lines.flatMap fun line => physicalLines (firsts line :: others line)) := by
    intro lines
    simp only [broken, flatMap_map, flatMap_assoc]
    simp [isFolded, physicalLines, broken]
  have output : foldOverlongLinesAt text maxLineOctets = firsts first ++
      broken ((others first).map (' ' :: ·) ++
        lines.flatMap fun line => physicalLines (firsts line :: others line)) := by
    rw [foldOverlongLinesAt_eq, isSplit, map_cons, intercalate_cons, isFolded, spread]
    simp [broken]
  have plainLines : ∀ line ∈ (first :: lines).flatMap fun line =>
      physicalLines (firsts line :: others line), Plain line := by
    intro physical mem
    obtain ⟨line, isLine, mem⟩ := mem_flatMap.mp mem
    have isPiece : ∀ piece ∈ firsts line :: others line, Plain piece := by
      intro piece inPieces
      apply (plain line isLine).of_part
      rw [← (folded line).flatten]
      exact infix_of_mem_flatten inPieces
    rw [forall_mem_cons] at isPiece
    rcases mem_cons.mp mem with rfl | later
    · exact isPiece.1
    · obtain ⟨piece, inOthers, rfl⟩ := mem_map.mp later
      exact (isPiece.2 piece inOthers).cons fun _ isReturn => absurd isReturn (by decide)
  have splitOutput : splitCrlf (foldOverlongLinesAt text maxLineOctets) =
      (splitCrlf text).flatMap fun line => physicalLines (firsts line :: others line) := by
    rw [output, isSplit]
    exact splitCrlf_broken plainLines
  refine ⟨fun physical mem => ?_, ⟨fun line => firsts line :: others line, fun line =>
    ⟨(folded line).flatten, fun _ _ => (folded line).whole⟩, splitOutput⟩, ?_⟩
  · rw [splitOutput] at mem
    obtain ⟨line, -, mem⟩ := mem_flatMap.mp mem
    exact (folded line).physicalLines_fit le_rfl physical mem
  · have same : firsts first ++ (others first).flatten = first := (folded first).flatten
    rw [unfolded, unfolded, splitOutput, isSplit]
    change firsts first ++ ((others first).map (' ' :: ·) ++ lines.flatMap fun line =>
      physicalLines (firsts line :: others line)).flatMap continued =
        first ++ lines.flatMap continued
    rw [flatMap_append, flatMap_continued, ← append_assoc, same, flatMap_assoc]
    simp only [(folded _).continued]

/-- A text that is folded between a backslash and the first of 74 others. -/
def foldedInEscape : List Char := "X\\\r\n ".toList ++ replicate 74 '\\'

/-- The backslashes are counted from the start of the line, so an escape that begins on the line
before is broken. -/
theorem foldOverlongLinesAt_breaks_escape :
    foldOverlongLinesAt (foldedInEscape ++ ['n']) maxLineOctets =
        foldedInEscape ++ ['\r', '\n', ' ', 'n'] ∧
      EscapesNext (unfolded foldedInEscape) := by
  refine ⟨by decide +kernel, ?_⟩
  rw [EscapesNext]
  decide +kernel

end Folding

/-! ## Caret escapes -/

def caretEncodedChars : List Char → List Char
  | [] => []
  | '\r' :: '\n' :: rest => '^' :: 'n' :: caretEncodedChars rest
  | char :: rest =>
    let escaped :=
      if char = '^' then ['^', '^']
      else if char = '"' then ['^', '\'']
      else if char = '\n' then ['^', 'n']
      else if char = '\r' then ['^', 'n']
      else [char]
    escaped ++ caretEncodedChars rest

/-- Encode a parameter value: carets, double quotes and line breaks. -/
def caretEncoded (value : String) : String :=
  String.ofList (caretEncodedChars value.toList)

def caretDecodedChars : List Char → List Char
  | '^' :: '^' :: rest => '^' :: caretDecodedChars rest
  | '^' :: '\'' :: rest => '"' :: caretDecodedChars rest
  | '^' :: 'n' :: rest => '\n' :: caretDecodedChars rest
  | '^' :: 'N' :: rest => '\n' :: caretDecodedChars rest
  | char :: rest => char :: caretDecodedChars rest
  | [] => []

/-- Resolve the caret escapes. A caret before any other character stays. -/
def caretDecoded (value : String) : String :=
  String.ofList (caretDecodedChars value.toList)

/-- The text with a line feed for each line break. -/
def unixBreaks : List Char → List Char
  | '\r' :: '\n' :: rest => '\n' :: unixBreaks rest
  | '\r' :: rest => '\n' :: unixBreaks rest
  | char :: rest => char :: unixBreaks rest
  | [] => []

theorem caretEncodedChars_plain (text : List Char) :
    ∀ char ∈ caretEncodedChars text, char ≠ '"' ∧ char ≠ '\n' ∧ char ≠ '\r' := by
  fun_induction caretEncodedChars text with
  | case1 => nofun
  | case2 rest ih => simpa using ih
  | case3 char rest _ escaped ih =>
    refine List.forall_mem_append.mpr ⟨?_, ih⟩
    subst escaped
    split_ifs <;> simp [*]

theorem caretDecodedChars_caretEncodedChars (text : List Char) :
    caretDecodedChars (caretEncodedChars text) = unixBreaks text := by
  fun_induction caretEncodedChars text with
  | case1 => rfl
  | case2 rest ih => rw [caretDecodedChars, ih, unixBreaks]
  | case3 char rest notBreak escaped ih =>
    subst escaped
    split_ifs with caret quote feed carriage
    · simp [caret, caretDecodedChars, unixBreaks, ih]
    · simp [quote, caretDecodedChars, unixBreaks, ih]
    · simp [feed, caretDecodedChars, unixBreaks, ih]
    · subst carriage
      rw [unixBreaks, ← ih]
      · rfl
      · exact fun rest isRest => notBreak rest rfl isRest
    · rw [List.singleton_append, caretDecodedChars, unixBreaks, ih] <;> simp [caret, carriage]

/-- A parameter text comes back, up to the form of its line breaks. -/
theorem caret_roundTrips (value : String) :
    (∀ char ∈ (caretEncoded value).toList, char ≠ '"' ∧ char ≠ '\n' ∧ char ≠ '\r') ∧
      caretDecoded (caretEncoded value) = String.ofList (unixBreaks value.toList) := by
  constructor
  · rw [caretEncoded, String.toList_ofList]
    exact caretEncodedChars_plain _
  · rw [caretDecoded, caretEncoded, String.toList_ofList, caretDecodedChars_caretEncodedChars]

/-! ## URIs -/

def isValidScheme (scheme : String) : Bool :=
  match scheme.toList with
  | [] => false
  | first :: rest =>
    first.isAlpha && rest.all fun char => char.isAlphanum || char ∈ ['+', '-', '.']

/-- The scheme and the rest of a value that begins with a scheme and a colon. -/
def splitUri (value : String) : Option (String × String) :=
  match splitTextOnce ':' value with
  | none => none
  | some (scheme, rest) => if isValidScheme scheme then some (scheme, rest) else none

def uriScheme (value : String) : Option String := (splitUri value).map Prod.fst

def hasUriScheme (value : String) : Bool := (uriScheme value).isSome

/-! ## JSON Pointer segments -/

def escapePointerChar (char : Char) : List Char :=
  if char = '~' then ['~', '0'] else if char = '/' then ['~', '1'] else [char]

/-- A map key as one segment of a JSON Pointer. The source replaces the tildes
first and then the solidi, which is this replacement in one pass. -/
def escapePointerSegment (segment : String) : String :=
  String.ofList (segment.toList.flatMap escapePointerChar)

end EvolutionJmap
