import EvolutionJmap.ObjectSync.Basic

/-!
# The base of an edit (`jmap-object-sync/src/edit_base.rs`)

A refresh can replace the cached object under an open editor.  So each text that an
editor gets carries a stamp, the revision of its server version, and the cache keeps the
most recent ones.  A save takes the version that the stamp names as its base.
-/

namespace EvolutionJmap.EditBase

open List Option

/-! ## Lines -/

/-- The lines of a text with their line ends (`split_inclusive`). -/
def splitInclusive (separator : Char) : List Char → List (List Char)
  | [] => []
  | char :: rest =>
    if char = separator then [char] :: splitInclusive separator rest
    else
      match splitInclusive separator rest with
      | [] => [[char]]
      | line :: lines => (char :: line) :: lines

def lines (text : String) : List (List Char) := splitInclusive '\n' text.toList

def isLineEnd (char : Char) : Bool := char == '\r' || char == '\n'

def content (line : List Char) : List Char := Text.trimEnd isLineEnd line

/-- A folded line continues the line before it (RFC 5545 §3.1). -/
def continues (line : List Char) : Bool :=
  line.head?.any fun char => char == ' ' || char == '\t'

/-! ## Stamps -/

/-- The property that carries the stamp. -/
def stampName : String := "X-JMAP-BASE"

def endsKind (kind : String) (line : List Char) : Bool :=
  eqIgnoreAsciiCase (String.ofList (content line)) ("END:" ++ kind)

def stampLine (revision : String) (line : List Char) : List Char :=
  let lineEnd := line.drop (content line).length
  stampName.toList ++ ':' :: revision.toList ++
    if lineEnd.isEmpty then ['\r', '\n'] else lineEnd

/-- Put the revision into each component. -/
def stamp (text kind revision : String) : String :=
  String.ofList ((lines text).flatMap fun line =>
    (if endsKind kind line then stampLine revision line else []) ++ line)

def isStamp (chars : List Char) : Bool :=
  eqIgnoreAsciiCase (String.ofList (chars.take stampName.length)) stampName &&
    (chars[stampName.length]? == some ':' || chars[stampName.length]? == some ';')

def stampValue (line : List Char) : Option String :=
  (Text.splitOnce ':' line).map fun split => String.ofList (Text.trim split.2)

/-- The loop of `unstamp`: the text that is kept, and the first stamp. -/
def unstampLines : (inStamp : Bool) → (found : Option String) → List (List Char) →
    List Char × Option String
  | _, found, [] => ([], found)
  | inStamp, found, line :: rest =>
    if inStamp && continues line then unstampLines true found rest
    else if isStamp line then unstampLines true (found.or (stampValue line)) rest
    else
      let later := unstampLines false found rest
      (line ++ later.1, later.2)

/-- Remove each stamp line. Also gives the first stamp. -/
def unstamp (text : String) : String × Option String :=
  let unstamped := unstampLines false none (lines text)
  (String.ofList unstamped.1, unstamped.2)

/-! ## Kept versions -/

/-- The library `serde_json` on lists of texts. It writes a list in brackets and reads what it
writes. -/
structure SerdeJson where
  toString : List String → String
  fromStr : String → Option (List String)
  bracketed : ∀ texts, startsWith (toString texts) '[' = true
  reads : ∀ texts, fromStr (toString texts) = some texts

def kept : Nat := 4

/-- Take over older versions until enough are kept. -/
def addVersions : (versions older : List String) → List String
  | versions, [] => versions
  | versions, version :: older =>
    if versions.length = kept then versions
    else if version ∈ versions then addVersions versions older
    else addVersions (versions ++ [version]) older

section
variable (serde : SerdeJson)

def versionsOf (extra : String) : List String :=
  if startsWith extra '[' then (serde.fromStr extra).getD []
  else if extra = "" then []
  else [extra]

def extra (current : String) (previous : Option String) : String :=
  match addVersions [current] (previous.elim [] (versionsOf serde)) with
  | [version] => version
  | versions => serde.toString versions

/-- A save whose base is not known. -/
structure OutOfSync where
  deriving DecidableEq

/-- The cached version that was edited. -/
def baseFor (extra stamp : Option String) : Except OutOfSync (Option String) :=
  match extra with
  | none => .ok none
  | some extra =>
    match stamp with
    | none => .ok (versionsOf serde extra).head?
    | some stamp =>
      match (versionsOf serde extra).find? fun version => revisionOf version = stamp with
      | some version => .ok (some version)
      | none => .error ⟨⟩

end

/-! ## A text is its lines -/

/-- Lines with a line break each, apart from a last one that only has text. -/
inductive Lined : List (List Char) → Prop where
  | nil : Lined []
  | last {line : List Char} (text : line ≠ []) (noBreak : '\n' ∉ line) : Lined [line]
  | cons {front : List Char} {rest : List (List Char)} (noBreak : '\n' ∉ front)
      (later : Lined rest) : Lined ((front ++ ['\n']) :: rest)

theorem flatten_splitInclusive (separator : Char) (text : List Char) :
    (splitInclusive separator text).flatten = text := by
  induction text with
  | nil => rfl
  | cons char rest ih =>
    rw [splitInclusive]
    split
    · rw [flatten_cons, ih]
      rfl
    · split
      · next noLines =>
        rw [noLines] at ih
        rw [← ih]
        rfl
      · next line lines isLines =>
        rw [isLines] at ih
        rw [← ih]
        rfl

variable {line : List Char} {char : Char}

theorem Lined.extend {rest : List (List Char)} (lined : Lined (line :: rest))
    (notBreak : char ≠ '\n') : Lined ((char :: line) :: rest) := by
  cases lined with
  | last text noBreak =>
    exact .last (cons_ne_nil _ _) (by simp [notBreak.symm, noBreak])
  | @cons front rest noBreak later =>
    exact @Lined.cons (char :: front) rest (by simp [notBreak.symm, noBreak]) later

theorem lined_splitInclusive (text : List Char) : Lined (splitInclusive '\n' text) := by
  induction text with
  | nil => exact .nil
  | cons char rest ih =>
    rw [splitInclusive]
    split
    · next isBreak =>
      subst isBreak
      exact @Lined.cons [] _ (by simp) ih
    · next notBreak =>
      split
      · exact .last (cons_ne_nil _ _) (by simp [Ne.symm notBreak])
      · next line lines isLines =>
        rw [isLines] at ih
        exact ih.extend notBreak

theorem splitInclusive_noBreak {front : List Char} (noBreak : '\n' ∉ front) (rest : List Char) :
    splitInclusive '\n' (front ++ '\n' :: rest) =
      (front ++ ['\n']) :: splitInclusive '\n' rest := by
  induction front with
  | nil => simp [splitInclusive]
  | cons char front ih =>
    rw [mem_cons, not_or] at noBreak
    rw [cons_append, splitInclusive, if_neg (Ne.symm noBreak.1), ih noBreak.2]
    rfl

theorem splitInclusive_last (text : line ≠ []) (noBreak : '\n' ∉ line) :
    splitInclusive '\n' line = [line] := by
  induction line with
  | nil => exact absurd rfl text
  | cons char line ih =>
    rw [mem_cons, not_or] at noBreak
    rw [splitInclusive, if_neg (Ne.symm noBreak.1)]
    cases line with
    | nil => rfl
    | cons next line => rw [ih (cons_ne_nil _ _) noBreak.2]

/-! ## Content lines -/

def contentLines : List (List Char) → List (List (List Char))
  | [] => []
  | line :: rest =>
    match rest.head?.any continues, contentLines rest with
    | true, folded :: later => (line :: folded) :: later
    | _, later => [line] :: later

def statesStamp (folded : List (List Char)) : Bool := folded.head?.any isStamp

/-- The content lines that are no stamps, as a text. -/
def plain (contents : List (List (List Char))) : List Char :=
  (contents.filter fun folded => !statesStamp folded).flatten.flatten

def withoutStamps (text : String) : String := String.ofList (plain (contentLines (lines text)))

def firstValue (contents : List (List (List Char))) : Option String :=
  contents.findSome? fun folded => if statesStamp folded then folded.head?.bind stampValue else none

def firstStamp (text : String) : Option String := firstValue (contentLines (lines text))

theorem head_of_eqIgnoreAsciiCase {left : List Char} {right : String}
    (same : eqIgnoreAsciiCase (String.ofList left) right = true) :
    left.head?.map Char.toLower = right.toList.head?.map Char.toLower := by
  rw [eqIgnoreAsciiCase, beq_iff_eq, toAsciiLowercase, toAsciiLowercase,
    String.toList_ofList] at same
  have chars := congrArg List.head? (String.ofList_injective same)
  rwa [head?_map, head?_map] at chars

theorem head_of_isStamp (isStamped : isStamp line = true) :
    line.head?.map Char.toLower = some 'x' := by
  rw [isStamp, Bool.and_eq_true] at isStamped
  have head := head_of_eqIgnoreAsciiCase isStamped.1
  rwa [head?_take, if_neg (by decide)] at head

def lineEnd (line : List Char) : List Char := (line.reverse.takeWhile isLineEnd).reverse

theorem content_append (line : List Char) : content line ++ lineEnd line = line := by
  rw [content, Text.trimEnd, lineEnd, ← reverse_append, takeWhile_append_dropWhile,
    reverse_reverse]

theorem drop_content (line : List Char) : line.drop (content line).length = lineEnd line := by
  calc line.drop (content line).length
      = (content line ++ lineEnd line).drop (content line).length := by rw [content_append]
    _ = lineEnd line := drop_left

theorem isLineEnd_of_mem (mem : char ∈ lineEnd line) : isLineEnd char = true :=
  mem_takeWhile_imp (mem_reverse.mp mem)

theorem head_of_endsKind {kind : String} (isEnd : endsKind kind line = true) :
    line.head?.map Char.toLower = some 'e' := by
  have head := head_of_eqIgnoreAsciiCase isEnd
  rw [String.toList_append] at head
  have isE : (content line).head?.map Char.toLower = some 'e' := head
  rw [← content_append line]
  cases isContent : content line with
  | nil =>
    rw [isContent] at isE
    cases isE
  | cons char rest =>
    rw [isContent] at isE
    exact isE

theorem not_continues {first : Char}
    (head : line.head?.map Char.toLower = some first) (visible : first = 'x' ∨ first = 'e') :
    continues line = false := by
  cases line with
  | nil => rfl
  | cons char rest =>
    by_contra folded
    have isBlank : char = ' ' ∨ char = '\t' := by
      simpa [continues, or_iff_not_imp_left] using folded
    have isFirst : char.toLower = first := Option.some.inj head
    rcases isBlank with rfl | rfl <;> rcases visible with rfl | rfl <;> revert isFirst <;> decide

theorem isStamp_of_continues (folded : continues line = true) :
    isStamp line = false := by
  by_contra isStamped
  rw [Bool.not_eq_false] at isStamped
  rw [not_continues (head_of_isStamp isStamped) (.inl rfl)] at folded
  cases folded

/-! ## What `unstamp` gives -/

theorem contentLines_ne_nil {lines : List (List Char)} (some_ : lines ≠ []) :
    ∃ folded later, contentLines lines = folded :: later ∧ folded.head? = lines.head? := by
  cases lines with
  | nil => exact absurd rfl some_
  | cons line rest =>
    rw [contentLines]
    split <;> exact ⟨_, _, rfl, rfl⟩

def afterStamp (lines : List (List Char)) : List (List (List Char)) :=
  if lines.head?.any continues then (contentLines lines).tail else contentLines lines

theorem contentLines_cons (line : List Char) (rest : List (List Char)) :
    ∃ folded, folded.head? = some line ∧
      contentLines (line :: rest) = folded :: afterStamp rest := by
  rw [contentLines, afterStamp]
  cases folds : rest.head?.any continues with
  | false => exact ⟨[line], rfl, rfl⟩
  | true =>
    have nonempty : rest ≠ [] := by
      rintro rfl
      cases folds
    obtain ⟨folded, later, isContent, -⟩ := contentLines_ne_nil nonempty
    rw [isContent]
    exact ⟨line :: folded, rfl, rfl⟩

theorem contentLines_unstamped (line : List Char) (rest : List (List Char)) :
    contentLines (line :: rest) = [line] :: contentLines rest ∨
      ∃ folded later, contentLines rest = folded :: later ∧ statesStamp folded = false ∧
        contentLines (line :: rest) = (line :: folded) :: later := by
  rw [contentLines]
  cases folds : rest.head?.any continues with
  | false => exact .inl rfl
  | true =>
    cases rest with
    | nil => cases folds
    | cons next rest =>
      have nextPlain : isStamp next = false := isStamp_of_continues (by simpa using folds)
      rcases contentLines_ne_nil (cons_ne_nil next rest) with
        ⟨folded, later, isContent, head⟩
      rw [isContent]
      exact .inr ⟨folded, later, rfl, by simp [statesStamp, head, nextPlain], rfl⟩

theorem unstamped_cons (noStamp : isStamp line = false) (rest : List (List Char)) :
    plain (contentLines (line :: rest)) = line ++ plain (contentLines rest) ∧
      firstValue (contentLines (line :: rest)) = firstValue (contentLines rest) := by
  rcases contentLines_unstamped line rest with alone | ⟨folded, later, isContent, noFold, joins⟩
  · simp [alone, plain, firstValue, statesStamp, noStamp]
  · rw [statesStamp] at noFold
    simp [joins, isContent, plain, firstValue, statesStamp, noStamp, noFold]

theorem firstValue_stamp {folded : List (List Char)} (states : statesStamp folded = true)
    (later : List (List (List Char))) :
    firstValue (folded :: later) = (folded.head?.bind stampValue).or (firstValue later) := by
  rw [firstValue, findSome?_cons, if_pos states]
  cases folded.head?.bind stampValue <;> rfl

theorem unstampLines_eq (inStamp : Bool) (found : Option String) (lines : List (List Char)) :
    unstampLines inStamp found lines =
      let contents := if inStamp then afterStamp lines else contentLines lines
      (plain contents, found.or (firstValue contents)) := by
  induction lines generalizing inStamp found with
  | nil =>
    cases inStamp <;> simp [unstampLines, afterStamp, contentLines, plain, firstValue]
  | cons line rest ih =>
    rw [unstampLines]
    obtain ⟨folded, head, isContent⟩ := contentLines_cons line rest
    split
    · next folds =>
      rw [Bool.and_eq_true] at folds
      have skipped : afterStamp (line :: rest) = afterStamp rest := by
        simp [afterStamp, folds.2, isContent]
      rw [ih, folds.1]
      simp [skipped]
    · next notFolded =>
      have whole : (if inStamp then afterStamp (line :: rest) else contentLines (line :: rest)) =
          contentLines (line :: rest) := by
        cases inStamp with
        | false => rfl
        | true =>
          have notContinued : continues line = false := by simpa using notFolded
          simp [afterStamp, notContinued]
      simp only [whole]
      split
      · next isStamped =>
        have states : statesStamp folded = true := by simp [statesStamp, head, isStamped]
        rw [ih, isContent, firstValue_stamp states]
        simp [plain, states, head, Option.or_assoc]
      · next notStamped =>
        have noStamp : isStamp line = false := by simpa using notStamped
        rw [ih, (unstamped_cons noStamp rest).1, (unstamped_cons noStamp rest).2]
        simp

theorem unstamp_eq (text : String) : unstamp text = (withoutStamps text, firstStamp text) := by
  rw [unstamp, unstampLines_eq]
  simp [withoutStamps, firstStamp]

/-! ## Stamping and unstamping -/

/-- One line with its line break. -/
def Terminated (line : List Char) : Prop := ∃ front, '\n' ∉ front ∧ line = front ++ ['\n']

theorem lineEnd_terminated (terminated : Terminated line) :
    ∃ blanks, '\n' ∉ blanks ∧ lineEnd line = blanks ++ ['\n'] := by
  obtain ⟨front, noBreak, rfl⟩ := terminated
  refine ⟨(front.reverse.takeWhile isLineEnd).reverse, ?_, ?_⟩
  · intro mem
    exact noBreak (mem_reverse.mp (takeWhile_subset _ (mem_reverse.mp mem)))
  · rw [lineEnd, reverse_append, reverse_singleton, singleton_append,
      takeWhile_cons_of_pos (by decide), reverse_cons]

/-- A text without white space. -/
def Unspaced (text : String) : Prop := ∀ char ∈ text.toList, Text.isWhitespace char = false

theorem isWhitespace_of_isLineEnd (isEnd : isLineEnd char = true) :
    Text.isWhitespace char = true := by
  rw [isLineEnd, Bool.or_eq_true, beq_iff_eq, beq_iff_eq] at isEnd
  rcases isEnd with rfl | rfl <;> decide

def stampEnd (line : List Char) : List Char :=
  if (lineEnd line).isEmpty then ['\r', '\n'] else lineEnd line

theorem stampLine_eq (revision : String) (line : List Char) :
    stampLine revision line =
      stampName.toList ++ ':' :: (revision.toList ++ stampEnd line) := by
  simp [stampLine, drop_content, stampEnd]

theorem isWhitespace_stampEnd (mem : char ∈ stampEnd line) : Text.isWhitespace char = true := by
  rw [stampEnd] at mem
  split at mem
  · exact all_eq_true.mp (by decide) char mem
  · exact isWhitespace_of_isLineEnd (isLineEnd_of_mem mem)

theorem trim_append {text blanks : List Char}
    (unspaced : ∀ char ∈ text, Text.isWhitespace char = false)
    (blank : ∀ char ∈ blanks, Text.isWhitespace char = true) :
    Text.trim (text ++ blanks) = text := by
  have behind : Text.trimEnd Text.isWhitespace (text ++ blanks) = text := by
    rw [Text.trimEnd, reverse_append,
      dropWhile_append_of_pos fun char mem => blank char (mem_reverse.mp mem)]
    cases isLast : text.reverse with
    | nil => simpa using isLast.symm
    | cons last front =>
      have visible := unspaced last (mem_reverse.mp (isLast ▸ mem_cons_self))
      rw [dropWhile_cons_of_neg (by simp [visible]), ← isLast, reverse_reverse]
  cases text with
  | nil =>
    have dropped : blanks.dropWhile Text.isWhitespace = [] := dropWhile_eq_nil_iff.mpr blank
    simp [Text.trim, dropped, Text.trimEnd]
  | cons char text =>
    have visible := unspaced char mem_cons_self
    rw [Text.trim, cons_append, dropWhile_cons_of_neg (by simp [visible]),
      ← cons_append, behind]

theorem isStamp_stampName (rest : List Char) :
    isStamp (stampName.toList ++ ':' :: rest) = true := by
  have name : (stampName.toList ++ ':' :: rest).take stampName.length = stampName.toList :=
    take_left' String.length_toList
  have colon : (stampName.toList ++ ':' :: rest)[stampName.length]? = some ':' := by
    rw [← String.length_toList, getElem?_append_right le_rfl, Nat.sub_self]
    rfl
  rw [isStamp, name, colon, String.ofList_toList, eqIgnoreAsciiCase_refl]
  rfl

theorem stampValue_stampName (rest : List Char) :
    stampValue (stampName.toList ++ ':' :: rest) = some (String.ofList (Text.trim rest)) := rfl

section

variable {revision : String} (unspaced : Unspaced revision)

include unspaced

theorem stampValue_stampLine (line : List Char) :
    stampValue (stampLine revision line) = some revision := by
  rw [stampLine_eq, stampValue_stampName,
    trim_append unspaced fun _ mem => isWhitespace_stampEnd mem, String.ofList_toList]

theorem noBreak_stamp : '\n' ∉ stampName.toList ++ ':' :: revision.toList := by
  intro mem
  rcases mem_append.mp mem with inName | inRest
  · revert inName
    decide
  · rcases mem_cons.mp inRest with isColon | inRevision
    · cases isColon
    · have visible := unspaced _ inRevision
      revert visible
      decide

/-- A stamp has its line break, unless the line that it comes from is closed by a carriage
return alone. -/
theorem terminated_stampLine (closed : Terminated line ∨ lineEnd line = []) :
    Terminated (stampLine revision line) := by
  have stampEnds : ∃ blanks, '\n' ∉ blanks ∧ stampEnd line = blanks ++ ['\n'] := by
    rw [stampEnd]
    rcases closed with terminated | open_
    · obtain ⟨blanks, noBreak, isEnd⟩ := lineEnd_terminated terminated
      exact ⟨blanks, noBreak, by simp [isEnd]⟩
    · exact ⟨['\r'], by decide, by simp [open_]⟩
  obtain ⟨blanks, blank, isEnd⟩ := stampEnds
  refine ⟨stampName.toList ++ ':' :: revision.toList ++ blanks, ?_, ?_⟩
  · intro mem
    exact (mem_append.mp mem).elim (noBreak_stamp unspaced) blank
  · rw [stampLine_eq, isEnd]
    simp

end

theorem isStamp_stampLine (revision : String) (line : List Char) :
    isStamp (stampLine revision line) = true := by
  rw [stampLine_eq, isStamp_stampName]

def marked (kind revision : String) (line : List Char) : List (List Char) :=
  if endsKind kind line then [stampLine revision line, line] else [line]

theorem stamp_eq (text kind revision : String) : stamp text kind revision =
      String.ofList ((lines text).flatMap (marked kind revision)).flatten := by
  rw [stamp]
  congr 1
  induction lines text with
  | nil => rfl
  | cons line lines ih =>
    rw [flatMap_cons, flatMap_cons, flatten_append, ih, marked]
    split <;> simp

variable {kind revision : String}

/-- The last line ends a component and is closed by a carriage return alone. -/
def EndsInReturn (kind text : String) : Prop :=
  ∃ line, (lines text).getLast? = some line ∧ endsKind kind line = true ∧
    line.getLast? = some '\r'

theorem lined_append {front rest : List (List Char)} (terminated : ∀ line ∈ front, Terminated line)
    (lined : Lined rest) : Lined (front ++ rest) := by
  induction front with
  | nil => exact lined
  | cons line front ih =>
    rw [forall_mem_cons] at terminated
    obtain ⟨text, noBreak, rfl⟩ := terminated.1
    exact .cons noBreak (ih terminated.2)

section

variable {lines : List (List Char)} (lined : Lined lines)

include lined

theorem Lined.splitInclusive_flatten : splitInclusive '\n' lines.flatten = lines := by
  induction lined with
  | nil => rfl
  | last text noBreak =>
    rw [flatten_singleton]
    exact splitInclusive_last text noBreak
  | cons noBreak later ih =>
    rw [flatten_cons, append_assoc, singleton_append,
      splitInclusive_noBreak noBreak, ih]

theorem Lined.terminated : ∀ line ∈ lines.dropLast, Terminated line := by
  induction lined with
  | nil => nofun
  | last _ _ => nofun
  | @cons front rest noBreak later ih =>
    cases rest with
    | nil => nofun
    | cons next rest =>
      rw [dropLast_cons_cons, forall_mem_cons]
      exact ⟨⟨front, noBreak, rfl⟩, ih⟩

theorem Lined.last_line (isLast : lines.getLast? = some line) :
    Terminated line ∨ (line ≠ [] ∧ '\n' ∉ line) := by
  induction lined with
  | nil => cases isLast
  | last text noBreak =>
    cases isLast
    exact .inr ⟨text, noBreak⟩
  | @cons front rest noBreak later ih =>
    cases rest with
    | nil =>
      cases isLast
      exact .inl ⟨front, noBreak, rfl⟩
    | cons next rest => exact ih (by simpa [getLast?_cons_cons] using isLast)

end

theorem isEmpty_lineEnd (isLast : line.getLast? = some char) :
    (lineEnd line).isEmpty = !isLineEnd char := by
  rw [← head?_reverse] at isLast
  rw [lineEnd]
  cases isReverse : line.reverse with
  | nil =>
    rw [isReverse] at isLast
    cases isLast
  | cons last front =>
    rw [isReverse] at isLast
    cases isLast
    rw [takeWhile_cons]
    cases isLineEnd char <;> simp

section

variable (unspaced : Unspaced revision)

include unspaced

/-- The loop takes back what stamping did to lines, whatever follows them. -/
theorem unstampLines_marked {front : List (List Char)}
    (noStamp : ∀ line ∈ front, isStamp line = false) (rest : List (List Char))
    (found : Option String) :
    unstampLines false found (front.flatMap (marked kind revision) ++ rest) =
      let later := unstampLines false
        (if front.any (endsKind kind) then found.or (some revision) else found) rest
      (front.flatten ++ later.1, later.2) := by
  induction front generalizing found with
  | nil => simp
  | cons line front ih =>
    rw [forall_mem_cons] at noStamp
    rw [flatMap_cons, append_assoc, marked]
    cases isEnd : endsKind kind line with
    | false =>
      rw [if_neg (by simp), singleton_append, unstampLines]
      simp [noStamp.1, ih noStamp.2, isEnd]
    | true =>
      have notFolded : continues line = false :=
        not_continues (head_of_endsKind isEnd) (.inr rfl)
      have notFoldedStamp : continues (stampLine revision line) = false :=
        not_continues (head_of_isStamp (isStamp_stampLine revision line)) (.inl rfl)
      rw [if_pos rfl, cons_append, singleton_append, unstampLines, notFoldedStamp,
        isStamp_stampLine, stampValue_stampLine unspaced, Bool.and_false,
        if_neg Bool.false_ne_true, if_pos rfl, unstampLines, notFolded, noStamp.1,
        ih noStamp.2]
      simp [isEnd]

theorem terminated_marked (closed : Terminated line) :
    ∀ part ∈ marked kind revision line, Terminated part := by
  intro part isMarked
  rw [marked] at isMarked
  split at isMarked
  · rcases mem_pair.mp isMarked with rfl | rfl
    · exact terminated_stampLine unspaced (.inl closed)
    · exact closed
  · rw [mem_singleton.mp isMarked]
    exact closed

theorem terminated_flatMap_marked {front : List (List Char)}
    (terminated : ∀ line ∈ front, Terminated line) :
    ∀ part ∈ front.flatMap (marked kind revision), Terminated part := by
  intro part mem
  obtain ⟨line, inFront, isMarked⟩ := mem_flatMap.mp mem
  exact terminated_marked unspaced (terminated line inFront) part isMarked

theorem lined_marked_last {last : List Char} (open_ : last ≠ [] ∧ '\n' ∉ last)
    (closed : endsKind kind last = true → last.getLast? ≠ some '\r') :
    Lined (marked kind revision last) := by
  rw [marked]
  split
  · next isEnd =>
    have noEnd : lineEnd last = [] := by
      cases isLast : last.getLast? with
      | none => exact absurd (getLast?_eq_none_iff.mp isLast) open_.1
      | some char =>
        have notReturn : char ≠ '\r' := fun same => closed isEnd (same ▸ isLast)
        have notBreak : char ≠ '\n' :=
          fun same => open_.2 (same ▸ mem_of_getLast? isLast)
        have empty := isEmpty_lineEnd isLast
        rw [isLineEnd, beq_eq_false_iff_ne.mpr notReturn, beq_eq_false_iff_ne.mpr notBreak]
          at empty
        exact isEmpty_iff.mp empty
    exact @lined_append [_] _
      (by simpa using terminated_stampLine unspaced (.inr noEnd)) (.last open_.1 open_.2)
  · exact .last open_.1 open_.2

end

section RoundTrip

variable {text kind revision : String}

theorem flatten_lines (text : String) : (lines text).flatten = text.toList :=
  flatten_splitInclusive _ _

theorem lines_ofList {texts : List (List Char)} (lined : Lined texts) :
    lines (String.ofList texts.flatten) = texts := by
  rw [lines, String.toList_ofList, lined.splitInclusive_flatten]

theorem unstamp_stamp (noStamp : ∀ line ∈ lines text, isStamp line = false)
    (ends : (lines text).any (endsKind kind) = true) (unspaced : Unspaced revision)
    (closed : ¬ EndsInReturn kind text) :
    unstamp (stamp text kind revision) = (text, some revision) := by
  have lined : Lined (lines text) := lined_splitInclusive _
  have markedLined : Lined ((lines text).flatMap (marked kind revision)) := by
    cases isLast : (lines text).getLast? with
    | none => simp [getLast?_eq_none_iff.mp isLast, Lined.nil]
    | some last =>
      rw [← dropLast_append_getLast? last isLast, flatMap_append,
        flatMap_singleton]
      apply lined_append (terminated_flatMap_marked unspaced lined.terminated)
      rcases lined.last_line isLast with terminated | open_
      · rw [← append_nil (marked kind revision last)]
        exact lined_append (terminated_marked unspaced terminated) .nil
      · exact lined_marked_last unspaced open_ fun isEnd isReturn =>
          closed ⟨last, isLast, isEnd, isReturn⟩
  have loop := @unstampLines_marked kind _ unspaced _ noStamp [] none
  rw [append_nil] at loop
  rw [unstamp, stamp_eq, lines_ofList markedLined, loop, ends]
  simp [unstampLines, flatten_lines]

/-- The stamp and the end of the component become one line, and the line goes. -/
theorem unstamp_stamp_return (noStamp : ∀ line ∈ lines text, isStamp line = false)
    (unspaced : Unspaced revision) (endsInReturn : EndsInReturn kind text) :
    unstamp (stamp text kind revision) ≠ (text, some revision) := by
  obtain ⟨last, isLast, isEnd, isReturn⟩ := endsInReturn
  have lined : Lined (lines text) := lined_splitInclusive _
  have split : lines text = (lines text).dropLast ++ [last] :=
    (dropLast_append_getLast? last isLast).symm
  have open_ : last ≠ [] ∧ '\n' ∉ last := by
    rcases lined.last_line isLast with ⟨front, -, rfl⟩ | open_
    · simp at isReturn
    · exact open_
  have hasEnd : (lineEnd last).isEmpty = false := isEmpty_lineEnd isReturn
  have joined : Lined ((lines text).dropLast.flatMap (marked kind revision) ++
      [stampLine revision last ++ last]) := by
    apply lined_append (terminated_flatMap_marked unspaced lined.terminated)
    refine .last (by simp [open_.1]) fun mem => ?_
    rw [stampLine_eq, stampEnd, hasEnd, if_neg Bool.false_ne_true, ← cons_append,
      ← append_assoc] at mem
    rcases mem_append.mp mem with inStamp | inLast
    · rcases mem_append.mp inStamp with inRevision | inEnd
      · exact noBreak_stamp unspaced inRevision
      · exact open_.2 (content_append last ▸ mem_append_right _ inEnd)
    · exact open_.2 inLast
  have isStamped : isStamp (stampLine revision last ++ last) = true := by
    rw [stampLine_eq, append_assoc, cons_append]
    exact isStamp_stampName _
  have isJoined : stamp text kind revision =
      String.ofList ((lines text).dropLast.flatMap (marked kind revision) ++
        [stampLine revision last ++ last]).flatten := by
    rw [stamp_eq]
    conv_lhs => rw [split]
    simp [marked, isEnd]
  have noStampFront : ∀ line ∈ (lines text).dropLast, isStamp line = false :=
    fun line mem => noStamp line (dropLast_subset _ mem)
  have kept : (unstamp (stamp text kind revision)).1 =
      String.ofList (lines text).dropLast.flatten := by
    rw [unstamp, isJoined, lines_ofList joined, unstampLines_marked unspaced noStampFront]
    simp [unstampLines, isStamped]
  intro same
  rw [same] at kept
  have lost : (lines text).flatten = (lines text).dropLast.flatten := by
    rw [flatten_lines, ← String.toList_ofList (l := (lines text).dropLast.flatten), ← kept]
  conv_lhs at lost => rw [split]
  simp [open_.1] at lost

theorem exists_keptLines {texts : List (List Char)} (lined : Lined texts) (inStamp : Bool)
    (found : Option String) :
    ∃ kept, Lined kept ∧ (∀ line ∈ kept, isStamp line = false) ∧
      (unstampLines inStamp found texts).1 = kept.flatten := by
  induction lined generalizing inStamp found with
  | nil => exact ⟨[], .nil, nofun, rfl⟩
  | @last line text noBreak =>
    rw [unstampLines]
    split
    · exact ⟨[], .nil, nofun, rfl⟩
    · split
      · exact ⟨[], .nil, nofun, rfl⟩
      · next plain =>
        exact ⟨[line], .last text noBreak, by simpa using plain, by simp [unstampLines]⟩
  | cons noBreak later ih =>
    rw [unstampLines]
    split
    · exact ih true found
    · split
      · exact ih true _
      · next plain =>
        obtain ⟨kept, keptLined, noStamp, isKept⟩ := ih false found
        refine ⟨_ :: kept, .cons noBreak keptLined, ?_, congrArg _ isKept⟩
        exact forall_mem_cons.mpr ⟨by simpa using plain, noStamp⟩

theorem unstampLines_plain {texts : List (List Char)}
    (noStamp : ∀ line ∈ texts, isStamp line = false) :
    unstampLines false none texts = (texts.flatten, none) := by
  induction texts with
  | nil => rfl
  | cons line rest ih =>
    rw [forall_mem_cons] at noStamp
    simp [unstampLines, noStamp.1, ih noStamp.2]

/-- No stamp is left in what unstamping gives, however the stamps were folded. -/
theorem unstamp_unstamp (text : String) :
    unstamp (unstamp text).1 = ((unstamp text).1, none) := by
  obtain ⟨kept, lined, noStamp, isKept⟩ :=
    exists_keptLines (lined_splitInclusive text.toList) false none
  have isText : (unstamp text).1 = String.ofList kept.flatten := congrArg String.ofList isKept
  rw [isText, unstamp, lines_ofList lined, unstampLines_plain noStamp]

end RoundTrip

/-! ## The versions that are kept -/

/-- The distinct versions of a history, both with the most recent first. -/
def distinct : List String → List String
  | [] => []
  | version :: older => version :: (distinct older).filter (· ≠ version)

/-- The extra after a history of versions, the most recent first. -/
def cachedExtra (serde : SerdeJson) : List String → Option String
  | [] => none
  | current :: older => some (extra serde current (cachedExtra serde older))

/-- A text that is no JSON array and not empty. -/
def PlainText (text : String) : Prop := text ≠ "" ∧ startsWith text '[' = false

theorem nodup_distinct (versions : List String) : (distinct versions).Nodup := by
  induction versions with
  | nil => exact nodup_nil
  | cons version older ih =>
    rw [distinct, nodup_cons]
    exact ⟨by simp, ih.filter _⟩

variable {version : String}

theorem mem_distinct {versions : List String} :
    version ∈ distinct versions ↔ version ∈ versions := by
  induction versions with
  | nil => rfl
  | cons newest older ih =>
    by_cases isNewest : version = newest
    · simp [distinct, isNewest]
    · simp [distinct, isNewest, ih]

theorem addVersions_append (versions older : List String) :
    ∃ more, addVersions versions older = versions ++ more := by
  induction older generalizing versions with
  | nil => exact ⟨[], (append_nil _).symm⟩
  | cons version older ih =>
    rw [addVersions]
    split
    · exact ⟨[], (append_nil _).symm⟩
    · split
      · exact ih versions
      · obtain ⟨more, added⟩ := ih (versions ++ [version])
        exact ⟨version :: more, by simp [added]⟩

/-- The loop keeps what it has, and the first older versions that it lacks. -/
theorem addVersions_eq {versions older : List String} (enough : versions.length ≤ kept)
    (nodup : older.Nodup) :
    addVersions versions older = (versions ++ older.filter (· ∉ versions)).take kept := by
  induction older generalizing versions with
  | nil => simp [addVersions, take_of_length_le enough]
  | cons version older ih =>
    rw [nodup_cons] at nodup
    rw [addVersions]
    split
    · next full => rw [take_append_of_le_length (Nat.le_of_eq full.symm),
        take_of_length_le enough]
    · next notFull =>
      split
      · next held => rw [ih enough nodup.2, filter_cons_of_neg (by simpa using held)]
      · next lacking =>
        have same : older.filter (· ∉ versions ++ [version]) = older.filter (· ∉ versions) := by
          apply filter_congr
          intro other mem
          have isOther : other ≠ version := fun same => nodup.1 (same ▸ mem)
          simp [isOther]
        rw [ih (by simp; omega) nodup.2, same,
          filter_cons_of_pos (by simpa using lacking)]
        simp

/-- Among distinct elements, one element more makes up for one that is left out. -/
theorem take_filter_ne {L : List String} (nodup : L.Nodup) (left : String) (count : Nat) :
    ((L.take (count + 1)).filter (· ≠ left)).take count = (L.filter (· ≠ left)).take count := by
  induction L generalizing count with
  | nil => simp
  | cons head rest ih =>
    rw [nodup_cons] at nodup
    rw [take_succ_cons]
    by_cases isLeft : head = left
    · subst isLeft
      have others : ∀ text ∈ rest, decide (text ≠ head) = true := by
        intro text mem
        exact decide_eq_true fun same => nodup.1 (same ▸ mem)
      have othersTaken : ∀ text ∈ rest.take count, decide (text ≠ head) = true :=
        fun text mem => others text (mem_of_mem_take mem)
      rw [filter_cons_of_neg (by simp), filter_cons_of_neg (by simp),
        filter_eq_self.mpr others, filter_eq_self.mpr othersTaken, take_take,
        Nat.min_self]
    · rw [filter_cons_of_pos (by simpa using isLeft),
        filter_cons_of_pos (by simpa using isLeft)]
      cases count with
      | zero => rfl
      | succ count => rw [take_succ_cons, take_succ_cons, ih nodup.2]

section
variable {serde : SerdeJson}

theorem versionsOf_extra {current : String} (plainText : PlainText current)
    (previous : Option String) :
    versionsOf serde (extra serde current previous) =
      addVersions [current] (previous.elim [] (versionsOf serde)) := by
  rw [extra]
  split
  · next version single =>
    have isCurrent : version = current := by
      obtain ⟨more, added⟩ := addVersions_append [current] (previous.elim [] (versionsOf serde))
      rw [single] at added
      exact (List.cons.inj added).1
    rw [single, isCurrent, versionsOf, plainText.2, if_neg Bool.false_ne_true,
      if_neg plainText.1]
  · rw [versionsOf, serde.bracketed, if_pos rfl, serde.reads, getD_some]

theorem versionsOf_cachedExtra {versions : List String}
    (plainText : ∀ version ∈ versions, PlainText version) :
    (cachedExtra serde versions).elim [] (versionsOf serde) = (distinct versions).take kept := by
  induction versions with
  | nil => rfl
  | cons current older ih =>
    rw [forall_mem_cons] at plainText
    have older_ := ih plainText.2
    rw [cachedExtra, elim_some, versionsOf_extra plainText.1, older_,
      addVersions_eq (by simp [kept]) ((nodup_distinct older).sublist (take_sublist _ _)),
      distinct]
    simp only [mem_singleton, kept, cons_append, nil_append, take_succ_cons]
    rw [take_filter_ne (nodup_distinct older)]

end

theorem baseFor_cachedExtra {serde : SerdeJson} {versions : List String}
    (plainText : ∀ version ∈ versions, PlainText version)
    (distinctRevisions : ∀ one ∈ versions, ∀ other ∈ versions,
      revisionOf one = revisionOf other → one = other) (cached : version ∈ versions) :
    baseFor serde (cachedExtra serde versions) (some (revisionOf version)) =
      if version ∈ (distinct versions).take kept then .ok (some version) else .error ⟨⟩ := by
  cases versions with
  | nil => cases cached
  | cons current older =>
    have keptVersions := @versionsOf_cachedExtra serde _ plainText
    rw [cachedExtra, elim_some] at keptVersions
    have same : ∀ other ∈ (distinct (current :: older)).take kept,
        revisionOf other = revisionOf version → other = version := fun other mem =>
      distinctRevisions other (mem_distinct.mp (mem_of_mem_take mem)) version cached
    rw [cachedExtra, baseFor, keptVersions]
    split
    · next found isFound =>
      have isSame := same found (mem_of_find?_eq_some isFound)
        (by simpa using find?_some isFound)
      subst isSame
      rw [if_pos (mem_of_find?_eq_some isFound)]
    · next notFound =>
      rw [if_neg]
      intro mem
      have differs := find?_eq_none.mp notFound version mem
      exact differs (by simp)

/-! ## Revisions -/

theorem digitChar_unspaced : ∀ digit < 16, Text.isWhitespace (Nat.digitChar digit) = false := by
  decide

theorem unspaced_toDigits (number : Nat) :
    ∀ char ∈ Nat.toDigits 16 number, Text.isWhitespace char = false := by
  induction number using Nat.strongRecOn with
  | _ number ih =>
    rw [Nat.toDigits_eq_if (by decide)]
    split
    · next small =>
      rw [forall_mem_singleton]
      exact digitChar_unspaced number small
    · intro char mem
      rcases mem_append.mp mem with early | late
      · exact ih (number / 16) (by omega) char early
      · rw [mem_singleton.mp late]
        exact digitChar_unspaced _ (Nat.mod_lt _ (by decide))

theorem unspaced_revisionOf (rendered : String) : Unspaced (revisionOf rendered) := by
  intro char mem
  rw [revisionOf, String.toList_ofList] at mem
  rcases mem_append.mp mem with zero | digit
  · rw [eq_of_mem_replicate zero]
    decide
  · exact unspaced_toDigits _ char digit

/-! ## Edits -/

/-- An edit of a cached version is saved against that version while it is kept, and is out
of sync afterwards. Unstamping takes stamping back, unless the text ends in a carriage
return behind the end of a component. -/
theorem edit_mergedAgainstBase (serde : SerdeJson) :
    (∀ versions : List String, (∀ version ∈ versions, PlainText version) →
      (∀ one ∈ versions, ∀ other ∈ versions, revisionOf one = revisionOf other → one = other) →
      ∀ version ∈ versions, ∀ edited : String, firstStamp edited = some (revisionOf version) →
        unstamp edited = (withoutStamps edited, some (revisionOf version)) ∧
        baseFor serde (cachedExtra serde versions) (unstamp edited).2 =
          if version ∈ (distinct versions).take kept then .ok (some version) else .error ⟨⟩) ∧
    (∀ version kind : String, (∀ line ∈ lines version, isStamp line = false) →
      (∃ line ∈ lines version, endsKind kind line = true) → ¬ EndsInReturn kind version →
      firstStamp (stamp version kind (revisionOf version)) = some (revisionOf version)) ∧
    (∀ text kind revision : String, (∀ line ∈ lines text, isStamp line = false) →
      (∃ line ∈ lines text, endsKind kind line = true) → Unspaced revision →
      (unstamp (stamp text kind revision) = (text, some revision) ↔ ¬ EndsInReturn kind text)) := by
  refine ⟨?_, ?_, ?_⟩
  · intro versions plainText distinctRevisions version cached edited isStamp
    have unstamped : unstamp edited = (withoutStamps edited, some (revisionOf version)) := by
      rw [unstamp_eq, isStamp]
    rw [unstamped]
    exact ⟨rfl, baseFor_cachedExtra plainText distinctRevisions cached⟩
  · intro version kind noStamp ends closed
    have unstamped := unstamp_stamp noStamp (any_eq_true.mpr ends)
      (unspaced_revisionOf version) closed
    rw [unstamp_eq, Prod.mk.injEq] at unstamped
    exact unstamped.2
  · intro text kind revision noStamp ends unspaced
    refine ⟨fun same endsInReturn => ?_, ?_⟩
    · exact unstamp_stamp_return noStamp unspaced endsInReturn same
    · exact unstamp_stamp noStamp (any_eq_true.mpr ends) unspaced

/-- Texts in a spelling of their own: a dot before each character, a comma after each text. -/
def writeDotted (texts : List String) : List Char :=
  texts.flatMap fun text => text.toList.flatMap (['.', ·]) ++ [',']

def readDotted : (text : List Char) → List Char → Option (List String)
  | [], [] => some []
  | text, '.' :: char :: rest => readDotted (text ++ [char]) rest
  | text, ',' :: rest => (readDotted [] rest).map (String.ofList text :: ·)
  | _, _ => none

theorem readDotted_text (before text rest : List Char) :
    readDotted before (text.flatMap (['.', ·]) ++ ',' :: rest) =
      (readDotted [] rest).map (String.ofList (before ++ text) :: ·) := by
  induction text generalizing before with
  | nil => simp [readDotted]
  | cons char text ih => simp [readDotted, ih]

theorem readDotted_writeDotted (texts : List String) :
    readDotted [] (writeDotted texts) = some texts := by
  induction texts with
  | nil => rfl
  | cons text texts ih =>
    rw [writeDotted] at ih
    rw [writeDotted, flatMap_cons, append_assoc]
    exact (readDotted_text [] text.toList _).trans (by simp [ih])

/-- A library with the laws that are assumed of `serde_json`. -/
def dottedJson : SerdeJson where
  toString texts := String.ofList ('[' :: writeDotted texts)
  fromStr text := readDotted [] text.toList.tail
  bracketed _ := by simp [startsWith]
  reads texts := by simp [readDotted_writeDotted]

def editedNote : String := "NOTE:c\r\nX-JMAP-BASE:af63dc4c8601ec8c\r\n"

theorem edit_mergedAgainstBase_note :
    (unstamp editedNote = (withoutStamps editedNote, some (revisionOf "a")) ∧
      baseFor dottedJson (cachedExtra dottedJson ["b", "a"]) (unstamp editedNote).2 =
        if "a" ∈ (distinct ["b", "a"]).take kept then .ok (some "a") else .error ⟨⟩) ∧
    firstStamp (stamp "END:VCARD" "VCARD" (revisionOf "END:VCARD")) =
      some (revisionOf "END:VCARD") ∧
    (unstamp (stamp "END:VCARD" "VCARD" "1") = ("END:VCARD", some "1") ↔
      ¬ EndsInReturn "VCARD" "END:VCARD") := by
  have noStamp : ∀ line ∈ lines "END:VCARD", isStamp line = false := by decide
  have ends : ∃ line ∈ lines "END:VCARD", endsKind "VCARD" line = true := by decide
  have closed : ¬ EndsInReturn "VCARD" "END:VCARD" := by
    rintro ⟨line, isLast, -, isReturn⟩
    cases isLast
    cases isReturn
  refine ⟨(edit_mergedAgainstBase dottedJson).1 ["b", "a"] ?_ ?_ "a" (by simp) editedNote ?_,
    (edit_mergedAgainstBase dottedJson).2.1 "END:VCARD" "VCARD" noStamp ends closed,
    (edit_mergedAgainstBase dottedJson).2.2 "END:VCARD" "VCARD" "1" noStamp ends ?_⟩
  · simp [PlainText, startsWith]
  · decide +kernel
  · decide +kernel
  · simp [Unspaced, Text.isWhitespace]

/-- A last line that a carriage return closes becomes a part of the stamp. -/
theorem unstamp_stamp_lone_return :
    unstamp (stamp "END:VEVENT\r" "VEVENT" "1") = ("", some "1\rEND:VEVENT") := by
  decide +kernel

end EvolutionJmap.EditBase
