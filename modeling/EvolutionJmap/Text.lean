import Mathlib

/-!
# Text as a list of characters

The small text functions of the standard library that the modelled code uses,
by structural recursion, so that they can be evaluated and reasoned about.
-/

namespace EvolutionJmap

open List

variable {separator : Char}

namespace Text

/-- The text before and after the first `separator` (`split_once`). -/
def splitOnce (separator : Char) : List Char → Option (List Char × List Char)
  | [] => none
  | char :: rest =>
    if char = separator then some ([], rest)
    else (splitOnce separator rest).map fun (before, after) => (char :: before, after)

theorem of_splitOnce {text before after : List Char}
    (split : splitOnce separator text = some (before, after)) :
    text = before ++ separator :: after ∧ separator ∉ before := by
  induction text generalizing before with
  | nil => cases split
  | cons char rest ih =>
    rw [splitOnce] at split
    split at split
    · next same =>
      cases split
      exact ⟨by rw [same, nil_append], not_mem_nil⟩
    · next differs =>
      obtain ⟨⟨front, back⟩, inner, same⟩ := Option.map_eq_some_iff.mp split
      cases same
      obtain ⟨rfl, absent⟩ := ih inner
      refine ⟨rfl, ?_⟩
      rw [mem_cons, not_or]
      exact ⟨fun same => differs same.symm, absent⟩

theorem splitOnce_append {front back : List Char} (absent : ∀ char ∈ front, char ≠ separator) :
    splitOnce separator (front ++ separator :: back) = some (front, back) := by
  induction front with
  | nil => simp [splitOnce]
  | cons char rest ih =>
    rw [forall_mem_cons] at absent
    rw [cons_append, splitOnce, if_neg absent.1, ih absent.2]
    rfl

/-- The text around the byte at `bytes`, or nothing if that is inside a character
(`split_at`, which then panics). -/
def splitAtByte : Nat → List Char → Option (List Char × List Char)
  | 0, text => some ([], text)
  | _ + 1, [] => none
  | bytes, char :: rest =>
    if char.utf8Size ≤ bytes then
      (splitAtByte (bytes - char.utf8Size) rest).map fun (before, after) =>
        (char :: before, after)
    else none

/-- Octets of the text in UTF-8. -/
def byteLength (text : List Char) : Nat := (text.map Char.utf8Size).sum

/-- The text between two byte positions (`str::get`). -/
def slice (start stop : Nat) (text : List Char) : Option (List Char) :=
  (splitAtByte start text).bind fun (_, rest) =>
    (splitAtByte (stop - start) rest).map Prod.fst

/-- The text behind a first character of the given kind (`strip_prefix`). -/
def stripFirst (kind : Char → Bool) : List Char → Option (List Char)
  | [] => none
  | char :: rest => if kind char then some rest else none

/-- The text before a last character of the given kind (`strip_suffix`). -/
def stripLast (kind : Char → Bool) (text : List Char) : Option (List Char) :=
  (stripFirst kind text.reverse).map List.reverse

/-- The text behind a given beginning (`strip_prefix`). -/
def stripFront (front text : List Char) : Option (List Char) :=
  if front.isPrefixOf text then some (text.drop front.length) else none

/-- The text before a given end (`strip_suffix`). -/
def stripBack (back text : List Char) : Option (List Char) :=
  (stripFront back.reverse text.reverse).map List.reverse

/-- The text before and after the last `separator` (`rsplit_once`). -/
def splitLast (separator : Char) (text : List Char) : Option (List Char × List Char) :=
  (splitOnce separator text.reverse).map fun (after, before) => (before.reverse, after.reverse)

/-- Replace each occurrence of two characters, from the front (`replace`). -/
def replacePair (first second image : Char) : List Char → List Char
  | one :: other :: rest =>
    if one = first ∧ other = second then image :: replacePair first second image rest
    else one :: replacePair first second image (other :: rest)
  | rest => rest

/-- The text without its last characters of the given kind (`trim_end_matches`). -/
def trimEnd (kind : Char → Bool) (text : List Char) : List Char :=
  (text.reverse.dropWhile kind).reverse

/-- Characters with the Unicode property `White_Space` (`char::is_whitespace`). -/
def isWhitespace (char : Char) : Bool :=
  let code := char.toNat
  (0x09 ≤ code && code ≤ 0x0D) || code == 0x20 || code == 0x85 || code == 0xA0 ||
    code == 0x1680 || (0x2000 ≤ code && code ≤ 0x200A) || code == 0x2028 ||
    code == 0x2029 || code == 0x202F || code == 0x205F || code == 0x3000

/-- Characters of the general category `Cc` (`char::is_control`). -/
def isControl (char : Char) : Bool :=
  char.toNat < 0x20 || (0x7F ≤ char.toNat && char.toNat < 0xA0)

/-- The text without white space at its ends (`str::trim`). -/
def trim (text : List Char) : List Char :=
  trimEnd isWhitespace (text.dropWhile isWhitespace)

/-- The texts between the separators (`str::split`). -/
def split (separator : Char) (text : List Char) : List (List Char) :=
  text.splitOn separator

/-- The texts between the line breaks `\r\n`. -/
def splitCrlf : List Char → List (List Char)
  | [] => [[]]
  | '\r' :: '\n' :: rest => [] :: splitCrlf rest
  | char :: rest =>
    match splitCrlf rest with
    | [] => [[char]]
    | line :: lines => (char :: line) :: lines

/-! ## Numbers -/

def digit? (char : Char) : Option Nat :=
  if '0' ≤ char ∧ char ≤ '9' then some (char.toNat - '0'.toNat) else none

/-- Read decimal digits behind an already read number. -/
def digitsFrom : Nat → List Char → Option Nat
  | number, [] => some number
  | number, char :: rest =>
    match digit? char with
    | some digit => digitsFrom (number * 10 + digit) rest
    | none => none

def parseDigits : List Char → Option Nat
  | [] => none
  | digits => digitsFrom 0 digits

/-- An unsigned number below `2 ^ width`, with an optional plus sign
(`str::parse`). -/
def parseUnsigned (width : Nat) (text : List Char) : Option Nat :=
  let digits :=
    match text with
    | '+' :: rest => rest
    | _ => text
  (parseDigits digits).filter (· < 2 ^ width)

/-- A signed number of `width` bits, with an optional sign (`str::parse`). -/
def parseSigned (width : Nat) (text : List Char) : Option Int :=
  let number : Option Int :=
    match text with
    | '-' :: rest => (parseDigits rest).map fun number => -(number : Int)
    | '+' :: rest => (parseDigits rest).map Int.ofNat
    | _ => (parseDigits text).map Int.ofNat
  number.filter fun number => -2 ^ (width - 1) ≤ number ∧ number < 2 ^ (width - 1)

/-- A number with at least `width` digits, filled with zeros. -/
def padded (width number : Nat) : List Char :=
  let digits := (toString number).toList
  List.replicate (width - digits.length) '0' ++ digits

/-- A signed number of at least `width` characters, filled with zeros behind its
sign. -/
def paddedInt (width : Nat) : Int → List Char
  | .ofNat number => padded width number
  | .negSucc number => '-' :: padded (width - 1) (number + 1)

end Text

/-! ## Strings -/

variable (text : String)

def toAsciiLowercase : String :=
  String.ofList (text.toList.map Char.toLower)

def toAsciiUppercase : String :=
  String.ofList (text.toList.map Char.toUpper)

def eqIgnoreAsciiCase (left right : String) : Bool :=
  toAsciiLowercase left == toAsciiLowercase right

def containsText (text part : String) : Bool :=
  text.toList.tails.any fun suffix => part.toList.isPrefixOf suffix

def startsWith (char : Char) : Bool := text.toList.head? == some char

def endsWith (char : Char) : Bool := text.toList.getLast? == some char

def containsChar (char : Char) : Bool := text.toList.contains char

def joined (separator : Char) (texts : List String) : String :=
  String.ofList ([separator].intercalate (texts.map String.toList))

def splitText (separator : Char) (text : String) : List String :=
  (Text.split separator text.toList).map String.ofList

def splitTextOnce (separator : Char) (text : String) : Option (String × String) :=
  (Text.splitOnce separator text.toList).map fun (before, after) =>
    (String.ofList before, String.ofList after)

theorem splitTextOnce_append {front back : String} (absent : separator ∉ front.toList) :
    splitTextOnce separator (front ++ String.singleton separator ++ back) = some (front, back) := by
  have split : (front ++ String.singleton separator ++ back).toList =
      front.toList ++ separator :: back.toList := by simp
  have differs : ∀ char ∈ front.toList, char ≠ separator := by
    intro char mem same
    rw [same] at mem
    exact absent mem
  rw [splitTextOnce, split, Text.splitOnce_append differs]
  simp

def trimText : String := String.ofList (Text.trim text.toList)

theorem eqIgnoreAsciiCase_refl : eqIgnoreAsciiCase text text = true :=
  beq_self_eq_true _

variable {left right : String}

theorem eqIgnoreAsciiCase_symm (same : eqIgnoreAsciiCase left right = true) :
    eqIgnoreAsciiCase right left = true := by
  rw [eqIgnoreAsciiCase, beq_iff_eq] at same ⊢
  exact same.symm

theorem eqIgnoreAsciiCase_trans {middle : String} (first : eqIgnoreAsciiCase left middle = true)
    (second : eqIgnoreAsciiCase middle right = true) : eqIgnoreAsciiCase left right = true := by
  rw [eqIgnoreAsciiCase, beq_iff_eq] at first second ⊢
  exact first.trans second

end EvolutionJmap
