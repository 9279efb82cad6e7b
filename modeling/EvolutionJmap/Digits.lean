import EvolutionJmap.Text

/-!
# Digits and letters

A text of ASCII digits has as many bytes as characters, so the byte positions of a slice
are character positions, and reading a printed number gives the number.  Changing the
case of a letter twice is changing it once.
-/

namespace EvolutionJmap.Text

open List Nat

/-! ## Letter case -/

theorem toNat_toLower (char : Char) : char.toLower.toNat =
    if 65 ≤ char.toNat ∧ char.toNat ≤ 90 then char.toNat + 32 else char.toNat := by
  rw [Char.toLower]
  split
  · next isUpper =>
    rw [ge_iff_le, UInt32.le_iff_toNat_le, UInt32.le_iff_toNat_le] at isUpper
    change 65 ≤ char.toNat ∧ char.toNat ≤ 90 at isUpper
    rw [if_pos isUpper]
    change (char.val + 32).toNat = _
    rw [UInt32.toNat_add]
    exact Nat.mod_eq_of_lt (lt_of_le_of_lt (Nat.add_le_add_right isUpper.2 32) (by decide))
  · next notUpper =>
    rw [ge_iff_le, UInt32.le_iff_toNat_le, UInt32.le_iff_toNat_le] at notUpper
    exact (if_neg notUpper).symm

/-! ## Characters -/

variable {char : Char}

section

variable (isDigit : char.isDigit = true)

include isDigit

theorem toNat_of_isDigit : 48 ≤ char.toNat ∧ char.toNat ≤ 57 := by
  simpa [Char.isDigit, UInt32.le_iff_toNat_le] using isDigit

theorem utf8Size_of_isDigit : char.utf8Size = 1 := by
  have small := (toNat_of_isDigit isDigit).2
  rw [Char.utf8Size, if_pos]
  rw [UInt32.le_iff_toNat_le]
  exact le_trans small (by decide)

theorem digit?_of_isDigit : digit? char = some (char.toNat - 48) := by
  have bounds := toNat_of_isDigit isDigit
  rw [digit?, if_pos]
  · rfl
  · exact bounds

end

theorem ne_of_isDigit (other : Char) (isDigit : char.isDigit = true)
    (noDigit : other.isDigit = false) : char ≠ other := by
  intro same
  rw [same, noDigit] at isDigit
  cases isDigit

/-! ## Bytes -/

section

variable {text : List Char}

section

variable (ascii : ∀ char ∈ text, char.utf8Size = 1)

include ascii

theorem byteLength_of_ascii : byteLength text = text.length := by
  rw [byteLength, map_congr_left (g := fun _ => 1) ascii]
  simp

theorem splitAtByte_append (bytes : Nat) (rest : List Char) :
    splitAtByte (text.length + bytes) (text ++ rest) =
      (splitAtByte bytes rest).map fun (before, after) => (text ++ before, after) := by
  induction text with
  | nil => simp
  | cons char text ih =>
    rw [forall_mem_cons] at ascii
    rw [length_cons, add_right_comm, cons_append, splitAtByte, ascii.1,
      if_pos (Nat.succ_le_succ (Nat.zero_le _)), Nat.add_sub_cancel, ih ascii.2, Option.map_map]
    · rfl
    · simp

theorem slice_front (rest : List Char) : slice 0 text.length (text ++ rest) = some text := by
  have split := splitAtByte_append ascii 0 rest
  simp only [splitAtByte, add_zero, Option.map_some, append_nil] at split
  simp [slice, splitAtByte, split]

end

end

/-! ## Numbers -/

def numberOf (digits : List Char) : Nat :=
  digits.foldl (fun number char => number * 10 + (char.toNat - 48)) 0

section

variable {digits : List Char} (all : ∀ char ∈ digits, char.isDigit = true)

include all

theorem digitsFrom_eq (number : Nat) :
    digitsFrom number digits =
      some (digits.foldl (fun number char => number * 10 + (char.toNat - 48)) number) := by
  induction digits generalizing number with
  | nil => rfl
  | cons char rest ih =>
    rw [forall_mem_cons] at all
    rw [digitsFrom, digit?_of_isDigit all.1]
    exact ih all.2 _

theorem parseUnsigned_of_digits :
    parseUnsigned width digits = (parseDigits digits).filter (· < 2 ^ width) := by
  cases digits with
  | nil => rfl
  | cons char rest =>
    have noSign : char ≠ '+' := ne_of_isDigit '+' (all char mem_cons_self) rfl
    unfold parseUnsigned
    split
    · next same => exact absurd (List.cons.inj same).1 noSign
    · rfl

theorem parseSigned_of_digits :
    parseSigned width digits = ((parseDigits digits).map Int.ofNat).filter fun number =>
      -2 ^ (width - 1) ≤ number ∧ number < 2 ^ (width - 1) := by
  cases digits with
  | nil => rfl
  | cons char rest =>
    have isDigit := all char mem_cons_self
    unfold parseSigned
    split
    · next same => exact absurd (List.cons.inj same).1 (ne_of_isDigit _ isDigit rfl)
    · next same => exact absurd (List.cons.inj same).1 (ne_of_isDigit _ isDigit rfl)
    · rfl

end

theorem parseDigits_eq {rest : List Char} (all : ∀ other ∈ char :: rest, other.isDigit = true) :
    parseDigits (char :: rest) = some (numberOf (char :: rest)) :=
  digitsFrom_eq all 0

theorem parseDigits_of_ne_nil {digits : List Char} (nonempty : digits ≠ [])
    (all : ∀ char ∈ digits, char.isDigit = true) : parseDigits digits = some (numberOf digits) := by
  cases digits with
  | nil => exact absurd rfl nonempty
  | cons char rest => exact parseDigits_eq all

variable (number : Nat)

theorem toList_toString : (toString number).toList = Nat.toDigits 10 number := by
  simp

theorem isDigit_toString : ∀ char ∈ (toString number).toList, char.isDigit = true := by
  intro char mem
  rw [toList_toString] at mem
  exact isDigit_of_mem_toDigits (by decide) (by decide) mem

theorem toString_ne_nil : (toString number).toList ≠ [] := by
  rw [toList_toString]
  exact toDigits_ne_nil

theorem numberOf_toString : numberOf (toString number).toList = number := by
  have same : numberOf (Nat.toDigits 10 number) =
      Nat.ofDigitChars 10 (Nat.toDigits 10 number) 0 := by
    simp only [numberOf, Nat.ofDigitChars, mul_comm]
    rfl
  rw [toList_toString, same, ofDigitChars_toDigits (by decide) (by decide)]

theorem parseDigits_toString : parseDigits (toString number).toList = some number := by
  rw [parseDigits_of_ne_nil (toString_ne_nil number) (isDigit_toString number),
    numberOf_toString]

variable {width : Nat}

theorem parseUnsigned_toString {number : Nat} (fits : number < 2 ^ width) :
    parseUnsigned width (toString number).toList = some number := by
  rw [parseUnsigned_of_digits (isDigit_toString number), parseDigits_toString]
  simpa using fits

theorem parseSigned_toString {number : Int}
    (fits : -2 ^ (width - 1) ≤ number ∧ number < 2 ^ (width - 1)) :
    parseSigned width (toString number).toList = some number := by
  cases number with
  | ofNat number =>
    change parseSigned width (toString number).toList = _
    rw [parseSigned_of_digits (isDigit_toString number), parseDigits_toString]
    simpa using fits
  | negSucc number =>
    have printed : (toString (Int.negSucc number)).toList =
        '-' :: (toString (number + 1)).toList := by
      change (("-" ++ toString (number + 1) : String)).toList = _
      rw [String.toList_append]
      rfl
    rw [printed, parseSigned, parseDigits_toString]
    change (some (Int.negSucc number)).filter _ = _
    simpa using fits

end EvolutionJmap.Text

namespace EvolutionJmap

variable (text : String)

theorem toAsciiLowercase_uppercase :
    toAsciiLowercase (toAsciiUppercase text) = toAsciiLowercase text := by
  simp [toAsciiLowercase, toAsciiUppercase, Function.comp_def]

theorem toAsciiUppercase_lowercase :
    toAsciiUppercase (toAsciiLowercase text) = toAsciiUppercase text := by
  simp [toAsciiLowercase, toAsciiUppercase, Function.comp_def]

theorem toAsciiLowercase_lowercase :
    toAsciiLowercase (toAsciiLowercase text) = toAsciiLowercase text := by
  rw [← toAsciiLowercase_uppercase (toAsciiLowercase text), toAsciiUppercase_lowercase,
    toAsciiLowercase_uppercase]

theorem splitText_joined {separator : Char} {texts : List String} (nonempty : texts ≠ [])
    (absent : ∀ text ∈ texts, separator ∉ text.toList) :
    splitText separator (joined separator texts) = texts := by
  rw [splitText, joined, String.toList_ofList, Text.split, List.splitOn_intercalate]
  · simp
  · simpa using absent
  · simpa using nonempty

end EvolutionJmap
