import EvolutionJmap.OrderedMap

/-!
# JSON values

An object keeps its members as an entry list in key order, as the source's JSON maps do.
Integers are exact; any other number is kept as its text, since the program only copies
it.
-/

namespace EvolutionJmap

/-- A JSON value. -/
inductive Value where
  | null
  | bool (value : Bool)
  | int (value : Int)
  | float (text : String)
  | string (text : String)
  | array (items : List Value)
  | object (members : List (String × Value))
  deriving Inhabited, Repr

namespace Value

mutual
def same : Value → Value → Bool
  | .null, .null => true
  | .bool left, .bool right => left == right
  | .int left, .int right => left == right
  | .float left, .float right => left == right
  | .string left, .string right => left == right
  | .array left, .array right => sameItems left right
  | .object left, .object right => sameMembers left right
  | _, _ => false

def sameItems : List Value → List Value → Bool
  | [], [] => true
  | left :: lefts, right :: rights => same left right && sameItems lefts rights
  | _, _ => false

def sameMembers : List (String × Value) → List (String × Value) → Bool
  | [], [] => true
  | (leftKey, left) :: lefts, (rightKey, right) :: rights =>
    leftKey == rightKey && same left right && sameMembers lefts rights
  | _, _ => false
end

mutual
theorem eq_of_same : ∀ left right : Value, same left right = true → left = right
  | .null, .null, _ => rfl
  | .bool _, .bool _, equal => by simp_all [same]
  | .int _, .int _, equal => by simp_all [same]
  | .float _, .float _, equal => by simp_all [same]
  | .string _, .string _, equal => by simp_all [same]
  | .array left, .array right, equal => by
      rw [same] at equal
      rw [eq_of_sameItems left right equal]
  | .object left, .object right, equal => by
      rw [same] at equal
      rw [eq_of_sameMembers left right equal]

theorem eq_of_sameItems :
    ∀ left right : List Value, sameItems left right = true → left = right
  | [], [], _ => rfl
  | left :: lefts, right :: rights, equal => by
      simp only [sameItems, Bool.and_eq_true] at equal
      rw [eq_of_same left right equal.1, eq_of_sameItems lefts rights equal.2]

theorem eq_of_sameMembers :
    ∀ left right : List (String × Value), sameMembers left right = true → left = right
  | [], [], _ => rfl
  | (_, left) :: lefts, (_, right) :: rights, equal => by
      simp only [sameMembers, Bool.and_eq_true, beq_iff_eq] at equal
      rw [equal.1.1, eq_of_same left right equal.1.2, eq_of_sameMembers lefts rights equal.2]
end

mutual
theorem same_refl : ∀ value : Value, same value value = true
  | .null => rfl
  | .bool _ => by simp [same]
  | .int _ => by simp [same]
  | .float _ => by simp [same]
  | .string _ => by simp [same]
  | .array items => by rw [same, sameItems_refl items]
  | .object members => by rw [same, sameMembers_refl members]

theorem sameItems_refl : ∀ items : List Value, sameItems items items = true
  | [] => rfl
  | item :: items => by simp [sameItems, same_refl item, sameItems_refl items]

theorem sameMembers_refl :
    ∀ members : List (String × Value), sameMembers members members = true
  | [] => rfl
  | (_, value) :: members => by
      simp [sameMembers, same_refl value, sameMembers_refl members]
end

instance : DecidableEq Value := fun left right =>
  if equal : same left right = true then
    isTrue (eq_of_same left right equal)
  else
    isFalse fun assumed => equal (assumed ▸ same_refl left)

/-- The member `key` of an object. -/
def get? (value : Value) (key : String) : Option Value :=
  match value with
  | .object members => Entries.get? key members
  | _ => none

def asStr : Value → Option String
  | .string text => some text
  | _ => none

def asBool : Value → Option Bool
  | .bool value => some value
  | _ => none

def asI64 : Value → Option Int
  | .int value => if -2 ^ 63 ≤ value ∧ value < 2 ^ 63 then some value else none
  | _ => none

def asU64 : Value → Option Nat
  | .int value => if 0 ≤ value ∧ value < 2 ^ 64 then some value.toNat else none
  | _ => none

def asObject : Value → Option (List (String × Value))
  | .object members => some members
  | _ => none

def asArray : Value → Option (List Value)
  | .array items => some items
  | _ => none

def isObject (value : Value) : Bool := value.asObject.isSome

def isNull : Value → Bool
  | .null => true
  | _ => false

def isBoolean (value : Value) : Bool := value.asBool.isSome

variable (members : List (String × Value))

/-- An object with the given members. A later member replaces an earlier one of
the same name. -/
def ofMembers : Value :=
  .object (BTreeMap.ofList members).entries

theorem get?_ofMembers (key : String) :
    (ofMembers members).get? key = Entries.get? key members.reverse :=
  BTreeMap.get?_ofList members key

def ofMap (map : BTreeMap String Value) : Value := .object map.entries

/-- The object members as a map, the first of equal names (`Map`). -/
def toMap : BTreeMap String Value :=
  BTreeMap.ofList members.reverse

theorem get?_toMap (key : String) : (toMap members).get? key = Entries.get? key members := by
  rw [toMap, BTreeMap.get?_ofList, List.reverse_reverse]

def ofOption (value : Option Value) : Value := value.getD .null

/-- A text, `null` for none. -/
def ofText (text : Option String) : Value := ofOption (text.map .string)

end Value

/-- A `PatchObject` (RFC 8620 §5.3): values by path. -/
abbrev Patch := BTreeMap String Value

end EvolutionJmap
