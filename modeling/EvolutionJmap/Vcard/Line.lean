import EvolutionJmap.Ical.Component

/-!
# vCard content lines (`jmap-vcard/src/contact.rs`, `error.rs`)

A vCard is a list of content lines.  calcard prints one line and parses a text;
it is not part of the repository, so it is a parameter, as are the Unicode tables
of the standard library.
-/

namespace EvolutionJmap.Vcard

open Ical (ParameterValue paramText)

inductive VCardValue where
  | text (value : String)
  | component (items : List String)
  /-- A date with the members that the reader looks at, and the text that calcard
  formats it as. -/
  | partialDateTime (year month day tzHour : Option Nat) (formatted : Option String)
  /-- Any other value that has a text of its own. -/
  | typed (value : String)
  | binary (data : List UInt8) (contentType : Option String)
  | other
  deriving DecidableEq, Repr

structure VCardEntry where
  group : Option String := none
  name : String
  params : List (String × ParameterValue) := []
  values : List VCardValue := []
  deriving DecidableEq, Repr

/-- What the parser yields first. -/
inductive ParserEntry where
  | vCard (entries : List VCardEntry)
  | unterminatedComponent
  | invalidLine (line : String)
  | other
  deriving DecidableEq, Repr

/-- The library that prints content lines and parses texts. -/
structure Calcard where
  /-- One content line (`VCardEntry::write_to`). -/
  writeTo : VCardEntry → String
  /-- What the first call of `Parser::entry` yields, in strict mode. -/
  parse : String → ParserEntry

/-- A library that prints nothing and answers every text with one document. -/
def Calcard.fixed (entries : List VCardEntry) : Calcard where
  writeTo _ := ""
  parse _ := .vCard entries

/-- The Unicode tables of the standard library. -/
structure Unicode where
  isAlphanumeric : Char → Bool
  toLowercase : Char → List Char

/-- The crate `base64`: the engine `STANDARD`, and what `STANDARD_NO_PAD` reads. -/
structure Base64 where
  encode : List UInt8 → String
  decode : String → Option (List UInt8)
  decodeUnpadded : String → Option (List UInt8)

/-- A library that knows the empty text alone. -/
def Base64.empty : Base64 where
  encode _ := ""
  decode text := if text = "" then some [] else none
  decodeUnpadded text := if text = "" then some [] else none

/-- The tables for the characters of ASCII alone. -/
def Unicode.ascii : Unicode where
  isAlphanumeric := Char.isAlphanum
  toLowercase char := [char.toLower]

inductive VCardError where
  | notAVCard
  | unterminated
  | malformed (line : String)
  deriving DecidableEq, Repr

/-! ## Writing lines -/

def param (name value : String) : String × ParameterValue := (name, .text (caretEncoded value))

/-- The parameter that carries the map key of an entry. -/
def xJmapKey : String := "X-JMAP-KEY"

def keyParam (key : String) : String × ParameterValue := param xJmapKey key

def typeParam (value : String) : String × ParameterValue := param "TYPE" value

def line (name value : String) (params : List (String × ParameterValue) := []) : VCardEntry :=
  { name, params, values := [.text value] }

def listLine (name : String) (values : List String)
    (params : List (String × ParameterValue) := []) : VCardEntry :=
  { name, params, values := values.map .text }

/-- The text of a vCard. -/
def document (calcard : Calcard) (entries : List VCardEntry) : String :=
  String.ofList (foldOverlongLines
    ("BEGIN:VCARD\r\nVERSION:3.0\r\n".toList ++
      entries.flatMap (fun entry => (calcard.writeTo entry).toList) ++ "END:VCARD\r\n".toList))

/-! ## Reading lines -/

def valueText : VCardValue → Option String
  | .text value => some value
  | .component items => some (joined ',' items)
  | .partialDateTime year month day tzHour formatted =>
    -- calcard can read the second dash into the zone
    let day := day.or (tzHour.filter fun day => 1 ≤ day ∧ day ≤ 31)
    match year, month, day with
    | some year, some month, some day =>
      some (String.ofList
        (Text.padded 4 year ++ '-' :: Text.padded 2 month ++ '-' :: Text.padded 2 day))
    | _, _, _ => formatted
  | .typed value => some value
  | .binary _ _ | .other => none

variable (entry : VCardEntry)

def entryComponents : List String := entry.values.filterMap valueText

def entryText : String := joined ';' (entryComponents entry)

def entryTextList : String := joined ',' (entryComponents entry)

def entryBinary : Option (List UInt8) :=
  entry.values.findSome? fun value =>
    match value with
    | .binary data _ => some data
    | _ => none

def entryBinaryContentType : Option String :=
  entry.values.findSome? fun value =>
    match value with
    | .binary _ contentType => contentType
    | _ => none

def entryParam (name : String) : Option String :=
  (entry.params.find? fun param => eqIgnoreAsciiCase param.1 name).map fun param =>
    paramText param.2

def statesType (types value : String) : Bool :=
  let types := Text.trimEnd (· == '"') (types.toList.dropWhile (· == '"'))
  (Text.split ',' types).any fun token =>
    eqIgnoreAsciiCase (String.ofList (Text.trim token)) value

def entryHasType (value : String) : Bool :=
  entry.params.any fun param =>
    if eqIgnoreAsciiCase param.1 "TYPE" then statesType (paramText param.2) value
    else eqIgnoreAsciiCase param.1 value

def findLine (entries : List VCardEntry) (name : String) : Option VCardEntry :=
  entries.find? fun entry => eqIgnoreAsciiCase entry.name name

def textOf (entries : List VCardEntry) (name : String) : Option String :=
  ((findLine entries name).map entryText).filter (· ≠ "")

end EvolutionJmap.Vcard
