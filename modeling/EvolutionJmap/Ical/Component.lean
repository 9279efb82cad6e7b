import EvolutionJmap.Proto.Text

/-!
# iCalendar components and content lines (`jmap-ical/src/event.rs`, `error.rs`)

The mapping draws a tree of components and reads calcard's flat list of components that
refer to their children by index.  calcard prints one content line and parses a text; it
is not part of the repository, so it is a parameter.
-/

namespace EvolutionJmap.Ical

/-! ## Content lines -/

inductive LineValue where
  | text (value : String)
  | uri (value : String)
  | integer (value : Int)
  /-- Any other value that has a text of its own. -/
  | typed (value : String)
  /-- Binary data, inline or in a `data:` URI, which has no text. -/
  | bytes
  deriving DecidableEq, Repr

inductive ParameterValue where
  /-- A text with its caret escapes. -/
  | text (value : String)
  /-- Any other value, by the text that it is read as. -/
  | typed (value : String)
  deriving DecidableEq, Repr

structure ICalendarEntry where
  name : String
  params : List (String × ParameterValue) := []
  values : List LineValue := []
  deriving DecidableEq, Repr

def makeEntry (name value : String) : ICalendarEntry :=
  { name := name, values := [.text value] }

/-- A property with a URI value, written without the escapes of a text. -/
def makeUriEntry (name value : String) : ICalendarEntry :=
  { name := name, values := [.uri value] }

namespace ICalendarEntry

def withNamedParams (entry : ICalendarEntry) (name : String) (values : List String) :
    ICalendarEntry :=
  { entry with
    params := entry.params ++ values.map fun value => (name, .text (caretEncoded value)) }

def withNamedParam (entry : ICalendarEntry) (name value : String) : ICalendarEntry :=
  entry.withNamedParams name [value]

end ICalendarEntry

/-! ## The parsed document -/

structure ICalendarComponent where
  componentType : String
  entries : List ICalendarEntry := []
  componentIds : List Nat := []
  deriving DecidableEq, Repr

/-- What the parser yields: a calendar, a line that belongs to none, or another
kind of object. -/
inductive ParserEntry where
  | iCalendar (components : List ICalendarComponent)
  | invalidLine (line : String)
  | other

/-- The library that prints content lines and parses texts. -/
structure Calcard where
  /-- One content line (`ICalendarEntry::write_to`). -/
  writeTo : ICalendarEntry → String
  /-- What the calls of `Parser::entry` yield before the end of the text. -/
  parse : String → List ParserEntry

/-- A library that prints nothing and answers every text with one document. -/
def Calcard.fixed (document : List ICalendarComponent) : Calcard where
  writeTo _ := ""
  parse _ := [.iCalendar document]

/-! ## The drawn document -/

inductive Component where
  | mk (componentType : String) (entries : List ICalendarEntry) (children : List Component)

/-- Write one content line. A URI value is written as it is, without the control
characters. -/
def writeEntry (calcard : Calcard) (entry : ICalendarEntry) : List Char :=
  match entry.values with
  | [.uri uri] =>
    let line := (calcard.writeTo { entry with values := [] }).toList
    let head := if ['\r', '\n'].isSuffixOf line then line.dropLast.dropLast else line
    let colon := if head.getLast? = some ':' then [] else [':']
    head ++ colon ++ uri.toList.filter (fun char => !Text.isControl char) ++ ['\r', '\n']
  | _ => (calcard.writeTo entry).toList

namespace Component

def entries : Component → List ICalendarEntry
  | .mk _ entries _ => entries

def children : Component → List Component
  | .mk _ _ children => children

def withEntries : Component → List ICalendarEntry → Component
  | .mk name entries children, added => .mk name (entries ++ added) children

mutual
def writeInto (calcard : Calcard) : Component → List Char
  | .mk name entries children =>
    "BEGIN:".toList ++ name.toList ++ ['\r', '\n'] ++ entries.flatMap (writeEntry calcard) ++
      writeChildren calcard children ++ "END:".toList ++ name.toList ++ ['\r', '\n']

def writeChildren (calcard : Calcard) : List Component → List Char
  | [] => []
  | child :: children => writeInto calcard child ++ writeChildren calcard children
end

def toIcs (calcard : Calcard) (component : Component) : String :=
  String.ofList (foldOverlongLines (component.writeInto calcard))

end Component

/-- The `RRULE` line of a rule text, as calcard reads it. -/
def rruleEntry (calcard : Calcard) (rrule : String) : Option ICalendarEntry :=
  let raw := "BEGIN:VEVENT\r\nRRULE:" ++ rrule ++ "\r\nEND:VEVENT\r\n"
  match calcard.parse raw with
  | .iCalendar components :: _ =>
    components.getLast?.bind fun component =>
      component.entries.find? fun entry => entry.name == "RRULE"
  | _ => none

/-! ## Parsing -/

inductive ICalError where
  | notACalendar
  | unterminated (name : String)
  | mismatched (expected found : String)
  | trailing (line : String)
  | tooDeep (name : String)
  | noEvent
  deriving DecidableEq, Repr

/-- How deep component nesting may go before a document is refused. -/
def maxDepth : Nat := 32

def crlfToLf : List Char → List Char
  | '\r' :: '\n' :: rest => '\n' :: crlfToLf rest
  | char :: rest => char :: crlfToLf rest
  | [] => []

/-- One round of `unfold`; the lines are in reverse order. -/
def unfoldLine (lines : List (List Char)) (raw : List Char) : List (List Char) :=
  match Text.stripFirst (fun char => char == ' ' || char == '\t') raw, lines with
  | some rest, last :: before => (last ++ rest) :: before
  | _, _ =>
    let line := Text.trimEnd (· == '\r') raw
    if line = [] then lines else line :: lines

def unfoldText (text : List Char) : List (List Char) :=
  ((Text.split '\n' (crlfToLf text)).foldl unfoldLine []).reverse

/-- The loop of `check_structure`, with the open components. -/
def checkLines : List (List Char) → List String → Except ICalError Unit
  | [], [] => .ok ()
  | [], name :: _ => .error (.unterminated name)
  | line :: lines, «open» =>
    match Text.splitOnce ':' line with
    | none => checkLines lines «open»
    | some (keyword, rest) =>
      let keyword := String.ofList keyword
      let name := toAsciiUppercase (String.ofList (Text.trim rest))
      if name = "" then checkLines lines «open»
      else if eqIgnoreAsciiCase keyword "BEGIN" then checkLines lines (name :: «open»)
      else if eqIgnoreAsciiCase keyword "END" then
        match «open» with
        | [] => checkLines lines []
        | expected :: outer =>
          if expected = name then checkLines lines outer
          else .error (.mismatched expected name)
      else checkLines lines «open»

def checkStructure (text : String) : Except ICalError Unit :=
  let text := text.toList
  let text := (Text.stripFirst (· == '\uFEFF') text).getD text
  checkLines (unfoldText text) []

/-- The walk of `check_depth` from one component. The source keeps the components
to visit on a stack, so the last child comes first. -/
def checkDepthFrom (components : List ICalendarComponent) :
    (remaining : Nat) → (index : Nat) → Except ICalError Unit
  | 0, index =>
    match components[index]? with
    | none => .ok ()
    | some component => .error (.tooDeep (toAsciiUppercase component.componentType))
  | remaining + 1, index =>
    match components[index]? with
    | none => .ok ()
    | some component =>
      component.componentIds.reverse.forM fun child =>
        checkDepthFrom components remaining child

def checkDepth (components : List ICalendarComponent) : Except ICalError Unit :=
  checkDepthFrom components maxDepth 0

def parseIcal (calcard : Calcard) (text : String) :
    Except ICalError (List ICalendarComponent) := do
  checkStructure text
  match calcard.parse text with
  | [.iCalendar components] =>
    match components with
    | [] => .error .notACalendar
    | root :: _ =>
      if eqIgnoreAsciiCase root.componentType "VCALENDAR" then
        checkDepth components
        .ok components
      else .error .notACalendar
  | .iCalendar _ :: .invalidLine line :: _ => .error (.trailing line)
  | .iCalendar _ :: _ => .error (.trailing "BEGIN:VCALENDAR")
  | _ => .error .notACalendar

/-! ## Reading lines -/

def valueText : LineValue → Option String
  | .text value | .uri value | .typed value => some value
  | .integer value => some (toString value)
  | .bytes => none

def paramText : ParameterValue → String
  | .text value => caretDecoded value
  | .typed value => value

variable (entry : ICalendarEntry)

def entryTexts : List String := entry.values.filterMap valueText

def entryText : String := joined ',' (entryTexts entry)

def entryRawValue : String := entryText entry

def entryParamValues (name : String) : List String :=
  (entry.params.filter fun param => eqIgnoreAsciiCase param.1 name).map fun param =>
    paramText param.2

def entryParam (name : String) : Option String :=
  (entryParamValues entry name).head?

def componentEntries (component : ICalendarComponent) (name : String) :
    List ICalendarEntry :=
  component.entries.filter fun entry => eqIgnoreAsciiCase entry.name name

def componentEntry (component : ICalendarComponent) (name : String) :
    Option ICalendarEntry :=
  (componentEntries component name).head?

def componentText (component : ICalendarComponent) (name : String) : Option String :=
  (componentEntry component name).map entryText

def childrenOf (components : List ICalendarComponent) (component : ICalendarComponent) :
    List ICalendarComponent :=
  component.componentIds.filterMap fun id => components[id]?

end EvolutionJmap.Ical
