import EvolutionJmap.Client.Protocol
import EvolutionJmap.Proto.Date

/-!
# One message, in the shape that a folder summary keeps it

The `Email` object (`jmap-proto`, `mail.rs`) and its summary row
(`jmap-mail-sync`, `message.rs` and `date.rs`).  `Email` has the properties that
a row or a delta asks for.
-/

namespace EvolutionJmap.MailSync

structure EmailAddress where
  name : Option String
  email : String
  deriving DecidableEq, Repr

/-- An `Email` of RFC 8621. -/
structure Email where
  (id blobId threadId : Option Id := none)
  mailboxIds : Option (BTreeMap Id Bool) := none
  keywords : Option (BTreeMap String Bool) := none
  size : Option Nat := none
  receivedAt : Option String := none
  (messageId inReplyTo references : Option (List String) := none)
  («from» «to» cc : Option (List EmailAddress) := none)
  (subject sentAt : Option String := none)
  hasAttachment : Option Bool := none
  preview : Option String := none

/-- A failure of a mail synchronisation step. `panicked` is not a value of the
source's type: the call unwinds and gives no result. -/
inductive SyncError where
  | client (error : Error)
  | panicked

def SyncError.protocol (message : String) : SyncError := .client (.protocol message)

/-! ## Dates -/

def inYears (year : Int) : Bool := 1 ≤ year ∧ year ≤ 9999

def split3 (separator : Char) (text : List Char) :
    Option (List Char × List Char × List Char) :=
  match text.splitOn separator with
  | [first, second, third] => some (first, second, third)
  | _ => none

/-- Days of the date in front of the `T`, and the text behind it. -/
def splitDate (text : List Char) : Option (Int × List Char) := do
  let (date, rest) ← Text.splitOnce 'T' text
  let (year, month, day) ← split3 '-' date
  let year ← Text.parseSigned 64 year
  let month ← Text.parseUnsigned 32 month
  let day ← Text.parseUnsigned 32 day
  if !inYears year || month < 1 || 12 < month || day < 1 || daysInMonth year month < day then
    none
  else
    some (daysFromCivil year month day, rest)

/-- The fields of an offset without its sign; `+HH:MM` and `+HHMM` are accepted.
A four-octet text with a character across the middle panics. -/
def splitOffsetFields (offset : List Char) :
    Except SyncError (Option (List Char × List Char)) :=
  match Text.splitOnce ':' offset with
  | some fields => .ok (some fields)
  | none =>
    if Text.byteLength offset = 4 then
      match Text.splitAtByte 2 offset with
      | some fields => .ok (some fields)
      | none => .error .panicked
    else
      .ok none

/-- The seconds east of UTC that two offset fields stand for. -/
def offsetSeconds (negative : Bool) (hours minutes : List Char) : Option Int := do
  let hours ← Text.parseUnsigned 32 hours
  let minutes ← Text.parseUnsigned 32 minutes
  if 23 < hours || 59 < minutes then
    none
  else
    let seconds : Int := hours * 3600 + minutes * 60
    some (if negative then -seconds else seconds)

/-- The time and the offset it is at, in seconds east of UTC. -/
def splitOffset (text : List Char) : Except SyncError (Option (List Char × Int)) :=
  if text.getLast? = some 'Z' ∨ text.getLast? = some 'z' then
    .ok (some (text.dropLast, 0))
  else
    let time := text.takeWhile fun char => char ≠ '+' ∧ char ≠ '-'
    match text.drop time.length with
    | [] => .ok none
    | sign :: offset => do
        let fields ← splitOffsetFields offset
        return fields.bind fun (hours, minutes) =>
          (offsetSeconds (sign = '-') hours minutes).map fun seconds => (time, seconds)

/-- The seconds of the day that a time stands for. Fractions are cut off, and a
leap second counts as 59. -/
def secondsOfDay (time : List Char) : Option Int := do
  let (hour, minute, second) ← split3 ':' time
  let second := ((Text.splitOnce '.' second).map Prod.fst).getD second
  let hour ← Text.parseUnsigned 32 hour
  let minute ← Text.parseUnsigned 32 minute
  let second ← Text.parseUnsigned 32 second
  if 23 < hour || 59 < minute || 60 < second then
    none
  else
    some (hour * 3600 + minute * 60 + min second 59)

/-- Seconds since 1970-01-01T00:00:00Z, or nothing if the text is not a date. -/
def epochSeconds (text : String) : Except SyncError (Option Int) :=
  match splitDate text.toList with
  | none => .ok none
  | some (days, rest) => do
      let split ← splitOffset rest
      return split.bind fun (time, offset) =>
        (secondsOfDay time).map fun seconds => days * 86400 + seconds - offset

example : (epochSeconds "2026-01-15T10:30:00.5+01:00").toOption = some (some 1768469400) := by
  decide +kernel

/-! ## Summary rows -/

/-- The bits of Camel's flags word that a keyword or property sets. -/
structure MessageFlags where
  (seen answered flagged draft forwarded junk notJunk attachments : Bool := false)
  deriving DecidableEq, Repr

/-- What a row shows of a message. -/
structure MessageSummary where
  uid : Id
  (blobId threadId : Option Id)
  flags : MessageFlags
  tags : List String
  size : Nat
  (receivedAt sentAt : Option Int)
  subject : Option String
  («from» «to» cc : List EmailAddress)
  messageId : Option String
  references : List String
  preview : Option String
  deriving DecidableEq, Repr

/-- File one keyword as a flag or as a label. A false value is ignored. -/
def readKeyword (read : MessageFlags × List String) (keyword : String × Bool) :
    MessageFlags × List String :=
  let (flags, tags) := read
  if !keyword.2 then (flags, tags)
  else
    match toAsciiLowercase keyword.1 with
    | "$seen" => ({ flags with seen := true }, tags)
    | "$answered" => ({ flags with answered := true }, tags)
    | "$flagged" => ({ flags with flagged := true }, tags)
    | "$draft" => ({ flags with draft := true }, tags)
    | "$forwarded" => ({ flags with forwarded := true }, tags)
    | "$junk" => ({ flags with junk := true }, tags)
    | "$notjunk" => ({ flags with notJunk := true }, tags)
    | _ => (flags, tags ++ [keyword.1])

def readKeywords (email : Email) : MessageFlags × List String :=
  let flags : MessageFlags := { attachments := email.hasAttachment.getD false }
  match email.keywords with
  | none => (flags, [])
  | some keywords => keywords.entries.foldl readKeyword (flags, [])

/-- The ancestors of a message, oldest first, ending in the parent. -/
def referencesOf (email : Email) : List String :=
  let references := email.references.getD []
  match email.inReplyTo.bind List.head? with
  | some parent => if parent ∈ references then references else references ++ [parent]
  | none => references

def dateOf : Option String → Except SyncError (Option Int)
  | none => .ok none
  | some text => epochSeconds text

def MessageSummary.fromEmail (email : Email) : Except SyncError MessageSummary :=
  match email.id with
  | none => .error (.protocol "Email/get returned a message without an id")
  | some uid => do
      let (flags, tags) := readKeywords email
      let receivedAt ← dateOf email.receivedAt
      let sentAt ← dateOf email.sentAt
      return {
        uid, flags, tags, receivedAt, sentAt
        blobId := email.blobId
        threadId := email.threadId
        size := min (email.size.getD 0) (2 ^ 32 - 1)
        subject := email.subject
        «from» := email.«from».getD []
        «to» := email.«to».getD []
        cc := email.cc.getD []
        messageId := email.messageId.bind List.head?
        references := referencesOf email
        preview := email.preview }

theorem MessageSummary.fromEmail_uid {email : Email} {summary : MessageSummary}
    (ok : fromEmail email = .ok summary) : email.id = some summary.uid := by
  unfold fromEmail at ok
  split at ok
  · cases ok
  · next uid named =>
    obtain ⟨receivedAt, -, rest⟩ := Interaction.exceptBind_ok.mp ok
    obtain ⟨sentAt, -, made⟩ := Interaction.exceptBind_ok.mp rest
    cases made
    exact named

end EvolutionJmap.MailSync
