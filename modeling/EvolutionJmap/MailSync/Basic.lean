import EvolutionJmap.Client.Get
import EvolutionJmap.Client.Mirror
import EvolutionJmap.MailSync.Message

/-!
# Listing and refreshing one mailbox (`jmap-mail-sync`, `lib.rs`)

`messages` lists a mailbox.  `messagesSince` asks for the account's changes and reads
each changed message again to see whether the mailbox has it; it falls back to a listing
when the server cannot compute the changes or when they name more messages.
-/

namespace EvolutionJmap.MailSync

open Interaction

/-- Messages, filed in mailboxes. -/
def emailData : DataType Email := ⟨Email.id, Email.mailboxIds⟩

abbrev MailM (lookups : Lookups) (α : Type) : Type := ClientM lookups Email SyncError α

variable {lookups : Lookups}

/-- The value to use when the server does not publish `maxObjectsInGet`. -/
def fallbackObjectsInGet : Nat := 50

/-- The maximum number of ids in one `Email/get`. -/
def maxObjectsPerGet : Nat := 500

variable (client : Client)

/-- The number of ids in one `Email/get` for this account. -/
def objectsInGet : Nat :=
  min ((client.maxObjectsInGet.filter (0 < ·)).getD fallbackObjectsInGet) maxObjectsPerGet

/-- The maximum number of messages in a delta before a listing costs less. -/
def catchUpLimit (held objectsInGet : Nat) : Nat := max held objectsInGet

/-! ## Reading -/

/-- The state of the account's messages: an `Email/get` with no ids. -/
def emailState : MailM lookups State := do
  let response ← (ClientM.send (.get "Email/get" [])).mapError SyncError.client
  .done response.state

def emailGet (ids : List Id) : MailM lookups (List Email) := do
  let response ← (getChunked client "Email/get" emailData.id ids).mapError SyncError.client
  .done response.list

/-- The list in parts of `size`, with as many parts as `fuel` allows. -/
def chunksFrom {α : Type} (size : Nat) : Nat → List α → List (List α)
  | 0, _ => []
  | _ + 1, [] => []
  | fuel + 1, items => items.take size :: chunksFrom size fuel (items.drop size)

/-- The list in parts of `size` (`slice::chunks`). -/
def chunks {α : Type} (size : Nat) (items : List α) : List (List α) :=
  chunksFrom size items.length items

/-- The messages with the given ids, in as many requests as the limit asks for. -/
def fetch (ids : List Id) : MailM lookups (List Email) := do
  let emails ← Program.forEach (emailGet client) (chunks (objectsInGet client) ids)
  .done emails.flatten

/-! ## Listing -/

def rowsByUid : List Email → BTreeMap Id MessageSummary →
    Except SyncError (BTreeMap Id MessageSummary)
  | [], rows => .ok rows
  | email :: emails, rows =>
    match MessageSummary.fromEmail email with
    | .ok summary => rowsByUid emails (rows.insert summary.uid summary)
    | .error error => .error error

/-- The rows in the order of the ids. An id without a row is left out, and an id
that comes twice gets one row. -/
def takeRows : List Id → BTreeMap Id MessageSummary → List MessageSummary
  | [], _ => []
  | id :: ids, rows =>
    match rows.get? id with
    | some row => row :: takeRows ids (rows.erase id)
    | none => takeRows ids rows

/-- Every message of a mailbox and the state of that list. The state is read
before the query. -/
def messages (mailbox : Id) : MailM lookups (State × List MessageSummary) := do
  let state ← emailState
  let ids ← (queryEveryId client "Email/query" mailbox).mapError SyncError.client
  let emails ← fetch client ids
  let byUid ← .ofExcept (rowsByUid emails ∅)
  .done (state, takeRows ids byUid)

/-! ## Refreshing -/

/-- What one mailbox holds, compared with a state. -/
inductive MessageUpdate where
  | unchanged (state : State)
  | changed (state : State) (present : List MessageSummary) (absent : List Id)
  | relisted (state : State) (messages : List MessageSummary)

/-- The full listing, with its own state. -/
def relist (mailbox : Id) : MailM lookups MessageUpdate := do
  let (state, messages) ← messages client mailbox
  .done (.relisted state messages)

/-- Whether the mailbox has the message. A `false` entry violates the protocol. -/
def filedIn (mailbox : Id) (email : Email) : Except SyncError Bool :=
  match email.mailboxIds.bind (·.get? mailbox) with
  | some false =>
    let id := email.id.getD "<no id>"
    .error (.protocol
      s!"Email/get returned {id} with a false-valued mailboxIds entry for {mailbox}")
  | some true => .ok true
  | none => .ok false

/-- Sort the fetched messages into the rows of the mailbox and the uids that it
does not have. -/
def fileMessages (mailbox : Id) : List Email → List MessageSummary → BTreeSet Id →
    Except SyncError (List MessageSummary × BTreeSet Id)
  | [], present, absent => .ok (present, absent)
  | email :: emails, present, absent => do
      let filed ← filedIn mailbox email
      let summary ← MessageSummary.fromEmail email
      if filed then
        fileMessages mailbox emails (present ++ [summary]) absent
      else
        fileMessages mailbox emails present (BTreeSet.add absent summary.uid)

/-- The listing order: oldest first by server time, then by uid. A missing time
is the oldest. -/
def listedBefore (one other : MessageSummary) : Bool :=
  match one.receivedAt, other.receivedAt with
  | none, some _ => true
  | some _, none => false
  | none, none => one.uid ≤ other.uid
  | some first, some second => first < second ∨ (first = second ∧ one.uid ≤ other.uid)

/-- Read the messages that a delta names and sort them. An id that the server does
not return was destroyed meanwhile. -/
def lookUp (mailbox : Id) (changes : ChangeSet) (touched : List Id) :
    MailM lookups MessageUpdate := do
  let emails ← fetch client touched
  let (present, absent) ← .ofExcept (fileMessages mailbox emails [] changes.destroyed)
  let unanswered := touched.filter fun id =>
    id ∉ present.map MessageSummary.uid ∧ absent.contains id = false
  .done (.changed changes.newState (present.mergeSort listedBefore)
    (BTreeSet.union absent (BTreeSet.ofElems unanswered)).keys)

/-- What follows a delta. Created and updated messages are looked up alike: a
delta is about the account and says nothing about the mailbox. -/
def catchUp (mailbox : Id) (held : Nat) (changes : ChangeSet) : MailM lookups MessageUpdate :=
  let touched := changes.created.keys ++ changes.updated.keys
  if changes.isEmpty then
    .done (.unchanged changes.newState)
  else if touched.length > catchUpLimit held (objectsInGet client) then
    relist client mailbox
  else
    lookUp client mailbox changes touched

/-- The current contents of a mailbox, compared with its contents at `since`.
`held` is the number of rows that the caller has. -/
def messagesSince (mailbox : Id) (since : State) (held : Nat) : MailM lookups MessageUpdate := do
  let outcome ← (allChanges client "Email" since).attempt
  match outcome with
  | .ok changes => catchUp client mailbox held changes
  | .error error =>
    if error.needsFullResync then relist client mailbox
    else .fail (.client error)

/-! ## The rows of a folder -/

namespace MessageUpdate

/-- The state that the next refresh starts from. -/
def state : MessageUpdate → State
  | .unchanged state => state
  | .changed state _ _ => state
  | .relisted state _ => state

/-- The rows after an update: a delta leaves the rows that it does not name, and a
listing replaces all. -/
def apply (rows : BTreeMap Id MessageSummary) : MessageUpdate → BTreeMap Id MessageSummary
  | .unchanged _ => rows
  | .changed _ present absent =>
    present.foldl (fun rows row => rows.insert row.uid row)
      (absent.foldl BTreeMap.erase rows)
  | .relisted _ messages => cacheOf MessageSummary.uid messages

end MessageUpdate

/-- `messagesSince` with what a folder does with its result; `held` is the row
count that the folder gives. -/
def syncer (mailbox : Id) (held : Replica MessageSummary → Nat) :
    Syncer lookups Email SyncError MessageUpdate MessageSummary where
  call replica := messagesSince client mailbox replica.state (held replica)
  apply update replica := ⟨update.state, update.apply replica.cache⟩

end EvolutionJmap.MailSync
