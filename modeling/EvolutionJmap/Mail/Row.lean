import EvolutionJmap.MailSync.Basic
import EvolutionJmap.MailSync.Keywords

/-!
# The rows of a folder summary (`jmap-mail`, `message_info.rs` and `summary.rs`)

A row keeps the flags and labels that the user sees, the keywords that the server had at
the last listing, and what still waits for the server.  A listing is written around a
change that has not been sent.  `Row` has the columns that can change.
-/

namespace EvolutionJmap.Mail

open MailSync

/-- What has to happen on the server for a message to be filed somewhere else
(`jmap-mail-sync`, `mailboxes.rs`). -/
structure Filing where
  into : Id
  outOf : Option Id
  deriving DecidableEq, Repr

namespace Filing

def copiedInto (into : Id) : Filing := ⟨into, none⟩

def moved (outOf into : Id) : Filing := ⟨into, some outOf⟩

/-- The filing does not move the message. -/
def isEmpty (filing : Filing) : Bool := filing.outOf = some filing.into

end Filing

/-- A message in the folder summary. -/
structure Row (lower : String → String) where
  /-- The bits of the flags word that stand for keywords and attachments. -/
  flags : MessageFlags
  /-- The user flags. -/
  tags : List String
  /-- Camel's mark of a row that waits for the server. -/
  folderFlagged : Bool
  /-- The keywords that the last listing found on the message. -/
  serverKeywords : Keywords lower
  /-- A move or copy that could not be sent yet. -/
  pendingFiling : Option Filing

/-- Any NUL, CR or LF rewritten, as a C string column needs it. -/
def sanitized (text : String) : String :=
  String.ofList (text.toList.map fun char =>
    if char = '\x00' ∨ char = '\r' ∨ char = '\n' then '\ufffd' else char)

/-- A text that a C string column keeps as it is. -/
def Clean (text : String) : Prop := ∀ char ∈ text.toList, char ≠ '\x00' ∧ char ≠ '\r' ∧ char ≠ '\n'

instance (text : String) : Decidable (Clean text) :=
  List.decidableBAll _ _

theorem sanitized_of_clean {text : String} (clean : Clean text) : sanitized text = text := by
  have same : text.toList.map (fun char =>
      if char = '\x00' ∨ char = '\r' ∨ char = '\n' then '\ufffd' else char) =
        text.toList.map id := by
    apply List.map_congr_left
    intro char mem
    have kept := clean char mem
    simp [kept.1, kept.2.1, kept.2.2]
  rw [sanitized, same, List.map_id, String.ofList_toList]

theorem clean_sanitized (text : String) : Clean (sanitized text) := by
  intro char mem
  rw [sanitized, String.toList_ofList] at mem
  obtain ⟨source, -, rfl⟩ := List.mem_map.mp mem
  split
  · decide
  · next kept => simpa only [not_or] using kept

theorem flagKeywords_clean : ∀ entry ∈ flagKeywords, Clean entry.1 := by decide

section Columns

variable {lower : String → String}

def rowKeywords (row : Row lower) : Keywords lower := .new row.flags row.tags

/-- The change of the user that the row still holds. The mark decides, not the two
sets. -/
def outstandingChange (row : Row lower) : KeywordChange :=
  if row.folderFlagged then .between row.serverKeywords (rowKeywords row) else ⟨[], []⟩

/-- Write the columns that a later listing of the same message can change. The mark
of the row stays as it was. -/
def updateMessageInfo (row : Row lower) (message : MessageSummary) : Row lower :=
  let listed := Keywords.new message.flags message.tags
  let columns := (listed.patched (outstandingChange row)).split
  { row with
    flags := { columns.1 with attachments := message.flags.attachments }
    tags := columns.2.map sanitized
    serverKeywords := listed }

def newMessageInfo (message : MessageSummary) : Row lower :=
  updateMessageInfo ⟨{}, [], false, .empty, none⟩ message

end Columns

/-- The rows of a folder, by uid. -/
abbrev Rows (lower : String → String) : Type := BTreeMap String (Row lower)

section Summary

variable {lower : String → String} (rows : Rows lower)

def applyMessage (message : MessageSummary) : Rows lower :=
  let uid := sanitized message.uid
  match rows.get? uid with
  | some row => rows.insert uid (updateMessageInfo row message)
  | none => rows.insert uid (newMessageInfo message)

def removeAbsent (listed : List String) : Rows lower :=
  rows.retain fun uid _ => uid ∈ listed

def applyListing (messages : List MessageSummary) : Rows lower :=
  messages.foldl applyMessage
    (removeAbsent rows (messages.map fun message => sanitized message.uid))

def applyDelta (present : List MessageSummary) (absent : List Id) : Rows lower :=
  present.foldl applyMessage (absent.foldl (fun rows uid => rows.erase (sanitized uid)) rows)

/-- What a refresh does with the answer about its mailbox. -/
def applyUpdate : MessageUpdate → Rows lower
  | .unchanged _ => rows
  | .changed _ present absent => applyDelta rows present absent
  | .relisted _ messages => applyListing rows messages

end Summary

end EvolutionJmap.Mail
