import EvolutionJmap.Mail.Synchronize

/-!
# Moving and copying messages (`jmap-mail`, `transfer.rs`)

A move or copy that finds no connection is kept on the row of the message, reported as
done and sent later by `synchronizeSync`.  `Folder` is the source folder with the
account on the server; the folder lock of Camel keeps the operations on one folder
apart, and other clients act before every request.
-/

namespace EvolutionJmap.Mail

open MailSync BTreeMap List Option

/-- The mailboxes of each message, and what has been destroyed. -/
structure Account where
  mailboxIds : String → List Id
  gone : List String
  removed : List Id

namespace Account

/-- A destroyed message or mailbox does not come back. -/
def Precedes (earlier later : Account) : Prop :=
  earlier.gone ⊆ later.gone ∧ earlier.removed ⊆ later.removed

instance (earlier later : Account) : Decidable (earlier.Precedes later) :=
  inferInstanceAs (Decidable (_ ∧ _))

theorem Precedes.trans {first second third : Account} (one : first.Precedes second)
    (two : second.Precedes third) : first.Precedes third :=
  ⟨List.Subset.trans one.1 two.1, List.Subset.trans one.2 two.2⟩

theorem Precedes.refl (account : Account) : account.Precedes account :=
  ⟨List.Subset.refl _, List.Subset.refl _⟩

def setMailboxes (account : Account) (uid : String) (mailboxes : List Id) : Account :=
  { account with
    mailboxIds := fun other => if other = uid then mailboxes else account.mailboxIds other }

end Account

def Filing.apply (filing : Filing) (mailboxIds : List Id) : List Id :=
  filing.into :: mailboxIds.filter fun mailbox =>
    mailbox ≠ filing.into ∧ some mailbox ≠ filing.outOf

/-- The requests that an operation on a folder can send about one message. -/
inductive Request where
  | keywords (uid : String)
  | filing (uid : String)
  | removal (uid : String)
  deriving DecidableEq, Repr

/-- The account as a request finds it, and what the store answers. -/
structure Reply where
  account : Account
  answer : Except StoreError Unit

/-- A success needs `accepted`, and a message that is not found was destroyed. -/
def Reply.possible (reply : Reply) (uid : String) (accepted : Bool) : Bool :=
  match reply.answer with
  | .ok _ => accepted
  | .error .noMessage => decide (uid ∈ reply.account.gone)
  | .error _ => true

abbrev Replies : Type := Request → Reply

/-- A folder, its account, and the transfers that were reported without a connection
and that the server has not carried out since. -/
structure Folder (lower : String → String) where
  mailbox : Id
  rows : Rows lower
  /-- The rows that the user marked deleted. -/
  deleted : List String
  account : Account
  owed : List (String × Filing)

inductive Filed where
  | landed
  | queued
  | noOp
  deriving DecidableEq, Repr

/-- Which call walks the folder (`expunge.rs`). -/
inductive Walk where
  | expunge
  | synchronize
  | fileInTrash
  deriving DecidableEq, Repr

def failureOf {α : Type} : Except StoreError α → Option StoreError
  | .ok _ => none
  | .error failure => some failure

variable {first second third : Folder lower} {reply : Reply} {accepted : Bool}
  {answer : Except StoreError Unit} {work uids : List String}

namespace Folder

variable {lower : String → String} (folder : Folder lower)

def setRow (uid : String) (row : Row lower) : Folder lower :=
  { folder with rows := folder.rows.insert uid row }

def removeRow (uid : String) : Folder lower :=
  { folder with rows := folder.rows.erase uid }

/-- One request about a message. The server carries out `effect` on a success. -/
def request (reply : Reply) (uid : String) (accepted : Bool)
    (effect : Folder lower → Folder lower) :
    Option (Except StoreError Unit × Folder lower) :=
  if folder.account.Precedes reply.account ∧ reply.possible uid accepted = true then
    match reply.answer with
    | .ok _ => some (.ok (), effect { folder with account := reply.account })
    | .error failure => some (.error failure, { folder with account := reply.account })
  else none

/-- `JmapStore::set_keywords`. The keywords of a message are no part of the folder's
account. -/
def setKeywords (replies : Replies) (uid : String) :
    Option (Except StoreError Unit × Folder lower) :=
  let reply := replies (.keywords uid)
  folder.request reply uid (decide (uid ∉ reply.account.gone)) id

def filed (uid : String) (filing : Filing) : Folder lower :=
  { folder with
    account := folder.account.setMailboxes uid (filing.apply (folder.account.mailboxIds uid))
    owed := folder.owed.filter fun transfer => transfer ≠ (uid, filing) }

/-- `JmapStore::file_message`. -/
def sendFiling (replies : Replies) (uid : String)
    (filing : Filing) : Option (Except StoreError Unit × Folder lower) :=
  let reply := replies (.filing uid)
  folder.request reply uid
    (decide (uid ∉ reply.account.gone) && decide (filing.into ∉ reply.account.removed))
    fun folder => folder.filed uid filing

/-- The server removes a message from the mailbox: `trash_message` with a trash,
`expunge_message` without. -/
def withdrawn (uid : String) (trash : Option Id) : Folder lower :=
  let filedIn := folder.account.mailboxIds uid
  if folder.mailbox ∉ filedIn then folder
  else if filedIn.length > 1 then
    { folder with account := folder.account.setMailboxes uid (filedIn.erase folder.mailbox) }
  else
    match trash with
    | some trash =>
      { folder with account :=
          folder.account.setMailboxes uid ((Filing.moved folder.mailbox trash).apply filedIn) }
    | none => { folder with account := { folder.account with gone := uid :: folder.account.gone } }

def sendRemoval (replies : Replies) (uid : String)
    (trash : Option Id) : Option (Except StoreError Unit × Folder lower) :=
  let reply := replies (.removal uid)
  folder.request reply uid (decide (uid ∉ reply.account.gone)) fun folder =>
    folder.withdrawn uid trash

/-- Send the keyword change of one row, and settle the row. -/
def pushRow (replies : Replies) (uid : String) :
    Option (Except StoreError Unit × Folder lower) :=
  match folder.rows.get? uid with
  | none => some (.ok (), folder)
  | some row =>
    let after := rowKeywords row
    if (KeywordChange.between row.serverKeywords after).isEmpty then
      some (.ok (), folder.setRow uid (settle row after (.ok ())))
    else
      (folder.setKeywords replies uid).map fun sent =>
        (if sent.1 = .error .noMessage then .ok () else sent.1,
          sent.2.setRow uid (settle row after sent.1))

/-- Record a filing on its row, and mark the row. The transfer is reported, so it is
owed from here on. -/
def queueFiling (uid : String) (filing : Filing) : Filed × Folder lower :=
  match folder.rows.get? uid with
  | none => (.noOp, folder)
  | some row =>
    (.queued,
      { folder.setRow uid { row with pendingFiling := some filing, folderFlagged := true } with
        owed := (uid, filing) :: folder.owed })

/-- File one message. A move settles the row first. -/
def fileMessage (replies : Replies) (uid : String) (filing : Filing) (moving : Bool) :
    Option (Except StoreError Filed × Folder lower) :=
  (if moving then folder.pushRow replies uid else some (.ok (), folder)).bind fun pushed =>
    match pushed.1 with
    | .error failure => some (.error failure, pushed.2)
    | .ok _ => (pushed.2.sendFiling replies uid filing).map fun sent =>
      match sent.1 with
      | .ok _ => (.ok .landed, sent.2)
      | .error .disconnected =>
        ((.ok (sent.2.queueFiling uid filing).1), (sent.2.queueFiling uid filing).2)
      | .error failure => (.error failure, sent.2)

/-- Whether the row of a message leaves the folder. -/
def leaves (moving : Bool) : Except StoreError Filed → Bool
  | .ok .landed => moving
  | .ok _ => false
  | .error .noMessage => true
  | .error _ => false

def transferMessage (replies : Replies) (filing : Filing) (moving : Bool)
    (state : Option StoreError × Folder lower) (uid : String) :
    Option (Option StoreError × Folder lower) :=
  (state.2.fileMessage replies uid filing moving).map fun filed =>
    (state.1.or (failureOf filed.1),
      if leaves moving filed.1 then filed.2.removeRow uid else filed.2)

/-- `transfer_messages_to_sync`: the first failure, and the folder afterwards. -/
def transferMessagesTo (replies : Replies) (into : Id)
    (uids : List String) (moving : Bool) : Option (Option StoreError × Folder lower) :=
  let filing := if moving then Filing.moved folder.mailbox into else Filing.copiedInto into
  if filing.isEmpty then some (none, folder)
  else uids.foldlM (transferMessage replies filing moving) (none, folder)

/-- Send the filing that a row carries. The answer says whether the row leaves. -/
def replayFiling (replies : Replies) (uid : String) :
    Option (Except StoreError Bool × Folder lower) :=
  match folder.rows.get? uid with
  | none => some (.ok false, folder)
  | some row =>
    match row.pendingFiling with
    | none => some (.ok false, folder)
    | some filing =>
      (folder.sendFiling replies uid filing).map fun sent =>
        match sent.1 with
        | .ok _ =>
          (.ok filing.outOf.isSome,
            sent.2.setRow uid { row with pendingFiling := none, folderFlagged := false })
        | .error .disconnected =>
          (.ok false, sent.2.setRow uid { row with folderFlagged := true })
        | .error .noMessage =>
          (.ok false,
            sent.2.setRow uid { row with pendingFiling := none, folderFlagged := false })
        | .error .refused => (.error .refused, sent.2)

/-- One row of the work list, after the first failure so far. -/
def synchronizeRow (replies : Replies) (state : Option StoreError × Folder lower)
    (uid : String) : Option (Option StoreError × Folder lower) :=
  (state.2.pushRow replies uid).bind fun pushed =>
    (pushed.2.replayFiling replies uid).map fun replayed =>
      ((state.1.or (failureOf pushed.1)).or (failureOf replayed.1),
        if replayed.1 = .ok true then replayed.2.removeRow uid else replayed.2)

/-- One message of the expunge walk, after the first failure so far. -/
def expungeMessage (replies : Replies) (moveInto : Option Id)
    (state : Option StoreError × Folder lower) (uid : String) :
    Option (Option StoreError × Folder lower) :=
  (state.2.sendRemoval replies uid moveInto).map fun sent =>
    match sent.1 with
    | .ok _ => (state.1, sent.2.removeRow uid)
    | .error .noMessage => (state.1, sent.2.removeRow uid)
    | .error .disconnected => (state.1, sent.2)
    | .error failure => (state.1.or (some failure), sent.2)

def marked : List String := folder.rows.keys.filter fun uid => uid ∈ folder.deleted

/-- The messages that a walk removes: an expunge of the trash takes them all. -/
def expungeWork (walk : Walk) (trash : Option Id) : List String :=
  let unmarked := folder.rows.keys.filter fun uid => uid ∉ folder.deleted
  if walk = .expunge ∧ trash = some folder.mailbox then folder.marked ++ unmarked
  else folder.marked

/-- The mailbox that a removed message goes to. -/
def moveInto (trash : Option Id) : Option Id :=
  if trash = some folder.mailbox then none else trash

/-- Remove the marked messages. `trash` is what the folder listing says about the
mailbox with that role. -/
def expungeFolder (replies : Replies) (walk : Walk)
    (trash : Except StoreError (Option Id)) : Option (Option StoreError × Folder lower) :=
  if folder.marked.isEmpty ∧ walk ≠ .expunge then some (none, folder)
  else
    match trash with
    | .error failure => some (some failure, folder)
    | .ok trash =>
      if walk = .fileInTrash ∧ (trash = none ∨ trash = some folder.mailbox) then
        some (none, folder)
      else
        (folder.expungeWork walk trash).foldlM (expungeMessage replies (folder.moveInto trash))
          (none, folder)

/-- `synchronize_sync`: the first failure, and the folder afterwards. `work` is the
list of changed rows that Camel keeps. -/
def synchronizeSync (replies : Replies) (work : List String)
    (expunge : Bool) (trash : Except StoreError (Option Id)) :
    Option (Option StoreError × Folder lower) :=
  (work.foldlM (synchronizeRow replies) (none, folder)).bind fun walked =>
    (walked.2.expungeFolder replies (if expunge then .synchronize else .fileInTrash) trash).map
      fun expunged => (walked.1.or expunged.1, expunged.2)

/-! ## What an operation on one message can change -/

variable {folder next : Folder lower} {replies : Replies} {uid : String}

/-- The folder as a request finds it. -/
abbrev met (folder : Folder lower) (account : Account) : Folder lower :=
  { folder with account := account }

/-- The message of a transfer or its destination has been destroyed. -/
def Moot (account : Account) (uid : String) (filing : Filing) : Prop :=
  uid ∈ account.gone ∨ filing.into ∈ account.removed

theorem Moot.later {earlier later : Account} {filing : Filing} (moot : Moot earlier uid filing)
    (precedes : earlier.Precedes later) : Moot later uid filing :=
  moot.imp (precedes.1 ·) (precedes.2 ·)

/-- The row carries the filing. -/
def Carries (folder : Folder lower) (uid : String) (filing : Filing) : Prop :=
  ∃ row, folder.rows.get? uid = some row ∧ row.pendingFiling = some filing

/-- The row carries the filing and is on the work list. -/
def Queued (folder : Folder lower) (uid : String) (filing : Filing) : Prop :=
  ∃ row, folder.rows.get? uid = some row ∧ row.pendingFiling = some filing ∧
    row.folderFlagged = true

theorem Queued.carries {filing : Filing} (queued : folder.Queued uid filing) :
    folder.Carries uid filing := by
  obtain ⟨row, found, carried, -⟩ := queued
  exact ⟨row, found, carried⟩

/-- Every transfer that is owed still waits on its row, or is moot. -/
def Inv (folder : Folder lower) : Prop :=
  ∀ uid filing, (uid, filing) ∈ folder.owed → Moot folder.account uid filing ∨
    folder.Queued uid filing

/-- An operation about one message leaves the other rows and transfers alone. -/
structure Touches (uid : String) (before after : Folder lower) : Prop where
  mailbox : after.mailbox = before.mailbox
  deleted : after.deleted = before.deleted
  account : before.account.Precedes after.account
  rows : ∀ other, other ≠ uid → after.rows.get? other = before.rows.get? other
  owed : ∀ other filing, other ≠ uid → (other, filing) ∈ after.owed →
    (other, filing) ∈ before.owed

namespace Touches

theorem refl (folder : Folder lower) (uid : String) : Touches uid folder folder :=
  ⟨rfl, rfl, .refl _, fun _ _ => rfl, fun _ _ _ => id⟩

theorem trans (one : Touches uid first second) (two : Touches uid second third) :
    Touches uid first third :=
  ⟨two.mailbox.trans one.mailbox, two.deleted.trans one.deleted, one.account.trans two.account,
    fun other differs => (two.rows other differs).trans (one.rows other differs),
    fun other filing differs owed =>
      one.owed other filing differs (two.owed other filing differs owed)⟩

theorem ofRows {rows : Rows lower}
    (others : ∀ other, other ≠ uid → rows.get? other = folder.rows.get? other) :
    Touches uid folder { folder with rows := rows } :=
  ⟨rfl, rfl, .refl _, others, fun _ _ _ => id⟩

theorem setRow (folder : Folder lower) (uid : String) (row : Row lower) :
    Touches uid folder (folder.setRow uid row) := by
  apply ofRows
  intro other differs
  exact (get?_insert ..).trans (if_neg differs)

theorem removeRow (folder : Folder lower) (uid : String) :
    Touches uid folder (folder.removeRow uid) := by
  apply ofRows
  intro other differs
  exact (get?_erase ..).trans (if_neg differs)

/-- An operation keeps the invariant if it keeps it for its own message. -/
theorem inv {before after : Folder lower} (touches : Touches uid before after)
    (inv : before.Inv) (here : ∀ filing, (uid, filing) ∈ after.owed →
      Moot after.account uid filing ∨ after.Queued uid filing) : after.Inv := by
  intro other filing owed
  by_cases same : other = uid
  · subst same
    exact here filing owed
  · refine (inv other filing (touches.owed other filing same owed)).imp
      (·.later touches.account) fun queued => ?_
    obtain ⟨row, found, waiting⟩ := queued
    exact ⟨row, (touches.rows other same).trans found, waiting⟩

end Touches

@[simp] theorem get?_setRow (folder : Folder lower) (uid : String)
    (row : Row lower) : (folder.setRow uid row).rows.get? uid = some row :=
  get?_insert_self ..

@[simp] theorem get?_removeRow (folder : Folder lower) (uid : String) :
    (folder.removeRow uid).rows.get? uid = none :=
  (get?_erase ..).trans (if_pos rfl)

theorem request_cases {effect : Folder lower → Folder lower}
    (requested : folder.request reply uid accepted effect = some (answer, next)) :
    folder.account.Precedes reply.account ∧ reply.possible uid accepted = true ∧
      reply.answer = answer ∧
      ((answer = .ok () ∧ next = effect (folder.met reply.account)) ∨
        ∃ failure, answer = .error failure ∧ next = folder.met reply.account) := by
  unfold request at requested
  split at requested
  · next allowed =>
    refine ⟨allowed.1, allowed.2, ?_⟩
    split at requested
    · next answered =>
      cases requested
      exact ⟨answered, .inl ⟨rfl, rfl⟩⟩
    · next failure answered =>
      cases requested
      exact ⟨answered, .inr ⟨failure, rfl, rfl⟩⟩
  · cases requested

theorem gone_of_possible (possible : reply.possible uid accepted = true)
    (answered : reply.answer = .error .noMessage) : uid ∈ reply.account.gone := by
  rw [Reply.possible, answered] at possible
  exact of_decide_eq_true possible

theorem sendFiling_cases {filing : Filing}
    (sent : folder.sendFiling replies uid filing = some (answer, next)) :
    let reply := replies (.filing uid)
    folder.account.Precedes reply.account ∧ reply.answer = answer ∧
      ((answer = .ok () ∧ next = (folder.met reply.account).filed uid filing) ∨
        ∃ failure, answer = .error failure ∧ next = folder.met reply.account ∧
          (failure = .noMessage → uid ∈ reply.account.gone)) := by
  simp only [sendFiling] at sent
  obtain ⟨precedes, possible, answered, landed | ⟨failure, rfl, isNext⟩⟩ := request_cases sent
  · exact ⟨precedes, answered, .inl landed⟩
  · refine ⟨precedes, answered, .inr ⟨failure, rfl, isNext, ?_⟩⟩
    intro noMessage
    subst noMessage
    exact gone_of_possible possible answered

theorem Touches.meet {account : Account} (precedes : folder.account.Precedes account) :
    Touches uid folder (folder.met account) :=
  ⟨rfl, rfl, precedes, fun _ _ => rfl, fun _ _ _ => id⟩

theorem Touches.filed (folder : Folder lower) (uid : String) (filing : Filing) :
    Touches uid folder (folder.filed uid filing) :=
  ⟨rfl, rfl, .refl _, fun _ _ => rfl, fun _ _ _ owed => mem_of_mem_filter owed⟩

theorem filed_settles {filing other : Filing} (owed : (uid, other) ∈ folder.owed) :
    (uid, other) ∈ (folder.filed uid filing).owed ∨
      (folder.filed uid filing).account.mailboxIds uid =
        other.apply (folder.account.mailboxIds uid) := by
  by_cases same : other = filing
  · subst same
    exact .inr (if_pos rfl)
  · exact .inl (mem_filter.mpr ⟨owed, by simpa using same⟩)

theorem pendingFiling_settle (row : Row lower) (after : Keywords lower)
    (answer : Except StoreError Unit) :
    (settle row after answer).pendingFiling = row.pendingFiling := by
  rcases answer with failure | written
  · cases failure <;> rfl
  · rfl

theorem pushRow_spec {result : Except StoreError Unit}
    (pushed : folder.pushRow replies uid = some (result, next)) :
    Touches uid folder next ∧ next.owed = folder.owed ∧
      ∀ filing, next.Carries uid filing ↔ folder.Carries uid filing := by
  unfold pushRow at pushed
  split at pushed
  · cases pushed
    exact ⟨.refl _ _, rfl, fun _ => Iff.rfl⟩
  · next row found =>
    have same : ∀ (start : Folder lower) answer filing, (start.setRow uid
        (settle row (rowKeywords row) answer)).Carries uid filing ↔
          folder.Carries uid filing := by
      intro start answer filing
      simp [Carries, found, pendingFiling_settle]
    simp only at pushed
    split at pushed
    · cases pushed
      exact ⟨.setRow _ _ _, rfl, same folder _⟩
    · obtain ⟨sent, requested, isNext⟩ := map_eq_some_iff.mp pushed
      obtain ⟨answer, start⟩ := sent
      cases isNext
      obtain ⟨precedes, -, -, ⟨-, rfl⟩ | ⟨failure, -, rfl⟩⟩ := request_cases requested
      · exact ⟨(Touches.meet precedes).trans (.setRow _ _ _), rfl, same _ _⟩
      · exact ⟨(Touches.meet precedes).trans (.setRow _ _ _), rfl, same _ _⟩

theorem not_carries_of_get? {row : Row lower} (found : folder.rows.get? uid = some row)
    (idle : row.pendingFiling = none) (filing : Filing) : ¬ folder.Carries uid filing := by
  intro carries
  obtain ⟨other, same, carried⟩ := carries
  cases found.symm.trans same
  cases idle.symm.trans carried

/-- The row carries a filing, and the request to send it finds a later account. -/
structure Replays (folder : Folder lower) (replies : Replies) (uid : String)
    (row : Row lower) (filing : Filing) : Prop where
  found : folder.rows.get? uid = some row
  carried : row.pendingFiling = some filing
  precedes : folder.account.Precedes (replies (.filing uid)).account

/-- What `replayFiling` can do. -/
inductive Replayed (folder : Folder lower) (replies : Replies) (uid : String) :
    Except StoreError Bool → Folder lower → Prop where
  | nothing (idle : ∀ filing, ¬ folder.Carries uid filing) :
      Replayed folder replies uid (.ok false) folder
  | landed {row : Row lower} {filing : Filing} (sends : folder.Replays replies uid row filing) :
      Replayed folder replies uid (.ok filing.outOf.isSome)
        (((folder.met (replies (.filing uid)).account).filed uid filing).setRow uid
          { row with pendingFiling := none, folderFlagged := false })
  | offline {row : Row lower} {filing : Filing} (sends : folder.Replays replies uid row filing)
      (answered : (replies (.filing uid)).answer = .error .disconnected) :
      Replayed folder replies uid (.ok false)
        ((folder.met (replies (.filing uid)).account).setRow uid
          { row with folderFlagged := true })
  | gone {row : Row lower} {filing : Filing} (sends : folder.Replays replies uid row filing)
      (destroyed : uid ∈ (replies (.filing uid)).account.gone) :
      Replayed folder replies uid (.ok false)
        ((folder.met (replies (.filing uid)).account).setRow uid
          { row with pendingFiling := none, folderFlagged := false })
  | refused {row : Row lower} {filing : Filing} (sends : folder.Replays replies uid row filing)
      (answered : (replies (.filing uid)).answer = .error .refused) :
      Replayed folder replies uid (.error .refused) (folder.met (replies (.filing uid)).account)

theorem replayFiling_cases {result : Except StoreError Bool}
    (replayed : folder.replayFiling replies uid = some (result, next)) :
    Replayed folder replies uid result next := by
  unfold replayFiling at replayed
  split at replayed
  · next absent =>
    cases replayed
    apply Replayed.nothing
    intro filing carries
    obtain ⟨row, found, -⟩ := carries
    cases absent.symm.trans found
  · next row found =>
    split at replayed
    · next idle =>
      cases replayed
      exact .nothing (not_carries_of_get? found idle)
    · next filing carried =>
      obtain ⟨sent, requested, isNext⟩ := map_eq_some_iff.mp replayed
      obtain ⟨answer, start⟩ := sent
      rcases sendFiling_cases requested with
        ⟨precedes, answered, ⟨rfl, rfl⟩ | ⟨failure, rfl, rfl, destroyed⟩⟩
      · cases isNext
        exact .landed ⟨found, carried, precedes⟩
      · cases failure with
        | disconnected =>
          cases isNext
          exact .offline ⟨found, carried, precedes⟩ answered
        | noMessage =>
          cases isNext
          exact .gone ⟨found, carried, precedes⟩ (destroyed rfl)
        | refused =>
          cases isNext
          exact .refused ⟨found, carried, precedes⟩ answered

namespace Replayed

variable {result : Except StoreError Bool} {filing : Filing}

section

variable (replayed : Replayed folder replies uid result next)

include replayed

theorem touches : Touches uid folder next := by
  cases replayed with
  | nothing idle => exact .refl _ _
  | landed sends =>
    exact ((Touches.meet sends.precedes).trans (.filed _ _ _)).trans (.setRow _ _ _)
  | offline sends answered =>
    exact (Touches.meet sends.precedes).trans (.setRow _ _ _)
  | gone sends destroyed =>
    exact (Touches.meet sends.precedes).trans (.setRow _ _ _)
  | refused sends answered => exact .meet sends.precedes

theorem owed : next.owed ⊆ folder.owed := by
  cases replayed with
  | landed sends => exact fun _ owed => mem_of_mem_filter owed
  | nothing | offline | gone | refused => exact List.Subset.refl _

theorem carries (carries : next.Carries uid filing) : folder.Carries uid filing := by
  cases replayed with
  | nothing => exact carries
  | landed | gone => simp [Carries] at carries
  | offline sends answered =>
    simp only [Carries, get?_setRow, Option.some.injEq, exists_eq_left'] at carries
    exact ⟨_, sends.found, carries⟩
  | refused sends answered => exact carries

theorem secured
    (accepting : result = .error .refused → (replies (.filing uid)).answer = .error .refused →
      Moot (replies (.filing uid)).account uid filing) (owed : (uid, filing) ∈ next.owed)
    (carries : folder.Carries uid filing) :
    Moot next.account uid filing ∨ next.Queued uid filing := by
  obtain ⟨held, isHeld, holds⟩ := carries
  cases replayed with
  | nothing idle => exact (idle filing ⟨held, isHeld, holds⟩).elim
  | landed sends =>
    cases sends.found.symm.trans isHeld
    cases sends.carried.symm.trans holds
    simp [Folder.setRow, Folder.filed] at owed
  | offline sends answered =>
    cases sends.found.symm.trans isHeld
    exact .inr ⟨_, get?_setRow .., holds, rfl⟩
  | gone sends destroyed => exact .inl (.inl destroyed)
  | refused sends answered => exact .inl (accepting rfl answered)

theorem left (leaves : result = .ok true) (carries : folder.Carries uid filing) :
    (uid, filing) ∉ next.owed := by
  obtain ⟨held, isHeld, holds⟩ := carries
  cases replayed with
  | landed sends =>
    cases sends.found.symm.trans isHeld
    cases sends.carried.symm.trans holds
    simp [Folder.setRow, Folder.filed]
  | nothing | offline | gone | refused => cases leaves

theorem cleared (online : (replies (.filing uid)).answer ≠ .error .disconnected)
    (success : failureOf result = none) (filing : Filing) : ¬ next.Carries uid filing := by
  cases replayed with
  | nothing idle => exact idle filing
  | landed sends => simp [Carries]
  | offline sends answered => exact (online answered).elim
  | gone sends destroyed => simp [Carries]
  | refused sends answered => cases success

end

end Replayed

/-! ## The walk over the work list -/

@[elab_as_elim] theorem foldlM_induct {Failure State Item : Type} {work : List Item}
    {failure finish : Failure}
    {step : Failure × State → Item → Option (Failure × State)} {Holds : State → Prop}
    {start last : State} (walked : work.foldlM step (failure, start) = some (finish, last))
    (holds : Holds start) (keeps : ∀ {item before after}, item ∈ work →
      step before item = some after → Holds before.2 → Holds after.2) : Holds last := by
  induction work generalizing failure start with
  | nil =>
    cases walked
    exact holds
  | cons item work ih =>
    obtain ⟨⟨reached, middle⟩, first, rest⟩ := bind_eq_some_iff.mp walked
    exact ih rest (keeps mem_cons_self first holds) fun mem => keeps (mem_cons_of_mem _ mem)

/-- A folder after operations that take transfers off and queue none. -/
structure Shrinks (before after : Folder lower) : Prop where
  deleted : after.deleted = before.deleted
  account : before.account.Precedes after.account
  owed : after.owed ⊆ before.owed
  carries : ∀ {uid filing}, after.Carries uid filing → before.Carries uid filing

theorem Shrinks.trans (one : Shrinks first second) (two : Shrinks second third) :
    Shrinks first third :=
  ⟨two.deleted.trans one.deleted, one.account.trans two.account,
    List.Subset.trans two.owed one.owed, fun carries => one.carries (two.carries carries)⟩

theorem Shrinks.refl (folder : Folder lower) : Shrinks folder folder :=
  ⟨rfl, .refl _, List.Subset.refl _, id⟩

theorem Carries.of_touches (touches : Touches uid folder next) {other : String} {filing : Filing}
    (here : other = uid → next.Carries uid filing → folder.Carries uid filing)
    (carries : next.Carries other filing) : folder.Carries other filing := by
  by_cases same : other = uid
  · subst same
    exact here rfl carries
  · obtain ⟨row, found, carried⟩ := carries
    exact ⟨row, (touches.rows other same).symm.trans found, carried⟩

theorem not_carries_removeRow (folder : Folder lower) (uid : String) (filing : Filing) :
    ¬ (folder.removeRow uid).Carries uid filing := by
  simp [Carries]

/-- The server refuses no filing that it could carry out. -/
def Accepts (folder : Folder lower) (replies : Replies) : Prop :=
  ∀ uid filing, folder.Carries uid filing → (replies (.filing uid)).answer = .error .refused →
    Moot (replies (.filing uid)).account uid filing

theorem Accepts.of_shrinks (accepts : folder.Accepts replies) (shrinks : Shrinks folder next) :
    next.Accepts replies :=
  fun uid filing carries => accepts uid filing (shrinks.carries carries)

section Row

variable {failure finish : Option StoreError}
  (walked : synchronizeRow replies (failure, folder) uid = some (finish, next))

include walked

theorem synchronizeRow_cases : ∃ pushed replayed middle last,
    folder.pushRow replies uid = some (pushed, middle) ∧
      Replayed middle replies uid replayed last ∧
      finish = (failure.or (failureOf pushed)).or (failureOf replayed) ∧
      next = if replayed = .ok true then last.removeRow uid else last := by
  obtain ⟨⟨pushed, middle⟩, isPushed, rest⟩ := bind_eq_some_iff.mp walked
  obtain ⟨⟨replayed, last⟩, isReplayed, isNext⟩ := map_eq_some_iff.mp rest
  cases isNext
  exact ⟨pushed, replayed, middle, last, isPushed, replayFiling_cases isReplayed, rfl, rfl⟩

theorem synchronizeRow_touches : Touches uid folder next := by
  rcases synchronizeRow_cases walked with ⟨pushed, replayed, middle, last, isPushed, isReplayed,
    -, rfl⟩
  have touches := (pushRow_spec isPushed).1.trans isReplayed.touches
  split
  · exact touches.trans (.removeRow _ _)
  · exact touches

theorem synchronizeRow_shrinks : Shrinks folder next := by
  have touches := synchronizeRow_touches walked
  rcases synchronizeRow_cases walked with ⟨pushed, replayed, middle, last, isPushed, isReplayed,
    -, rfl⟩
  obtain ⟨-, sameOwed, sameCarried⟩ := pushRow_spec isPushed
  refine ⟨touches.deleted, touches.account, ?_, fun carries => carries.of_touches touches ?_⟩
  · have owed : last.owed ⊆ folder.owed := sameOwed ▸ isReplayed.owed
    split <;> exact owed
  · intro _ here
    split at here
    · exact (not_carries_removeRow _ _ _ here).elim
    · exact (sameCarried _).mp (isReplayed.carries here)

theorem synchronizeRow_inv (inv : folder.Inv)
    (accepts : finish ≠ none → folder.Accepts replies) : next.Inv := by
  refine (synchronizeRow_touches walked).inv inv fun filing owed => ?_
  have shrinks := synchronizeRow_shrinks walked
  rcases inv uid filing (shrinks.owed owed) with moot | queued
  · exact .inl (moot.later shrinks.account)
  · rcases synchronizeRow_cases walked with ⟨pushed, replayed, middle, last, isPushed,
      isReplayed, isFinish, rfl⟩
    have carries := ((pushRow_spec isPushed).2.2 filing).mpr queued.carries
    split at owed
    · next leaves => exact (isReplayed.left leaves carries owed).elim
    · next stays =>
      rw [if_neg stays]
      refine isReplayed.secured (fun isRefused => ?_) owed carries
      refine accepts (fun success => ?_) uid filing queued.carries
      rw [isFinish, isRefused, or_eq_none_iff] at success
      cases success.2

theorem synchronizeRow_failure (success : finish = none) : failure = none := by
  obtain ⟨pushed, replayed, middle, last, -, -, rfl, -⟩ := synchronizeRow_cases walked
  rw [or_eq_none_iff, or_eq_none_iff] at success
  exact success.1.1

theorem synchronizeRow_cleared (online : ∀ request, (replies request).answer ≠ .error .disconnected)
    (success : finish = none) (filing : Filing) : ¬ next.Carries uid filing := by
  rcases synchronizeRow_cases walked with ⟨pushed, replayed, middle, last, -, isReplayed, rfl,
    rfl⟩
  rw [or_eq_none_iff] at success
  split
  · exact not_carries_removeRow _ _ _
  · exact isReplayed.cleared (online _) success.2 filing

end Row

/-- A walk without a failure had none before. The whole walk keeps what is owed safe and,
with a connection and no failure, leaves no row of the work list with a filing. -/
theorem foldlM_synchronizeRow :
    ∀ {failure finish : Option StoreError} {folder next : Folder lower},
      work.foldlM (synchronizeRow replies) (failure, folder) = some (finish, next) →
        (finish = none → failure = none) ∧
        (folder.Inv → (finish ≠ none → folder.Accepts replies) → next.Inv ∧ Shrinks folder next ∧
          ((∀ request, (replies request).answer ≠ .error .disconnected) → finish = none →
            ∀ uid ∈ work, ∀ filing, ¬ next.Carries uid filing)) := by
  induction work with
  | nil =>
    intro failure finish folder next walked
    cases walked
    exact ⟨id, fun inv _ => ⟨inv, .refl _, fun _ _ => nofun⟩⟩
  | cons uid work ih =>
    intro failure finish folder next walked
    obtain ⟨⟨reached, middle⟩, first, rest⟩ := bind_eq_some_iff.mp walked
    obtain ⟨unfailed, later⟩ := ih rest
    refine ⟨fun success => synchronizeRow_failure first (unfailed success), fun inv accepts => ?_⟩
    have shrinks := synchronizeRow_shrinks first
    have middleInv := synchronizeRow_inv first inv fun failed => accepts fun success =>
      failed (unfailed success)
    rcases later middleInv (fun failed => (accepts failed).of_shrinks shrinks) with
      ⟨lastInv, lastShrinks, lastCleared⟩
    refine ⟨lastInv, shrinks.trans lastShrinks, fun online success => ?_⟩
    have here := synchronizeRow_cleared first online (unfailed success)
    exact forall_mem_cons.mpr ⟨fun filing carries =>
      here filing (lastShrinks.carries carries), lastCleared online success⟩

/-! ## The other operations -/

theorem Touches.withdrawn (folder : Folder lower) (uid : String) (trash : Option Id) :
    Touches uid folder (folder.withdrawn uid trash) := by
  simp only [Folder.withdrawn]
  split
  · exact .refl _ _
  · split
    · exact .meet (.refl _)
    · split
      · exact .meet (.refl _)
      · exact .meet ⟨subset_cons_self _ _, List.Subset.refl _⟩

theorem withdrawn_owed (folder : Folder lower) (uid : String) (trash : Option Id) :
    (folder.withdrawn uid trash).owed = folder.owed := by
  simp only [Folder.withdrawn]
  split
  · rfl
  · split
    · rfl
    · split <;> rfl

section Expunge

variable {failure finish : Option StoreError} {trash : Option Id}

section

variable (expunged : expungeMessage replies trash (failure, folder) uid = some (finish, next))

include expunged

/-- What the expunge walk does about one message: its row is removed, or nothing
but the account changes. -/
theorem expungeMessage_cases : Touches uid folder next ∧ next.owed = folder.owed ∧
      ((∀ filing, ¬ next.Carries uid filing) ∧ ((replies (.removal uid)).answer = .ok () ∨
          uid ∈ next.account.gone) ∨ next.rows = folder.rows) := by
  obtain ⟨⟨answer, start⟩, requested, isNext⟩ := map_eq_some_iff.mp expunged
  simp only [sendRemoval] at requested
  rcases request_cases requested with
    ⟨precedes, possible, answered, ⟨rfl, rfl⟩ | ⟨problem, rfl, rfl⟩⟩
  · cases isNext
    exact ⟨((Touches.meet precedes).trans (.withdrawn _ _ _)).trans (.removeRow _ _),
      withdrawn_owed .., .inl ⟨not_carries_removeRow _ _, .inl answered⟩⟩
  · cases problem with
    | noMessage =>
      cases isNext
      exact ⟨(Touches.meet precedes).trans (.removeRow _ _), rfl,
        .inl ⟨not_carries_removeRow _ _, .inr (gone_of_possible possible answered)⟩⟩
    | disconnected | refused =>
      cases isNext
      exact ⟨.meet precedes, rfl, .inr rfl⟩

theorem expungeMessage_shrinks : Shrinks folder next := by
  obtain ⟨touches, owed, outcome⟩ := expungeMessage_cases expunged
  refine ⟨touches.deleted, touches.account, owed ▸ List.Subset.refl _,
    fun carries => carries.of_touches touches fun _ here => ?_⟩
  rcases outcome with removed | kept
  · exact (removed.1 _ here).elim
  · rwa [Carries, kept] at here

theorem expungeMessage_inv (inv : folder.Inv)
    (spares : ∀ filing, folder.Carries uid filing → (replies (.removal uid)).answer ≠ .ok ()) :
    next.Inv := by
  obtain ⟨touches, owed, outcome⟩ := expungeMessage_cases expunged
  refine touches.inv inv fun filing isOwed => ?_
  rw [owed] at isOwed
  rcases inv uid filing isOwed with moot | queued
  · exact .inl (moot.later touches.account)
  · rcases outcome with ⟨-, answered | gone⟩ | kept
    · exact (spares filing queued.carries answered).elim
    · exact .inl (.inl gone)
    · rw [Queued, kept]
      exact .inr queued

end

theorem foldlM_expungeMessage
    (walked : uids.foldlM (expungeMessage replies trash) (failure, folder) = some (finish, next)) :
    Shrinks folder next ∧ (folder.Inv → (∀ uid ∈ uids, ∀ filing, folder.Carries uid filing →
      (replies (.removal uid)).answer ≠ .ok ()) → next.Inv) := by
  refine foldlM_induct walked ⟨.refl _, fun inv _ => inv⟩ ?_
  intro uid before after mem removed ⟨shrinks, kept⟩
  refine ⟨shrinks.trans (expungeMessage_shrinks removed), fun inv spares => ?_⟩
  refine expungeMessage_inv removed (kept inv spares) fun filing carries => ?_
  exact spares uid mem filing (shrinks.carries carries)

end Expunge

/-- The walk over the deleted messages removes no row that carries a filing. -/
def Spares (folder : Folder lower) (replies : Replies) (walk : Walk) : Prop :=
  ∀ uid filing, folder.Carries uid filing → (uid ∈ folder.deleted ∨ walk = .expunge) →
    (replies (.removal uid)).answer ≠ .ok ()

theorem moveInto_eq_none {trash : Option Id} (noTrash : folder.moveInto trash = none) :
    trash = none ∨ trash = some folder.mailbox := by
  rw [moveInto] at noTrash
  split at noTrash
  · next inTrash => exact .inr inTrash
  · exact .inl noTrash

section Folders

variable {walk : Walk} {trash : Except StoreError (Option Id)} {finish : Option StoreError}
  (expunged : folder.expungeFolder replies walk trash = some (finish, next))

include expunged

theorem expungeFolder_cases : next = folder ∨ ∃ found, trash = .ok found ∧
    (walk = .fileInTrash → folder.moveInto found ≠ none) ∧
      (folder.expungeWork walk found).foldlM (expungeMessage replies (folder.moveInto found))
        (none, folder) = some (finish, next) := by
  unfold expungeFolder at expunged
  split at expunged
  · cases expunged
    exact .inl rfl
  · split at expunged
    · cases expunged
      exact .inl rfl
    · next found =>
      split at expunged
      · cases expunged
        exact .inl rfl
      · next goes =>
        exact .inr ⟨found, rfl, fun isFiling noTrash => goes ⟨isFiling, moveInto_eq_none noTrash⟩,
          expunged⟩

theorem expungeFolder_shrinks : Shrinks folder next := by
  rcases expungeFolder_cases expunged with rfl | ⟨found, -, -, walked⟩
  · exact .refl _
  · exact (foldlM_expungeMessage walked).1

theorem expungeFolder_inv (inv : folder.Inv) (spares : folder.Spares replies walk) :
    next.Inv := by
  rcases expungeFolder_cases expunged with rfl | ⟨found, -, -, walked⟩
  · exact inv
  · refine (foldlM_expungeMessage walked).2 inv fun uid mem filing carries =>
      spares uid filing carries ?_
    rw [expungeWork] at mem
    split at mem
    · next inTrash => exact .inr inTrash.1
    · exact .inl (of_decide_eq_true (mem_filter.mp mem).2)

end Folders

section Transfers

variable {filing : Filing} {moving : Bool}

/-- What filing one message does: a transfer is owed afterwards only if it was before
or if it waits on the row, and leaves the list only when the server files the message. -/
theorem fileMessage_spec {result : Except StoreError Filed}
    (filed : folder.fileMessage replies uid filing moving = some (result, next)) :
    Touches uid folder next ∧
      (∀ other, (uid, other) ∈ next.owed →
        (uid, other) ∈ folder.owed ∨ (next.Queued uid other ∧ leaves moving result = false)) ∧
      ∀ other, (uid, other) ∈ folder.owed → (uid, other) ∈ next.owed ∨
        next.account.mailboxIds uid =
          other.apply ((replies (.filing uid)).account.mailboxIds uid) := by
  obtain ⟨⟨pushed, middle⟩, isPushed, rest⟩ := bind_eq_some_iff.mp filed
  have settled : Touches uid folder middle ∧ middle.owed = folder.owed := by
    split at isPushed
    · exact ⟨(pushRow_spec isPushed).1, (pushRow_spec isPushed).2.1⟩
    · cases isPushed
      exact ⟨.refl _ _, rfl⟩
  rw [← settled.2]
  cases pushed with
  | error failure =>
    cases rest
    exact ⟨settled.1, fun _ => .inl, fun _ => .inl⟩
  | ok _ =>
    obtain ⟨⟨answer, start⟩, sent, isNext⟩ := map_eq_some_iff.mp rest
    rcases sendFiling_cases sent with
      ⟨precedes, answered, ⟨rfl, rfl⟩ | ⟨failure, rfl, rfl, destroyed⟩⟩
    · cases isNext
      exact ⟨(settled.1.trans (.meet precedes)).trans (.filed _ _ _),
        fun _ owed => .inl (mem_of_mem_filter owed), fun _ owed =>
          @filed_settles _ (middle.met (replies (.filing uid)).account) uid filing _ owed⟩
    · have met := settled.1.trans (Touches.meet precedes)
      cases failure with
      | disconnected =>
        cases isNext
        simp only [queueFiling]
        split
        · exact ⟨met, fun _ => .inl, fun _ => .inl⟩
        · refine ⟨?_, fun other owed => ?_, fun _ owed => .inl (mem_cons_of_mem _ owed)⟩
          · refine ⟨met.mailbox, met.deleted, met.account,
              (met.trans (.setRow _ _ _)).rows, fun other filing differs owed => ?_⟩
            rcases mem_cons.mp owed with same | owed
            · cases same
              exact (differs rfl).elim
            · exact met.owed other filing differs owed
          · rcases mem_cons.mp owed with same | owed
            · cases same
              exact .inr ⟨⟨_, get?_setRow .., rfl, rfl⟩, rfl⟩
            · exact .inl owed
      | noMessage | refused =>
        cases isNext
        exact ⟨met, fun _ => .inl, fun _ => .inl⟩

variable {finish : Option StoreError}

theorem transferMessage_inv {failure : Option StoreError}
    (transferred : transferMessage replies filing moving (failure, folder) uid =
      some (finish, next)) (inv : folder.Inv) (free : ∀ other, ¬ folder.Carries uid other) :
    next.Inv ∧ Touches uid folder next := by
  obtain ⟨⟨result, start⟩, filed, isNext⟩ := map_eq_some_iff.mp transferred
  cases isNext
  obtain ⟨touches, owes, -⟩ := fileMessage_spec filed
  have earlier : ∀ other, (uid, other) ∈ folder.owed → Moot start.account uid other :=
    fun other owed => (inv uid other owed).elim (·.later touches.account) fun queued =>
      (free other queued.carries).elim
  split
  · next isLeaving =>
    have touched := touches.trans (.removeRow start uid)
    refine ⟨touched.inv inv fun other owed => ?_, touched⟩
    rcases owes other owed with before | ⟨-, stays⟩
    · exact .inl (earlier other before)
    · cases isLeaving.symm.trans stays
  · refine ⟨touches.inv inv fun other owed => ?_, touches⟩
    exact (owes other owed).imp (earlier other) And.left

theorem foldlM_transferMessage :
    ∀ {failure finish : Option StoreError} {folder next : Folder lower}, uids.Nodup →
      folder.Inv → (∀ uid ∈ uids, ∀ other, ¬ folder.Carries uid other) →
      uids.foldlM (transferMessage replies filing moving) (failure, folder) =
        some (finish, next) → next.Inv := by
  induction uids with
  | nil =>
    intro failure finish folder next _ inv _ walked
    cases walked
    exact inv
  | cons uid uids ih =>
    intro failure finish folder next distinct inv free walked
    obtain ⟨⟨reached, middle⟩, first, rest⟩ := bind_eq_some_iff.mp walked
    rw [forall_mem_cons] at free
    obtain ⟨absent, distinct⟩ := nodup_cons.mp distinct
    obtain ⟨middleInv, touches⟩ := transferMessage_inv first inv free.1
    refine ih distinct middleInv (fun other mem filing carries => ?_) rest
    refine free.2 other mem filing (carries.of_touches touches fun same => ?_)
    exact (absent (same ▸ mem)).elim

theorem transferMessagesTo_inv {into : Id}
    (transferred : folder.transferMessagesTo replies into uids moving = some (finish, next))
    (inv : folder.Inv) (distinct : uids.Nodup)
    (free : ∀ uid ∈ uids, ∀ other, ¬ folder.Carries uid other) : next.Inv := by
  simp only [transferMessagesTo] at transferred
  generalize (if moving then Filing.moved folder.mailbox into else Filing.copiedInto into) =
    filing at transferred
  split at transferred
  · cases transferred
    exact inv
  · exact foldlM_transferMessage distinct inv free transferred

end Transfers

section Refresh

theorem applyMessage_keeps {rows : Rows lower} {row : Row lower}
    (found : rows.get? uid = some row) (message : MessageSummary) :
    ∃ kept, (applyMessage rows message).get? uid = some kept ∧
      kept.pendingFiling = row.pendingFiling ∧ kept.folderFlagged = row.folderFlagged := by
  by_cases here : uid = sanitized message.uid
  · subst here
    simp only [applyMessage, found]
    exact ⟨_, get?_insert_self .., rfl, rfl⟩
  · refine ⟨row, ?_, rfl, rfl⟩
    simp only [applyMessage]
    split <;> rw [get?_insert, if_neg here, found]

theorem foldl_applyMessage_keeps (messages : List MessageSummary) :
    ∀ {rows : Rows lower} {row : Row lower}, rows.get? uid = some row →
      ∃ kept, (messages.foldl applyMessage rows).get? uid = some kept ∧
        kept.pendingFiling = row.pendingFiling ∧ kept.folderFlagged = row.folderFlagged := by
  induction messages with
  | nil => exact fun found => ⟨_, found, rfl, rfl⟩
  | cons message messages ih =>
    intro rows row found
    obtain ⟨next, isNext, filing, flagged⟩ := applyMessage_keeps found message
    obtain ⟨last, isLast, lastFiling, lastFlagged⟩ := ih isNext
    exact ⟨last, isLast, lastFiling.trans filing, lastFlagged.trans flagged⟩

/-- The answer to a refresh does not take the row of this message away. -/
def Retains (uid : String) : MessageUpdate → Prop
  | .unchanged _ => True
  | .changed _ _ absent => ∀ id ∈ absent, sanitized id ≠ uid
  | .relisted _ messages => uid ∈ messages.map fun message => sanitized message.uid

theorem applyUpdate_keeps {rows : Rows lower} {row : Row lower}
    (found : rows.get? uid = some row) {update : MessageUpdate} (retains : Retains uid update) :
    ∃ kept, (applyUpdate rows update).get? uid = some kept ∧
      kept.pendingFiling = row.pendingFiling ∧ kept.folderFlagged = row.folderFlagged := by
  cases update with
  | unchanged state => exact ⟨row, found, rfl, rfl⟩
  | changed state present absent =>
    apply foldl_applyMessage_keeps
    rw [← foldl_map, get?_eraseAll, if_neg (by simpa [Retains] using retains), found]
  | relisted state messages =>
    have kept : (removeAbsent rows (messages.map fun message => sanitized message.uid)).get?
        uid = some row := by
      rw [removeAbsent, get?_retain, found]
      exact filter_eq_some_iff.mpr ⟨rfl, decide_eq_true retains⟩
    exact foldl_applyMessage_keeps messages kept

end Refresh

/-! ## Every run -/

/-- What happens to a folder. `refresh` has the answer of the server. -/
inductive Event where
  | click (uid : String) (flags : MessageFlags) (tags : List String)
  | delete (uid : String)
  | others (account : Account)
  | refresh (update : MessageUpdate)
  | transfer (replies : Replies) (into : Id) (uids : List String) (moving : Bool)
  | synchronize (replies : Replies) (work : List String) (expunge : Bool)
      (trash : Except StoreError (Option Id))
  | expunge (replies : Replies) (trash : Except StoreError (Option Id))

/-- The list of changed rows that Camel keeps has every marked row. -/
def WorkList (folder : Folder lower) (work : List String) : Prop :=
  ∀ entry ∈ folder.rows.entries, entry.2.folderFlagged = true → entry.1 ∈ work

instance (folder : Folder lower) (work : List String) : Decidable (folder.WorkList work) :=
  inferInstanceAs (Decidable (∀ entry ∈ folder.rows.entries, _))

def step (folder : Folder lower) : Event → Option (Folder lower)
  | .click uid flags tags =>
    some ((folder.rows.get? uid).elim folder fun row =>
      folder.setRow uid { row with flags := flags, tags := tags, folderFlagged := true })
  | .delete uid => some { folder with deleted := uid :: folder.deleted }
  | .others account =>
    if folder.account.Precedes account then some { folder with account := account } else none
  | .refresh update => some { folder with rows := applyUpdate folder.rows update }
  | .transfer replies into uids moving =>
    (folder.transferMessagesTo replies into uids moving).map Prod.snd
  | .synchronize replies work expunge trash =>
    if folder.WorkList work then
      (folder.synchronizeSync replies work expunge trash).map Prod.snd
    else none
  | .expunge replies trash => (folder.expungeFolder replies .expunge trash).map Prod.snd

def run (folder : Folder lower) : List Event → Option (Folder lower)
  | [] => some folder
  | event :: events => (folder.step event).bind fun next => next.run events

/-- A transfer names each message once and none whose row carries a filing, a refresh
takes no row away that carries one, the server refuses no filing that it could carry
out, and no message with a filing is expunged. -/
def Undisturbed (folder : Folder lower) : Event → Prop
  | .transfer _ _ uids _ =>
    uids.Nodup ∧ ∀ uid ∈ uids, ∀ filing, ¬ folder.Carries uid filing
  | .refresh update => ∀ uid filing, folder.Carries uid filing → Retains uid update
  | .synchronize replies _ _ _ => folder.Accepts replies ∧ folder.Spares replies .synchronize
  | .expunge replies _ => folder.Spares replies .expunge
  | _ => True

/-- Every event meets the condition when it happens. -/
def AllUndisturbed (folder : Folder lower) : List Event → Prop
  | [] => True
  | event :: events => folder.Undisturbed event ∧
      ∀ next, folder.step event = some next → next.AllUndisturbed events

theorem synchronizeSync_cases {expunge : Bool} {trash : Except StoreError (Option Id)}
    {finish : Option StoreError}
    (synchronized : folder.synchronizeSync replies work expunge trash = some (finish, next)) :
    ∃ walkFailure middle expungeFailure,
      work.foldlM (synchronizeRow replies) (none, folder) = some (walkFailure, middle) ∧
      middle.expungeFolder replies (if expunge then .synchronize else .fileInTrash) trash =
        some (expungeFailure, next) ∧
      finish = walkFailure.or expungeFailure := by
  obtain ⟨⟨walkFailure, middle⟩, walked, rest⟩ := bind_eq_some_iff.mp synchronized
  obtain ⟨⟨expungeFailure, last⟩, expunged, isNext⟩ := map_eq_some_iff.mp rest
  cases isNext
  exact ⟨walkFailure, middle, expungeFailure, walked, expunged, rfl⟩

theorem Inv.step {event : Event} (inv : folder.Inv) (undisturbed : folder.Undisturbed event)
    (stepped : folder.step event = some next) : next.Inv := by
  cases event with
  | click uid flags tags =>
    cases stepped
    cases found : folder.rows.get? uid with
    | none => exact inv
    | some row =>
      refine (Touches.setRow folder uid _).inv inv fun filing owed => ?_
      refine (inv uid filing owed).imp id fun queued => ?_
      obtain ⟨held, isHeld, carried, -⟩ := queued
      cases found.symm.trans isHeld
      exact ⟨_, get?_setRow .., carried, rfl⟩
  | delete uid =>
    cases stepped
    exact inv
  | others account =>
    obtain ⟨precedes, isNext⟩ := ite_none_right_eq_some.mp stepped
    cases isNext
    exact fun uid filing owed => (inv uid filing owed).imp (·.later precedes) id
  | refresh update =>
    cases stepped
    intro uid filing owed
    refine (inv uid filing owed).imp id fun queued => ?_
    have retains := undisturbed uid filing queued.carries
    obtain ⟨row, found, carried, flagged⟩ := queued
    obtain ⟨kept, isKept, sameFiling, sameFlag⟩ := applyUpdate_keeps found retains
    exact ⟨kept, isKept, sameFiling.trans carried, sameFlag.trans flagged⟩
  | transfer replies into uids moving =>
    obtain ⟨⟨failure, last⟩, transferred, rfl⟩ := map_eq_some_iff.mp stepped
    exact transferMessagesTo_inv transferred inv undisturbed.1 undisturbed.2
  | synchronize replies work expunge trash =>
    obtain ⟨-, ran⟩ := ite_none_right_eq_some.mp stepped
    obtain ⟨⟨failure, last⟩, synchronized, rfl⟩ := map_eq_some_iff.mp ran
    obtain ⟨_, middle, _, walked, expunged, -⟩ := synchronizeSync_cases synchronized
    rcases (foldlM_synchronizeRow walked).2 inv fun _ => undisturbed.1 with
      ⟨middleInv, shrinks, -⟩
    refine expungeFolder_inv expunged middleInv fun uid filing carries marked => ?_
    refine undisturbed.2 uid filing (shrinks.carries carries) (.inl ?_)
    rcases marked with marked | isExpunge
    · exact shrinks.deleted ▸ marked
    · split at isExpunge <;> cases isExpunge
  | expunge replies trash =>
    obtain ⟨⟨failure, last⟩, expunged, rfl⟩ := map_eq_some_iff.mp stepped
    exact expungeFolder_inv expunged inv undisturbed

theorem Inv.run {events : List Event} :
    ∀ {folder finish : Folder lower}, folder.Inv → folder.AllUndisturbed events →
      folder.run events = some finish → finish.Inv := by
  induction events with
  | nil =>
    intro folder finish inv _ ran
    cases ran
    exact inv
  | cons event events ih =>
    intro folder finish inv undisturbed ran
    obtain ⟨next, stepped, rest⟩ := bind_eq_some_iff.mp ran
    exact ih (inv.step undisturbed.1 stepped) (undisturbed.2 next stepped) rest

/-- After an undisturbed run and a synchronisation that has a connection and reports
no failure, every transfer that was reported without one has been carried out, unless
its message or its destination is gone. -/
theorem transfers_carried_out {start folder finish : Folder lower} {events : List Event}
    {replies : Replies} {work : List String} {expunge : Bool}
    {trash : Except StoreError (Option Id)} (fresh : start.owed = [])
    (undisturbed : start.AllUndisturbed events) (ran : start.run events = some folder)
    (listed : folder.WorkList work)
    (online : ∀ request, (replies request).answer ≠ .error .disconnected)
    (success : folder.synchronizeSync replies work expunge trash = some (none, finish)) :
    ∀ uid filing, (uid, filing) ∈ finish.owed →
      uid ∈ finish.account.gone ∨ filing.into ∈ finish.account.removed := by
  intro uid filing owed
  have startInv : start.Inv := by
    intro uid filing owed
    rw [fresh] at owed
    cases owed
  have inv := startInv.run undisturbed ran
  rcases synchronizeSync_cases success with ⟨walkFailure, middle, expungeFailure, walked,
    expunged, unfailed⟩
  have noFailure : walkFailure = none := (or_eq_none_iff.mp unfailed.symm).1
  rcases (foldlM_synchronizeRow walked).2 inv fun failed => (failed noFailure).elim with
    ⟨middleInv, shrinks, cleared⟩
  have later := expungeFolder_shrinks expunged
  rcases inv uid filing (shrinks.owed (later.owed owed)) with moot | queued
  · exact moot.later (shrinks.account.trans later.account)
  · obtain ⟨row, found, -, flagged⟩ := queued
    have inWork := listed (uid, row) (folder.rows.mem_entries.mpr found) flagged
    rcases middleInv uid filing (later.owed owed) with moot | queued
    · exact moot.later later.account
    · exact (cleared online noFailure uid inWork filing queued.carries).elim

def received (uid : String) : MessageSummary := { World.unread with uid := uid }

def inboxAccount : Account := ⟨fun _ => ["inbox"], [], []⟩

def inbox : Folder toAsciiLowercase where
  mailbox := "inbox"
  rows := applyListing ∅ [received "m1", received "m2"]
  deleted := []
  account := inboxAccount
  owed := []

def offline : Replies := fun _ => ⟨inboxAccount, .error .disconnected⟩

def reconnected : Replies
  | .filing "m2" => ⟨inboxAccount.setMailboxes "m1" ["archive", "inbox"], .ok ()⟩
  | _ => ⟨inboxAccount, .ok ()⟩

def copyAndMove : List Event :=
  [.transfer offline "archive" ["m1"] false,
    .refresh (.relisted "s1" [received "m1", received "m2"]),
    .transfer offline "archive" ["m2"] true]

theorem copyAndMove_undisturbed : inbox.AllUndisturbed copyAndMove := by
  refine ⟨⟨by decide, forall_mem_singleton.mpr (not_carries_of_get? rfl rfl)⟩,
    fun _ stepped => ?_⟩
  cases stepped
  refine ⟨fun uid filing carries => ?_, fun _ stepped => ?_⟩
  · obtain ⟨row, found, -⟩ := carries
    have listed := mem_keys _ |>.mpr ⟨row, found⟩
    exact listed
  cases stepped
  refine ⟨⟨by decide, forall_mem_singleton.mpr (not_carries_of_get? rfl rfl)⟩,
    fun _ _ => trivial⟩

theorem reconnected_online (request : Request) :
    (reconnected request).answer ≠ .error .disconnected := by
  unfold reconnected
  split <;> nofun

theorem transfers_carried_out_copyAndMove :
    ∃ folder finish, inbox.run copyAndMove = some folder ∧
      folder.owed = [("m2", .moved "inbox" "archive"), ("m1", .copiedInto "archive")] ∧
      folder.synchronizeSync reconnected ["m1", "m2"] false (.ok none) = some (none, finish) ∧
      finish.account.mailboxIds "m1" = ["archive", "inbox"] ∧
      finish.account.mailboxIds "m2" = ["archive"] ∧
      ∀ uid filing, (uid, filing) ∈ finish.owed →
        uid ∈ finish.account.gone ∨ filing.into ∈ finish.account.removed := by
  refine ⟨_, _, rfl, rfl, rfl, rfl, rfl, ?_⟩
  refine @transfers_carried_out _ _ _ _ _ reconnected ["m1", "m2"] false (.ok none) rfl
    copyAndMove_undisturbed rfl ?_ reconnected_online rfl
  decide

/-- A second copy without a connection takes the place of the first. -/
theorem second_copy_replaces_first :
    ∃ folder finish, inbox.run [.transfer offline "a" ["m1"] false,
        .transfer offline "b" ["m1"] false] = some folder ∧
      folder.owed = [("m1", .copiedInto "b"), ("m1", .copiedInto "a")] ∧
      folder.WorkList ["m1"] ∧
      (∀ request, (reconnected request).answer ≠ .error .disconnected) ∧
      folder.synchronizeSync reconnected ["m1"] false (.ok none) = some (none, finish) ∧
      finish.owed = [("m1", .copiedInto "a")] ∧
      finish.account.mailboxIds "m1" = ["b", "inbox"] ∧
      finish.account.gone = [] ∧ finish.account.removed = [] := by
  refine ⟨_, _, rfl, rfl, ?_, reconnected_online, rfl, rfl, rfl, rfl, rfl⟩
  decide

end Folder

end EvolutionJmap.Mail
