import EvolutionJmap.Mail.Transfer

/-!
# What the walks over a folder leave behind (`jmap-mail`, `synchronize.rs`, `expunge.rs`)

A row with a filing has to stay on the work list until the filing is sent, and an expunge
must not take more than the folder's own copy of a message.
-/

namespace EvolutionJmap.Mail.Folder

open MailSync List Option

variable {lower : String → String} {folder next : Folder lower} {replies : Replies}
  {uid : String} {finish : Option StoreError}

/-! ## The work list -/

/-- The row is on the work list if it carries a filing. -/
def Listed (folder : Folder lower) (uid : String) : Prop :=
  ∀ filing, folder.Carries uid filing → folder.Queued uid filing

/-- The keyword write takes the row off the work list: there is nothing to write, or the
write is accepted, or the message is gone. -/
def Settles (replies : Replies) (uid : String) (row : Row lower) : Prop :=
  (KeywordChange.between row.serverKeywords (rowKeywords row)).isEmpty = true ∨
    (replies (.keywords uid)).answer = .ok () ∨
    (replies (.keywords uid)).answer = .error .noMessage

/-- The filing of a row is refused whose keyword write takes the row off the work list. -/
def Drops (folder : Folder lower) (replies : Replies) (uid : String) : Prop :=
  ∃ row filing, folder.rows.get? uid = some row ∧ row.pendingFiling = some filing ∧
    Settles replies uid row ∧ (replies (.filing uid)).answer = .error .refused

/-- The row is on the work list and stays there, also if the walk visits it again. -/
def Retained (replies : Replies) (uid : String) (folder : Folder lower) : Prop :=
  folder.Listed uid ∧ ¬ folder.Drops replies uid

theorem Retained.of_get? (retained : folder.Retained replies uid)
    (same : next.rows.get? uid = folder.rows.get? uid) : next.Retained replies uid := by
  simpa only [Retained, Listed, Carries, Queued, Drops, same] using retained

theorem Retained.of_idle (idle : ∀ filing, ¬ folder.Carries uid filing) :
    folder.Retained replies uid := by
  constructor
  · intro filing carries
    exact (idle filing carries).elim
  · intro ⟨row, filing, found, carried, _⟩
    exact idle filing ⟨row, found, carried⟩

theorem pushRow_row {result : Except StoreError Unit} {row : Row lower}
    (pushed : folder.pushRow replies uid = some (result, next))
    (found : folder.rows.get? uid = some row) :
    next.rows.get? uid = some row ∨ Settles replies uid row := by
  simp only [pushRow, found] at pushed
  split at pushed
  · next isEmpty => exact .inr (.inl isEmpty)
  · obtain ⟨⟨answer, start⟩, requested, isNext⟩ := map_eq_some_iff.mp pushed
    cases isNext
    obtain ⟨-, -, answered, -⟩ := request_cases requested
    cases answer with
    | ok _ => exact .inr (.inr (.inl answered))
    | error failure =>
      cases failure with
      | noMessage => exact .inr (.inr (.inr answered))
      | disconnected | refused => exact .inl (get?_setRow ..)

theorem synchronizeRow_retained {failure : Option StoreError} {other : String}
    (walked : synchronizeRow replies (failure, folder) other = some (finish, next))
    (retained : folder.Retained replies uid) : next.Retained replies uid := by
  by_cases same : uid = other
  · subst same
    obtain ⟨pushed, replayed, middle, last, isPushed, isReplayed, -, rfl⟩ :=
      synchronizeRow_cases walked
    split
    · exact .of_idle (not_carries_removeRow _ _)
    · cases isReplayed with
      | nothing idle => exact .of_idle idle
      | landed | gone => exact .of_idle (by simp [Carries])
      | offline sends answered =>
        constructor
        · intro filing carries
          simpa [Queued, Carries] using carries
        · rintro ⟨_, _, _, _, _, refused⟩
          cases answered.symm.trans refused
      | refused sends answered =>
        obtain ⟨row, isRow, carriedRow⟩ :=
          ((pushRow_spec isPushed).2.2 _).mp ⟨_, sends.found, sends.carried⟩
        cases pushRow_row isPushed isRow with
        | inl unchanged => exact retained.of_get? (unchanged.trans isRow.symm)
        | inr settles => exact (retained.2 ⟨row, _, isRow, carriedRow, settles, answered⟩).elim
  · exact retained.of_get? ((synchronizeRow_touches walked).rows uid same)

theorem expungeFolder_retained {walk : Walk} {trash : Except StoreError (Option Id)}
    (expunged : folder.expungeFolder replies walk trash = some (finish, next))
    (retained : folder.Retained replies uid) : next.Retained replies uid := by
  obtain rfl | ⟨found, -, -, walked⟩ := expungeFolder_cases expunged
  · exact retained
  · refine foldlM_induct walked retained ?_
    intro other before after _ removed held
    obtain ⟨touches, -, outcome⟩ := expungeMessage_cases removed
    by_cases same : uid = other
    · subst same
      cases outcome with
      | inl taken => exact .of_idle taken.1
      | inr kept => exact held.of_get? (by rw [kept])
    · exact held.of_get? (touches.rows uid same)

/-- The events are synchronisations, and none of them drops the row from the work list. -/
def NoneDrops (uid : String) (folder : Folder lower) : List Event → Prop
  | [] => True
  | event :: events =>
    (∃ replies work expunge trash, event = .synchronize replies work expunge trash ∧
      ¬ folder.Drops replies uid) ∧
    ∀ next, folder.step event = some next → next.NoneDrops uid events

/-- A row with a filing is on the work list after every synchronisation. -/
theorem queued_stays_listed {events : List Event} (listed : folder.Listed uid)
    (kept : folder.NoneDrops uid events) (ran : folder.run events = some next) :
    next.Listed uid := by
  induction events generalizing folder with
  | nil =>
    cases ran
    exact listed
  | cons event events ih =>
    obtain ⟨middle, stepped, rest⟩ := bind_eq_some_iff.mp ran
    refine ih ?_ (kept.2 middle stepped) rest
    obtain ⟨replies, work, expunge, trash, rfl, holds⟩ := kept.1
    obtain ⟨-, mapped⟩ := ite_none_right_eq_some.mp stepped
    obtain ⟨⟨failure, last⟩, synchronized, rfl⟩ := map_eq_some_iff.mp mapped
    obtain ⟨_, walkedTo, _, walked, expunged, -⟩ := synchronizeSync_cases synchronized
    have retained : walkedTo.Retained replies uid :=
      foldlM_induct walked ⟨listed, holds⟩ fun _ => synchronizeRow_retained
    exact (expungeFolder_retained expunged retained).1

def copyQueued : Folder toAsciiLowercase := (inbox.queueFiling "m1" (.copiedInto "archive")).2

theorem queued_stays_listed_offline :
    ∃ finish, copyQueued.run [.synchronize offline ["m1"] false (.ok none)] = some finish ∧
      finish.Carries "m1" (.copiedInto "archive") ∧ finish.Listed "m1" := by
  have listed : copyQueued.Listed "m1" := by
    intro filing ⟨row, found, carried⟩
    cases found
    exact ⟨_, rfl, carried, rfl⟩
  have kept : copyQueued.NoneDrops "m1" [.synchronize offline ["m1"] false (.ok none)] :=
    ⟨⟨_, _, _, _, rfl, fun ⟨_, _, _, _, _, refused⟩ => nomatch refused⟩, fun _ _ => trivial⟩
  exact ⟨_, rfl, ⟨_, rfl, rfl⟩, queued_stays_listed listed kept rfl⟩

def refusing : Replies
  | .filing _ => ⟨inboxAccount, .error .refused⟩
  | _ => ⟨inboxAccount, .ok ()⟩

/-- The refused filing stays on its row, and the row is off the work list. -/
theorem refused_filing_unlisted :
    copyQueued.Queued "m1" (.copiedInto "archive") ∧
      ∃ finish, copyQueued.run [.synchronize refusing ["m1"] false (.ok none)] = some finish ∧
        finish.Carries "m1" (.copiedInto "archive") ∧
        ¬ finish.Queued "m1" (.copiedInto "archive") := by
  refine ⟨⟨_, rfl, rfl, rfl⟩, _, rfl, ⟨_, rfl, rfl⟩, ?_⟩
  intro ⟨row, found, _, flagged⟩
  cases found
  cases flagged

/-! ## The deleted messages -/

/-- No other client writes: every request finds the account as the walk left it. -/
def Alone (replies : Replies) (moveInto : Option Id) (folder : Folder lower) :
    List String → Prop
  | [] => True
  | uid :: uids => (replies (.removal uid)).account = folder.account ∧
      ∀ failure finish next, expungeMessage replies moveInto (failure, folder) uid =
        some (finish, next) → next.Alone replies moveInto uids

/-- What the server and the folder have of a message. -/
structure Message where
  mailboxIds : List Id
  gone : Bool
  listed : Bool

def message (folder : Folder lower) (uid : String) : Message :=
  ⟨folder.account.mailboxIds uid, folder.account.gone.contains uid,
    (folder.rows.get? uid).isSome⟩

/-- A message before and after a walk. `Destroys` and `Moves` say when a message with no
other mailbox may be destroyed and which mailbox may take it. -/
structure Spared (mailbox : Id) (Destroys : Prop) (Moves : Id → Prop) (before after : Message) :
    Prop where
  destroyed : after.gone = true → before.gone = true ∨ before.mailboxIds = [mailbox] ∧ Destroys
  foreign : mailbox ∉ before.mailboxIds →
    after.mailboxIds = before.mailboxIds ∧ after.gone = before.gone
  left : before.listed = true → after.listed = false → after.gone = false →
    mailbox ∈ before.mailboxIds → mailbox ∉ after.mailboxIds ∧ after.mailboxIds ≠ [] ∧
      ∀ other, other ≠ mailbox → (other ∈ after.mailboxIds ↔
        other ∈ before.mailboxIds ∨ before.mailboxIds = [mailbox] ∧ Moves other)

section

variable {Destroys : Prop} {Moves : Id → Prop} {trash : Option Id}

theorem Spared.refl (mailbox : Id) (message : Message) :
    Spared mailbox Destroys Moves message message where
  destroyed := .inl
  foreign := fun _ => ⟨rfl, rfl⟩
  left := by
    intro listed unlisted
    cases listed.symm.trans unlisted

theorem withdrawn_message {other : String} (differs : other ≠ uid) :
    (folder.withdrawn uid trash).message other = folder.message other := by
  simp only [withdrawn]
  split
  · rfl
  · split
    · simp [message, Account.setMailboxes, differs]
    · split
      · simp [message, Account.setMailboxes, differs]
      · simp [message, differs]

variable {mailbox : Id} (destroys : trash = none → Destroys)
  (moves : ∀ other, other ≠ mailbox → (trash = some other ↔ Moves other))
  (elsewhere : trash ≠ some mailbox)

include destroys moves elsewhere

theorem withdrawn_spared (isMailbox : folder.mailbox = mailbox)
    (set : (folder.message uid).mailboxIds.Nodup) :
    Spared mailbox Destroys Moves (folder.message uid)
      (((folder.withdrawn uid trash).removeRow uid).message uid) := by
  subst isMailbox
  simp only [withdrawn]
  split
  · next absent => exact ⟨.inl, fun _ => ⟨rfl, rfl⟩, fun _ _ _ mem => (absent mem).elim⟩
  · next mem =>
    have isIn : folder.mailbox ∈ folder.account.mailboxIds uid := not_not.mp mem
    split
    · next several =>
      refine ⟨.inl, fun absent => (absent isIn).elim, fun _ _ _ _ => ?_⟩
      simp only [message, removeRow, Account.setMailboxes, if_true]
      refine ⟨set.not_mem_erase, ?_, fun other differs => ?_⟩
      · intro empty
        have length := length_erase_of_mem isIn
        rw [empty, length_nil] at length
        omega
      · rw [mem_erase_of_ne differs]
        refine ⟨.inl, fun held => held.resolve_right fun sole => ?_⟩
        simp [sole.1] at several
    · next few =>
      have sole : folder.account.mailboxIds uid = [folder.mailbox] := by
        obtain ⟨only, isOnly⟩ := length_eq_one_iff.mp
          (Nat.le_antisymm (Nat.not_lt.mp few) (length_pos_of_mem isIn))
        rw [isOnly, mem_singleton] at isIn
        rw [isOnly, isIn]
      split
      · next trash =>
        refine ⟨.inl, fun absent => (absent isIn).elim, fun _ _ _ _ => ?_⟩
        have apart : folder.mailbox ≠ trash := fun same => elsewhere (by rw [same])
        have goes : ∀ other, other ≠ folder.mailbox → (other = trash ↔ Moves other) :=
          fun other differs => by rw [← moves other differs, Option.some.injEq, eq_comm]
        simp +contextual [message, removeRow, Account.setMailboxes, sole, Filing.apply,
          Filing.moved, apart, goes]
      · exact ⟨fun _ => .inr ⟨sole, destroys rfl⟩, fun absent => (absent isIn).elim, by
          simp [message, removeRow]⟩

variable {failure : Option StoreError}

theorem expungeMessage_spared
    (expunged : expungeMessage replies trash (failure, folder) uid = some (finish, next))
    (isMailbox : folder.mailbox = mailbox)
    (alone : (replies (.removal uid)).account = folder.account) :
    (∀ other, other ≠ uid → next.message other = folder.message other) ∧
      ((folder.message uid).mailboxIds.Nodup →
        Spared mailbox Destroys Moves (folder.message uid) (next.message uid)) := by
  have row : ∀ (folder : Folder lower) {other}, other ≠ uid →
      (folder.removeRow uid).message other = folder.message other := by
    intro folder other differs
    rw [message, (Touches.removeRow folder uid).rows other differs]
    rfl
  obtain ⟨⟨answer, start⟩, requested, isNext⟩ := map_eq_some_iff.mp expunged
  simp only [sendRemoval] at requested
  obtain ⟨-, possible, answered, ⟨rfl, rfl⟩ | ⟨problem, rfl, rfl⟩⟩ := request_cases requested
  · cases isNext
    rw [alone]
    exact ⟨fun other differs => (row _ differs).trans (withdrawn_message differs),
      withdrawn_spared destroys moves elsewhere isMailbox⟩
  · cases problem with
    | noMessage =>
      cases isNext
      have gone := gone_of_possible possible answered
      rw [alone] at gone ⊢
      refine ⟨fun other differs => row _ differs, fun _ => ⟨.inl, fun _ => ⟨rfl, rfl⟩, ?_⟩⟩
      simp [message, removeRow, gone]
    | disconnected | refused =>
      cases isNext
      rw [alone]
      exact ⟨fun _ _ => rfl, fun _ => .refl ..⟩

theorem foldlM_spared {uids : List String} (distinct : uids.Nodup)
    (alone : folder.Alone replies trash uids) (isMailbox : folder.mailbox = mailbox)
    (walked : uids.foldlM (expungeMessage replies trash) (failure, folder) = some (finish, next)) :
    (uid ∉ uids → next.message uid = folder.message uid) ∧
      ((folder.message uid).mailboxIds.Nodup →
        Spared mailbox Destroys Moves (folder.message uid) (next.message uid)) := by
  induction uids generalizing failure folder with
  | nil =>
    cases walked
    exact ⟨fun _ => rfl, fun _ => .refl ..⟩
  | cons item uids ih =>
    obtain ⟨⟨reached, middle⟩, first, rest⟩ := bind_eq_some_iff.mp walked
    obtain ⟨absent, distinct⟩ := nodup_cons.mp distinct
    obtain ⟨others, here⟩ :=
      expungeMessage_spared destroys moves elsewhere first isMailbox alone.1
    have mailbox := (expungeMessage_cases first).1.mailbox
    obtain ⟨stays, spared⟩ := ih distinct (alone.2 _ _ _ first) (mailbox.trans isMailbox) rest
    by_cases same : uid = item
    · subst same
      refine ⟨fun outside => (outside mem_cons_self).elim, fun set => ?_⟩
      rw [stays absent]
      exact here set
    · rw [others uid same] at spared
      exact ⟨fun outside => (stays fun mem => outside (mem_cons_of_mem _ mem)).trans
        (others uid same), spared⟩

end

theorem nodup_expungeWork (folder : Folder lower) (walk : Walk) (trash : Option Id) :
    (folder.expungeWork walk trash).Nodup := by
  have keys := folder.rows.keys_nodup
  rw [expungeWork]
  split
  · refine (keys.filter _).append (keys.filter _) fun uid marked unmarked => ?_
    exact of_decide_eq_true (mem_filter.mp unmarked).2 (of_decide_eq_true (mem_filter.mp marked).2)
  · exact keys.filter _

/-- With no other client an expunge leaves a message alone that it does not have to remove,
destroys one only if the folder was its last mailbox and no trash can take it, leaves the
messages of other mailboxes alone, and takes of every other message the folder's mailbox and no
more. -/
theorem expungeFolder_spares {walk : Walk} {trash : Option Id}
    (expunged : folder.expungeFolder replies walk (.ok trash) = some (finish, next))
    (alone : folder.Alone replies (folder.moveInto trash) (folder.expungeWork walk trash))
    (set : (folder.message uid).mailboxIds.Nodup) :
    (uid ∉ folder.expungeWork walk trash → next.message uid = folder.message uid) ∧
      Spared folder.mailbox ((trash = none ∨ trash = some folder.mailbox) ∧ walk ≠ .fileInTrash)
        (trash = some ·) (folder.message uid) (next.message uid) := by
  obtain rfl | ⟨found, isFound, files, walked⟩ := expungeFolder_cases expunged
  · exact ⟨fun _ => rfl, .refl ..⟩
  · cases isFound
    have destroys : folder.moveInto trash = none →
        (trash = none ∨ trash = some folder.mailbox) ∧ walk ≠ .fileInTrash := by
      intro noTrash
      exact ⟨moveInto_eq_none noTrash, fun isFiling => files isFiling noTrash⟩
    have moves : ∀ other, other ≠ folder.mailbox →
        (folder.moveInto trash = some other ↔ trash = some other) := by
      intro other differs
      rw [moveInto]
      split
      · next inTrash => simp [inTrash, differs.symm]
      · rfl
    have elsewhere : folder.moveInto trash ≠ some folder.mailbox := by
      rw [moveInto]
      split
      · rintro ⟨⟩
      · next outside => exact outside
    exact (foldlM_spared destroys moves elsewhere (folder.nodup_expungeWork walk trash) alone rfl
      walked).imp_right (· set)

def twoMarked : Folder toAsciiLowercase :=
  { inbox with
    deleted := ["m1", "m2"]
    account := inboxAccount.setMailboxes "m2" ["inbox", "work"] }

def removing : Replies
  | .removal "m2" => ⟨{ twoMarked.account with gone := ["m1"] }, .ok ()⟩
  | _ => ⟨twoMarked.account, .ok ()⟩

theorem expungeFolder_spares_marked :
    ∃ finish, twoMarked.expungeFolder removing .synchronize (.ok none) = some (none, finish) ∧
      finish.account.gone = ["m1"] ∧ finish.account.mailboxIds "m2" = ["work"] ∧
      ("m2" ∉ twoMarked.expungeWork .synchronize none →
        finish.message "m2" = twoMarked.message "m2") ∧
      Spared "inbox" (((none : Option Id) = none ∨ none = some "inbox") ∧
          Walk.synchronize ≠ .fileInTrash)
        (none = some ·) (twoMarked.message "m2") (finish.message "m2") := by
  have alone : twoMarked.Alone removing (twoMarked.moveInto none)
      (twoMarked.expungeWork .synchronize none) := by
    refine ⟨rfl, fun failure finish next removed => ?_⟩
    cases removed
    exact ⟨rfl, fun _ _ _ _ => trivial⟩
  exact ⟨_, rfl, rfl, rfl, expungeFolder_spares rfl alone (by decide)⟩

end EvolutionJmap.Mail.Folder
