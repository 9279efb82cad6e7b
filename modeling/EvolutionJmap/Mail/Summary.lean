import EvolutionJmap.Mail.Row
import EvolutionJmap.MailSync.Convergence

/-!
# The rows after a listing and a delta

`applyListing` and `applyDelta` keep the rows of a folder at the uids that the cache of
`MailSync.Convergence` has, so a folder shows its mailbox whenever that cache does.
-/

namespace EvolutionJmap.Mail

open ChangeFeed Interaction MailSync List BTreeMap

variable {lower : String → String} {rows : Rows lower}

theorem contains_applyMessage (rows : Rows lower) (message : MessageSummary)
    (key : String) :
    (applyMessage rows message).contains key = true ↔
      sanitized message.uid = key ∨ rows.contains key = true := by
  have inserted : ∀ row : Row lower,
      (rows.insert (sanitized message.uid) row).contains key = true ↔
        sanitized message.uid = key ∨ rows.contains key = true := by
    intro row
    simp only [BTreeMap.contains, get?_insert]
    by_cases here : key = sanitized message.uid
    · simp [here]
    · simp [here, Ne.symm here]
  simp only [applyMessage]
  split
  · exact inserted _
  · exact inserted _

theorem contains_foldl_applyMessage (rows : Rows lower) (messages : List MessageSummary)
    (key : String) :
    (messages.foldl applyMessage rows).contains key = true ↔
      (∃ message ∈ messages, sanitized message.uid = key) ∨ rows.contains key = true := by
  apply foldl_gathers fun rows : Rows lower => rows.contains key = true
  simp [contains_applyMessage]

theorem contains_removeAbsent (rows : Rows lower) (listed : List String) (key : String) :
    (removeAbsent rows listed).contains key = true ↔
      key ∈ listed ∧ rows.contains key = true := by
  simp only [removeAbsent, BTreeMap.contains, get?_retain]
  cases rows.get? key <;> simp [Option.filter]

theorem contains_foldl_erase (rows : Rows lower) (absent : List Id) (key : String) :
    (absent.foldl (fun rows uid => rows.erase (sanitized uid)) rows).contains key = true ↔
      rows.contains key = true ∧ ∀ uid ∈ absent, sanitized uid ≠ key := by
  rw [← foldl_map, BTreeMap.contains, get?_eraseAll]
  split <;> simp_all [BTreeMap.contains]

theorem contains_applyListing (rows : Rows lower) (messages : List MessageSummary)
    (key : String) :
    (applyListing rows messages).contains key = true ↔
      ∃ message ∈ messages, sanitized message.uid = key := by
  rw [applyListing, contains_foldl_applyMessage, contains_removeAbsent, mem_map]
  exact or_iff_left_of_imp And.left

theorem contains_applyDelta (rows : Rows lower) (present : List MessageSummary)
    (absent : List Id) (key : String) :
    (applyDelta rows present absent).contains key = true ↔
      (∃ message ∈ present, sanitized message.uid = key) ∨
        (rows.contains key = true ∧ ∀ uid ∈ absent, sanitized uid ≠ key) := by
  rw [applyDelta, contains_foldl_applyMessage, contains_foldl_erase]

/-! ## Rows and the cache -/

/-- The rows are those of the cached messages. -/
def Holds (rows : Rows lower) (cache : BTreeMap Id MessageSummary) : Prop :=
  ∀ key, rows.contains key = true ↔ ∃ id, cache.contains id = true ∧ sanitized id = key

theorem contains_cacheOf (messages : List MessageSummary) (id : Id) :
    (cacheOf MessageSummary.uid messages).contains id = true ↔
      ∃ message ∈ messages, message.uid = id := by
  rw [contains_eq_true]
  rcases get?_cacheOf MessageSummary.uid messages id with
    ⟨message, mem, named, found⟩ | ⟨others, absent⟩
  · simp only [found, Option.some.injEq, exists_eq', true_iff]
    exact ⟨message, mem, named⟩
  · simp only [absent, reduceCtorEq, exists_false, false_iff]
    intro found
    obtain ⟨message, mem, named⟩ := found
    exact others message mem named

theorem holds_applyListing (rows : Rows lower) (messages : List MessageSummary) :
    Holds (applyListing rows messages) (cacheOf MessageSummary.uid messages) := by
  intro key
  rw [contains_applyListing]
  simp only [contains_cacheOf]
  constructor
  · intro listed
    obtain ⟨message, mem, named⟩ := listed
    exact ⟨message.uid, ⟨message, mem, rfl⟩, named⟩
  · intro cached
    obtain ⟨id, ⟨message, mem, rfl⟩, named⟩ := cached
    exact ⟨message, mem, named⟩

variable {cache : BTreeMap Id MessageSummary} {state : State} {present : List MessageSummary}
  {absent : List Id}

theorem Holds.applyDelta (holds : Holds rows cache)
    (cached : ∀ id, cache.contains id = true → Clean id) (gone : ∀ id ∈ absent, Clean id) :
    Holds (applyDelta rows present absent)
      ((MessageUpdate.changed state present absent).apply cache) := by
  have contained : ∀ id,
      ((MessageUpdate.changed state present absent).apply cache).contains id = true ↔
        (∃ message ∈ present, message.uid = id) ∨
          (cache.contains id = true ∧ id ∉ absent) := by
    intro id
    simp only [MessageUpdate.apply, contains_eq_true]
    rcases get?_insertAll MessageSummary.uid (fun row => row) present
      (absent.foldl BTreeMap.erase cache) id with
      ⟨message, mem, named, found⟩ | ⟨others, found⟩
    · simp only [found, Option.some.injEq, exists_eq', true_iff]
      exact .inl ⟨message, mem, named⟩
    · have notPresent : ¬ ∃ message ∈ present, message.uid = id := by
        simpa using others
      rw [found, get?_eraseAll]
      by_cases removed : id ∈ absent <;> simp [removed, notPresent]
  intro key
  rw [contains_applyDelta, holds key]
  simp only [contained]
  constructor
  · intro kept
    rcases kept with ⟨message, mem, named⟩ | ⟨⟨id, inCache, named⟩, others⟩
    · exact ⟨message.uid, .inl ⟨message, mem, rfl⟩, named⟩
    · exact ⟨id, .inr ⟨inCache, fun removed => others id removed named⟩, named⟩
  · intro kept
    obtain ⟨id, ⟨message, mem, rfl⟩ | ⟨inCache, notRemoved⟩, named⟩ := kept
    · exact .inl ⟨message, mem, named⟩
    · refine .inr ⟨⟨id, inCache, named⟩, fun uid removed same => notRemoved ?_⟩
      rw [← named, sanitized_of_clean (gone uid removed),
        sanitized_of_clean (cached id inCache)] at same
      exact same ▸ removed

def Row.columns (row : Row lower) : MessageFlags × List String := (row.flags, row.tags)

/-- The row shows the message and waits for nothing. -/
def Drawn (message : MessageSummary) (row : Row lower) : Prop :=
  row.folderFlagged = false ∧ row.columns = (newMessageInfo message : Row lower).columns

/-- The rows show the cached messages, and no change of the user waits. -/
def Draws (rows : Rows lower) (cache : BTreeMap Id MessageSummary) : Prop :=
  ∀ uid, Option.Rel Drawn (cache.get? uid) (rows.get? uid)

/-- No change of the user waits. -/
def Unflagged (rows : Rows lower) : Prop :=
  ∀ uid row, rows.get? uid = some row → row.folderFlagged = false

theorem Draws.unflagged (draws : Draws rows cache) : Unflagged rows := by
  intro uid row found
  have drawn := draws uid
  rw [found] at drawn
  generalize cache.get? uid = message at drawn
  cases drawn with
  | some drawn => exact drawn.1

theorem drawn_updateMessageInfo {row : Row lower} (unflagged : row.folderFlagged = false)
    (message : MessageSummary) : Drawn message (updateMessageInfo row message) := by
  simp [Drawn, Row.columns, newMessageInfo, updateMessageInfo, outstandingChange, unflagged]

theorem applyMessage_eq {message : MessageSummary} (unflagged : Unflagged rows)
    (clean : Clean message.uid) :
    ∃ row, Drawn message row ∧ applyMessage rows message = rows.insert message.uid row := by
  simp only [applyMessage, sanitized_of_clean clean]
  split
  · next row found => exact ⟨_, drawn_updateMessageInfo (unflagged _ row found) message, rfl⟩
  · exact ⟨_, drawn_updateMessageInfo rfl message, rfl⟩

/-- The messages are written into the rows as into the cache. What was there before
matters for the other uids only. -/
theorem draws_foldl (messages : List MessageSummary) :
    ∀ {rows : Rows lower} {cache : BTreeMap Id MessageSummary}, Unflagged rows →
      (∀ message ∈ messages, Clean message.uid) →
      (∀ uid, (∀ message ∈ messages, message.uid ≠ uid) →
        Option.Rel Drawn (cache.get? uid) (rows.get? uid)) →
      Draws (messages.foldl applyMessage rows)
        (messages.foldl (fun cache message => cache.insert message.uid message) cache) := by
  induction messages with
  | nil =>
    intro rows cache _ _ others uid
    exact others uid fun _ mem => absurd mem not_mem_nil
  | cons message messages ih =>
    intro rows cache unflagged clean others
    rw [forall_mem_cons] at clean
    obtain ⟨row, drawn, applied⟩ := applyMessage_eq unflagged clean.1
    rw [foldl_cons, foldl_cons, applied]
    apply ih _ clean.2
    · intro uid later
      rw [get?_insert, get?_insert]
      split
      · exact .some drawn
      · next other => exact others uid (forall_mem_cons.mpr ⟨Ne.symm other, later⟩)
    · intro uid found isFound
      rw [get?_insert] at isFound
      split at isFound
      · cases isFound
        exact drawn.1
      · exact unflagged uid found isFound

theorem draws_applyListing {messages : List MessageSummary} (unflagged : Unflagged rows)
    (clean : ∀ message ∈ messages, Clean message.uid) :
    Draws (applyListing rows messages) (cacheOf MessageSummary.uid messages) := by
  apply draws_foldl messages _ clean
  · intro uid others
    have unlisted : uid ∉ messages.map fun message => sanitized message.uid := by
      intro listed
      obtain ⟨message, mem, named⟩ := mem_map.mp listed
      rw [sanitized_of_clean (clean message mem)] at named
      exact others message mem named
    have removed : (removeAbsent rows _).get? uid = none :=
      Option.not_isSome_iff_eq_none.mp fun kept =>
        unlisted ((contains_removeAbsent rows _ uid).mp kept).1
    rw [removed]
    exact .none
  · intro uid row found
    rw [removeAbsent, get?_retain] at found
    exact unflagged uid row (Option.filter_eq_some_iff.mp found).1

theorem Draws.applyDelta (draws : Draws rows cache) (gone : ∀ id ∈ absent, Clean id)
    (clean : ∀ message ∈ present, Clean message.uid) :
    Draws (applyDelta rows present absent)
      ((MessageUpdate.changed state present absent).apply cache) := by
  have kept : ∀ uid, (absent.foldl (fun rows uid => rows.erase (sanitized uid)) rows).get? uid =
      if uid ∈ absent then none else rows.get? uid := by
    intro uid
    have same : absent.map sanitized = absent :=
      (map_congr_left fun uid mem => sanitized_of_clean (gone uid mem)).trans (map_id' _)
    rw [← foldl_map, get?_eraseAll, same]
  apply draws_foldl present _ clean
  · intro uid _
    rw [kept, get?_eraseAll]
    split
    · exact .none
    · exact draws uid
  · intro uid row found
    rw [kept] at found
    exact draws.unflagged uid row (Option.ite_none_left_eq_some.mp found).2

theorem Draws.columns_eq {one other : Rows lower} {caches : BTreeMap Id MessageSummary}
    (draws : Draws one cache) (drawn : Draws other caches) {uid : Id}
    (same : cache.get? uid = caches.get? uid) :
    (one.get? uid).map Row.columns = (other.get? uid).map Row.columns := by
  have first := draws uid
  have second := drawn uid
  rw [same] at first
  generalize caches.get? uid = message, one.get? uid = row, other.get? uid = copy at first second
  cases first with
  | none =>
    cases second
    rfl
  | some first =>
    cases second with
    | some second => exact congrArg some (first.2.trans second.2.symm)

/-! ## A listing and one refresh -/

variable {moment : Nat} {id : Id} {since : State}

section Runs

variable {lookups : Lookups} {store : Store emailData} {client : Client} {mailbox : Id}
  {start finish : Nat} {trace : Trace lookups Email}

/-- The characters of an id (RFC 8620 §1.2). -/
def ConformingIds (store : Store emailData) : Prop :=
  ∀ moment id, store.history.value moment id ≠ none →
    ∀ char ∈ id.toList, char.isAlphanum = true ∨ char = '-' ∨ char = '_'

theorem existed_of_marks {history : History Id Email} {origin asked : Nat} {marks : Marks}
    (reports : Reports history id origin asked marks) (marked : marks ≠ .none) :
    ∃ moment, history.value moment id ≠ none := by
  by_contra never
  have unborn : history.Unborn id asked := by
    intro moment _
    by_contra held
    exact never ⟨moment, held⟩
  exact marked (reports.absent unborn)

theorem lookUp_absent {delta : ChangeSet} {origin : Id → Nat} {asked : Nat}
    (describes : delta.Describes store origin asked) (run : store.Run start
      (lookUp client mailbox delta (delta.created.keys ++ delta.updated.keys)) trace
      (.ok (.changed state present absent)) finish) (mem : id ∈ absent) :
    ∃ moment, store.history.value moment id ≠ none := by
  obtain ⟨_, _, fetch, same, -, lookedUp⟩ := lookUp_run describes run
  cases same
  obtain ⟨marks, reports, created, updated, destroyed⟩ := describes.marks id
  apply existed_of_marks reports
  rintro rfl
  rcases (lookedUp.absent id).mp mem with isDestroyed | ⟨isCreated | isUpdated, -⟩
  · cases (destroyed.mp isDestroyed).2
  · cases (created.mp isCreated).1
  · cases (updated.mp isUpdated).2.1

theorem messagesSince_changed {held : Nat}
    (run : store.Run start (messagesSince client mailbox since held) trace
      (.ok (.changed state present absent)) finish) :
    ∃ delta asking rest middle,
      store.Run start (allChanges client "Email" since) asking (.ok delta)
        middle ∧ trace = asking ++ rest ∧
      store.Run middle
        (lookUp client mailbox delta (delta.created.keys ++ delta.updated.keys)) rest
        (.ok (.changed state present absent)) finish := by
  have notListing : ∀ {start : Nat} {trace : List (Exchange (Call lookups) _ Nat)},
      ¬ store.Run start (relist client mailbox) trace
        (.ok (.changed state present absent)) finish := by
    intro start trace listing
    obtain ⟨⟨_, _⟩, _, _, _, -, ended, -⟩ := Run.bind_ok listing
    cases (Run.done_iff.mp ended).2.1
  obtain ⟨outcome, middle, first, second, attempted, rest, rfl⟩ := Run.bind_ok run
  obtain ⟨inner, innerEq, asking⟩ := Run.attempt_iff.mp attempted
  cases innerEq
  cases outcome with
  | error error =>
    dsimp only at rest
    split at rest
    · exact absurd rest notListing
    · cases (Run.fail_iff.mp rest).2.1
  | ok delta =>
    simp only [catchUp] at rest
    split at rest
    · cases (Run.done_iff.mp rest).2.1
    · split at rest
      · exact absurd rest notListing
      · exact ⟨delta, first, second, middle, asking, rfl, rest⟩

theorem messagesSince_absent {held : Nat}
    (run : store.Run start (messagesSince client mailbox since held) trace
      (.ok (.changed state present absent)) finish) (mem : id ∈ absent) :
    ∃ moment, store.history.value moment id ≠ none := by
  obtain ⟨delta, _, _, _, asking, -, looked⟩ := messagesSince_changed run
  obtain ⟨asked, -, -, describes⟩ := allChanges_run asking
  exact lookUp_absent describes looked mem

section

variable (conforming : ConformingIds store)

include conforming

theorem ConformingIds.clean (held : store.history.value moment id ≠ none) : Clean id := by
  intro char mem
  have allowed := conforming moment id held char mem
  refine ⟨?_, ?_, ?_⟩
  · rintro rfl
    revert allowed
    decide
  · rintro rfl
    revert allowed
    decide
  · rintro rfl
    revert allowed
    decide

theorem ConformingIds.sanitized (mem : id ∈ store.listing mailbox moment) :
    sanitized id = id := by
  obtain ⟨email, value, -⟩ := store.mem_listing.mp mem
  have held : store.history.value moment id ≠ none := by simp [value]
  exact sanitized_of_clean (conforming.clean held)

theorem Holds.applyUpdate {held : Nat} {update : MessageUpdate} (holds : Holds rows cache)
    (cached : ∀ id, cache.contains id = true → Clean id)
    (run : store.Run start (messagesSince client mailbox since held) trace
      (.ok update) finish) : Holds (applyUpdate rows update) (update.apply cache) := by
  cases update with
  | unchanged state => exact holds
  | relisted state messages => exact holds_applyListing rows messages
  | changed state present absent =>
    apply holds.applyDelta cached
    intro id mem
    obtain ⟨moment, existed⟩ := messagesSince_absent run mem
    exact conforming.clean existed

end

theorem contains_of_mirrors
    (mirrors : Mirrors emailData mailbox Summarises store (fun _ => moment) cache) (id : Id) :
    cache.contains id = true ↔ id ∈ store.listing mailbox moment := by
  rw [contains_eq_true, store.mem_listing]
  rcases mirrors id with ⟨email, row, value, filed, entry, -⟩ | ⟨outside, entry⟩
  · simp only [entry, Option.some.injEq, exists_eq', true_iff]
    exact ⟨email, value, filed⟩
  · simp only [entry, reduceCtorEq, exists_false, false_iff]
    intro mem
    obtain ⟨email, value, filed⟩ := mem
    exact outside email value filed

theorem relist_of_messages {messages : List MessageSummary}
    (listed : store.Run start (MailSync.messages client mailbox) trace
      (.ok (state, messages)) finish) :
    store.Run start (relist client mailbox) trace
      (.ok (.relisted state messages)) finish :=
  Run.bind_iff.mpr
    (.inr ⟨(state, messages), finish, trace, [], listed, .done, (append_nil _).symm⟩)

/-- After a listing and one refresh of a server at rest the folder has just the
messages of the mailbox, if the listing was left alone. -/
theorem listing_then_delta {quiet held : Nat} {state : State} {messages : List MessageSummary}
    {update : MessageUpdate} {refresh : List (Exchange (Call lookups) (Call.Answer Email) Nat)}
    (conforming : ConformingIds store) (rows : Rows lower)
    (listed : store.Run start (MailSync.messages client mailbox) trace
      (.ok (state, messages)) finish)
    (later : finish ≤ quiet)
    (refreshed : store.Run quiet (messagesSince client mailbox state held)
      refresh (.ok update) quiet)
    (undisturbed : Undisturbed store mailbox ⟨start, trace, finish⟩ ⟨quiet, refresh, quiet⟩)
    (uid : Id) :
    (applyUpdate (applyListing rows messages) update).contains uid = true ↔
      uid ∈ store.listing mailbox quiet := by
  obtain ⟨read, fromListing⟩ := relist_run ∅ (relist_of_messages listed)
  have mirrors : Mirrors emailData mailbox Summarises store (fun _ => quiet)
      (update.apply (cacheOf MessageSummary.uid messages)) := by
    have chain : ListingsUndisturbed store mailbox
        [⟨start, trace, finish⟩, ⟨quiet, refresh, quiet⟩] :=
      isChain_cons_cons.mpr ⟨fun _ _ => undisturbed, .singleton _⟩
    have standing : Standing store mailbox ⟨state, cacheOf MessageSummary.uid messages⟩ finish
        [⟨quiet, refresh, quiet⟩] :=
      .inr ⟨_, read, fromListing, le_rfl, chain⟩
    exact (standing.refresh later (.singleton _) refreshed).2 rfl
  have cached : ∀ id, (cacheOf MessageSummary.uid messages).contains id = true → Clean id := by
    intro id inCache
    obtain ⟨row, entry⟩ := (contains_eq_true _).mp inCache
    rcases ((fromListing.listed undisturbed.pages id).sound row entry).2 with
      ⟨moment, email, -, -, value, -⟩
    have existed : store.history.value moment id ≠ none := by simp [value]
    exact conforming.clean existed
  have holds := (holds_applyListing rows messages).applyUpdate conforming cached refreshed
  rw [holds uid]
  constructor
  · intro kept
    obtain ⟨id, inCache, named⟩ := kept
    have mem := (contains_of_mirrors mirrors id).mp inCache
    rw [conforming.sanitized mem] at named
    exact named ▸ mem
  · intro mem
    exact ⟨uid, (contains_of_mirrors mirrors uid).mpr mem, conforming.sanitized mem⟩

theorem clean_of_mirrors {messages : List MessageSummary} (conforming : ConformingIds store)
    (mirrors : Mirrors emailData mailbox Summarises store (fun _ => moment)
      (messages.foldl (fun cache message => cache.insert message.uid message) cache)) :
    ∀ message ∈ messages, Clean message.uid := by
  intro message mem
  rcases get?_insertAll MessageSummary.uid (fun row => row) messages cache message.uid with
    ⟨last, -, -, found⟩ | ⟨others, -⟩
  · have listed := (contains_of_mirrors mirrors message.uid).mp (by simp [BTreeMap.contains, found])
    obtain ⟨email, value, -⟩ := store.mem_listing.mp listed
    exact conforming.clean (Option.ne_none_iff_exists'.mpr ⟨email, value⟩)
  · exact absurd rfl (others message mem)

/-- On a server at rest a refresh of rows that show the mailbox at its state leaves the
columns of a full listing, whatever row count it is given. The two lists of a delta have
no id in common, and have the ids that the delta names. -/
theorem refresh_agrees_with_listing {quiet held : Nat} {listedState : State}
    {messages : List MessageSummary} {update : MessageUpdate}
    {refresh : Trace lookups Email}
    (conforming : ConformingIds store)
    (mirrors : Mirrors emailData mailbox Summarises store (store.cut since) cache)
    (draws : Draws rows cache)
    (refreshed : store.Run quiet (messagesSince client mailbox since held)
      refresh (.ok update) quiet)
    (listed : store.Run quiet (MailSync.messages client mailbox) trace
      (.ok (listedState, messages)) quiet) :
    (∀ uid, ((applyUpdate rows update).get? uid).map Row.columns =
      ((applyListing (∅ : Rows lower) messages).get? uid).map Row.columns) ∧
    ∀ state present absent, update = .changed state present absent →
      ∃ delta asking rest middle,
        store.Run quiet (allChanges client "Email" since) asking (.ok delta)
          middle ∧ refresh = asking ++ rest ∧
        (∀ row ∈ present, row.uid ∉ absent) ∧
        ∀ id, id ∈ present.map MessageSummary.uid ∨ id ∈ absent ↔
          Touched delta id ∨ delta.destroyed.contains id = true := by
  have inStep : InStep mailbox Summarises store ⟨since, cache⟩ quiet := fun id => .inl (mirrors id)
  have standing : Standing store mailbox ⟨since, cache⟩ quiet [⟨quiet, refresh, quiet⟩] :=
    .inl inStep
  have refreshedCache := (standing.refresh le_rfl (.singleton _) refreshed).2 rfl
  obtain ⟨read, fromListing⟩ := relist_run ∅ (relist_of_messages listed)
  have listedCache := fromListing.mirrors (steady_of_quiet listed) rfl
  constructor
  · intro uid
    have redrawn : Draws (applyUpdate rows update) (update.apply cache) := by
      cases update with
      | unchanged state => exact draws
      | relisted state messages =>
        exact draws_applyListing draws.unflagged (clean_of_mirrors conforming refreshedCache)
      | changed state present absent =>
        apply draws.applyDelta _ (clean_of_mirrors conforming refreshedCache)
        intro id mem
        obtain ⟨moment, existed⟩ := messagesSince_absent refreshed mem
        exact conforming.clean existed
    have relisted : Draws (applyListing (∅ : Rows lower) messages) _ :=
      draws_applyListing (fun _ _ found => by cases found) (clean_of_mirrors conforming listedCache)
    apply redrawn.columns_eq relisted
    apply (refreshedCache uid).unique _ (listedCache uid)
    intro email first second drawn drawnToo
    exact Except.ok.inj (drawn.symm.trans drawnToo)
  · rintro state present absent rfl
    obtain ⟨delta, asking, rest, middle, asked, isTrace, looked⟩ := messagesSince_changed refreshed
    obtain ⟨_, -, -, describes⟩ := allChanges_run asked
    obtain ⟨_, _, fetch, same, -, lookedUp⟩ := lookUp_run describes looked
    cases same
    exact ⟨delta, asking, rest, middle, asked, isTrace,
      fun row mem => lookedUp.disjoint describes mem, lookedUp.covers⟩

end Runs

/-! ## A message that comes while the mailbox is listed -/

deriving instance DecidableEq for Email

def newcomerStore (died : Option Nat) : Store emailData :=
  .ofLives emailData [("a", ⟨1, died, fun _ => inboxEmail "a"⟩)] (by simp)
    (by simp [emailData, inboxEmail]) fun _ _ _ => False

def newcomer : MessageSummary where
  uid := "a"
  blobId := none
  threadId := none
  flags := {}
  tags := []
  size := 0
  receivedAt := none
  sentAt := none
  subject := none
  «from» := []
  «to» := []
  cc := []
  messageId := none
  references := []
  preview := none

def newcomerTrace : Trace .none Email :=
  [⟨0, .get "Email/get" [], .ok ⟨"", [], []⟩, 0⟩,
    ⟨1, .query "Email/query" "inbox" 0, .ok ⟨["a"], some 1, some 5⟩, 1⟩,
    ⟨1, .query "Email/query" "inbox" 1, .ok ⟨[], some 1, some 5⟩, 1⟩,
    ⟨1, .get "Email/get" ["a"], .ok ⟨"x", [inboxEmail "a"], []⟩, 1⟩]

section Newcomer

variable {died : Option Nat}

section

variable (alive : (newcomerStore died).history.value 1 "a" = some (inboxEmail "a"))

include alive

theorem newcomer_fetch :
    Run ((newcomerStore died).service .none) 1 (fetch {} ["a"])
      [⟨1, .get "Email/get" ["a"], .ok ⟨"x", [inboxEmail "a"], []⟩, 1⟩]
      (.ok [inboxEmail "a"]) 1 := by
  have answered : (newcomerStore died).AnswersGet 1 ["a"] ⟨"x", [inboxEmail "a"], []⟩ := by
    have all : (newcomerStore died).AnswersGet 1 ["a"] ⟨"x", _, _⟩ :=
      (newcomerStore died).answersGet_all 1 ["a"]
    simpa [alive] using all
  rw [fetch]
  change Run _ _ (Program.forEach (emailGet {}) [["a"]] >>= _) _ _ _
  simp only [Program.forEach, emailGet, getChunked_unlimited]
  exact .call ⟨rfl, answered⟩ .done

theorem newcomer_queried (listing : (newcomerStore died).listing "inbox" 1 = ["a"])
    (state : State) :
    Run ((newcomerStore died).service .none) 1 (do
        let ids ← (queryEveryId {} "Email/query" "inbox").mapError SyncError.client
        let emails ← fetch {} ids
        let byUid ← .ofExcept (rowsByUid emails ∅)
        .done (state, takeRows ids byUid))
      newcomerTrace.tail (.ok (state, [newcomer])) 1 := by
  have first := (newcomerStore died).answersQuery_page 1 "inbox" 0 5
  have second := (newcomerStore died).answersQuery_page 1 "inbox" 1 5
  rw [listing] at first second
  refine .call ⟨rfl, first⟩ (.call ⟨rfl, second⟩ ?_)
  exact (newcomer_fetch alive).andThen .done

theorem newcomer_listed (listing : (newcomerStore died).listing "inbox" 1 = ["a"]) :
    Run ((newcomerStore died).service .none) 0 (messages {} "inbox")
      newcomerTrace (.ok ("", [newcomer])) 1 :=
  .call ⟨rfl, (newcomerStore died).answersGet_all 0 []⟩
    (.move rfl (newcomer_queried alive listing ""))

end

end Newcomer

def newcomerRefresh : Trace .none Email :=
  [⟨1, .changes "Email" "", .ok ⟨"x", false, ["a"], [], []⟩, 1⟩,
    ⟨1, .get "Email/get" ["a"], .ok ⟨"x", [inboxEmail "a"], []⟩, 1⟩]

theorem newcomer_refreshed :
    Run ((newcomerStore none).service .none) 1 (messagesSince {} "inbox" "" 1)
      newcomerRefresh (.ok (.changed "x" [newcomer] [])) 1 := by
  refine .call ⟨rfl, ?_⟩ ?_
  · apply Store.ofLives_answersChanges <;> decide
  · refine (newcomer_fetch rfl).andThen ?_
    change Run _ 1 (.done (MessageUpdate.changed "x" ([newcomer].mergeSort listedBefore) [])) [] _ 1
    rw [mergeSort_singleton]
    exact .done

theorem newcomer_undisturbed :
    Undisturbed (newcomerStore none) "inbox" ⟨0, newcomerTrace, 1⟩ ⟨1, newcomerRefresh, 1⟩ where
  pages := steady_of_at 1 (by simp [newcomerTrace, Call.isQuery])
  newcomers id moment _ _ _ mem := by
    obtain ⟨email, value, -⟩ := (newcomerStore none).mem_listing.mp mem
    by_cases isNewcomer : id = "a"
    · subst isNewcomer
      decide
    · rw [show (newcomerStore none).history.value moment id = none from
        Store.ofLives_never (by simpa using isNewcomer) moment] at value
      cases value

theorem newcomer_conforming (died : Option Nat) : ConformingIds (newcomerStore died) := by
  intro moment id held
  have known : id = "a" := by
    by_contra other
    exact held (Store.ofLives_never (by simpa using other) moment)
  subst known
  simp

theorem listing_then_delta_newcomer :
    (applyUpdate (applyListing (∅ : Rows toAsciiLowercase) [newcomer])
      (.changed "x" [newcomer] [])).contains "a" = true ↔
      "a" ∈ (newcomerStore none).listing "inbox" 1 :=
  listing_then_delta (newcomer_conforming none) ∅ (newcomer_listed rfl rfl) le_rfl
    newcomer_refreshed newcomer_undisturbed "a"

theorem newcomer_unborn (died : Option Nat) (id : Id) :
    (newcomerStore died).history.value 0 id = none := by
  unfold newcomerStore
  exact Store.ofLives_unborn Nat.zero_lt_one id

theorem refresh_agrees_with_listing_newcomer :
    ((applyUpdate (∅ : Rows toAsciiLowercase) (.changed "x" [newcomer] [])).get? "a").map
        Row.columns =
      ((applyListing (∅ : Rows toAsciiLowercase) [newcomer]).get? "a").map Row.columns := by
  have nothing : Mirrors emailData "inbox" Summarises (newcomerStore none)
      ((newcomerStore none).cut "") ∅ := mirrors_nothing (newcomer_unborn none)
  have listed : Run ((newcomerStore none).service .none) 1 (messages {} "inbox")
      (⟨1, .get "Email/get" [], .ok ⟨"x", [], []⟩, 1⟩ :: newcomerTrace.tail)
      (.ok ("x", [newcomer])) 1 :=
    .call ⟨rfl, (newcomerStore none).answersGet_all 1 []⟩ (newcomer_queried rfl rfl "x")
  exact (refresh_agrees_with_listing (newcomer_conforming none) nothing (fun _ => .none)
    newcomer_refreshed listed).1 "a"

/-- The message was delivered after the listing's state and destroyed before the
next delta, which need not name it: its row stays. -/
theorem newcomer_stays :
    Run ((newcomerStore (some 2)).service .none) 0 (messages {} "inbox")
      newcomerTrace (.ok ("", [newcomer])) 1 ∧
    Run ((newcomerStore (some 2)).service .none) 2
      (messagesSince {} "inbox" "" 1)
      [⟨2, .changes "Email" "", .ok ⟨"xx", false, [], [], []⟩, 2⟩]
      (.ok (.unchanged "xx")) 2 ∧
    (applyUpdate (applyListing (∅ : Rows toAsciiLowercase) [newcomer])
      (.unchanged "xx")).contains "a" = true ∧
    "a" ∉ (newcomerStore (some 2)).listing "inbox" 2 := by
  refine ⟨newcomer_listed rfl rfl, .call ⟨rfl, ?_⟩ .done, by decide, by decide⟩
  apply Store.ofLives_answersChanges <;> decide

end EvolutionJmap.Mail
