import EvolutionJmap.MailSync.Basic

/-!
# Refreshes keep a mailbox's rows in step

After a refresh from a delta each row shows its message at the moment of the returned
state or belongs to a message that has changed since.  A refresh that falls back to a
listing establishes this only for messages that existed when the listing's state was
read: a later one that is listed and destroyed before the next delta keeps its row.
-/

namespace EvolutionJmap.MailSync

open ChangeFeed Interaction List BTreeMap BTreeSet

variable {lookups : Lookups} {store : Store emailData} {client : Client} {mailbox : Id}
  {start finish : Nat} {trace : Trace lookups Email}

/-- The row is what the client makes of the message. -/
def Summarises (email : Email) (row : MessageSummary) : Prop :=
  MessageSummary.fromEmail email = .ok row

/-! ## Fetching in chunks -/

theorem chunksFrom_flatten {α : Type} {size : Nat} (positive : 0 < size) (fuel : Nat)
    (items : List α) (enough : items.length ≤ fuel) :
    (chunksFrom size fuel items).flatten = items := by
  induction fuel generalizing items with
  | zero => simp [chunksFrom, eq_nil_of_length_eq_zero (Nat.le_zero.mp enough)]
  | succ fuel ih =>
    cases items with
    | nil => rfl
    | cons first rest =>
      have shorter : ((first :: rest).drop size).length ≤ fuel := by
        rw [length_drop]
        omega
      rw [chunksFrom, flatten_cons, ih _ shorter, take_append_drop]
      nofun

theorem objectsInGet_pos (client : Client) : 0 < objectsInGet client := by
  unfold objectsInGet fallbackObjectsInGet maxObjectsPerGet
  cases limit : client.maxObjectsInGet.filter (0 < ·) with
  | none => decide
  | some count =>
    have positive : 0 < count := by
      simpa using (Option.filter_eq_some_iff.mp limit).2
    simp [positive]

theorem forEach_emailGet_run (parts : List (List Id)) {lists : List (List Email)}
    (run : store.Run start (Program.forEach (emailGet client) parts) trace
      (.ok lists) finish) :
    ∃ fetched : List (Id × Nat), fetched.map Prod.fst = parts.flatten ∧
      (∀ read ∈ fetched, start ≤ read.2 ∧ read.2 ≤ finish) ∧
      ∀ email, email ∈ lists.flatten ↔
        ∃ read ∈ fetched, store.history.value read.2 read.1 = some email := by
  induction parts generalizing start trace lists finish with
  | nil =>
    cases run.done_ok
    exact ⟨[], rfl, nofun, by simp⟩
  | cons part parts ih =>
    obtain ⟨first, middle, _, _, gotFirst, afterFirst, -⟩ := Run.bind_ok run
    obtain ⟨rest, last, _, _, gotRest, ended, -⟩ := Run.bind_ok afterFirst
    cases ended.done_ok
    obtain ⟨response, answered, _, _, got, done, -⟩ := Run.bind_ok gotFirst
    have listed := (Run.done_iff.mp done).2.1
    cases listed
    have answeredLe := done.le store.monotone
    have middleLe := afterFirst.le store.monotone
    have lastLe := ended.le store.monotone
    rcases getChunked_run (Run.mapError_ok got) with
      ⟨fetched, fetchedIds, times, reads⟩
    obtain ⟨others, otherIds, otherTimes, otherReads⟩ := ih gotRest
    have firstLe := gotFirst.le store.monotone
    refine ⟨fetched ++ others, by simp [fetchedIds, otherIds], ?_, ?_⟩
    · intro read mem
      rcases mem_append.mp mem with early | late
      · have bounds := times read early
        omega
      · have bounds := otherTimes read late
        omega
    · intro email
      rw [flatten_cons, mem_append, reads.list, otherReads]
      simp only [mem_append, or_and_right, exists_or]

variable {ids : List Id}

theorem fetch_run {emails : List Email}
    (run : store.Run start (fetch client ids) trace (.ok emails) finish) :
    ∃ fetched : List (Id × Nat), fetched.map Prod.fst = ids ∧
      (∀ read ∈ fetched, start ≤ read.2 ∧ read.2 ≤ finish) ∧
      ∀ email, email ∈ emails ↔
        ∃ read ∈ fetched, store.history.value read.2 read.1 = some email := by
  obtain ⟨lists, middle, _, _, got, ended, -⟩ := Run.bind_ok run
  cases ended.done_ok
  obtain ⟨fetched, fetchedIds, times, reads⟩ := forEach_emailGet_run _ got
  rw [chunks, chunksFrom_flatten (objectsInGet_pos client) _ _ le_rfl] at fetchedIds
  exact ⟨fetched, fetchedIds,
    fun read mem => ⟨(times read mem).1,
      (times read mem).2.trans (ended.le store.monotone)⟩, reads⟩

/-! ## Listing -/

variable {row : MessageSummary}

section

variable (emails : List Email) {rows result : BTreeMap Id MessageSummary}
  (ok : rowsByUid emails rows = .ok result) {id : Id}

include emails ok

theorem rowsByUid_sound (found : result.get? id = some row) :
    rows.get? id = some row ∨ ∃ email ∈ emails, Summarises email row ∧ row.uid = id := by
  induction emails generalizing rows with
  | nil =>
    cases ok
    exact .inl found
  | cons email emails ih =>
    simp only [rowsByUid] at ok
    split at ok
    · next summary made =>
      rcases ih ok with earlier | ⟨source, mem, summarised⟩
      · rw [get?_insert] at earlier
        split at earlier
        · next here =>
          cases earlier
          exact .inr ⟨email, mem_cons_self, made, here.symm⟩
        · exact .inl earlier
      · exact .inr ⟨source, mem_cons_of_mem _ mem, summarised⟩
    · cases ok

theorem rowsByUid_complete (named : rows.get? id ≠ none ∨ ∃ email ∈ emails, email.id = some id) :
    result.get? id ≠ none := by
  induction emails generalizing rows with
  | nil =>
    cases ok
    exact named.resolve_right (by simp)
  | cons email emails ih =>
    simp only [rowsByUid] at ok
    split at ok
    · next summary made =>
      apply ih ok
      have uid := MessageSummary.fromEmail_uid made
      rw [get?_insert]
      by_cases here : id = summary.uid
      · simp [here]
      · rw [if_neg here]
        apply named.imp_right
        intro ⟨source, mem, sourceId⟩
        cases mem with
        | head =>
          rw [uid] at sourceId
          exact absurd (Option.some.inj sourceId).symm here
        | tail _ mem => exact ⟨source, mem, sourceId⟩
    · cases ok

end

theorem mem_takeRows {rows : BTreeMap Id MessageSummary} :
    row ∈ takeRows ids rows ↔ ∃ id ∈ ids, rows.get? id = some row := by
  induction ids generalizing rows with
  | nil => simp [takeRows]
  | cons first ids ih =>
    simp only [takeRows]
    split
    · next taken found =>
      rw [mem_cons, ih]
      constructor
      · intro cases
        rcases cases with same | ⟨id, mem, later⟩
        · exact ⟨first, mem_cons_self, same ▸ found⟩
        · rw [get?_erase] at later
          split at later
          · cases later
          · exact ⟨id, mem_cons_of_mem _ mem, later⟩
      · intro ⟨id, mem, has⟩
        by_cases here : id = first
        · rw [here, found] at has
          exact .inl (Option.some.inj has).symm
        · rcases mem_cons.mp mem with same | mem
          · exact absurd same here
          · refine .inr ⟨id, mem, ?_⟩
            rw [get?_erase, if_neg here, has]
    · next missing =>
      rw [ih]
      constructor
      · intro ⟨id, mem, has⟩
        exact ⟨id, mem_cons_of_mem _ mem, has⟩
      · intro ⟨id, mem, has⟩
        rcases mem_cons.mp mem with same | mem
        · rw [same, missing] at has
          cases has
        · exact ⟨id, mem, has⟩

theorem messages_run {state : State} {rows : List MessageSummary}
    (run : store.Run start (messages client mailbox) trace
      (.ok (state, rows)) finish) :
    ∃ read, start ≤ read ∧ read ≤ finish ∧ state = store.stateAt read ∧
      (Steady store mailbox trace → ∀ id, Listed store mailbox Summarises read finish id
        ((cacheOf MessageSummary.uid rows).get? id)) := by
  obtain ⟨given, afterState, _, _, stateRun, fromQuery, traceEq⟩ := Run.bind_ok run
  obtain ⟨ids, afterQuery, _, _, queryRun, fromGet, queryTraceEq⟩ := Run.bind_ok fromQuery
  obtain ⟨emails, afterGet, _, _, getRun, fromRows, -⟩ := Run.bind_ok fromGet
  obtain ⟨byUid, rowsOk, ended⟩ := Run.ofExcept_ok_bind fromRows
  cases ended.done_ok
  obtain ⟨response, answered, _, _, sent, stateDone, -⟩ := Run.bind_ok stateRun
  have stateOutcome := (Run.done_iff.mp stateDone).2.1
  cases stateOutcome
  rcases Store.send_run (Run.mapError_ok sent) with
    ⟨_, read, readGe, readLe, ⟨rfl, got⟩, -⟩
  have answeredLe := stateDone.le store.monotone
  have queryLe := queryRun.le store.monotone
  have getLe := getRun.le store.monotone
  have endedLe := ended.le store.monotone
  obtain ⟨querySound, queryComplete⟩ := queryEveryId_run (Run.mapError_ok queryRun)
  obtain ⟨fetched, rfl, times, reads⟩ := fetch_run getRun
  refine ⟨read, readGe, by omega, got.state, fun steady => listed_cacheOf (by omega)
    ⟨queryLe, getLe, endedLe⟩ (fun _ _ => MessageSummary.fromEmail_uid) querySound ?_ times reads
    ?_ ?_⟩
  · exact queryComplete (steady.subset fun exchange mem => by simp [traceEq, queryTraceEq, mem])
  · intro row mem
    obtain ⟨key, -, has⟩ := mem_takeRows.mp mem
    rcases (rowsByUid_sound emails rowsOk has).resolve_left nofun with
      ⟨email, emailIn, summarised, -⟩
    exact ⟨email, emailIn, summarised⟩
  · intro email emailIn
    obtain ⟨given, isRead, value⟩ := (reads email).mp emailIn
    have hasRow := rowsByUid_complete emails rowsOk (.inr ⟨email, emailIn, store.id_eq value⟩)
    obtain ⟨row, has⟩ := Option.ne_none_iff_exists'.mp hasRow
    obtain ⟨-, -, -, uid⟩ := (rowsByUid_sound emails rowsOk has).resolve_left nofun
    exact ⟨row, mem_takeRows.mpr ⟨given.1, mem_map_of_mem isRead, has⟩,
      (store.id_eq value).trans (congrArg some uid.symm)⟩

/-! ## Looking up a delta -/

theorem filedIn_ok {email : Email} {filed : Bool} (ok : filedIn mailbox email = .ok filed) :
    filed = true ↔ emailData.filed mailbox email := by
  unfold filedIn at ok
  unfold DataType.filed emailData
  split at ok
  · cases ok
  · next found =>
    cases ok
    simp [found]
  · next found =>
    cases ok
    simp [found]

/-- The loop makes rows of just the messages that are filed here, and calls just
the others absent. -/
theorem fileMessages_ok (emails : List Email) {present finalPresent : List MessageSummary}
    {absent finalAbsent : BTreeSet Id}
    (ok : fileMessages mailbox emails present absent = .ok (finalPresent, finalAbsent)) :
    (∀ row, row ∈ finalPresent ↔ row ∈ present ∨ ∃ email ∈ emails,
      emailData.filed mailbox email ∧ Summarises email row) ∧
    (∀ email ∈ emails, ∃ row, Summarises email row) ∧
    (∀ id, finalAbsent.contains id = true ↔ absent.contains id = true ∨
      ∃ email ∈ emails, ¬ emailData.filed mailbox email ∧ email.id = some id) := by
  induction emails generalizing present absent with
  | nil =>
    cases ok
    simp
  | cons email emails ih =>
    simp only [fileMessages] at ok
    obtain ⟨filed, filedOk, rest⟩ := exceptBind_ok.mp ok
    obtain ⟨summary, made, loop⟩ := exceptBind_ok.mp rest
    have filedIff := filedIn_ok filedOk
    have uid := MessageSummary.fromEmail_uid made
    have unique : ∀ row, Summarises email row ↔ row = summary := by
      intro row
      constructor
      · intro summarised
        cases made.symm.trans summarised
        rfl
      · intro same
        exact same ▸ made
    cases filed with
    | true =>
      have isFiled := filedIff.mp rfl
      obtain ⟨presentIff, summaries, absentIff⟩ := ih loop
      refine ⟨fun row => ?_, forall_mem_cons.mpr ⟨⟨summary, made⟩, summaries⟩, fun id => ?_⟩
      · rw [presentIff]
        simp [isFiled, unique, or_assoc]
      · rw [absentIff]
        simp [isFiled]
    | false =>
      have notFiled : ¬ emailData.filed mailbox email := fun isFiled => by
        cases filedIff.mpr isFiled
      obtain ⟨presentIff, summaries, absentIff⟩ := ih loop
      refine ⟨fun row => ?_, forall_mem_cons.mpr ⟨⟨summary, made⟩, summaries⟩, fun id => ?_⟩
      · rw [presentIff]
        simp [notFiled]
      · rw [absentIff, contains_add]
        simp only [exists_mem_cons_iff, notFiled, not_false_eq_true, true_and, uid,
          Option.some.injEq, eq_comm (a := id), or_assoc]
        exact or_left_comm

/-- The messages that a delta calls created or updated. -/
def Touched (delta : ChangeSet) (id : Id) : Prop :=
  delta.created.contains id = true ∨ delta.updated.contains id = true

/-- What a refresh from a delta reports, with the moment `fetch id` at which a
touched message was read. -/
structure LookedUp (store : Store emailData) (mailbox : Id) (delta : ChangeSet)
    (present : List MessageSummary) (absent : List Id) (fetch : Id → Nat) : Prop where
  sound : ∀ row ∈ present, Touched delta row.uid ∧
    ∃ email, store.history.value (fetch row.uid) row.uid = some email ∧
      emailData.filed mailbox email ∧ Summarises email row
  complete : ∀ id email, Touched delta id →
    store.history.value (fetch id) id = some email → emailData.filed mailbox email →
      ∃ row ∈ present, row.uid = id
  absent : ∀ id, id ∈ absent ↔ delta.destroyed.contains id = true ∨
    (Touched delta id ∧ ∀ email, store.history.value (fetch id) id = some email →
      ¬ emailData.filed mailbox email)

theorem mem_touched {delta : ChangeSet} {id : Id} :
    id ∈ delta.created.keys ++ delta.updated.keys ↔ Touched delta id := by
  rw [mem_append, mem_keys_iff, mem_keys_iff, Touched]

section

variable {delta : ChangeSet} {fetch : Id → Nat} {emails : List Email}
  {present : List MessageSummary} {absent : BTreeSet Id}
  (reads : ∀ email, email ∈ emails ↔ ∃ id, Touched delta id ∧
    store.history.value (fetch id) id = some email)
  (filed : fileMessages mailbox emails [] delta.destroyed = .ok (present, absent))

include reads filed

theorem source_of_filed {row : MessageSummary} (mem : row ∈ present) :
    Touched delta row.uid ∧ ∃ email, store.history.value (fetch row.uid) row.uid = some email ∧
      emailData.filed mailbox email ∧ Summarises email row := by
  rcases (((fileMessages_ok emails filed).1 row).mp mem).resolve_left nofun with
    ⟨email, emailIn, isFiled, summarised⟩
  obtain ⟨id, touched, value⟩ := (reads email).mp emailIn
  have sameId : some id = some row.uid :=
    (store.id_eq value).symm.trans (MessageSummary.fromEmail_uid summarised)
  cases sameId
  exact ⟨touched, email, value, isFiled, summarised⟩

theorem exists_row_of_filed {id : Id} {email : Email} (touched : Touched delta id)
    (value : store.history.value (fetch id) id = some email)
    (isFiled : emailData.filed mailbox email) : ∃ row ∈ present, row.uid = id := by
  obtain ⟨presentIff, summaries, -⟩ := fileMessages_ok emails filed
  have emailIn := (reads email).mpr ⟨id, touched, value⟩
  obtain ⟨row, summarised⟩ := summaries email emailIn
  have sameId := (store.id_eq value).symm.trans (MessageSummary.fromEmail_uid summarised)
  exact ⟨row, (presentIff row).mpr (.inr ⟨email, emailIn, isFiled, summarised⟩),
    (Option.some.inj sameId).symm⟩

theorem lookedUp_of_reads :
    LookedUp store mailbox delta (present.mergeSort listedBefore)
      (BTreeSet.union absent (BTreeSet.ofElems ((delta.created.keys ++ delta.updated.keys).filter
        fun id => id ∉ present.map MessageSummary.uid ∧ absent.contains id = false))).keys
      fetch := by
  have absentIff := (fileMessages_ok emails filed).2.2
  refine ⟨fun row mem => source_of_filed reads filed (mem_mergeSort.mp mem), ?_, ?_⟩
  · intro id email touched value isFiled
    obtain ⟨row, mem, uid⟩ := exists_row_of_filed reads filed touched value isFiled
    exact ⟨row, mem_mergeSort.mpr mem, uid⟩
  · intro id
    rw [mem_keys_iff, contains_union, absentIff, contains_ofElems,
      mem_filter]
    constructor
    · intro cases
      rcases cases with (destroyed | ⟨email, emailIn, notFiled, named⟩) | ⟨mem, unanswered⟩
      · exact .inl destroyed
      · obtain ⟨other, touched, value⟩ := (reads email).mp emailIn
        have sameId := (store.id_eq value).symm.trans named
        cases sameId
        refine .inr ⟨touched, fun current currentEq => ?_⟩
        rw [value] at currentEq
        cases currentEq
        exact notFiled
      · have touched := mem_touched.mp mem
        refine .inr ⟨touched, fun email value isFiled => ?_⟩
        obtain ⟨row, rowIn, uid⟩ := exists_row_of_filed reads filed touched value isFiled
        simp only [decide_eq_true_eq] at unanswered
        exact unanswered.1 (mem_map.mpr ⟨row, rowIn, uid⟩)
    · intro cases
      rcases cases with destroyed | ⟨touched, outside⟩
      · exact .inl (.inl destroyed)
      · by_cases known : absent.contains id = true
        · exact .inl ((absentIff id).mp known)
        · refine .inr ⟨mem_touched.mpr touched, ?_⟩
          simp only [decide_eq_true_eq, Bool.not_eq_true] at known ⊢
          refine ⟨fun answered => ?_, known⟩
          obtain ⟨row, rowIn, rfl⟩ := mem_map.mp answered
          obtain ⟨-, email, value, isFiled, -⟩ := source_of_filed reads filed rowIn
          exact outside email value isFiled

end

section

variable {delta : ChangeSet} {origin : Id → Nat} {asked : Nat}
  (describes : delta.Describes store origin asked)

include describes

theorem touched_nodup : (delta.created.keys ++ delta.updated.keys).Nodup := by
  rw [nodup_append]
  refine ⟨delta.created.keys_nodup, delta.updated.keys_nodup, ?_⟩
  intro id created other updated same
  subst same
  obtain ⟨marks, -, createdIff, updatedIff, -⟩ := describes.marks id
  have isCreated := (createdIff.mp ((mem_keys_iff _ _).mp created)).1
  have notCreated := (updatedIff.mp ((mem_keys_iff _ _).mp updated)).1
  rw [isCreated] at notCreated
  cases notCreated

theorem lookUp_run {update : MessageUpdate}
    (run : store.Run start
      (lookUp client mailbox delta (delta.created.keys ++ delta.updated.keys)) trace
      (.ok update) finish) :
    ∃ present absent fetch, update = .changed delta.newState present absent ∧
      (∀ id, start ≤ fetch id ∧ fetch id ≤ finish) ∧
      LookedUp store mailbox delta present absent fetch := by
  obtain ⟨emails, middle, _, _, got, filing, -⟩ := Run.bind_ok run
  obtain ⟨⟨present, absent⟩, filed, ended⟩ := Run.ofExcept_ok_bind filing
  cases ended.done_ok
  have endedLe := ended.le store.monotone
  obtain ⟨fetched, fetchedIds, times, reads⟩ := fetch_run got
  have nodup : (fetched.map Prod.fst).Nodup := fetchedIds ▸ touched_nodup describes
  obtain ⟨fetch, window, readIff⟩ := exists_readMoment nodup (got.le store.monotone) times
  rw [fetchedIds] at readIff
  refine ⟨_, _, fetch, rfl, fun id => ⟨(window id).1, (window id).2.trans endedLe⟩,
    lookedUp_of_reads (fun email => ?_) filed⟩
  rw [reads]
  constructor
  · intro ⟨⟨id, moment⟩, isRead, value⟩
    obtain ⟨mem, rfl⟩ := (readIff id moment).mp isRead
    exact ⟨id, mem_touched.mp mem, value⟩
  · intro ⟨id, touched, value⟩
    exact ⟨(id, fetch id), (readIff _ _).mpr ⟨mem_touched.mpr touched, rfl⟩, value⟩

end

theorem lookedUp_of_isEmpty {delta : ChangeSet} {fetch : Id → Nat}
    (empty : delta.isEmpty = true) : LookedUp store mailbox delta [] [] fetch := by
  have nothing : ∀ id, ¬ Touched delta id ∧ delta.destroyed.contains id = false := by
    intro id
    simp only [ChangeSet.isEmpty, Bool.and_eq_true, BTreeMap.isEmpty_iff] at empty
    obtain ⟨⟨created, updated⟩, destroyed⟩ := empty
    rw [Touched, created, updated, destroyed]
    simp only [contains_empty, Bool.false_eq_true, or_self, not_false_eq_true, and_self]
  refine ⟨?_, ?_, ?_⟩
  · intro row mem
    cases mem
  · intro id email touched
    exact absurd touched (nothing id).1
  · intro id
    simp [nothing id]

/-! ## One refresh -/

section Round

variable {delta : ChangeSet} {present : List MessageSummary} {absent : List Id}
  {origin fetch : Id → Nat} {asked now : Nat} {state : State} {rows : BTreeMap Id MessageSummary}
  {id : Id}

section

variable (lookedUp : LookedUp store mailbox delta present absent fetch)

include lookedUp

theorem LookedUp.row_touched (touched : Touched delta id) :
    Shows emailData mailbox Summarises (store.history.value (fetch id) id)
      (((MessageUpdate.changed state present absent).apply rows).get? id) := by
  rcases get?_insertAll MessageSummary.uid (fun row => row) present
    (absent.foldl BTreeMap.erase rows) id with
    ⟨row, mem, rfl, found⟩ | ⟨others, found⟩
  · obtain ⟨-, email, value, filed, summarised⟩ := lookedUp.sound row mem
    exact .inl ⟨email, row, value, filed, found, summarised⟩
  · have outside : ∀ email, store.history.value (fetch id) id = some email →
        ¬ emailData.filed mailbox email := by
      intro email value filed
      obtain ⟨row, mem, uid⟩ := lookedUp.complete id email touched value filed
      exact others row mem uid
    have erased : id ∈ absent := (lookedUp.absent id).mpr (.inr ⟨touched, outside⟩)
    rw [get?_eraseAll, if_pos erased] at found
    exact .inr ⟨outside, found⟩

/-- A message that the delta does not touch has no row if it is destroyed, and
keeps its row otherwise. -/
theorem LookedUp.row_untouched (untouched : ¬ Touched delta id) :
    ((MessageUpdate.changed state present absent).apply rows).get? id =
      if delta.destroyed.contains id = true then none else rows.get? id := by
  have absentIff : id ∈ absent ↔ delta.destroyed.contains id = true := by
    rw [lookedUp.absent]
    simp [untouched]
  rcases get?_insertAll MessageSummary.uid (fun row => row) present
    (absent.foldl BTreeMap.erase rows) id with
    ⟨row, mem, rfl, -⟩ | ⟨-, found⟩
  · exact absurd (lookedUp.sound row mem).1 untouched
  · rw [get?_eraseAll] at found
    simp only [absentIff] at found
    exact found

theorem LookedUp.covers (id : Id) :
    id ∈ present.map MessageSummary.uid ∨ id ∈ absent ↔
      Touched delta id ∨ delta.destroyed.contains id = true := by
  rw [lookedUp.absent, mem_map]
  constructor
  · intro named
    rcases named with ⟨row, mem, rfl⟩ | destroyed | ⟨touched, -⟩
    · exact .inl (lookedUp.sound row mem).1
    · exact .inr destroyed
    · exact .inl touched
  · intro named
    rcases named with touched | destroyed
    · by_cases outside : ∀ email, store.history.value (fetch id) id = some email →
          ¬ emailData.filed mailbox email
      · exact .inr (.inr ⟨touched, outside⟩)
      · push Not at outside
        obtain ⟨email, value, filed⟩ := outside
        exact .inl (lookedUp.complete id email touched value filed)
    · exact .inr (.inl destroyed)

theorem LookedUp.disjoint (describes : delta.Describes store origin asked)
    {row : MessageSummary} (mem : row ∈ present) : row.uid ∉ absent := by
  obtain ⟨touched, email, value, filed, -⟩ := lookedUp.sound row mem
  obtain ⟨marks, -, created, updated, destroyed⟩ := describes.marks row.uid
  rw [lookedUp.absent]
  rintro (isDestroyed | ⟨-, outside⟩)
  · have gone := (destroyed.mp isDestroyed).2
    simp [Touched, created, updated, gone] at touched
  · exact outside email value filed

end

end Round

/-- The call is not a query. -/
def NoQuery (call : Call lookups) : Prop := call.isQuery = false

theorem fetch_sends (client : Client) (ids : List Id) :
    (fetch client ids : MailM lookups (List Email)).Sends NoQuery := by
  apply Program.Sends.bind
  · apply Program.Sends.forEach
    intro part
    have sends : (getChunked client "Email/get" emailData.id part :
        ClientM lookups Email Error (GetResponse Email)).Sends NoQuery := by
      apply (getChunked_sends client "Email/get" emailData.id part).mono
      intro call isGet
      obtain ⟨ids, rfl⟩ := isGet
      rfl
    exact (sends.mapError _).bind fun _ => trivial
  · intro emails
    exact trivial

theorem lookUp_sends (client : Client) (mailbox : Id) (delta : ChangeSet) (touched : List Id) :
    (lookUp client mailbox delta touched : MailM lookups MessageUpdate).Sends NoQuery := by
  apply (fetch_sends client touched).bind
  intro emails
  exact (Program.sends_ofExcept _).bind fun _ => trivial

theorem allChanges_noQuery (client : Client) (since : State) :
    (allChanges client "Email" since : ClientM lookups Email Error ChangeSet).Sends
      NoQuery := by
  apply (allChanges_sends client "Email" since).mono
  intro call isChanges
  obtain ⟨state, rfl⟩ := isChanges
  rfl

/-- How a refresh from a delta went. -/
structure FromDelta (store : Store emailData) (mailbox : Id) (since : State)
    (episode : Episode lookups Email) (update : MessageUpdate) (asked : Nat)
    (fetch : Id → Nat) : Prop where
  asked_ge : episode.start ≤ asked
  fetched : ∀ id, asked ≤ fetch id ∧ fetch id ≤ episode.finish
  state : update.state = store.stateAt asked
  noQuery : ¬ episode.Queried
  lookedUp : ∃ delta present absent, delta.Describes store (store.cut since) asked ∧
    LookedUp store mailbox delta present absent fetch ∧
    ∀ rows, update.apply rows =
      (MessageUpdate.changed delta.newState present absent).apply rows

/-- How a refresh by listing went. Its state was read at `read`. -/
structure FromListing (store : Store emailData) (mailbox : Id)
    (episode : Episode lookups Email) (replica : Replica MessageSummary) (read : Nat) :
    Prop where
  read_ge : episode.start ≤ read
  read_le : read ≤ episode.finish
  state : replica.state = store.stateAt read
  queried : episode.Queried
  listed : Steady store mailbox episode.trace → ∀ id,
    Listed store mailbox Summarises read episode.finish id (replica.cache.get? id)

variable {update : MessageUpdate} {rows : BTreeMap Id MessageSummary}

theorem relist_run (rows : BTreeMap Id MessageSummary)
    (run : store.Run start (relist client mailbox) trace (.ok update)
      finish) :
    ∃ read, FromListing store mailbox ⟨start, trace, finish⟩
      ⟨update.state, update.apply rows⟩ read := by
  obtain ⟨⟨state, listed⟩, middle, _, _, ran, ended, rfl⟩ := Run.bind_ok run
  obtain ⟨rfl, outcome, moves⟩ := Run.done_iff.mp ended
  cases outcome
  rw [append_nil]
  have middleLe := store.monotone.of_reflTransGen moves
  obtain ⟨read, readGe, readLe, stateEq, listedOf⟩ := messages_run ran
  obtain ⟨given, afterState, _, _, -, fromQuery, traceEq⟩ := Run.bind_ok ran
  obtain ⟨ids, afterQuery, _, _, queryRun, -, queryTraceEq⟩ := Run.bind_ok fromQuery
  obtain ⟨exchange, mem, isQuery⟩ := queryEveryId_queried (Run.mapError_ok queryRun)
  refine ⟨read, readGe, readLe.trans middleLe, stateEq, ⟨exchange, ?_, isQuery⟩, ?_⟩
  · simp [traceEq, queryTraceEq, mem]
  · intro steady id
    exact (listedOf steady id).mono middleLe

theorem messagesSince_run {since : State} {held : Nat} (rows : BTreeMap Id MessageSummary)
    (run : store.Run start (messagesSince client mailbox since held) trace
      (.ok update) finish) :
    (∃ asked fetch, FromDelta store mailbox since ⟨start, trace, finish⟩ update asked fetch) ∨
    ∃ read, FromListing store mailbox ⟨start, trace, finish⟩
      ⟨update.state, update.apply rows⟩ read := by
  obtain ⟨outcome, middle, first, second, attempted, rest, rfl⟩ := Run.bind_ok run
  obtain ⟨inner, innerEq, asking⟩ := Run.attempt_iff.mp attempted
  cases innerEq
  have middleGe := asking.le store.monotone
  -- a listing's trace is the longer trace's end
  have listing : store.Run middle (relist client mailbox) second
      (.ok update) finish →
      ∃ read, FromListing store mailbox ⟨start, first ++ second, finish⟩
        ⟨update.state, update.apply rows⟩ read := by
    intro relisting
    obtain ⟨read, readGe, readLe, state, queried, listed⟩ := relist_run rows relisting
    obtain ⟨exchange, mem, isQuery⟩ := queried
    refine ⟨read, middleGe.trans readGe, readLe, state, ⟨exchange, ?_, isQuery⟩, ?_⟩
    · exact mem_append_right _ mem
    · intro steady
      exact listed (steady.subset (subset_append_right _ _))
  cases outcome with
  | error error =>
    by_cases resync : error.needsFullResync = true
    · simp only [resync, if_true] at rest
      exact .inr (listing rest)
    · simp only [resync] at rest
      exact rest.not_failed.elim
  | ok delta =>
    obtain ⟨asked, askedGe, askedLe, describes⟩ := allChanges_run asking
    have noQueryFirst : ∀ exchange ∈ first, exchange.request.isQuery = false :=
      fun exchange mem => asking.sends (allChanges_noQuery client since) mem
    simp only [catchUp] at rest
    split at rest
    · next empty =>
      obtain ⟨rfl, outcome, moves⟩ := Run.done_iff.mp rest
      cases outcome
      have finishGe := store.monotone.of_reflTransGen moves
      refine .inl ⟨asked, fun _ => finish, askedGe, fun _ => ⟨askedLe.trans finishGe, le_rfl⟩,
        describes.newState, ?_, delta, [], [], describes, ?_, fun _ => rfl⟩
      · intro ⟨exchange, mem, isQuery⟩
        rw [append_nil] at mem
        rw [noQueryFirst exchange mem] at isQuery
        cases isQuery
      · exact lookedUp_of_isEmpty empty
    · split at rest
      · exact .inr (listing rest)
      · rcases lookUp_run describes rest with
          ⟨present, absent, fetch, rfl, window, lookedUp⟩
        refine .inl ⟨asked, fetch, askedGe,
          fun id => ⟨askedLe.trans (window id).1, (window id).2⟩, describes.newState, ?_,
          delta, present, absent, describes, lookedUp, fun _ => rfl⟩
        intro ⟨exchange, mem, isQuery⟩
        have noQuery : exchange.request.isQuery = false := by
          rcases mem_append.mp mem with early | late
          · exact noQueryFirst exchange early
          · exact rest.sends (lookUp_sends client mailbox delta _) late
        rw [noQuery] at isQuery
        cases isQuery

/-! ## Sequences of refreshes -/

/-- What other clients must leave alone between a refresh that lists the mailbox
and the next one: nothing leaves the mailbox between two query pages, and no
message that the listing may have met and that did not exist before it is
destroyed. -/
structure Undisturbed (store : Store emailData) (mailbox : Id)
    (listing next : Episode lookups Email) : Prop where
  pages : Steady store mailbox listing.trace
  newcomers : ∀ id moment, listing.start ≤ moment → moment ≤ listing.finish →
    store.history.Unborn id listing.start → id ∈ store.listing mailbox moment →
      store.history.value next.finish id ≠ none

/-- Every listing that the next refresh builds on with a delta was left alone. -/
def ListingsUndisturbed (store : Store emailData) (mailbox : Id)
    (episodes : List (Episode lookups Email)) : Prop :=
  episodes.IsChain fun listing next =>
    listing.Queried → ¬ next.Queried → Undisturbed store mailbox listing next

variable {since : State} {asked read now : Nat} {fetch : Id → Nat}
  {replica : Replica MessageSummary} {episode listing : Episode lookups Email}

theorem FromDelta.inStep (delta : FromDelta store mailbox since episode update asked fetch)
    (seen : now ≤ asked)
    (tracks : ∀ id, Tracks (Shows emailData mailbox Summarises) store.history id
      (store.cut since id) now (rows.get? id))
    (survives : ∀ id, store.history.value (store.cut since id) id = none →
      rows.get? id ≠ none → store.history.value asked id ≠ none) :
    InStep mailbox Summarises store ⟨update.state, update.apply rows⟩ episode.finish := by
  intro id
  obtain ⟨changes, present, absent, describes, lookedUp, applied⟩ := delta.lookedUp
  change TracksKnown _ _ _ (store.cut update.state id) _ ((update.apply rows).get? id)
  rw [applied, delta.state, store.cut_stateAt]
  apply TracksKnown.mono _ (delta.fetched id).2
  exact describes.round seen (delta.fetched id).1 (tracks id) (survives id)
    (fun created _ _ => lookedUp.row_touched (.inl created))
    (fun updated _ => lookedUp.row_touched (.inr updated)) lookedUp.row_untouched

theorem FromDelta.of_inStep
    (delta : FromDelta store mailbox replica.state episode update asked fetch)
    (seen : now ≤ episode.start) (inStep : InStep mailbox Summarises store replica now) :
    InStep mailbox Summarises store ⟨update.state, update.apply replica.cache⟩ episode.finish := by
  exact delta.inStep (seen.trans delta.asked_ge) (fun id => (inStep id).tracks)
    fun _ atOrigin hasRow => absurd (inStep.no_entry atOrigin) hasRow

/-- A delta from a listing that was left alone brings the rows in step. -/
theorem FromDelta.of_listing
    (delta : FromDelta store mailbox replica.state episode update asked fetch)
    (listed : FromListing store mailbox listing replica read)
    (later : listing.finish ≤ episode.start)
    (undisturbed : Undisturbed store mailbox listing episode) :
    InStep mailbox Summarises store ⟨update.state, update.apply replica.cache⟩ episode.finish := by
  have entries := listed.listed undisturbed.pages
  have originEq : ∀ id, store.cut replica.state id = read := by
    intro id
    rw [listed.state, store.cut_stateAt]
  apply delta.inStep (later.trans delta.asked_ge)
  · intro id
    rw [originEq]
    exact (entries id).tracks
  · intro id atRead hasRow
    rw [originEq] at atRead
    obtain ⟨row, entry⟩ := Option.ne_none_iff_exists'.mp hasRow
    obtain ⟨⟨moment, momentGe, momentLe, mem⟩, -⟩ := (entries id).sound row entry
    obtain ⟨email, value, -⟩ := store.mem_listing.mp mem
    have present : store.history.value moment id ≠ none := by simp [value]
    have unborn := History.unborn_of_later momentGe atRead present
    have startLe := listed.read_ge
    have survived := undisturbed.newcomers id moment (startLe.trans momentGe) momentLe
      (unborn.earlier startLe) mem
    apply History.value_ne_none_between _ _ present survived
    · exact momentLe.trans (later.trans delta.asked_ge)
    · exact (delta.fetched id).1.trans (delta.fetched id).2

theorem FromListing.mirrors (listed : FromListing store mailbox listing replica read)
    (steady : Steady store mailbox listing.trace) (quiet : listing.start = listing.finish) :
    Mirrors emailData mailbox Summarises store (fun _ => listing.finish) replica.cache := by
  intro id
  have readEq : read = listing.finish :=
    le_antisymm listed.read_le (quiet ▸ listed.read_ge)
  have tracks := (listed.listed steady id).tracks
  rw [readEq] at tracks
  exact tracks.resolve_right History.not_changed_self

/-- The rows are in step, or they are those of a listing after which only the
given refreshes were made. -/
def Standing (store : Store emailData) (mailbox : Id) (replica : Replica MessageSummary)
    (now : Nat) (episodes : List (Episode lookups Email)) : Prop :=
  InStep mailbox Summarises store replica now ∨
    ∃ listing read, FromListing store mailbox listing replica read ∧ listing.finish ≤ now ∧
      ListingsUndisturbed store mailbox (listing :: episodes)

variable {episodes : List (Episode lookups Email)}

theorem Standing.refresh {held : Nat}
    (standing : Standing store mailbox replica now (⟨start, trace, finish⟩ :: episodes))
    (seen : now ≤ start)
    (undisturbed : ListingsUndisturbed store mailbox (⟨start, trace, finish⟩ :: episodes))
    (run : store.Run start
      (messagesSince client mailbox replica.state held) trace (.ok update) finish) :
    Standing store mailbox ⟨update.state, update.apply replica.cache⟩ finish episodes ∧
      (start = finish → Mirrors emailData mailbox Summarises store (fun _ => finish)
        (update.apply replica.cache)) := by
  rcases messagesSince_run replica.cache run with
    ⟨asked, fetch, delta⟩ | ⟨read, listed⟩
  · have inStep : InStep mailbox Summarises store
      ⟨update.state, update.apply replica.cache⟩ finish := by
      rcases standing with inStep | ⟨listing, read, listed, listingLe, chain⟩
      · exact delta.of_inStep seen inStep
      · exact delta.of_listing listed (listingLe.trans seen)
          ((isChain_cons_cons.mp chain).1 listed.queried delta.noQuery)
    refine ⟨.inl inStep, fun quiet => inStep.mirrors ?_⟩
    have askedGe : start ≤ asked := delta.asked_ge
    have askedLe : asked ≤ finish := (delta.fetched "").1.trans (delta.fetched "").2
    rw [delta.state, le_antisymm askedLe (quiet ▸ askedGe)]
  · refine ⟨.inr ⟨_, read, listed, le_rfl, undisturbed⟩, fun quiet => ?_⟩
    subst quiet
    exact listed.mirrors (steady_of_quiet run) rfl

/-- After any sequence of refreshes whose last one met a server at rest, the rows
are the mailbox of that moment, if the listings among them were left alone. -/
theorem rounds_mirror {held : Replica MessageSummary → Nat} {final : Replica MessageSummary}
    {last : Episode lookups Email}
    (rounds : Rounds store (syncer client mailbox held) start replica episodes finish final)
    (seen : now ≤ start) (standing : Standing store mailbox replica now episodes)
    (undisturbed : ListingsUndisturbed store mailbox episodes)
    (isLast : episodes.getLast? = some last) (quiet : last.start = last.finish) :
    Mirrors emailData mailbox Summarises store (fun _ => last.finish) final.cache := by
  refine rounds.mirrors (motive := fun replica now episodes =>
    Standing store mailbox replica now episodes ∧ ListingsUndisturbed store mailbox episodes)
    ?_ seen ⟨standing, undisturbed⟩ isLast quiet
  rintro _ _ _ _ _ _ episodes ⟨standing, undisturbed⟩ seen run
  obtain ⟨standing, mirrors⟩ := standing.refresh seen undisturbed run
  exact ⟨⟨standing, undisturbed.tail⟩, mirrors⟩

/-! ## What a query may miss -/

/-- Every page of `Email/query` for the messages of a filter. -/
def pagedQuery (client : Client) (filter : Id) : MailM lookups (List Id) :=
  (queryEveryId client "Email/query" filter).mapError SyncError.client

/-- The list has every id that matched the filter at all moments of the call. -/
def Complete {Object : Type} {data : DataType Object} (store : Store data) (filter : Id)
    (start finish : Nat) (ids : List Id) : Prop :=
  ∀ id, (∀ moment, start ≤ moment → moment ≤ finish → id ∈ store.listing filter moment) →
    id ∈ ids

/-- A list of ids is complete if nothing stopped matching the filter between the
first and the last page. -/
theorem queries_complete :
    (∀ {Object : Type} {data : DataType Object} {store : Store data} {client : Client}
      {method : String} {filter : Id} {start finish : Nat} {ids : List Id}
      {trace : List (Exchange (Call lookups) (Call.Answer Object) Nat)},
      store.Run start (queryEveryId client method filter) trace (.ok ids)
        finish → Steady store filter trace → Complete store filter start finish ids) ∧
    (∀ {store : Store emailData} {client : Client} {filter : Id} {start finish : Nat}
      {ids : List Id} {trace : List (Exchange (Call lookups) (Call.Answer Email) Nat)},
      store.Run start (pagedQuery client filter) trace (.ok ids) finish →
        Steady store filter trace → Complete store filter start finish ids) := by
  constructor
  · intro _ _ _ _ _ _ _ _ _ _ run steady
    exact (queryEveryId_run run).2 steady
  · intro _ _ _ _ _ _ _ run steady
    exact (queryEveryId_run (Run.mapError_ok run)).2 steady

def inboxEmail (id : Id) : Email :=
  { id := some id, mailboxIds := some ((∅ : BTreeMap Id Bool).insert "inbox" true) }

/-- Four messages of one inbox: the first is destroyed by the first change, the
last is delivered by the second. -/
def shiftingStore : Store emailData :=
  .ofLives emailData
    [("a", ⟨0, some 1, fun _ => inboxEmail "a"⟩), ("b", ⟨0, none, fun _ => inboxEmail "b"⟩),
      ("c", ⟨0, none, fun _ => inboxEmail "c"⟩), ("d", ⟨2, none, fun _ => inboxEmail "d"⟩)]
    (by decide) (by simp [emailData, inboxEmail]) fun _ _ _ => False

example : shiftingStore.listing "inbox" 2 = ["b", "c", "d"] := by decide

def growingTrace : Trace .none Email :=
  [⟨1, .query "Email/query" "inbox" 0, .ok ⟨["b"], some 2, some 1⟩, 1⟩,
    ⟨2, .query "Email/query" "inbox" 1, .ok ⟨["c", "d"], some 3, some 2⟩, 2⟩,
    ⟨2, .query "Email/query" "inbox" 3, .ok ⟨[], some 3, some 2⟩, 2⟩]

theorem growing_run :
    Run (shiftingStore.service .none) 1 (pagedQuery {} "inbox") growingTrace
      (.ok ["b", "c", "d"]) 2 :=
  .call ⟨rfl, shiftingStore.answersQuery_page 1 "inbox" 0 1⟩
    (.move rfl (.call ⟨rfl, shiftingStore.answersQuery_page 2 "inbox" 1 2⟩
      (.call ⟨rfl, shiftingStore.answersQuery_page 2 "inbox" 3 2⟩ .done)))

theorem growing_steady : Steady shiftingStore "inbox" growingTrace := by
  intro first firstIn last lastIn _ _ moment firstLe lt
  have startLe := (growing_run.mem_trace shiftingStore.monotone firstIn).1
  have lastBounds := growing_run.mem_trace shiftingStore.monotone lastIn
  have lastLe := shiftingStore.monotone.answers_le lastBounds.2.2
  obtain rfl : moment = 1 := by omega
  decide

theorem queries_complete_growing : Complete shiftingStore "inbox" 1 2 ["b", "c", "d"] :=
  queries_complete.2 growing_run growing_steady

def shiftedTrace : Trace .none Email :=
  [⟨0, .query "Email/query" "inbox" 0, .ok ⟨["a", "b"], some 3, some 2⟩, 0⟩,
    ⟨2, .query "Email/query" "inbox" 2, .ok ⟨["d"], some 3, some 2⟩, 2⟩,
    ⟨2, .query "Email/query" "inbox" 3, .ok ⟨[], some 3, some 2⟩, 2⟩]

theorem shifted_run :
    Run (shiftingStore.service .none) 0 (queryEveryId {} "Email/query" "inbox")
      shiftedTrace (.ok ["a", "b", "d"]) 2 :=
  .call ⟨rfl, shiftingStore.answersQuery_page 0 "inbox" 0 2⟩
    (.move rfl (.move rfl (.call ⟨rfl, shiftingStore.answersQuery_page 2 "inbox" 2 2⟩
      (.call ⟨rfl, shiftingStore.answersQuery_page 2 "inbox" 3 2⟩ .done))))

/-- A delivery makes up for a message that left in front of the next page: the
total agrees, and a message that was in the inbox all the time is not listed. -/
theorem queries_miss_shifted :
    Run (shiftingStore.service .none) 0 (queryEveryId {} "Email/query" "inbox")
      shiftedTrace (.ok ["a", "b", "d"]) 2 ∧
    Run (shiftingStore.service .none) 0 (pagedQuery {} "inbox")
      shiftedTrace (.ok ["a", "b", "d"]) 2 ∧
    ¬ Complete shiftingStore "inbox" 0 2 ["a", "b", "d"] := by
  refine ⟨shifted_run, Run.mapError_iff.mpr ⟨_, rfl, shifted_run⟩, fun complete => ?_⟩
  have present : ∀ moment, moment ≤ 2 → "c" ∈ shiftingStore.listing "inbox" moment := by
    decide
  have listed := complete "c" fun moment _ => present moment
  simp at listed

end EvolutionJmap.MailSync
