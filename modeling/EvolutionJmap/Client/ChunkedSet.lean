import EvolutionJmap.Client.SetServer

/-!
# Chunks against one call

A run over the chunks of a request keeps step with the single call that has the whole
request: the records of the server and the merged response are those of the items that
the chunks hold.  The verdict on an item is the same, because its references have the
same ids in both.
-/

namespace EvolutionJmap.Chunked

open EvolutionJmap.Partition List BTreeMap Server

variable {Object Record : Type}

/-! ## The single call -/

/-- A request, the server, and what the client does with them: how it writes the objects,
in which orders it iterates over references while it sends chunks and while it splits the
request, and how it sends one call. -/
structure Setup (Object Record : Type) where
  server : Server Object Record
  request : SetRequest Object
  toValue : Object → Except Error Value
  (order partitionOrder : String → List String → List String)
  executeChunk : SetRequest Object → BTreeMap Id Id → Records Record →
    Except Error (SetResponse Object) × Records Record

def cidsOf (chunks : List (SetChunk Object)) : List String :=
  chunks.flatMap (·.create.keys)

namespace Setup

variable (setup : Setup Object Record)

abbrev creates : BTreeMap String Object := setup.request.create.getD ∅

abbrev updates : BTreeMap Id Value := setup.request.update.getD ∅

abbrev prepare (progress : Progress Object) (chunk : SetChunk Object) :
    Except (Error × SetResponse Object) (Progress Object × SetChunk Object) :=
  Chunked.prepare setup.toValue setup.order setup.creates.keys progress chunk

/-- The verdict of the single call on a create. -/
def verdict (cid : String) : Except SetError (Created Object Record) :=
  setup.server.create setup.creates ∅ cid

/-- The create fails in the single call. -/
def Fails (cid : String) : Prop := errorOf (setup.verdict cid) ≠ none

/-- The ids of the creation ids in the single call. -/
def resolve (target : String) : Option Id := setup.server.resolve setup.creates ∅ target

def made (cids : List String) : List (Created Object Record) :=
  cids.filterMap fun cid => (setup.verdict cid).toOption

/-- The effect of the items of some chunks in the single call. -/
def effect (record : Id → Option Record) (chunks : List (SetChunk Object)) :
    Effect Object Record :=
  setup.server.perform setup.resolve (recordCreated record (setup.made (cidsOf chunks)))
    (chunks.flatMap (·.update.entries)) (chunks.flatMap (·.destroy))

/-- Every text of the request with the shape of a reference to a create that fails in the single
call is a reference. -/
structure TrueReferences : Prop where
  creates : ∀ cid object value, setup.creates.get? cid = some object →
    setup.toValue object = .ok value →
    ∀ target ∈ findCreationReferences value setup.creates.keys,
      setup.Fails target → target ∈ setup.server.refersTo value
  updates : ∀ id patch, setup.updates.get? id = some patch →
    ∀ target ∈ findCreationReferences patch setup.creates.keys,
      setup.Fails target → target ∈ setup.server.refersTo patch

/-- What is assumed: the server conforms and carries out updates before destroys, the client
can write every object and iterates over all references, and a response that it gets is the
server's. -/
structure Sound : Prop where
  conforms : setup.server.Conforms setup.toValue
  updatesFirst : setup.server.destroysFirst = false
  references : setup.TrueReferences
  serializes : ∀ object, ∃ value, setup.toValue object = .ok value
  iterates : ∀ cid refs target, target ∈ setup.order cid refs ↔ target ∈ refs
  partitionIterates : ∀ cid refs target, target ∈ setup.partitionOrder cid refs ↔ target ∈ refs
  answers : ∀ request known records response after,
    setup.executeChunk request known records = (.ok response, after) →
    setup.server.call request known records = (.ok response, after)

/-- The error is the client's own, for a value that refers to a create that failed. -/
def Excused (value : Value) (error : SetError) : Prop :=
  ∃ target ∈ setup.server.refersTo value, target ∈ setup.creates.keys ∧ setup.Fails target ∧
    error = referenceFailed target

/-- As `Excused`, of a create. -/
def ExcusedCreate (cid : String) (error : SetError) : Prop :=
  ∃ object value, setup.creates.get? cid = some object ∧ setup.toValue object = .ok value ∧
    setup.Excused value error

/-- As `Excused`, of an update. -/
def ExcusedUpdate (id : Id) (error : SetError) : Prop :=
  ∃ patch, setup.updates.get? id = some patch ∧ setup.Excused patch error

end Setup

/-- The same items failed, with the same errors but for those that are excused. -/
def SameErrors (excused : String → SetError → Prop) (theirs : String → Option SetError)
    (ours : BTreeMap String SetError) : Prop :=
  ∀ id, theirs id = ours.get? id ∨
    theirs id ≠ none ∧ ∃ error, ours.get? id = some error ∧ excused id error

/-! ## Updates that are not sent -/

/-- The effects with and without some updates that fail. -/
structure Skips (skipped : Id → Prop) (full part : Effect Object Record) : Prop where
  record : full.record = part.record
  updated : full.updated = part.updated
  destroyed : full.destroyed = part.destroyed
  notDestroyed : full.notDestroyed = part.notDestroyed
  noted : ∀ id, skipped id → full.notUpdated.get? id ≠ none ∧ part.notUpdated.get? id = none
  others : ∀ id, ¬ skipped id → full.notUpdated.get? id = part.notUpdated.get? id

section Skips

variable {server : Server Object Record} {resolve other : String → Option Id}
  {full part : Effect Object Record} {skipped : Id → Prop}

section

variable (skips : Skips skipped full part)

include skips

theorem Skips.congr {others : Id → Prop} (same : ∀ id, others id ↔ skipped id) :
    Skips others full part :=
  { skips with
    noted := fun id isSkipped => skips.noted id ((same id).mp isSkipped)
    others := fun id isOther => skips.others id (mt (same id).mpr isOther) }

theorem Skips.applyUpdate {entry : Id × Value} (notSkipped : ¬ skipped entry.1)
    (same : ∀ record, server.update record entry.1 entry.2 resolve =
      server.update record entry.1 entry.2 other) :
    Skips skipped (server.applyUpdate resolve full entry)
      (server.applyUpdate other part entry) := by
  simp only [Server.applyUpdate, same, skips.record]
  split
  · next record shown verdict =>
    exact { skips with
      record := rfl
      updated := by rw [skips.updated] }
  · next error verdict =>
    refine { skips with
      record := rfl
      noted := fun id isSkipped => ?_
      others := fun id isOther => ?_ }
    · have different : id ≠ entry.1 := fun same => notSkipped (same ▸ isSkipped)
      dsimp only
      rw [get?_insert, get?_insert, if_neg different, if_neg different]
      exact skips.noted id isSkipped
    · dsimp only
      rw [get?_insert, get?_insert, skips.others id isOther]

theorem Skips.skipUpdate {entry : Id × Value} (untouched : part.notUpdated.get? entry.1 = none)
    (fails : ∀ record, ∃ error, server.update record entry.1 entry.2 resolve = .error error) :
    Skips (fun id => skipped id ∨ id = entry.1) (server.applyUpdate resolve full entry) part := by
  obtain ⟨error, verdict⟩ := fails full.record
  simp only [Server.applyUpdate, verdict]
  refine { skips with noted := fun id isSkipped => ?_, others := fun id isOther => ?_ }
  · dsimp only
    rw [get?_insert]
    split
    · next here =>
      subst here
      exact ⟨Option.some_ne_none _, untouched⟩
    · next different => exact skips.noted id (isSkipped.resolve_right different)
  · dsimp only
    rw [not_or] at isOther
    rw [get?_insert, if_neg isOther.2]
    exact skips.others id isOther.1

theorem Skips.applyDestroy (id : Id) :
    Skips skipped (server.applyDestroy full id) (server.applyDestroy part id) := by
  simp only [Server.applyDestroy, skips.record]
  split
  · exact { skips with
      record := rfl
      destroyed := by rw [skips.destroyed] }
  · exact { skips with
      record := rfl
      notDestroyed := by rw [skips.notDestroyed] }

end

/-- The updates that are sent have the effect of all of them, apart from the notes. -/
theorem Skips.foldl {send : Id × Value → Bool} {entries : List (Id × Value)}
    (nodup : (entries.map Prod.fst).Nodup)
    (same : ∀ entry ∈ entries, send entry = true → ∀ record,
      server.update record entry.1 entry.2 resolve = server.update record entry.1 entry.2 other)
    (fails : ∀ entry ∈ entries, send entry = false → ∀ record,
      ∃ error, server.update record entry.1 entry.2 resolve = .error error) :
    ∀ {full part : Effect Object Record} {skipped : Id → Prop},
      Skips skipped full part →
      (∀ entry ∈ entries, ¬ skipped entry.1 ∧ part.notUpdated.get? entry.1 = none) →
      Skips (fun id => skipped id ∨ ∃ entry ∈ entries, entry.1 = id ∧ send entry = false)
        (entries.foldl (server.applyUpdate resolve) full)
        ((entries.filter send).foldl (server.applyUpdate other) part) := by
  induction entries with
  | nil =>
    intro full part skipped skips _
    exact skips.congr (by simp)
  | cons entry rest ih =>
    intro full part skipped skips fresh
    rw [map_cons, nodup_cons] at nodup
    rw [forall_mem_cons] at same fails fresh
    have apart : ∀ later ∈ rest, later.1 ≠ entry.1 := fun later mem equal =>
      nodup.1 (equal ▸ mem_map_of_mem mem)
    cases sent : send entry with
    | true =>
      rw [filter_cons_of_pos sent, foldl_cons, foldl_cons]
      refine (ih nodup.2 same.2 fails.2 (skips.applyUpdate fresh.1.1 (same.1 sent)) ?_).congr ?_
      · intro later mem
        refine ⟨(fresh.2 later mem).1, ?_⟩
        simp only [Server.applyUpdate]
        split
        · exact (fresh.2 later mem).2
        · dsimp only
          rw [get?_insert, if_neg (apart later mem)]
          exact (fresh.2 later mem).2
      · simp [sent]
    | false =>
      rw [filter_cons_of_neg (by simp [sent]), foldl_cons]
      refine (ih nodup.2 same.2 fails.2 (skips.skipUpdate fresh.1.2 (fails.1 sent)) ?_).congr ?_
      · intro later mem
        refine ⟨?_, (fresh.2 later mem).2⟩
        rintro (earlier | here)
        · exact (fresh.2 later mem).1 earlier
        · exact apart later mem here
      · intro id
        simp [sent, or_assoc, @eq_comm _ id]

end Skips

/-! ## The relation -/

/-- After the chunks `sent`, the client and the server are where the single call is with
the items of these chunks. -/
structure Synced (setup : Setup Object Record) (start : Id → Option Record)
    (sent : List (SetChunk Object))
    (progress : Progress Object) (record : Id → Option Record) : Prop where
  createdIds : ∀ cid, progress.createdIds.get? cid =
    if cid ∈ cidsOf sent then (setup.verdict cid).toOption.map (·.id) else none
  failed : ∀ cid, cid ∈ progress.failedCreates ↔ cid ∈ cidsOf sent ∧
    setup.Fails cid
  created : ∀ cid, (progress.merged.created.getD ∅).get? cid =
    if cid ∈ cidsOf sent then (setup.verdict cid).toOption.map (·.shown) else none
  notCreated : SameErrors setup.ExcusedCreate
    (fun cid => if cid ∈ cidsOf sent then errorOf (setup.verdict cid) else none)
    (progress.merged.notCreated.getD ∅)
  record : record = (setup.effect start sent).record
  updated : progress.merged.updated.getD ∅ = (setup.effect start sent).updated
  notUpdated : SameErrors setup.ExcusedUpdate
    (setup.effect start sent).notUpdated.get? (progress.merged.notUpdated.getD ∅)
  destroyed : progress.merged.destroyed.getD [] = (setup.effect start sent).destroyed
  notDestroyed : progress.merged.notDestroyed.getD ∅ =
    (setup.effect start sent).notDestroyed

/-- The chunk can be the next one after those sent. -/
structure Follows (setup : Setup Object Record) (sent : List (SetChunk Object))
    (chunk : SetChunk Object) : Prop where
  creates : ∀ cid object, chunk.create.get? cid = some object →
    setup.creates.get? cid = some object
  updates : ∀ id patch, chunk.update.get? id = some patch →
    setup.updates.get? id = some patch
  sentCreates : cidsOf sent ⊆ setup.creates.keys
  apart : ∀ cid ∈ chunk.create.keys, cid ∉ cidsOf sent
  createsFirst : chunk.create = ∅ ∨
    sent.flatMap (·.update.entries) = [] ∧ sent.flatMap (·.destroy) = []
  updatesFirst : chunk.update = ∅ ∨ sent.flatMap (·.destroy) = []

theorem cidsOf_append (sent : List (SetChunk Object)) (chunk : SetChunk Object) (cid : String) :
    cid ∈ cidsOf (sent ++ [chunk]) ↔ cid ∈ cidsOf sent ∨ cid ∈ chunk.create.keys := by
  rw [cidsOf, flatMap_append, mem_append, flatMap_singleton, cidsOf]

section Step

variable {setup : Setup Object Record}
  {start record : Id → Option Record} {sent : List (SetChunk Object)}
  {progress prepared : Progress Object} {chunk ready : SetChunk Object}

/-- What preparing a chunk changes: some creates are given up. -/
structure Prepared (setup : Setup Object Record) (progress prepared : Progress Object)
    (chunk ready : SetChunk Object) : Prop where
  createdIds : prepared.createdIds = progress.createdIds
  created : prepared.merged.created = progress.merged.created
  updated : prepared.merged.updated = progress.merged.updated
  destroyed : prepared.merged.destroyed = progress.merged.destroyed
  notDestroyed : prepared.merged.notDestroyed = progress.merged.notDestroyed
  applied : prepared.applied = progress.applied
  currentState : prepared.currentState = progress.currentState
  retained : ∃ keep : String → Bool, ready.create = chunk.create.retain fun cid _ => keep cid
  failed : ∀ cid, cid ∈ prepared.failedCreates ↔ cid ∈ progress.failedCreates ∨
    cid ∈ chunk.create.keys ∧ cid ∉ ready.create.keys
  doomed : ∀ cid ∈ chunk.create.keys, cid ∉ ready.create.keys →
    setup.Fails cid ∧
    ∃ error, (prepared.merged.notCreated.getD ∅).get? cid = some error ∧
      setup.ExcusedCreate cid error
  notCreated : ∀ cid, cid ∉ chunk.create.keys ∨ cid ∈ ready.create.keys →
    (prepared.merged.notCreated.getD ∅).get? cid = (progress.merged.notCreated.getD ∅).get? cid
  verdict : ∀ cid ∈ ready.create.keys,
    setup.server.create ready.create progress.createdIds cid = setup.verdict cid
  notUpdated : ∀ id, id ∉ chunk.update.keys → ready.update.get? id = none ∧
    (prepared.merged.notUpdated.getD ∅).get? id = (progress.merged.notUpdated.getD ∅).get? id
  update : ∀ id patch, chunk.update.get? id = some patch →
    (ready.update.get? id = some patch ∧
      (prepared.merged.notUpdated.getD ∅).get? id = (progress.merged.notUpdated.getD ∅).get? id ∧
      ∀ record, setup.server.update record id patch setup.resolve =
        setup.server.update record id patch
          (setup.server.resolve ready.create progress.createdIds)) ∨
    (ready.update.get? id = none ∧
      (∃ error, (prepared.merged.notUpdated.getD ∅).get? id = some error ∧
        setup.ExcusedUpdate id error) ∧
      ∀ record, ∃ error, setup.server.update record id patch setup.resolve = .error error)
  destroy : ready.destroy = chunk.destroy

/-- The creates that failed after some rounds fail in the single call, and their errors are
excused. -/
structure Doomed (setup : Setup Object Record) (progress : Progress Object)
    (chunk : SetChunk Object)
    (state : List String × Option (BTreeMap String SetError)) : Prop where
  doomed : ∀ cid ∈ state.1, (cid ∈ progress.failedCreates ∨ cid ∈ chunk.create.keys) ∧
    cid ∈ setup.creates.keys ∧ setup.Fails cid
  grown : progress.failedCreates ⊆ state.1
  kept : ∀ cid, cid ∈ progress.failedCreates ∨ cid ∉ state.1 →
    (state.2.getD ∅).get? cid = (progress.merged.notCreated.getD ∅).get? cid
  noted : ∀ cid ∈ state.1, cid ∉ progress.failedCreates → ∃ error,
    (state.2.getD ∅).get? cid = some error ∧ setup.ExcusedCreate cid error

theorem Follows.subset (follows : Follows setup sent chunk) :
    chunk.create.keys ⊆ setup.creates.keys := by
  intro cid mem
  obtain ⟨object, isObject⟩ := chunk.create.mem_keys.mp mem
  exact (BTreeMap.mem_keys _).mpr ⟨object, follows.creates cid object isObject⟩

theorem toOption_of_failed {verdict : Except SetError (Created Object Record)}
    (failed : errorOf verdict ≠ none) : verdict.toOption = none := by
  cases verdict with
  | ok made => exact absurd rfl failed
  | error error => rfl

theorem Setup.resolve_failed {target : String} (isCreate : target ∈ setup.creates.keys)
    (failed : setup.Fails target) :
    setup.resolve target = none := by
  rw [Setup.resolve, Server.resolve, if_pos ((contains_iff_mem_keys _).mpr isCreate)]
  exact congrArg (Option.map (·.id)) (toOption_of_failed failed)

section

variable (synced : Synced setup start sent progress record)
  (follows : Follows setup sent chunk) {target : String}

include synced follows

/-- An id that an earlier chunk made known is the one of the single call. -/
theorem resolve_earlier (notReady : target ∉ ready.create.keys)
    (known : target ∈ setup.creates.keys → progress.createdIds.contains target = true) :
    setup.server.resolve ready.create progress.createdIds target = setup.resolve target := by
  have absent : ¬ ready.create.contains target = true := fun contains =>
    notReady (ready.create.contains_iff_mem_keys.mp contains)
  rw [Server.resolve, if_neg absent, synced.createdIds, Setup.resolve, Server.resolve]
  by_cases isCreate : target ∈ setup.creates.keys
  · rw [if_pos ((contains_iff_mem_keys _).mpr isCreate)]
    obtain ⟨id, found⟩ := (contains_eq_true _).mp (known isCreate)
    rw [synced.createdIds] at found
    split at found
    · next isSent => rw [if_pos isSent, Setup.verdict]
    · cases found
  · have notContains : ¬ setup.creates.contains target = true := fun contains =>
      isCreate ((contains_iff_mem_keys _).mp contains)
    rw [if_neg notContains, if_neg fun isSent => isCreate (follows.sentCreates isSent)]
    rfl

theorem resolve_same (subset : ready.create.keys ⊆ setup.creates.keys)
    (verdict : ∀ cid ∈ ready.create.keys,
      setup.server.create ready.create progress.createdIds cid = setup.verdict cid)
    (known : target ∈ setup.creates.keys →
      (progress.createdIds.contains target || ready.create.contains target) = true) :
    setup.server.resolve ready.create progress.createdIds target = setup.resolve target := by
  by_cases isReady : target ∈ ready.create.keys
  · have contains := (contains_iff_mem_keys _).mpr isReady
    have isCreate := (contains_iff_mem_keys _).mpr (subset isReady)
    rw [Server.resolve, if_pos contains, verdict target isReady, Setup.resolve, Server.resolve,
      if_pos isCreate, Setup.verdict]
  · refine resolve_earlier synced follows isReady fun isCreate => ?_
    have either := known isCreate
    rw [Bool.or_eq_true] at either
    exact either.resolve_right fun contains =>
      isReady (ready.create.contains_iff_mem_keys.mp contains)

end

section Prepare

variable (sound : setup.Sound)
include sound

theorem mem_referencesOf {references : List (String × List String)}
    (found : createReferences setup.toValue setup.creates.keys chunk = .ok references)
    {cid target : String} :
    target ∈ referencesOf setup.order references cid ↔ ∃ object value,
      chunk.create.get? cid = some object ∧ setup.toValue object = .ok value ∧
        target ∈ findCreationReferences value setup.creates.keys := by
  rw [referencesOf, sound.iterates, @mem_of_images _ _
    (fun _ value => findCreationReferences value setup.creates.keys) _ _ found]

theorem propagate_doomed (synced : Synced setup start sent progress record)
    (follows : Follows setup sent chunk) {found : List (String × List String)}
    (isFound : createReferences setup.toValue setup.creates.keys chunk = .ok found)
    (rounds : Nat) :
    Doomed setup progress chunk
      (propagate setup.order found rounds
        (progress.failedCreates, progress.merged.notCreated)) := by
  refine propagate_invariant ?_ rounds ⟨?_, List.Subset.refl _, fun _ _ => rfl, ?_⟩
  · rintro state cid target ⟨doomed, grown, kept, noted⟩ isKey refers failed notFailed
    rcases (mem_referencesOf sound isFound).mp refers with
      ⟨object, value, inChunk, isValue, refers⟩
    have isObject := follows.creates cid object inChunk
    obtain ⟨_, isCreate, fails⟩ := doomed target failed
    have truly := sound.references.creates cid object value isObject isValue target refers fails
    rcases sound.conforms.needs _ ∅ cid target object value isObject isValue truly
      (Setup.resolve_failed isCreate fails) with ⟨error, rejected⟩
    have inKeys : cid ∈ chunk.create.keys := (BTreeMap.mem_keys _).mpr ⟨object, inChunk⟩
    have cidFails : setup.Fails cid := by
      rw [Setup.Fails, Setup.verdict, rejected]
      exact Option.some_ne_none _
    have notEarlier : cid ∉ progress.failedCreates := fun earlier => notFailed (grown earlier)
    refine ⟨forall_mem_cons.mpr ⟨⟨.inr inKeys, (BTreeMap.mem_keys _).mpr ⟨object, isObject⟩,
      cidFails⟩, doomed⟩, fun other earlier => mem_cons_of_mem _ (grown earlier), ?_, ?_⟩
    · intro other either
      have different : other ≠ cid := by
        rintro rfl
        exact either.elim notEarlier fun absent => absent mem_cons_self
      dsimp only
      rw [getD_insertInto, get?_insert, if_neg different]
      exact kept other (either.imp_right fun absent mem =>
        absent (mem_cons_of_mem _ mem))
    · intro other mem notOther
      dsimp only
      rw [getD_insertInto, get?_insert]
      split
      · next here =>
        subst here
        exact ⟨_, rfl, object, value, isObject, isValue, target, truly, isCreate, fails, rfl⟩
      · next different =>
        exact noted other ((mem_cons.mp mem).resolve_left different) notOther
  · intro cid earlier
    obtain ⟨isSent, fails⟩ := (synced.failed cid).mp earlier
    exact ⟨.inl earlier, follows.sentCreates isSent, fails⟩
  · intro cid earlier notEarlier
    exact absurd earlier notEarlier

/-- A create that is sent in its chunk is judged as in the single call. -/
theorem ready_verdict (synced : Synced setup start sent progress record)
    (follows : Follows setup sent chunk) {found : List (String × List String)}
    (isFound : createReferences setup.toValue setup.creates.keys chunk = .ok found)
    (readyCreate : ∀ cid object, ready.create.get? cid = some object →
      chunk.create.get? cid = some object)
    (known : ∀ entry ∈ ready.create.entries, ∀ target ∈ referencesOf setup.order found entry.1,
      (progress.createdIds.contains target || ready.create.contains target) = true) :
    ∀ cid ∈ ready.create.keys,
      setup.server.create ready.create progress.createdIds cid = setup.verdict cid := by
  refine sound.conforms.depends ready.create setup.creates progress.createdIds ∅
    (· ∈ ready.create.keys) ?_
  intro cid mem
  obtain ⟨object, isObject⟩ := (BTreeMap.mem_keys _).mp mem
  obtain ⟨value, isValue⟩ := sound.serializes object
  have inChunk := readyCreate cid object isObject
  refine ⟨object, value, isObject, follows.creates cid object inChunk, isValue, ?_⟩
  intro target refers
  by_cases isReady : target ∈ ready.create.keys
  · exact .inl isReady
  · refine .inr (resolve_earlier synced follows isReady fun isCreate => ?_)
    have listed := (mem_referencesOf sound isFound).mpr
      ⟨object, value, inChunk, isValue, sound.conforms.shaped value _ target refers isCreate⟩
    have either := known (cid, object) ((mem_entries _).mpr isObject) target listed
    rw [Bool.or_eq_true] at either
    exact either.resolve_right fun contains =>
      isReady (ready.create.contains_iff_mem_keys.mp contains)

theorem prepared_of_ok
    (synced : Synced setup start sent progress record)
    (follows : Follows setup sent chunk)
    (ran : setup.prepare progress chunk = .ok (prepared, ready)) :
    Prepared setup progress prepared chunk ready := by
  rcases prepare_ok ran with ⟨found, failed, notCreated, notUpdated, isFound, isFailed, isReady,
    isDestroy, known, updates, rfl⟩
  have doomed := propagate_doomed sound synced follows isFound
    (found.length + 1)
  rw [isFailed] at doomed
  obtain ⟨doomed, grown, kept, noted⟩ := doomed
  dsimp only at doomed grown kept noted
  have readyIff : ∀ cid, cid ∈ ready.create.keys ↔ cid ∈ chunk.create.keys ∧ cid ∉ failed := by
    intro cid
    rw [isReady, keys_retain, mem_filter, decide_eq_true_eq]
  have readyCreate : ∀ cid object, ready.create.get? cid = some object →
      chunk.create.get? cid = some object := by
    intro cid object isObject
    rw [isReady, get?_retain, Option.filter_eq_some_iff] at isObject
    exact isObject.1
  have subset : ready.create.keys ⊆ setup.creates.keys := fun cid mem =>
    follows.subset ((readyIff cid).mp mem).1
  have notEarlier : ∀ cid ∈ chunk.create.keys, cid ∉ progress.failedCreates :=
    fun cid mem earlier => follows.apart cid mem ((synced.failed cid).mp earlier).1
  have verdict := ready_verdict sound synced follows isFound readyCreate known
  have readied := foldlM_ready chunk.update.keys_nodup updates
  refine
    { createdIds := rfl, created := rfl, updated := rfl, destroyed := rfl, notDestroyed := rfl
      applied := rfl, currentState := rfl, retained := ⟨_, isReady⟩, failed := ?_
      doomed := ?_, notCreated := ?_, verdict := verdict, notUpdated := readied.1, update := ?_
      destroy := isDestroy }
  · intro cid
    rw [readyIff]
    constructor
    · intro isFailed
      exact (doomed cid isFailed).1.imp_right fun mem => ⟨mem, fun ready => ready.2 isFailed⟩
    · rintro (earlier | ⟨mem, notReady⟩)
      · exact grown earlier
      · exact not_not.mp fun notFailed => notReady ⟨mem, notFailed⟩
  · intro cid mem notReady
    have isFailed : cid ∈ failed := not_not.mp fun notFailed =>
      notReady ((readyIff cid).mpr ⟨mem, notFailed⟩)
    exact ⟨(doomed cid isFailed).2.2, noted cid isFailed (notEarlier cid mem)⟩
  · rintro cid (notMember | isReadyCid)
    · refine kept cid (or_iff_not_imp_right.mpr fun isFailed => ?_)
      exact (doomed cid (not_not.mp isFailed)).1.resolve_right notMember
    · exact kept cid (.inr ((readyIff cid).mp isReadyCid).2)
  · intro id patch inChunk
    have isPatch := follows.updates id patch inChunk
    rcases readied.2 (id, patch) ((mem_entries _).mpr inChunk) with
      ⟨sent, same, resolved⟩ | ⟨unsent, target, refers, isFailed, note⟩
    · refine .inl ⟨sent, same, fun record => sound.conforms.updateDepends record id patch _ _ ?_⟩
      intro target refers
      refine (resolve_same synced follows subset verdict fun isCreate => ?_).symm
      have listed := (sound.iterates id _ target).mpr
        (sound.conforms.shaped patch _ target refers isCreate)
      exact (resolved target listed).2
    · rw [sound.iterates] at refers
      obtain ⟨_, isCreate, fails⟩ := doomed target isFailed
      have truly := sound.references.updates id patch isPatch target refers fails
      refine .inr ⟨unsent, ⟨_, note, patch, isPatch, target, truly, isCreate, fails, rfl⟩, ?_⟩
      exact fun record => sound.conforms.updateNeeds record id patch _ target truly
        (Setup.resolve_failed isCreate fails)

end Prepare

/-! ### The effect of the chunk -/

theorem Setup.mem_made {cids : List String} {made : Created Object Record} :
    made ∈ setup.made cids ↔ ∃ cid ∈ cids, setup.verdict cid = .ok made := by
  rw [Setup.made, mem_filterMap]
  refine exists_congr fun cid => and_congr_right fun _ => ?_
  cases setup.verdict cid <;> simp [Except.toOption]

theorem Setup.made_append (front back : List String) :
    setup.made (front ++ back) =
      setup.made front ++ setup.made back := filterMap_append

theorem append_of_empty (record : Id → Option Record) (effect : Effect Object Record) :
    Effect.append { record := record } effect = effect := by
  have extended : ∀ {V : Type} (map : BTreeMap Id V), (∅ : BTreeMap Id V).extend map = map := by
    intro V map
    ext id : 1
    rw [get?_extend, get?_empty, Option.or_none]
  simp only [Effect.append, extended, nil_append]

theorem made_apart (sound : setup.Sound) {front back : List String}
    (inFront : front ⊆ setup.creates.keys) (inBack : back ⊆ setup.creates.keys)
    (apart : ∀ cid ∈ back, cid ∉ front) :
    ∀ one ∈ setup.made front, ∀ two ∈ setup.made back, one.id ≠ two.id := by
  intro one isOne two isTwo same
  obtain ⟨cid, mem, made⟩ := Setup.mem_made.mp isOne
  obtain ⟨other, isOther, madeOther⟩ := Setup.mem_made.mp isTwo
  have equal := sound.conforms.distinct _ ∅ cid (inFront mem) other (inBack isOther) one two
    made madeOther same
  exact apart other isOther (equal ▸ mem)

theorem Setup.effect_append (sound : setup.Sound)
    (follows : Follows setup sent chunk) :
    setup.effect start (sent ++ [chunk]) =
      (setup.effect start sent).append
        (setup.server.perform setup.resolve
          (recordCreated (setup.effect start sent).record
            (setup.made chunk.create.keys)) chunk.update.entries chunk.destroy) := by
  have split : setup.effect start (sent ++ [chunk]) =
      setup.server.perform setup.resolve
        (recordCreated (recordCreated start (setup.made (cidsOf sent)))
          (setup.made chunk.create.keys))
        (sent.flatMap (·.update.entries) ++ chunk.update.entries)
        (sent.flatMap (·.destroy) ++ chunk.destroy) := by
    have cids : cidsOf (sent ++ [chunk]) = cidsOf sent ++ chunk.create.keys := by
      rw [cidsOf, flatMap_append, flatMap_singleton, cidsOf]
    rw [Setup.effect, cids, Setup.made_append,
      recordCreated_append _ (made_apart sound follows.sentCreates follows.subset
        follows.apart),
      flatMap_append, flatMap_append, flatMap_singleton, flatMap_singleton]
  rw [split]
  rcases follows.createsFirst with noCreate | ⟨noUpdate, noDestroy⟩
  · have none : setup.made chunk.create.keys = [] := by
      rw [noCreate]
      rfl
    rw [none, recordCreated_nil, recordCreated_nil]
    refine perform_append sound.updatesFirst _ _ _
      (follows.updatesFirst.symm.imp_right fun noUpdate => ?_)
    rw [noUpdate]
    rfl
  · have before : setup.effect start sent =
        { record := recordCreated start (setup.made (cidsOf sent)) } := by
      rw [Setup.effect, noUpdate, noDestroy, perform_nil]
    rw [before, append_of_empty, noUpdate, noDestroy, nil_append, nil_append]

theorem sameError_or {theirs ours later : Option SetError} {excused : SetError → Prop}
    (earlier : theirs = ours ∨ theirs ≠ none ∧ ∃ error, ours = some error ∧ excused error) :
    later.or theirs = later.or ours ∨
      later.or theirs ≠ none ∧ ∃ error, later.or ours = some error ∧ excused error := by
  cases later with
  | none =>
    rw [Option.none_or, Option.none_or]
    exact earlier
  | some error => exact .inl rfl

section

variable (prep : Prepared setup progress prepared chunk ready)

include prep

theorem made_ready :
    (ready.create.keys.filterMap fun cid =>
      (setup.server.create ready.create progress.createdIds cid).toOption) =
        setup.made chunk.create.keys := by
  have verdicts : (ready.create.keys.filterMap fun cid =>
      (setup.server.create ready.create progress.createdIds cid).toOption) =
        setup.made ready.create.keys := by
    refine filterMap_congr fun cid mem => ?_
    rw [prep.verdict cid mem]
  rw [verdicts]
  obtain ⟨keep, isReady⟩ := prep.retained
  have keys : ready.create.keys = chunk.create.keys.filter keep := by
    rw [isReady, keys_retain]
  rw [keys, Setup.made, filterMap_filter, Setup.made]
  refine filterMap_congr fun cid mem => ?_
  split
  · rfl
  · next dropped =>
    have notReady : cid ∉ ready.create.keys := by
      rw [keys, mem_filter]
      exact fun isReady => dropped isReady.2
    exact (toOption_of_failed (prep.doomed cid mem notReady).1).symm

theorem ready_update :
    ready.update.entries =
      chunk.update.entries.filter fun entry => (ready.update.get? entry.1).isSome := by
  have retained : ready.update =
      chunk.update.retain fun id _ => (ready.update.get? id).isSome := by
    ext id : 1
    rw [get?_retain]
    cases inChunk : chunk.update.get? id with
    | none =>
      exact (prep.notUpdated id ((get?_eq_none_iff _).mp inChunk)).1
    | some patch =>
      rcases prep.update id patch inChunk with ⟨isSent, _⟩ | ⟨notSent, _⟩
      · rw [isSent]
        rfl
      · rw [notSent]
        rfl
  exact congrArg BTreeMap.entries retained

/-- The call with the chunk has the effect of its items in the single call, apart from
the notes of the updates that are not sent. -/
theorem skips_of_prepared (sound : setup.Sound) (record : Id → Option Record) :
    Skips (fun id => id ∈ chunk.update.keys ∧ ready.update.get? id = none)
      (setup.server.perform setup.resolve
        (recordCreated record (setup.made chunk.create.keys))
        chunk.update.entries chunk.destroy)
      (effectIn setup.server ready progress.createdIds record) := by
  rw [effectIn, Server.effect, made_ready prep, prep.destroy, ready_update prep,
    perform_eq sound.updatesFirst, perform_eq sound.updatesFirst]
  refine foldl_rel ?_ fun id _ _ _ skips => skips.applyDestroy id
  have skips := @Skips.foldl _ _ setup.server setup.resolve
    (setup.server.resolve ready.create progress.createdIds)
    (fun entry => (ready.update.get? entry.1).isSome) _ chunk.update.keys_nodup ?_ ?_
    { record := recordCreated record (setup.made chunk.create.keys) }
    { record := recordCreated record (setup.made chunk.create.keys) }
    (fun _ => False) ⟨rfl, rfl, rfl, rfl, fun _ impossible => impossible.elim, fun _ _ => rfl⟩
    (fun _ _ => ⟨id, rfl⟩)
  · refine skips.congr fun id => ?_
    rw [BTreeMap.keys, mem_map]
    constructor
    · rintro ⟨⟨entry, mem, rfl⟩, notSent⟩
      exact .inr ⟨entry, mem, rfl, by rw [notSent]; rfl⟩
    · intro isSkipped
      obtain ⟨entry, mem, rfl, notSent⟩ := isSkipped.resolve_left not_false
      exact ⟨⟨entry, mem, rfl⟩, Option.isNone_iff_eq_none.mp (by simpa using notSent)⟩
  · intro entry mem isSent record
    rcases prep.update entry.1 entry.2 ((mem_entries _).mp mem) with
      ⟨_, _, same⟩ | ⟨notSent, _⟩
    · exact same record
    · rw [notSent] at isSent
      cases isSent
  · intro entry mem notSent record
    rcases prep.update entry.1 entry.2 ((mem_entries _).mp mem) with
      ⟨isSent, _⟩ | ⟨_, _, fails⟩
    · rw [isSent] at notSent
      cases notSent
    · exact fails record

/-! ### The step -/

theorem ready_subset : ready.create.keys ⊆ chunk.create.keys := by
  obtain ⟨keep, isReady⟩ := prep.retained
  rw [isReady, keys_retain]
  exact filter_subset_self _

theorem made_step {β : Type} (part : Created Object Record → β)
    (follows : Follows setup sent chunk) (cid : String) :
    (if cid ∈ ready.create.keys then
        (setup.server.create ready.create progress.createdIds cid).toOption.map part
      else none).or
      (if cid ∈ cidsOf sent then (setup.verdict cid).toOption.map part else none) =
    if cid ∈ cidsOf (sent ++ [chunk]) then (setup.verdict cid).toOption.map part
      else none := by
  have memberIff := cidsOf_append sent chunk cid
  by_cases inChunk : cid ∈ chunk.create.keys
  · rw [if_neg (follows.apart cid inChunk), if_pos (memberIff.mpr (.inr inChunk)), Option.or_none]
    by_cases isReady : cid ∈ ready.create.keys
    · rw [if_pos isReady, prep.verdict cid isReady]
    · rw [if_neg isReady, toOption_of_failed (prep.doomed cid inChunk isReady).1]
      rfl
  · rw [if_neg fun isReady => inChunk (ready_subset prep isReady), Option.none_or]
    by_cases isSent : cid ∈ cidsOf sent
    · rw [if_pos isSent, if_pos (memberIff.mpr (.inl isSent))]
    · rw [if_neg isSent, if_neg fun mem => (memberIff.mp mem).elim isSent inChunk]

section

variable (synced : Synced setup start sent progress record)

include synced

theorem notCreated_step (follows : Follows setup sent chunk) {ours : BTreeMap String SetError}
    (isOurs : ∀ cid, ours.get? cid = (if cid ∈ ready.create.keys then
        errorOf (setup.server.create ready.create progress.createdIds cid)
      else none).or ((prepared.merged.notCreated.getD ∅).get? cid)) :
    SameErrors setup.ExcusedCreate
      (fun cid => if cid ∈ cidsOf (sent ++ [chunk]) then
        errorOf (setup.verdict cid) else none) ours := by
  intro cid
  have memberIff := cidsOf_append sent chunk cid
  have earlier := synced.notCreated cid
  dsimp only at earlier ⊢
  rw [isOurs]
  by_cases inChunk : cid ∈ chunk.create.keys
  · rw [if_pos (memberIff.mpr (.inr inChunk))]
    rw [if_neg (follows.apart cid inChunk)] at earlier
    have none : (progress.merged.notCreated.getD ∅).get? cid = none :=
      (earlier.resolve_right fun noted => noted.1 rfl).symm
    by_cases isReady : cid ∈ ready.create.keys
    · rw [if_pos isReady, prep.verdict cid isReady, prep.notCreated cid (.inr isReady), none,
        Option.or_none]
      exact .inl rfl
    · rw [if_neg isReady, Option.none_or]
      exact .inr (prep.doomed cid inChunk isReady)
  · rw [if_neg fun isReady => inChunk (ready_subset prep isReady), Option.none_or,
      prep.notCreated cid (.inl inChunk)]
    by_cases isSent : cid ∈ cidsOf sent
    · rw [if_pos (memberIff.mpr (.inl isSent))]
      rw [if_pos isSent] at earlier
      exact earlier
    · rw [if_neg fun mem => (memberIff.mp mem).elim isSent inChunk]
      rw [if_neg isSent] at earlier
      exact earlier

theorem notUpdated_step {full part : Effect Object Record}
    (skips : Skips (fun id => id ∈ chunk.update.keys ∧ ready.update.get? id = none) full part) :
    SameErrors setup.ExcusedUpdate
      ((setup.effect start sent).append full).notUpdated.get?
      ((prepared.merged.notUpdated.getD ∅).extend part.notUpdated) := by
  intro id
  have earlier := synced.notUpdated id
  rw [Effect.append, get?_extend, get?_extend]
  cases inChunk : chunk.update.get? id with
  | none =>
    have absent := (get?_eq_none_iff _).mp inChunk
    rw [skips.others id fun isSkipped => absent isSkipped.1, (prep.notUpdated id absent).2]
    exact sameError_or earlier
  | some patch =>
    rcases prep.update id patch inChunk with ⟨isSent, same, _⟩ | ⟨notSent, noted, _⟩
    · have notSkipped : ¬ (id ∈ chunk.update.keys ∧ ready.update.get? id = none) := by
        rw [isSent]
        rintro ⟨-, ⟨⟩⟩
      rw [skips.others id notSkipped, same]
      exact sameError_or earlier
    · have mem : id ∈ chunk.update.keys := (BTreeMap.mem_keys _).mpr ⟨patch, inChunk⟩
      obtain ⟨fails, unnoted⟩ := skips.noted id ⟨mem, notSent⟩
      rw [unnoted, Option.none_or]
      refine .inr ⟨?_, noted⟩
      obtain ⟨error, isError⟩ := Option.ne_none_iff_exists'.mp fails
      rw [isError]
      exact Option.some_ne_none _

end

/-- One chunk keeps the client and the server in step with the single call. -/
theorem Synced.step (sound : setup.Sound) {next : Progress Object} {records after : Records Record}
    (synced : Synced setup start sent progress records.record)
    (follows : Follows setup sent chunk)
    (merged : Merged setup.server ready prepared next records after) :
    Synced setup start (sent ++ [chunk]) next after.record := by
  rcases merged with ⟨ids, failed, created, notCreated, isRecord, updated, notUpdated, destroyed,
    notDestroyed⟩
  rw [prep.createdIds] at ids failed created notCreated isRecord
  rw [prep.createdIds] at updated notUpdated destroyed notDestroyed
  have skips := skips_of_prepared prep sound records.record
  have appended := @Setup.effect_append _ _ setup start sent chunk sound follows
  rw [← synced.record] at appended
  refine ⟨fun cid => ?_, fun cid => ?_, fun cid => ?_,
    notCreated_step prep synced follows notCreated, ?_, ?_, ?_, ?_, ?_⟩
  · rw [ids, synced.createdIds]
    exact made_step prep _ follows cid
  · rw [failed, prep.failed, synced.failed, cidsOf_append]
    constructor
    · rintro ((⟨isSent, fails⟩ | ⟨inChunk, notReady⟩) | ⟨isReady, fails⟩)
      · exact ⟨.inl isSent, fails⟩
      · exact ⟨.inr inChunk, (prep.doomed cid inChunk notReady).1⟩
      · rw [prep.verdict cid isReady] at fails
        exact ⟨.inr (ready_subset prep isReady), fails⟩
    · rintro ⟨isSent | inChunk, fails⟩
      · exact .inl (.inl ⟨isSent, fails⟩)
      · by_cases isReady : cid ∈ ready.create.keys
        · exact .inr ⟨isReady, by rwa [prep.verdict cid isReady]⟩
        · exact .inl (.inr ⟨inChunk, isReady⟩)
  · rw [created, prep.created, synced.created]
    exact made_step prep _ follows cid
  · rw [isRecord, appended]
    exact skips.record.symm
  · rw [updated, prep.updated, synced.updated, appended, ← skips.updated]
    rfl
  · rw [notUpdated, appended]
    exact notUpdated_step prep synced skips
  · rw [destroyed, prep.destroyed, synced.destroyed, appended, ← skips.destroyed]
    rfl
  · rw [notDestroyed, prep.notDestroyed, synced.notDestroyed, appended, ← skips.notDestroyed]
    rfl

end

end Step

end EvolutionJmap.Chunked
