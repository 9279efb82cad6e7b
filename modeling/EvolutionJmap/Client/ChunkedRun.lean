import EvolutionJmap.Client.ChunkedSet

/-!
# A whole run over the chunks

A run over the chunks that ends without an error has the outcome of the single call.  If
the server accepts the whole request, every chunk finds its references in the earlier
chunks, and no chunk fails.
-/

namespace EvolutionJmap.Chunked

open EvolutionJmap.Partition List BTreeMap Option Nat Bool

variable {Object Record : Type} {setup : Setup Object Record} {start records after : Records Record}
  {sent chunks : List (SetChunk Object)} {progress prepared next : Progress Object}
  {chunk ready : SetChunk Object} {limit : Nat}

namespace Setup

variable (setup : Setup Object Record)

def sendChunk (progress : Progress Object) (chunk : SetChunk Object) (records : Records Record) :
    Sent Object × Records Record :=
  Chunked.sendChunk setup.toValue setup.order setup.executeChunk setup.request progress
    chunk records

def sendChunks (chunks : List (SetChunk Object)) (progress : Progress Object)
    (records : Records Record) : Sent Object × Records Record :=
  Chunked.sendChunks setup.toValue setup.order setup.executeChunk setup.request chunks
    progress records

/-- `execute_set_chunked` with the request. -/
def execute (limit : Nat) (start : Records Record) :
    Option (Except Error (SetResponse Object) × Records Record) :=
  executeSetChunked setup.toValue setup.order setup.executeChunk setup.partitionOrder setup.request
    (some limit) start

/-- The single call with the request. -/
def call (start : Records Record) : Except Error (SetResponse Object) × Records Record :=
  setup.server.call setup.request ∅ start

/-- The client sends every request within the limit, and gets the response. -/
def Serves (limit : Nat) : Prop :=
  ∀ request known records, totalItems request ≤ limit →
    setup.executeChunk request known records = setup.server.call request known records

/-- The chunks are a partition of the request. -/
abbrev Holds (limit : Nat) (successors : String → List String) (chunks : List (SetChunk Object)) :
    Prop :=
  Partition.Holds limit successors setup.creates.entries setup.updates.entries
    (setup.request.destroy.getD []) chunks

end Setup

/-! ## One chunk -/

theorem sendChunk_ok (ran : setup.sendChunk progress chunk records = (.ok next, after)) :
    ∃ prepared ready, setup.prepare progress chunk = .ok (prepared, ready) ∧
      ((ready.isEmpty = true ∧ next = prepared ∧ after = records) ∨
        ∃ response,
          setup.executeChunk (chunkRequest setup.request.accountId prepared.currentState ready)
            prepared.createdIds records = (.ok response, after) ∧
          merge setup.toValue { prepared with applied := true } response = .ok next) := by
  rw [Setup.sendChunk, Chunked.sendChunk] at ran
  split at ran
  · cases ran
  · next prepared ready isPrepared =>
    refine ⟨prepared, ready, isPrepared, ?_⟩
    split at ran
    · next empty =>
      cases ran
      exact .inl ⟨empty, rfl, rfl⟩
    · split at ran
      · cases ran
      · next response world answered =>
        obtain ⟨merged, rfl⟩ := Prod.mk.inj ran
        refine .inr ⟨response, answered, ?_⟩
        cases result : merge setup.toValue { prepared with applied := true } response with
        | error error =>
          rw [result] at merged
          cases merged
        | ok progress =>
          rw [result] at merged
          cases merged
          rfl

theorem propagate_fresh (references : List (String × List String))
    (fresh : progress.failedCreates = []) :
    (propagate setup.order references (references.length + 1)
      (progress.failedCreates, progress.merged.notCreated)).1 = [] :=
  propagate_invariant (P := fun state => state.1 = [])
    (fun {_ _ _} none _ _ mem _ => absurd mem (none ▸ not_mem_nil)) _ fresh

theorem retain_fresh (creates : BTreeMap String Object) :
    (creates.retain fun cid _ => decide (cid ∉ ([] : List String))) = creates := by
  ext cid : 1
  rw [get?_retain]
  cases creates.get? cid <;> rfl

theorem prepare_fresh (fresh : progress.failedCreates = [])
    (ran : setup.prepare progress chunk = .ok (prepared, ready)) :
    prepared.failedCreates = [] ∧ ready = chunk := by
  rcases prepare_ok ran with ⟨references, failed, notCreated, notUpdated, _, propagated, creates,
    destroys, _, updates, rfl⟩
  have noneFailed : failed = [] := by
    have none := @propagate_fresh _ _ setup progress references fresh
    rw [propagated] at none
    exact none
  subst noneFailed
  refine ⟨rfl, ?_⟩
  obtain ⟨others, each⟩ := foldlM_ready chunk.update.keys_nodup updates
  have sameUpdate : ready.update = chunk.update := by
    ext id : 1
    cases held : chunk.update.get? id with
    | none =>
      exact (others id ((get?_eq_none_iff _).mp held)).1
    | some patch =>
      rcases each (id, patch) (chunk.update.mem_entries.mpr held) with found | failed
      · exact found.1
      · obtain ⟨target, _, impossible, _⟩ := failed.2
        cases impossible
  have sameCreate : ready.create = chunk.create := creates.trans (retain_fresh _)
  cases ready
  simp only at sameUpdate sameCreate destroys
  rw [sameUpdate, sameCreate, destroys]

theorem prepare_succeeds (sound : setup.Sound) (fresh : progress.failedCreates = [])
    (creates : ∀ cid object value, chunk.create.get? cid = some object →
      setup.toValue object = .ok value →
      ∀ target ∈ findCreationReferences value setup.creates.keys,
        (progress.createdIds.contains target || chunk.create.contains target) = true)
    (updates : ∀ id patch, chunk.update.get? id = some patch →
      ∀ target ∈ findCreationReferences patch setup.creates.keys,
        (progress.createdIds.contains target || chunk.create.contains target) = true) :
    ∃ prepared, setup.prepare progress chunk = .ok (prepared, chunk) := by
  rcases mapM_ok sound.serializes (fun _ value => findCreationReferences value setup.creates.keys)
    chunk.create.entries with ⟨references, isFound⟩
  have noneFailed := @propagate_fresh _ _ setup progress references fresh
  have resolved : (chunk.create.entries.findSome? fun entry =>
      (referencesOf setup.order references entry.1).find? fun target =>
        !(progress.createdIds.contains target || chunk.create.contains target)) = none := by
    rw [findSome?_eq_none_iff]
    intro entry mem
    rw [find?_eq_none]
    intro target refers
    obtain ⟨object, value, held, isValue, isRef⟩ := (mem_referencesOf sound isFound).mp refers
    rw [creates entry.1 object value held isValue target isRef]
    exact Bool.false_ne_true
  rcases @foldlM_ready_ok chunk.update.entries setup.order setup.creates.keys []
    (fun target => progress.createdIds.contains target || chunk.create.contains target)
    (∅, progress.merged.notUpdated) (fun entry mem target refers =>
      ⟨not_mem_nil, updates entry.1 entry.2 (chunk.update.mem_entries.mp mem) target
        ((sound.iterates _ _ _).mp refers)⟩) with ⟨ready, isReady⟩
  have ran : ∃ prepared ready, setup.prepare progress chunk = .ok (prepared, ready) := by
    rw [Setup.prepare, prepare, createReferences, isFound]
    simp only [bind, Except.bind, Except.mapError, noneFailed, retain_fresh, resolved, readyUpdates,
      isReady]
    exact ⟨_, _, rfl⟩
  obtain ⟨prepared, ready, ran⟩ := ran
  rw [(prepare_fresh fresh ran).2] at ran
  exact ⟨prepared, ran⟩

/-! ## The run -/

/-- The run is in step with the single call, and the client knows the state of the
server. -/
structure Running (setup : Setup Object Record) (start : Records Record)
    (sent : List (SetChunk Object)) (progress : Progress Object) (records : Records Record) :
    Prop where
  synced : Synced setup start.record sent progress records.record
  states : (setup.server.mismatch setup.request start = false ∧
      progress.currentState = some (setup.server.stateName records.version)) ∨
    (records = start ∧ progress.currentState = setup.request.ifInState ∧
      progress.failedCreates = [] ∧
      ∀ chunk ∈ sent, chunk.isEmpty = true)

theorem Running.initial : Running setup start [] (.start setup.request) start := by
  have none : setup.effect start.record [] = { record := start.record } :=
    Server.perform_nil _ _
  refine ⟨⟨fun _ => rfl, fun cid => ?_, fun _ => rfl, fun _ => .inl rfl, by rw [none],
    by rw [none]; rfl, fun _ => .inl (by rw [none]; rfl), by rw [none]; rfl, by rw [none]; rfl⟩,
    .inr ⟨rfl, rfl, rfl, nofun⟩⟩
  exact ⟨nofun, fun ⟨mem, _⟩ => nomatch mem⟩

theorem call_ok {server : Server Object Record} {request : SetRequest Object}
    {known : BTreeMap Id Id} {response : SetResponse Object}
    (answered : server.call request known records = (.ok response, after)) :
    server.mismatch request records = false ∧
      response = server.response request known records ∧
      after = ⟨(server.effectOf request known records.record).record, records.version + 1⟩ := by
  rw [Server.call] at answered
  split at answered
  · cases answered
  · next agrees =>
    cases answered
    exact ⟨eq_false_iff.mpr agrees, rfl, rfl⟩

/-! ## The chunks of a request -/

section Holds

variable {successors : String → List String} (holds : setup.Holds limit successors chunks)
include holds

theorem mem_create_of_holds {cid : String} {object : Object} (mem : chunk ∈ chunks)
    (inChunk : chunk.create.get? cid = some object) :
    setup.creates.get? cid = some object := by
  rw [← mem_entries, ← holds.creates.mem_iff, mem_flatMap]
  exact ⟨chunk, mem, (mem_entries _).mpr inChunk⟩

theorem mem_update_of_holds {id : Id} {patch : Value} (mem : chunk ∈ chunks)
    (inChunk : chunk.update.get? id = some patch) :
    setup.updates.get? id = some patch := by
  rw [← mem_entries, ← holds.updates, mem_flatMap]
  exact ⟨chunk, mem, (mem_entries _).mpr inChunk⟩

theorem cidsOf_perm : (cidsOf chunks).Perm setup.creates.keys := by
  have mapped := holds.creates.map Prod.fst
  rw [map_flatMap] at mapped
  exact mapped

theorem follows_of_holds {front back : List (SetChunk Object)}
    (split : chunks = front ++ chunk :: back) : Follows setup front chunk := by
  have inChunks : chunk ∈ chunks := by rw [split]; simp
  have cids := cidsOf_perm holds
  have nodup := cids.nodup_iff.mpr (keys_nodup _)
  have creates := holds.createsFirst
  have updates := holds.updatesFirst
  subst split
  rw [cidsOf, flatMap_append, nodup_append] at nodup
  rw [pairwise_append] at creates updates
  have createsFirst := fun earlier mem => creates.2.2 earlier mem chunk mem_cons_self
  have updatesFirst := fun earlier mem => updates.2.2 earlier mem chunk mem_cons_self
  refine ⟨fun _ _ => mem_create_of_holds holds inChunks,
    fun _ _ => mem_update_of_holds holds inChunks, fun cid mem => ?_,
    fun cid inChunk mem => ?_, ?_, ?_⟩
  · refine cids.mem_iff.mp ?_
    rw [cidsOf, flatMap_append]
    exact mem_append_left _ mem
  · exact nodup.2.2 cid mem cid (mem_flatMap.mpr ⟨chunk, mem_cons_self, inChunk⟩) rfl
  · by_cases none : chunk.create = ∅
    · exact .inl none
    · have first := fun earlier mem => (createsFirst earlier mem).resolve_right none
      refine .inr ⟨flatMap_eq_nil_iff.mpr fun earlier mem => ?_,
        flatMap_eq_nil_iff.mpr fun earlier mem => (first earlier mem).2⟩
      rw [(first earlier mem).1]
      rfl
  · by_cases none : chunk.update = ∅
    · exact .inl none
    · exact .inr (flatMap_eq_nil_iff.mpr fun earlier mem =>
        (updatesFirst earlier mem).resolve_right none)

theorem Setup.effect_chunks (sound : setup.Sound) (record : Id → Option Record) :
    setup.effect record chunks = setup.server.effectOf setup.request ∅ record := by
  have made : (setup.made (cidsOf chunks)).Perm (setup.made setup.creates.keys) :=
    (cidsOf_perm holds).filterMap _
  have distinct : ∀ one ∈ setup.made (cidsOf chunks), ∀ two ∈ setup.made (cidsOf chunks),
      one.id = two.id → one = two := by
    intro one isOne two isTwo same
    rw [made.mem_iff, Setup.mem_made] at isOne isTwo
    obtain ⟨cid, isCid, first⟩ := isOne
    obtain ⟨other, isOther, second⟩ := isTwo
    cases sound.conforms.distinct _ _ cid isCid other isOther one two first second same
    rw [first] at second
    cases second
    rfl
  rw [Setup.effect, Server.effectOf, Server.effect, holds.updates, holds.destroys,
    Server.recordCreated_perm record made distinct]
  rfl

theorem totalItems_eq_zero (empty : ∀ chunk ∈ chunks, chunk.isEmpty = true) :
    totalItems setup.request = 0 := by
  have parts : ∀ chunk ∈ chunks, chunk.create.entries = [] ∧ chunk.update.entries = [] ∧
      chunk.destroy = [] := by
    intro chunk mem
    have none := empty chunk mem
    simp only [SetChunk.isEmpty, and_eq_true] at none
    exact ⟨isEmpty_iff.mp none.1.1, isEmpty_iff.mp none.1.2, isEmpty_iff.mp none.2⟩
  have creates := holds.creates.length_eq
  rw [flatMap_eq_nil_iff.mpr fun chunk mem => (parts chunk mem).1] at creates
  have updates := congrArg List.length holds.updates
  rw [flatMap_eq_nil_iff.mpr fun chunk mem => (parts chunk mem).2.1] at updates
  have destroys := congrArg List.length holds.destroys
  rw [flatMap_eq_nil_iff.mpr fun chunk mem => (parts chunk mem).2.2] at destroys
  rw [totalItems, ← creates, ← updates, ← destroys]
  rfl

end Holds

/-! ## The outcome -/

/-- The outcome in chunks (`ours`) is that of the single call (`theirs`). -/
structure SameOutcome (setup : Setup Object Record) (theirs ours : SetResponse Object) : Prop where
  created : ours.created.getD ∅ = theirs.created.getD ∅
  updated : ours.updated.getD ∅ = theirs.updated.getD ∅
  destroyed : ours.destroyed.getD [] = theirs.destroyed.getD []
  notDestroyed : ours.notDestroyed.getD ∅ = theirs.notDestroyed.getD ∅
  notCreated : SameErrors setup.ExcusedCreate (theirs.notCreated.getD ∅).get?
    (ours.notCreated.getD ∅)
  notUpdated : SameErrors setup.ExcusedUpdate (theirs.notUpdated.getD ∅).get?
    (ours.notUpdated.getD ∅)

theorem SameErrors.empty {excused : String → SetError → Prop}
    {theirs ours : BTreeMap String SetError} (same : SameErrors excused theirs.get? ours)
    (none : theirs = ∅) : ours = ∅ := by
  subst none
  ext id : 1
  exact ((same id).resolve_right fun noted => noted.1 rfl).symm

theorem Synced.outcome (sound : setup.Sound) {successors : String → List String}
    (holds : setup.Holds limit successors chunks)
    (synced : Synced setup start.record chunks progress records.record) :
    (setup.server.effectOf setup.request ∅ start.record).record = records.record ∧
      SameOutcome setup (setup.server.response setup.request ∅ start) progress.merged := by
  rcases synced with ⟨_, _, created, notCreated, record, updated, notUpdated, destroyed,
    notDestroyed⟩
  rw [Setup.effect_chunks holds sound] at record updated notUpdated destroyed notDestroyed
  have isKey : ∀ cid, cid ∈ cidsOf chunks ↔ cid ∈ setup.creates.keys :=
    fun cid => (cidsOf_perm holds).mem_iff
  refine ⟨record.symm, ?_, ?_, ?_, ?_, fun cid => ?_, ?_⟩
  · ext cid : 1
    rw [created, Server.response, getD_ifAny, get?_filterMapValues_key _ fun cid =>
      (setup.server.create setup.creates ∅ cid).toOption.map (·.shown)]
    simp only [isKey, Setup.verdict]
  · rw [updated, Server.response, getD_ifAny]
  · rw [destroyed, Server.response, getD_ifNonempty]
  · rw [notDestroyed, Server.response, getD_ifAny]
  · have errors := notCreated cid
    rw [Server.response, getD_ifAny, get?_filterMapValues_key _ fun cid =>
      Server.errorOf (setup.server.create setup.creates ∅ cid)]
    simp only [isKey, Setup.verdict] at errors
    exact errors
  · rw [Server.response, getD_ifAny]
    exact notUpdated

theorem execute_split (positive : 0 < limit) (split : limit < totalItems setup.request)
    {result : Except Error (List (SetChunk Object))}
    (partitioned : partitionSetRequest setup.toValue setup.partitionOrder setup.request limit =
      some result) :
    setup.execute limit start = some (match result with
      | .error error => (.error error, start)
      | .ok chunks => finish setup.toValue
          (setup.sendChunks chunks (.start setup.request) start)) := by
  cases limit with
  | zero => exact absurd positive (lt_irrefl 0)
  | succ limit =>
    simp only [Setup.execute, executeSetChunked, if_neg (not_le.mpr split), partitioned, map_some]
    cases result <;> rfl

theorem execute_unsplit (positive : 0 < limit) (fits : totalItems setup.request ≤ limit) :
    setup.execute limit start = some (setup.executeChunk setup.request ∅ start) := by
  cases limit with
  | zero => exact absurd positive (lt_irrefl 0)
  | succ limit => simp only [Setup.execute, executeSetChunked, if_pos fits]

theorem finish_ok {toValue : Object → Except Error Value} {result : Sent Object × Records Record}
    {ours : SetResponse Object}
    (finished : finish toValue result = (.ok ours, after)) :
    ∃ progress, result = (.ok progress, after) ∧ progress.merged = ours := by
  rw [finish.eq_def] at finished
  split at finished
  · cases finished
    exact ⟨_, rfl, rfl⟩
  · cases finished
  · cases finished

section Run

variable (sound : setup.Sound)
include sound

theorem Running.step (running : Running setup start sent progress records)
    (follows : Follows setup sent chunk)
    (ran : setup.sendChunk progress chunk records = (.ok next, after)) :
    Running setup start (sent ++ [chunk]) next after := by
  obtain ⟨prepared, ready, isPrepared, outcome⟩ := sendChunk_ok ran
  have prep := prepared_of_ok sound running.synced follows isPrepared
  rcases outcome with ⟨empty, rfl, rfl⟩ | ⟨response, answered, isMerged⟩
  · refine ⟨running.synced.step prep sound follows (merged_of_empty empty), ?_⟩
    rcases running.states with ⟨agrees, state⟩ | ⟨same, state, fresh, empties⟩
    · exact .inl ⟨agrees, prep.currentState.trans state⟩
    · obtain ⟨stillFresh, rfl⟩ := prepare_fresh fresh isPrepared
      refine .inr ⟨same, prep.currentState.trans state, stillFresh, ?_⟩
      intro other mem
      rcases mem_append.mp mem with earlier | here
      · exact empties other earlier
      · rw [mem_singleton.mp here]
        exact empty
  · obtain ⟨agrees, rfl, rfl⟩ := call_ok (sound.answers _ _ _ _ _ answered)
    rcases @merged_of_call _ _ setup.server setup.toValue ready prepared records sound.conforms
      setup.request.accountId prepared.currentState with ⟨merged, isNext, isMerge, _, state⟩
    rw [isNext] at isMerged
    cases isMerged
    rw [effectOf_chunkRequest]
    refine ⟨running.synced.step prep sound follows isMerge, .inl ⟨?_, state⟩⟩
    rcases running.states with ⟨agreed, _⟩ | ⟨rfl, isState, _⟩
    · exact agreed
    · rw [Server.mismatch, chunkRequest, prep.currentState, isState] at agrees
      exact agrees

theorem Running.run (running : Running setup start sent progress records)
    (follows : ∀ front chunk back, chunks = front ++ chunk :: back →
      Follows setup (sent ++ front) chunk)
    (ran : setup.sendChunks chunks progress records = (.ok next, after)) :
    Running setup start (sent ++ chunks) next after := by
  induction chunks generalizing sent progress records with
  | nil =>
    cases ran
    rw [append_nil]
    exact running
  | cons chunk rest ih =>
    rw [Setup.sendChunks, Chunked.sendChunks] at ran
    split at ran
    · next progress records sentOne =>
      have first := follows [] chunk rest rfl
      rw [append_nil] at first
      have stepped := running.step sound first sentOne
      have later := ih stepped (fun front other back split => ?_) ran
      · rw [append_assoc] at later
        exact later
      · have behind := follows (chunk :: front) other back (by rw [split]; rfl)
        rw [append_assoc]
        exact behind
    · next failed =>
      exact absurd ran (failed next after)

theorem execute_same {ours : SetResponse Object} (positive : 0 < limit)
    (split : limit < totalItems setup.request)
    (ran : setup.execute limit start = some (.ok ours, after)) :
    ∃ theirs afterCall, setup.call start = (.ok theirs, afterCall) ∧
      afterCall.record = after.record ∧ SameOutcome setup theirs ours := by
  rcases partitionSetRequest_spec sound.partitionIterates sound.serializes setup.request limit with
    ⟨result, successors, partitioned, _, _, held⟩
  cases result with
  | error error =>
    rw [execute_split positive split partitioned] at ran
    cases ran
  | ok chunks =>
    have holds := held chunks rfl
    rw [execute_split positive split partitioned] at ran
    obtain ⟨progress, finished, rfl⟩ := finish_ok (Option.some.inj ran)
    have running := Running.initial.run sound
      (fun front chunk back isSplit => follows_of_holds holds isSplit) finished
    rw [nil_append] at running
    obtain ⟨record, outcome⟩ := running.synced.outcome sound holds
    have agrees : setup.server.mismatch setup.request start = false := by
      rcases running.states with ⟨agrees, _⟩ | ⟨_, _, _, empties⟩
      · exact agrees
      · have none := totalItems_eq_zero holds empties
        omega
    refine ⟨setup.server.response setup.request ∅ start,
      ⟨(setup.server.effectOf setup.request ∅ start.record).record, start.version + 1⟩, ?_, record,
      outcome⟩
    rw [Setup.call, Server.call, agrees]
    rfl

/-! ## A request that the server accepts -/

section Accepted

omit sound in
theorem totalItems_chunkRequest (accountId : Id) (state : Option State) :
    totalItems (chunkRequest accountId state chunk) = chunk.size := by
  simp only [totalItems, chunkRequest, getD_ifAny, getD_ifNonempty, SetChunk.size]

variable {successors : String → List String} (holds : setup.Holds limit successors chunks)
  (edges : ∀ cid target, target ∈ successors cid ↔
    Refers setup.toValue setup.creates cid target ∧ target ≠ cid)
  (accepts : ∀ cid ∈ setup.creates.keys, ¬ setup.Fails cid)
  (agrees : setup.server.mismatch setup.request start = false) (serves : setup.Serves limit)
include accepts

omit sound in
theorem Running.fresh (running : Running setup start sent progress records)
    (subset : cidsOf sent ⊆ setup.creates.keys) : progress.failedCreates = [] := by
  rw [eq_nil_iff_forall_not_mem]
  intro cid failed
  obtain ⟨isSent, fails⟩ := (running.synced.failed cid).mp failed
  exact accepts cid (subset isSent) fails

include holds

omit sound in
theorem Running.knows (running : Running setup start sent progress records)
    {back : List (SetChunk Object)} (split : chunks = sent ++ chunk :: back) {target : String}
    (isCreate : target ∈ setup.creates.keys)
    (notLater : ∀ later ∈ back, target ∉ later.create.keys) :
    (progress.createdIds.contains target || chunk.create.contains target) = true := by
  have somewhere := (cidsOf_perm holds).mem_iff.mpr isCreate
  rw [split, cidsOf, flatMap_append, flatMap_cons, mem_append, mem_append]
    at somewhere
  rw [or_eq_true, contains_eq_true, contains_eq_true]
  rcases somewhere with isSent | inChunk | inBack
  · refine .inl ?_
    rw [running.synced.createdIds, if_pos (show target ∈ cidsOf sent from isSent)]
    cases verdict : setup.verdict target with
    | ok made => exact ⟨made.id, rfl⟩
    | error error =>
      refine absurd ?_ (accepts target isCreate)
      rw [Setup.Fails, verdict]
      exact some_ne_none error
  · exact .inr ((mem_keys _).mp inChunk)
  · obtain ⟨later, mem, isLater⟩ := mem_flatMap.mp inBack
    exact absurd isLater (notLater later mem)

include edges agrees serves

theorem Running.sends (positive : 0 < limit)
    (running : Running setup start sent progress records)
    {back : List (SetChunk Object)} (split : chunks = sent ++ chunk :: back) :
    ∃ next after, setup.sendChunk progress chunk records = (.ok next, after) := by
  have follows := follows_of_holds holds split
  have inChunks : chunk ∈ chunks := by rw [split]; simp
  have targets := holds.targetsFirst
  have creates := holds.createsFirst
  rw [split, pairwise_append, pairwise_cons] at targets creates
  have fresh := running.fresh accepts follows.sentCreates
  have prepared : ∃ prepared, setup.prepare progress chunk = .ok (prepared, chunk) := by
    refine prepare_succeeds sound fresh ?_ ?_
    · intro cid object value held isValue target refers
      have isObject := follows.creates cid object held
      by_cases same : target = cid
      · rw [same, or_eq_true, contains_eq_true chunk.create]
        exact .inr ⟨object, held⟩
      · refine running.knows holds accepts split (candidate_of_collected _ value target refers) ?_
        intro later mem
        exact targets.2.1.1 later mem cid ((mem_keys _).mpr ⟨object, held⟩) target
          ((edges cid target).mpr ⟨⟨object, value, isObject, isValue, refers⟩, same⟩)
    · intro id patch held target refers
      refine running.knows holds accepts split (candidate_of_collected _ patch target refers) ?_
      intro later mem inLater
      rcases creates.2.1.1 later mem with ⟨noUpdate, _⟩ | noCreate
      · rw [noUpdate] at held
        cases held
      · rw [noCreate] at inLater
        cases inLater
  obtain ⟨prepared, isPrepared⟩ := prepared
  have prep := prepared_of_ok sound running.synced follows isPrepared
  rw [Setup.prepare] at isPrepared
  rw [Setup.sendChunk, Chunked.sendChunk, isPrepared]
  dsimp only
  split
  · exact ⟨_, _, rfl⟩
  · have small : totalItems (chunkRequest setup.request.accountId prepared.currentState chunk) ≤
        limit := by
      have size := holds.sizes chunk inChunks
      rw [max_eq_left positive] at size
      rw [totalItems_chunkRequest]
      exact size
    have inState : setup.server.mismatch
        (chunkRequest setup.request.accountId prepared.currentState chunk) records = false := by
      rw [Server.mismatch, chunkRequest, prep.currentState]
      rcases running.states with ⟨_, state⟩ | ⟨rfl, state, _⟩
      · rw [state]
        simp
      · rw [state]
        exact agrees
    rcases @merged_of_call _ _ setup.server setup.toValue chunk prepared records sound.conforms
      setup.request.accountId prepared.currentState with ⟨merged, isNext, _⟩
    rw [serves _ _ _ small, Server.call, inState, if_neg Bool.false_ne_true]
    dsimp only
    rw [isNext]
    exact ⟨_, _, rfl⟩

theorem Running.completes (positive : 0 < limit)
    (running : Running setup start sent progress records)
    {rest : List (SetChunk Object)} (split : chunks = sent ++ rest) :
    ∃ next after, setup.sendChunks rest progress records = (.ok next, after) := by
  induction rest generalizing sent progress records with
  | nil => exact ⟨progress, records, rfl⟩
  | cons chunk rest ih =>
    rcases running.sends sound holds edges accepts agrees serves positive split with
      ⟨next, after, sentOne⟩
    have stepped := running.step sound (follows_of_holds holds split) sentOne
    obtain ⟨last, final, completed⟩ := ih stepped (by rw [split, append_assoc]; rfl)
    refine ⟨last, final, ?_⟩
    rw [Setup.sendChunks, Chunked.sendChunks]
    rw [Setup.sendChunk] at sentOne
    rw [sentOne]
    exact completed

end Accepted

/-! ## Chunks and the single call -/

variable (setup) in
/-- No cycle of texts with the shape of references has more than `limit` creates. -/
def Setup.SmallCycles (limit : Nat) : Prop :=
  ∀ component, IsScc (Refers setup.toValue setup.creates) setup.creates.keys component →
    component.card ≤ limit

/-- A request that the server accepts in one call is executed in chunks, if no cycle of
references is too large. -/
theorem execute_accepted (positive : 0 < limit) (serves : setup.Serves limit)
    (small : setup.SmallCycles limit) {theirs : SetResponse Object} {afterCall : Records Record}
    (called : setup.call start = (.ok theirs, afterCall))
    (created : theirs.notCreated.getD ∅ = ∅) :
    ∃ ours after, setup.execute limit start = some (.ok ours, after) := by
  obtain ⟨agrees, rfl, _⟩ := call_ok called
  by_cases split : limit < totalItems setup.request
  · rcases partitionSetRequest_spec sound.partitionIterates sound.serializes setup.request
      limit with
      ⟨result, successors, partitioned, edges, large, held⟩
    cases result with
    | error error =>
      obtain ⟨component, isScc, exceeds⟩ := large.mp ⟨error, rfl⟩
      exact absurd (small component isScc) (not_le.mpr exceeds)
    | ok chunks =>
      have accepts : ∀ cid ∈ setup.creates.keys, ¬ setup.Fails cid := by
        intro cid isCreate
        have errors := get?_filterMapValues_key setup.creates (fun cid =>
          Server.errorOf (setup.server.create setup.creates ∅ cid)) cid
        rw [Server.response, getD_ifAny] at created
        rw [created, if_pos isCreate] at errors
        exact not_ne_iff.mpr errors.symm
      rcases Running.initial.completes sound (held chunks rfl) edges accepts agrees serves positive
        rfl with ⟨last, after, completed⟩
      refine ⟨last.merged, after, ?_⟩
      rw [execute_split positive split partitioned]
      simp only [completed]
      rfl
  · refine ⟨setup.server.response setup.request ∅ start, afterCall, ?_⟩
    rw [execute_unsplit positive (not_lt.mp split), serves _ _ _ (not_lt.mp split),
      ← Setup.call, called]

/-- `execute_set_chunked` against the single call. If it splits the request and returns a
response, the records and the response are those of the single call, but an item that refers to
a create that failed can have the error of the client. A request that the server accepts in one
call is executed, unless a cycle is too large. -/
theorem executeSetChunked_equals (positive : 0 < limit) :
    (limit < totalItems setup.request →
      ∀ ours after, setup.execute limit start = some (.ok ours, after) →
        ∃ theirs afterCall, setup.call start = (.ok theirs, afterCall) ∧
          afterCall.record = after.record ∧ SameOutcome setup theirs ours) ∧
    (setup.Serves limit → setup.SmallCycles limit →
      ∀ theirs afterCall, setup.call start = (.ok theirs, afterCall) →
        theirs.notCreated.getD ∅ = ∅ → theirs.notUpdated.getD ∅ = ∅ →
        theirs.notDestroyed.getD ∅ = ∅ →
        ∃ ours after, setup.execute limit start = some (.ok ours, after) ∧
          ours.notCreated.getD ∅ = ∅ ∧ ours.notUpdated.getD ∅ = ∅ ∧
          ours.notDestroyed.getD ∅ = ∅) := by
  have same := fun split ours after ran =>
    @execute_same _ _ setup start after limit sound ours positive split ran
  refine ⟨same, fun serves small theirs afterCall called created updated destroyed => ?_⟩
  rcases execute_accepted sound positive serves small called created with ⟨ours, after, ran⟩
  refine ⟨ours, after, ran, ?_⟩
  by_cases split : limit < totalItems setup.request
  · obtain ⟨whole, _, again, _, outcome⟩ := same split ours after ran
    rw [called] at again
    cases again
    exact ⟨outcome.notCreated.empty created, outcome.notUpdated.empty updated,
      outcome.notDestroyed.trans destroyed⟩
  · rw [execute_unsplit positive (not_lt.mp split), serves _ _ _ (not_lt.mp split),
      ← Setup.call, called] at ran
    cases ran
    exact ⟨created, updated, destroyed⟩

end Run

/-! ## A server for folders -/

def parentOf (value : Value) : Option String :=
  ((value.get? "parentId").bind Value.asStr).bind fun text =>
    match text.toList with
    | '#' :: name => some (String.ofList name)
    | _ => none

def folderId (mark : Char) (cid : String) : Id := String.ofList (mark :: cid.toList)

def topFolder (creates : BTreeMap String Value) (known : BTreeMap Id Id) (target : String) :
    Option Id :=
  match creates.get? target with
  | some value => if (parentOf value).isSome then none else some (folderId 't' target)
  | none => (known.get? target).filter fun id => startsWith id 't'

def refused : SetError := ⟨"invalidProperties", none, none⟩

def createdFolder (mark : Char) (cid : String) : Created Value Unit :=
  ⟨folderId mark cid, .object [("id", .string (folderId mark cid))], ()⟩

def folders (destroysFirst : Bool) : Server Value Unit where
  refersTo value := (parentOf value).toList
  create creates known cid :=
    match creates.get? cid with
    | none => .error refused
    | some value =>
      match parentOf value with
      | none => .ok (createdFolder 't' cid)
      | some parent =>
        match topFolder creates known parent with
        | some _ => .ok (createdFolder 'f' cid)
        | none => .error refused
  update record id patch resolve :=
    match record id with
    | none => .error ⟨"notFound", none, none⟩
    | some () =>
      if (parentOf patch).all fun parent => (resolve parent).isSome then .ok ((), none)
      else .error refused
  destroy record id := if (record id).isSome then .ok () else .error ⟨"notFound", none, none⟩
  destroysFirst := destroysFirst
  stateName version := toString version

section Folders

variable {destroysFirst : Bool}

theorem startsWith_folderId (mark char : Char) (cid : String) :
    startsWith (folderId mark cid) char = (mark == char) := by
  rw [startsWith, folderId, String.toList_ofList, head?_cons]
  rfl

theorem folderId_inj {mark other : Char} {cid target : String}
    (same : folderId mark cid = folderId other target) : cid = target := by
  have chars := congrArg String.toList same
  rw [folderId, folderId, String.toList_ofList, String.toList_ofList] at chars
  exact String.toList_injective (List.cons.inj chars).2

theorem folders_create {creates : BTreeMap String Value} {known : BTreeMap Id Id} {cid : String}
    {made : Created Value Unit}
    (verdict : (folders destroysFirst).create creates known cid = .ok made) :
    ∃ mark, made = createdFolder mark cid := by
  simp only [folders] at verdict
  split at verdict
  · cases verdict
  · split at verdict
    · cases verdict
      exact ⟨_, rfl⟩
    · split at verdict
      · cases verdict
        exact ⟨_, rfl⟩
      · cases verdict

variable (destroysFirst) in
theorem topFolder_eq (creates : BTreeMap String Value) (known : BTreeMap Id Id) (target : String) :
    topFolder creates known target =
      ((folders destroysFirst).resolve creates known target).filter fun id =>
        startsWith id 't' := by
  have notTop : ('f' == 't') = false := by decide
  rw [topFolder, Server.resolve, BTreeMap.contains]
  cases held : creates.get? target with
  | none => rfl
  | some value =>
    simp only [folders, held, isSome_some, if_true]
    cases isParent : parentOf value with
    | none =>
      simp only [isSome_none, Bool.false_eq_true, if_false, createdFolder, Except.toOption,
        map_some,
        filter_some, startsWith_folderId]
      rfl
    | some parent =>
      simp only [isSome_some, if_true]
      cases topFolder creates known parent with
      | none => rfl
      | some id =>
        simp only [createdFolder, Except.toOption, map_some, filter_some,
          startsWith_folderId, notTop]
        rfl

theorem collectInMembers_of_get? {candidates : List String} {members : List (String × Value)}
    {key text name : String} (held : Entries.get? key members = some (.string text))
    (isName : name ∈ target candidates text) : name ∈ collectInMembers candidates members := by
  induction members with
  | nil => cases held
  | cons mem rest ih =>
    rw [Entries.get?_cons] at held
    rw [collectInMembers, mem_append, mem_append]
    split at held
    · rw [Option.some.inj held, collectCreationReferences]
      exact .inl (.inr isName)
    · exact .inr (ih held)

theorem target_of_parent {value : Value} {parent : String} (isParent : parentOf value = some parent)
    {candidates : List String} (isCandidate : parent ∈ candidates) :
    parent ∈ findCreationReferences value candidates := by
  rw [parentOf, bind_eq_some_iff] at isParent
  obtain ⟨text, isText, names⟩ := isParent
  obtain ⟨child, held, isString⟩ := bind_eq_some_iff.mp isText
  cases child with
  | string written =>
    cases isString
    have isTarget : parent ∈ target candidates text := by
      split at names
      · next name isText =>
        cases names
        rw [target, isText]
        simp [isCandidate]
      · cases names
    cases value with
    | object members => exact collectInMembers_of_get? held isTarget
    | _ => cases held
  | _ => cases isString

variable (destroysFirst) in
theorem folders_conforms : (folders destroysFirst).Conforms .ok where
  depends creates others known earlier group closed cid inGroup := by
    obtain ⟨value, _, held, heldOther, ⟨⟩, targets⟩ := closed cid inGroup
    simp only [folders, held, heldOther]
    cases isParent : parentOf value with
    | none => rfl
    | some parent =>
      have sameTop : topFolder creates known parent = topFolder others earlier parent := by
        rcases targets parent (mem_toList.mpr isParent) with inside | same
        · obtain ⟨folder, _, isFolder, isOther, _⟩ := closed parent inside
          rw [topFolder, topFolder, isFolder, isOther]
        · rw [topFolder_eq destroysFirst, topFolder_eq destroysFirst, same]
      simp only [sameTop]
  needs creates known cid target object value held isValue refers unresolved := by
    cases isValue
    have parent := mem_toList.mp refers
    simp only [folders, held, parent]
    rw [topFolder_eq destroysFirst, unresolved]
    exact ⟨_, rfl⟩
  updateDepends record id patch resolve other same := by
    simp only [folders]
    cases isParent : parentOf patch with
    | none => rfl
    | some parent =>
      have equal := same parent (mem_toList.mpr isParent)
      simp only [all_some, equal]
  updateNeeds record id patch resolve target refers unresolved := by
    have parent := mem_toList.mp refers
    simp only [folders]
    split
    · exact ⟨_, rfl⟩
    · rw [parent, all_some, unresolved]
      exact ⟨_, rfl⟩
  shows creates known cid created verdict := by
    obtain ⟨mark, rfl⟩ := folders_create verdict
    exact ⟨_, rfl, rfl⟩
  distinct creates known cid _ other _ first second isFirst isSecond same := by
    obtain ⟨mark, rfl⟩ := folders_create isFirst
    obtain ⟨mark', rfl⟩ := folders_create isSecond
    exact folderId_inj same
  shaped value candidates target refers isCandidate :=
    target_of_parent (mem_toList.mp refers) isCandidate

end Folders

def nestedFolders : SetRequest Value where
  accountId := "a"
  create := some (.ofList [("c0", .object []), ("c1", folderIn "#c0")])
  destroy := some ["m1"]

def oneFolder : Records Unit := ⟨fun id => if id = "m1" then some () else none, 1⟩

def folderSetup (destroysFirst : Bool) (request : SetRequest Value) : Setup Value Unit where
  server := folders destroysFirst
  request := request
  toValue := .ok
  order _ refs := refs
  partitionOrder _ refs := refs
  executeChunk := (folders destroysFirst).call

theorem nestedFolders_sound : (folderSetup false nestedFolders).Sound where
  conforms := folders_conforms false
  updatesFirst := rfl
  references := by
    refine ⟨fun cid object value held isValue target refers => ?_, nofun⟩
    have mem := (mem_entries _).mpr held
    cases isValue
    have all : ∀ entry ∈ (nestedFolders.create.getD ∅).entries,
        ∀ target ∈ findCreationReferences entry.2 (nestedFolders.create.getD ∅).keys,
          target ∈ (parentOf entry.2).toList := by decide
    exact fun _ => all _ mem target refers
  serializes value := ⟨value, rfl⟩
  iterates _ _ _ := Iff.rfl
  partitionIterates _ _ _ := Iff.rfl
  answers _ _ _ _ _ ran := ran

theorem executeSetChunked_equals_nestedFolders :
    2 < totalItems nestedFolders ∧
    ∃ ours after theirs afterCall,
      (folderSetup false nestedFolders).execute 2 oneFolder = some (.ok ours, after) ∧
      (folderSetup false nestedFolders).call oneFolder = (.ok theirs, afterCall) ∧
      afterCall.record = after.record ∧
      SameOutcome (folderSetup false nestedFolders) theirs ours ∧
      (theirs.created.getD ∅).keys = ["c0", "c1"] := by
  have small : (folderSetup false nestedFolders).SmallCycles 2 := by
    intro component isScc
    have subset : component ⊆ ["c0", "c1"].toFinset := fun cid mem =>
      mem_toFinset.mpr (isScc.subset cid mem)
    exact (Finset.card_le_card subset).trans (by decide)
  have equals := @executeSetChunked_equals _ _ _ oneFolder 2 nestedFolders_sound (by decide)
  have called : (folderSetup false nestedFolders).call oneFolder =
      (.ok ((folders false).response nestedFolders ∅ oneFolder),
        ⟨((folders false).effectOf nestedFolders ∅ oneFolder.record).record, 2⟩) := rfl
  rcases equals.2 (fun _ _ _ _ => rfl) small _ _ called (by decide) (by decide) (by decide) with
    ⟨ours, after, ran, _⟩
  have many : 2 < totalItems nestedFolders := by decide
  obtain ⟨theirs, afterCall, again, record, outcome⟩ := equals.1 many ours after ran
  refine ⟨many, ours, after, theirs, afterCall, ran, again, record, outcome, ?_⟩
  rw [called] at again
  cases again
  decide

/-- Two folders. The first one is refused, because its parent does not exist. -/
def lostAnd (members : List (String × Value)) : SetRequest Value where
  accountId := "a"
  create := some (.ofList [("c0", folderIn "#lost"), ("c1", .object members)])

/-- Two folders, each with the name that a reference to the other one has. -/
def namedAlike : SetRequest Value where
  accountId := "a"
  create := some (.ofList [("c0", .object [("name", .string "#c1")]),
    ("c1", .object [("name", .string "#c0")])])

def updateAndDestroy : SetRequest Value where
  accountId := "a"
  update := some (.ofList [("m1", .object [("name", .string "new")])])
  destroy := some ["m1"]

/-- The responses in chunks of one item and to the single call. -/
def responses (destroysFirst : Bool) (request : SetRequest Value) :
    Option (SetResponse Value) × Option (SetResponse Value) :=
  (((folderSetup destroysFirst request).execute 1 oneFolder).bind (·.1.toOption),
    ((folderSetup destroysFirst request).call oneFolder).1.toOption)

def outcomeOf (response : SetResponse Value) : Option Value × Option SetError :=
  ((response.created.getD ∅).get? "c1", (response.notCreated.getD ∅).get? "c1")

/-- The server refuses `c0`. If `c1` refers to it, the client has its own error for `c1`.
If `c1` has the text `#c0` as its name, the server would create it, and the client
reports that it failed. Two folders that are named like references to each other are refused
for a cycle. A server that carries out the destroys first does not find the
folder to update, unless the update comes in an earlier chunk. -/
theorem executeSetChunked_differs :
    (∀ destroysFirst, (folders destroysFirst).Conforms .ok) ∧
    Prod.map (·.map outcomeOf) (·.map outcomeOf)
        (responses false (lostAnd [("parentId", .string "#c0")])) =
      (some (none, some (referenceFailed "c0")), some (none, some refused)) ∧
    Prod.map (·.map outcomeOf) (·.map outcomeOf)
        (responses false (lostAnd [("name", .string "#c0")])) =
      (some (none, some (referenceFailed "c0")),
        some (some (.object [("id", .string "tc1")]), none)) ∧
    ((folderSetup false namedAlike).execute 1 oneFolder).map (·.1.toOption.isSome) = some false ∧
    (responses false namedAlike).2.map (fun response =>
      ((response.created.getD ∅).keys, (response.notCreated.getD ∅).keys)) =
        some (["c0", "c1"], []) ∧
    Prod.map (·.map fun response => (response.updated.getD ∅).keys)
        (·.map fun response => (response.updated.getD ∅).keys)
        (responses true updateAndDestroy) = (some ["m1"], some []) := by
  refine ⟨folders_conforms, ?_, ?_, ?_, ?_, ?_⟩ <;> decide +kernel

end EvolutionJmap.Chunked
