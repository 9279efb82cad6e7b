import EvolutionJmap.Client.Mirror
import EvolutionJmap.ObjectSync.Basic

/-!
# Listings and deltas keep a cache in step

After a round of `getChanges` each cache entry shows its object at the moment of the
returned state or belongs to an object that has changed since, which the next delta
names.  After a listing the same holds, except for objects that were created after its
state was read.
-/

namespace EvolutionJmap

open ChangeFeed Interaction List Nat BTreeSet BTreeMap

/-! ## Reading the candidates -/

variable {since state : State}

namespace ObjectKind

variable {Object Item ε : Type} {lookups : Lookups} {kind : ObjectKind Object}
  {store : Store kind.toDataType} {ofClient : Error → ε} {client : Client} {own : Id}
  {render : Object → ClientM lookups Object ε Item} {start finish : Nat}
  {trace : Trace lookups Object}

/-- `item` is what rendering `object` gives in some run against the server. -/
def Rendered (store : Store kind.toDataType)
    (render : Object → ClientM lookups Object ε Item) (object : Object) (item : Item) :
    Prop :=
  ∃ start trace finish, store.Run start (render object) trace (.ok item)
    finish

theorem holds_ok {object : Object} {held : Bool} (ok : kind.holds object own = .ok held) :
    held = true ↔ kind.filed own object := by
  unfold holds at ok
  unfold DataType.filed
  split at ok
  · cases ok
  · next found =>
    cases ok
    simp [found]
  · next found =>
    cases ok
    simp [found]

theorem idOf_ok {object : Object} {id : Id} (ok : kind.idOf object = .ok id) :
    kind.id object = some id := by
  unfold idOf at ok
  split at ok
  · next found =>
    cases ok
    exact found
  · cases ok

theorem mapError_ok {α : Type} {result : Except Error α} {value : α}
    (ok : result.mapError ofClient = .ok value) : result = .ok value := by
  cases result with
  | error error => cases ok
  | ok given =>
    cases ok
    rfl

/-- The loop renders just the objects that are filed here, and removes just the
updated ones that are not. -/
theorem classifyObjects_run {updated : BTreeSet Id} (objects : List Object)
    {changed finalChanged : List Item} {removed finalRemoved : List Id}
    (run : store.Run start
      (kind.classifyObjects ofClient own updated render objects changed removed) trace
      (.ok (finalChanged, finalRemoved)) finish) :
    ∃ items ids, finalChanged = changed ++ items ∧ finalRemoved = removed ++ ids ∧
      (∀ item ∈ items, ∃ object ∈ objects, kind.filed own object ∧
        Rendered store render object item) ∧
      (∀ object ∈ objects, kind.filed own object → ∃ item ∈ items,
        Rendered store render object item) ∧
      ∀ id, id ∈ ids ↔ ∃ object ∈ objects, kind.id object = some id ∧
        ¬ kind.filed own object ∧ updated.contains id = true := by
  induction objects generalizing start trace changed removed with
  | nil =>
    cases run.done_ok
    exact ⟨[], [], by simp⟩
  | cons object objects ih =>
    obtain ⟨id, idOk, rest⟩ := Run.ofExcept_ok_bind run
    obtain ⟨held, heldOk, rest⟩ := Run.ofExcept_ok_bind rest
    have named := idOf_ok (mapError_ok idOk)
    have filed := holds_ok (mapError_ok heldOk)
    cases held with
    | true =>
      have isFiled := filed.mp rfl
      obtain ⟨item, middle, first, second, drawn, rest, -⟩ := Run.bind_ok rest
      obtain ⟨items, ids, rfl, rfl, sound, complete, removedIff⟩ := ih rest
      have isRendered : Rendered store render object item := ⟨_, _, _, drawn⟩
      refine ⟨item :: items, ids, by simp, rfl, ?_, ?_, ?_⟩
      · rw [forall_mem_cons]
        exact ⟨⟨object, mem_cons_self, isFiled, isRendered⟩, fun other mem =>
          (sound other mem).imp fun _ found => ⟨mem_cons_of_mem _ found.1, found.2⟩⟩
      · rw [forall_mem_cons]
        exact ⟨fun _ => ⟨item, mem_cons_self, isRendered⟩, fun source mem isSource =>
          (complete source mem isSource).imp fun _ found => ⟨mem_cons_of_mem _ found.1, found.2⟩⟩
      · intro other
        rw [removedIff other]
        simp [isFiled]
    | false =>
      have notFiled : ¬ kind.filed own object := fun isFiled => by
        cases filed.mpr isFiled
      simp only [Bool.false_eq_true, if_false] at rest
      split at rest
      · next wasUpdated =>
        obtain ⟨items, ids, rfl, rfl, sound, complete, removedIff⟩ := ih rest
        refine ⟨items, id :: ids, rfl, by simp, ?_, ?_, ?_⟩
        · exact fun item mem =>
            (sound item mem).imp fun _ found => ⟨mem_cons_of_mem _ found.1, found.2⟩
        · simpa [notFiled] using complete
        · intro other
          rw [mem_cons, removedIff, exists_mem_cons_iff, named, Option.some.injEq]
          refine or_congr_left ⟨?_, fun given => given.1.symm⟩
          rintro rfl
          exact ⟨rfl, notFiled, wasUpdated⟩
      · next wasKept =>
        obtain ⟨items, ids, rfl, rfl, sound, complete, removedIff⟩ := ih rest
        refine ⟨items, ids, rfl, rfl, ?_, ?_, ?_⟩
        · exact fun item mem =>
            (sound item mem).imp fun _ found => ⟨mem_cons_of_mem _ found.1, found.2⟩
        · simpa [notFiled] using complete
        · intro other
          rw [removedIff, exists_mem_cons_iff, named, Option.some.injEq]
          refine (or_iff_right ?_).symm
          rintro ⟨rfl, -, wasUpdated⟩
          exact wasKept wasUpdated

/-- What `classify` reports, with the moment `fetch id` at which a candidate was
read. -/
structure Classified (store : Store kind.toDataType) (own : Id)
    (render : Object → ClientM lookups Object ε Item) (delta : ChangeSet)
    (changes : Changes Item) (fetch : Id → Nat) : Prop where
  newState : changes.newState = delta.newState
  changed : ∀ item ∈ changes.changed, ∃ id object,
    (delta.created.contains id = true ∨ delta.updated.contains id = true) ∧
      store.history.value (fetch id) id = some object ∧ kind.filed own object ∧
      Rendered store render object item
  complete : ∀ id object,
    (delta.created.contains id = true ∨ delta.updated.contains id = true) →
      store.history.value (fetch id) id = some object → kind.filed own object →
      ∃ item ∈ changes.changed, Rendered store render object item
  removed : ∀ id, id ∈ changes.removed ↔ delta.destroyed.contains id = true ∨
    (delta.updated.contains id = true ∧
      ∀ object, store.history.value (fetch id) id = some object → ¬ kind.filed own object)

theorem classify_run {delta : ChangeSet} {changes : Changes Item}
    (run : store.Run start
      (kind.classify ofClient delta own (kind.get client) render) trace (.ok changes)
      finish) :
    ∃ fetch : Id → Nat, (∀ id, start ≤ fetch id ∧ fetch id ≤ finish) ∧
      Classified store own render delta changes fetch := by
  have startLe := run.le store.monotone
  have candidate : ∀ id, id ∈ (BTreeSet.union delta.created delta.updated).keys ↔
      delta.created.contains id = true ∨ delta.updated.contains id = true := by
    intro id
    rw [mem_keys_iff, contains_union]
  simp only [classify] at run
  split at run
  · next empty =>
    cases run.done_ok
    have noCandidate : ∀ id, ¬ (delta.created.contains id = true ∨
        delta.updated.contains id = true) := by
      intro id mem
      rw [← candidate, empty] at mem
      cases mem
    refine ⟨fun _ => start, fun _ => ⟨le_rfl, startLe⟩, rfl, nofun, ?_, ?_⟩
    · intro id object mem
      exact absurd mem (noCandidate id)
    · intro id
      rw [mem_keys_iff]
      constructor
      · exact .inl
      · intro cases
        exact cases.resolve_right fun updated => noCandidate id (.inr updated.1)
  · obtain ⟨response, middle, first, second, got, rest, -⟩ := Run.bind_ok run
    obtain ⟨⟨changed, removed⟩, last, third, fourth, filed, ended, -⟩ := Run.bind_ok rest
    have got := Run.mapError_ok got
    cases ended.done_ok
    obtain ⟨fetch, times, list, notFound⟩ :=
      getChunked_run_nodup (keys_nodup _) got
    have middleLe := rest.le store.monotone
    obtain ⟨items, ids, rfl, rfl, sound, complete, removedIff⟩ := classifyObjects_run _ filed
    refine ⟨fetch, fun id => ⟨(times id).1, (times id).2.trans middleLe⟩, rfl, ?_, ?_, ?_⟩
    · intro item mem
      obtain ⟨object, inList, isFiled, drawn⟩ := sound item mem
      obtain ⟨id, isCandidate, value⟩ := (list object).mp inList
      exact ⟨id, object, (candidate id).mp isCandidate, value, isFiled, drawn⟩
    · intro id object isCandidate value isFiled
      exact complete object
        ((list object).mpr ⟨id, (candidate id).mpr isCandidate, value⟩) isFiled
    · intro id
      simp only [mem_append, removedIff, mem_keys_iff, mem_filter, notFound, candidate]
      constructor
      · intro cases
        rcases cases with (destroyed | ⟨object, inList, named, outside, updated⟩) |
          ⟨⟨-, absent⟩, updated⟩
        · exact .inl destroyed
        · obtain ⟨other, -, value⟩ := (list object).mp inList
          have same := store.id_eq value
          rw [named] at same
          cases same
          refine .inr ⟨updated, fun present presentEq => ?_⟩
          rw [value] at presentEq
          cases presentEq
          exact outside
        · refine .inr ⟨updated, fun present presentEq => ?_⟩
          rw [absent] at presentEq
          cases presentEq
      · intro cases
        rcases cases with destroyed | ⟨updated, outside⟩
        · exact .inl (.inl destroyed)
        · cases value : store.history.value (fetch id) id with
          | none => exact .inr ⟨⟨.inr updated, rfl⟩, updated⟩
          | some object =>
            exact .inl (.inr ⟨object,
              (list object).mpr ⟨id, (candidate id).mpr (.inr updated), value⟩,
              store.id_eq value, outside object value, updated⟩)

/-! ## One round -/

variable {uid : Item → Id} {delta : ChangeSet} {changes : Changes Item} {origin fetch : Id → Nat}
  {asked now : Nat} {cache : BTreeMap Id Item}

/-- An item bears the id of its object. -/
def NamesItems (store : Store kind.toDataType)
    (render : Object → ClientM lookups Object ε Item) (uid : Item → Id) : Prop :=
  ∀ object item, Rendered store render object item → kind.id object = some (uid item)

section

variable (classified : Classified store own render delta changes fetch)
  (names : NamesItems store render uid) {id : Id}

include classified names

theorem Classified.of_uid {item : Item} (mem : item ∈ changes.changed) (named : uid item = id) :
    (delta.created.contains id = true ∨ delta.updated.contains id = true) ∧
      ∃ object, store.history.value (fetch id) id = some object ∧ kind.filed own object ∧
        Rendered store render object item := by
  obtain ⟨other, object, isCandidate, value, filed, drawn⟩ := classified.changed item mem
  have same := store.id_eq value
  rw [names object item drawn, named] at same
  cases same
  exact ⟨isCandidate, object, value, filed, drawn⟩

/-- The entry of a candidate is what was read, except that a created object outside the
collection is taken for one that never was in the cache. -/
theorem Classified.entry_candidate
    (isCandidate : delta.created.contains id = true ∨ delta.updated.contains id = true)
    (notDestroyed : delta.destroyed.contains id ≠ true) :
    Shows kind.toDataType own (Rendered store render) (store.history.value (fetch id) id)
      ((changes.apply uid cache).get? id) ∨
    delta.updated.contains id ≠ true ∧
      (∀ object, store.history.value (fetch id) id = some object → ¬ kind.filed own object) ∧
      (changes.apply uid cache).get? id = cache.get? id := by
  have removedIff := classified.removed id
  rw [Changes.apply, get?_eraseAll]
  rcases get?_insertAll uid (fun item => item) changes.changed cache id with
    ⟨item, mem, named, found⟩ | ⟨others, found⟩
  · obtain ⟨-, object, value, filed, drawn⟩ := classified.of_uid names mem named
    have kept : id ∉ changes.removed := by
      rw [removedIff]
      intro removed
      exact (removed.resolve_left notDestroyed).2 object value filed
    rw [if_neg kept]
    exact .inl (.inl ⟨object, item, value, filed, found, drawn⟩)
  · have outside : ∀ object, store.history.value (fetch id) id = some object →
        ¬ kind.filed own object := by
      intro object value filed
      obtain ⟨item, mem, drawn⟩ := classified.complete id object isCandidate value filed
      have same := names object item drawn
      rw [store.id_eq value] at same
      exact others item mem (Option.some.inj same).symm
    by_cases wasUpdated : delta.updated.contains id = true
    · rw [if_pos (removedIff.mpr (.inr ⟨wasUpdated, outside⟩))]
      exact .inl (shows_of_not_filed outside)
    · rw [if_neg (by simp [removedIff, notDestroyed, wasUpdated])]
      exact .inr ⟨wasUpdated, outside, found⟩

theorem Classified.entry_silent
    (silent : ¬ (delta.created.contains id = true ∨ delta.updated.contains id = true)) :
    (changes.apply uid cache).get? id =
      if delta.destroyed.contains id = true then none else cache.get? id := by
  have removedIff : id ∈ changes.removed ↔ delta.destroyed.contains id = true := by
    rw [classified.removed]
    exact or_iff_left fun updated => silent (.inr updated.1)
  rw [Changes.apply, get?_eraseAll]
  simp only [removedIff]
  rcases get?_insertAll uid (fun item => item) changes.changed cache id with
    ⟨item, mem, named, -⟩ | ⟨-, found⟩
  · exact absurd (classified.of_uid names mem named).1 silent
  · rw [found]

/-- One object through one delta. An entry of an object that did not exist at the
origin is only repaired if the object is in the collection when it is read. -/
theorem Classified.round (describes : delta.Describes store origin asked) (seen : now ≤ asked)
    (fetchLe : asked ≤ fetch id)
    (tracks : Tracks (Shows kind.toDataType own (Rendered store render)) store.history id
      (origin id) now (cache.get? id))
    (newcomer : store.history.value (origin id) id = none → cache.get? id ≠ none →
      store.history.value asked id ≠ none ∧
        ∃ object, store.history.value (fetch id) id = some object ∧
          kind.filed own object) :
    TracksKnown (Shows kind.toDataType own (Rendered store render)) store.history id asked
      (fetch id) ((changes.apply uid cache).get? id) := by
  refine describes.round seen fetchLe tracks (fun atOrigin held => (newcomer atOrigin held).1)
    ?_ ?_ (classified.entry_silent names)
  · intro isCreated notDestroyed atOrigin
    rcases classified.entry_candidate names (.inl isCreated) notDestroyed with
      shown | ⟨-, outside, same⟩
    · exact shown
    · have absent : cache.get? id = none := by
        by_contra held
        obtain ⟨object, value, filed⟩ := (newcomer atOrigin held).2
        exact outside object value filed
      rw [same, absent]
      exact shows_of_not_filed outside
  · intro isUpdated notDestroyed
    exact (classified.entry_candidate names (.inr isUpdated) notDestroyed).resolve_right
      fun kept => kept.1 isUpdated

end

/-- A round of `getChanges` describes the window from the asked state to its last
page, and reads the candidates afterwards. -/
theorem getChanges_run (run : store.Run start
      (kind.getChanges ofClient client own render since) trace (.ok changes) finish) :
    ∃ delta asked fetch, start ≤ asked ∧ (∀ id, asked ≤ fetch id ∧ fetch id ≤ finish) ∧
      delta.Describes store (store.cut since) asked ∧
      Classified store own render delta changes fetch := by
  obtain ⟨delta, middle, first, second, asked, rest, -⟩ := Run.bind_ok run
  obtain ⟨moment, startLe, momentLe, describes⟩ := allChanges_run (Run.mapError_ok asked)
  obtain ⟨fetch, times, classified⟩ := classify_run rest
  exact ⟨delta, moment, fetch, startLe,
    fun id => ⟨momentLe.trans (times id).1, (times id).2⟩, describes, classified⟩

/-! ## Sequences of rounds -/

/-- `getChanges` with what the meta backend does with its result. -/
def syncer (kind : ObjectKind Object) (ofClient : Error → ε) (client : Client) (own : Id)
    (render : Object → ClientM lookups Object ε Item) (uid : Item → Id) :
    Syncer lookups Object ε (Changes Item) Item where
  call replica := kind.getChanges ofClient client own render replica.state
  apply changes replica := ⟨changes.newState, changes.apply uid replica.cache⟩

/-! ## Listing and then one round -/

/-- What other clients must leave alone between a listing that runs from `start` to `middle`
and a delta at `quiet`: nothing leaves the collection between two query pages, and what was
created after the start and is in the collection during the listing is in it at the
delta. -/
structure Undisturbed (store : Store kind.toDataType) (own : Id)
    (trace : Trace lookups Object) (start middle quiet : Nat) : Prop where
  pages : Steady store own trace
  newcomers : ∀ id moment, start ≤ moment → moment ≤ middle →
    store.history.Unborn id start → id ∈ store.listing own moment → id ∈ store.listing own quiet

section

variable (names : NamesItems store render uid)

include names

theorem getChanges_inStep {replica : Replica Item} (run : store.Run start
      (kind.getChanges ofClient client own render replica.state) trace (.ok changes) finish)
    (seen : now ≤ start) (inStep : InStep own (Rendered store render) store replica now) :
    InStep own (Rendered store render) store
        ⟨changes.newState, changes.apply uid replica.cache⟩ finish ∧
      (start = finish → changes.newState = store.stateAt finish) := by
  obtain ⟨delta, asked, fetch, askedGe, times, describes, classified⟩ := getChanges_run run
  have state : changes.newState = store.stateAt asked :=
    classified.newState.trans describes.newState
  constructor
  · intro id
    dsimp only
    rw [state, store.cut_stateAt]
    apply TracksKnown.mono _ (times id).2
    exact classified.round names describes (seen.trans askedGe) (times id).1 (inStep id).tracks
      fun atOrigin held => absurd (inStep.no_entry atOrigin) held
  · intro quiet
    have askedLe : asked ≤ finish := (times "").1.trans (times "").2
    rw [state, le_antisymm askedLe (quiet ▸ askedGe)]

/-- After any sequence of rounds whose last one met a server at rest, the cache
holds the collection of that moment. -/
theorem rounds_mirror {replica final : Replica Item} {episodes : List (Episode lookups Object)}
    {last : Episode lookups Object}
    (rounds : Rounds store (kind.syncer ofClient client own render uid) start replica
      episodes finish final) (seen : now ≤ start)
    (inStep : InStep own (Rendered store render) store replica now)
    (isLast : episodes.getLast? = some last) (quiet : last.start = last.finish) :
    Mirrors kind.toDataType own (Rendered store render) store (fun _ => last.finish)
      final.cache := by
  refine rounds.mirrors (motive := fun replica now _ => InStep _ _ store replica now) ?_ seen
    inStep isLast quiet
  intro _ _ _ _ _ _ _ inStep seen run
  obtain ⟨inStep, current⟩ := getChanges_inStep names run seen inStep
  exact ⟨inStep, fun quiet => inStep.mirrors (current quiet)⟩

theorem listExisting_run {items : List Item} (run : store.Run start
      (kind.listExisting ofClient client own render) trace (.ok (state, items)) finish)
    (steady : Steady store own trace) :
    ∃ read, start ≤ read ∧ read ≤ finish ∧ state = store.stateAt read ∧
      ∀ id, Listed store own (Rendered store render) read finish id
        ((cacheOf uid items).get? id) := by
  obtain ⟨given, afterState, _, _, stateRun, fromQuery, traceEq⟩ := Run.bind_ok run
  obtain ⟨ids, afterQuery, _, _, queryRun, fromGet, queryTraceEq⟩ := Run.bind_ok fromQuery
  obtain ⟨response, afterGet, _, _, getRun, fromDraw, -⟩ := Run.bind_ok fromGet
  obtain ⟨drawn, afterDraw, _, _, drawRun, ended, -⟩ := Run.bind_ok fromDraw
  cases ended.done_ok
  obtain ⟨states, afterStates, _, _, statesRun, stateDone, -⟩ :=
    Run.bind_ok (Run.mapError_ok stateRun)
  obtain ⟨read, readGe, readLe, -, readState, -⟩ := getChunked_single statesRun (zero_le 1)
  have stateOutcome := (Run.done_iff.mp stateDone).2.1
  cases stateOutcome
  have afterStatesLe := stateDone.le store.monotone
  have queryLe := queryRun.le store.monotone
  have getLe := getRun.le store.monotone
  have drawLe := fromDraw.le store.monotone
  obtain ⟨querySound, queryComplete⟩ := queryEveryId_run (Run.mapError_ok queryRun)
  obtain ⟨fetched, rfl, times, reads⟩ := getChunked_run (Run.mapError_ok getRun)
  obtain ⟨itemSound, itemComplete⟩ := Run.forEach_ok drawRun
  refine ⟨read, readGe, by omega, readState, listed_cacheOf (by omega) ⟨queryLe, getLe, drawLe⟩
    names querySound ?_ times reads.list itemSound ?_⟩
  · exact queryComplete (steady.subset fun exchange mem => by simp [traceEq, queryTraceEq, mem])
  · intro object inList
    obtain ⟨item, mem, drawn⟩ := itemComplete object inList
    exact ⟨item, mem, names object item drawn⟩

/-- A listing and then a delta from its state, on a server at rest, leave the
collection in the cache, if other clients did not disturb the listing. -/
theorem listExisting_getChanges {items : List Item} {middle quiet : Nat}
    {deltaTrace : Trace lookups Object}
    (listing : store.Run start
      (kind.listExisting ofClient client own render) trace (.ok (state, items)) middle)
    (later : middle ≤ quiet) (round : store.Run quiet
      (kind.getChanges ofClient client own render state) deltaTrace (.ok changes) quiet)
    (undisturbed : Undisturbed store own trace start middle quiet) :
    Mirrors kind.toDataType own (Rendered store render) store (fun _ => quiet)
      (changes.apply uid (cacheOf uid items)) := by
  obtain ⟨read, readGe, readLe, rfl, listed⟩ :=
    listExisting_run names listing undisturbed.pages
  obtain ⟨delta, asked, fetch, askedGe, times, describes, classified⟩ := getChanges_run round
  intro id
  have fetchEq : fetch id = quiet := by
    have bounds := times id
    omega
  have askedEq : asked = quiet := by
    have bounds := times id
    omega
  subst askedEq
  have tracks := (listed id).tracks
  rw [← store.cut_stateAt read id] at tracks
  have settled := classified.round names describes later (le_of_eq fetchEq.symm) tracks
    (fun atRead held => by
      rw [store.cut_stateAt] at atRead
      obtain ⟨item, entry⟩ := Option.ne_none_iff_exists'.mp held
      obtain ⟨⟨queried, queriedGe, queriedLe, mem⟩, -⟩ := (listed id).sound item entry
      obtain ⟨present, presentValue, -⟩ := store.mem_listing.mp mem
      have unborn : store.history.Unborn id read :=
        History.unborn_of_later queriedGe atRead (by simp [presentValue])
      have final := undisturbed.newcomers id queried (readGe.trans queriedGe) queriedLe
        (unborn.earlier readGe) mem
      obtain ⟨object, value, filed⟩ := store.mem_listing.mp final
      rw [fetchEq]
      exact ⟨by simp [value], object, value, filed⟩)
  rw [fetchEq] at settled
  exact settled.settled

end

end ObjectKind

end EvolutionJmap
