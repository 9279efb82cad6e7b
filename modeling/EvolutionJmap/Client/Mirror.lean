import EvolutionJmap.Client.Query

/-!
# Caches of a collection

What it means that a client's cache shows a collection of the server, and the
sequences of synchronisation calls that keep it up to date.  `Rounds` lets other
clients act at any point, also in the middle of a call.
-/

namespace EvolutionJmap

open ChangeFeed Interaction List

/-! ## One cache entry -/

section Entry

variable {Object Item : Type} (data : DataType Object) (own : Id) (rendered : Object → Item → Prop)

/-- The entry is a rendering of the object if the collection has it, and there is
no entry otherwise. -/
def Shows (value : Option Object) (entry : Option Item) : Prop :=
  (∃ object item, value = some object ∧ data.filed own object ∧
    entry = some item ∧ rendered object item) ∨
  ((∀ object, value = some object → ¬ data.filed own object) ∧ entry = none)

/-- The cache holds the collection of a moment: the same ids, each with a
rendering of its object. -/
def Mirrors (store : Store data) (moment : Id → Nat) (cache : BTreeMap Id Item) : Prop :=
  ∀ id, Shows data own rendered (store.history.value (moment id) id) (cache.get? id)

variable {data own rendered}

theorem shows_none {entry : Option Item} :
    Shows data own rendered none entry ↔ entry = none := by
  constructor
  · intro shown
    rcases shown with ⟨_, _, impossible, _⟩ | ⟨_, absent⟩
    · cases impossible
    · exact absent
  · intro absent
    exact .inr ⟨nofun, absent⟩

/-- Before anything is there, the empty cache shows the collection. -/
theorem mirrors_nothing {store : Store data} {moment : Id → Nat}
    (nothing : ∀ id, store.history.value (moment id) id = none) :
    Mirrors data own rendered store moment ∅ := by
  intro id
  rw [nothing]
  exact shows_none.mpr rfl

theorem Shows.unique {value : Option Object} {one other : Option Item}
    (same : ∀ object first second, rendered object first → rendered object second →
      first = second)
    (shows : Shows data own rendered value one) (shown : Shows data own rendered value other) :
    one = other := by
  rcases shows with ⟨object, item, rfl, filed, rfl, drawn⟩ | ⟨outside, rfl⟩
  · rcases shown with ⟨_, second, held, -, rfl, drawnToo⟩ | ⟨outside, -⟩
    · cases held
      rw [same object item second drawn drawnToo]
    · exact absurd filed (outside object rfl)
  · rcases shown with ⟨object, -, held, filed, -⟩ | ⟨-, rfl⟩
    · exact absurd filed (outside object held)
    · rfl

theorem shows_of_not_filed {value : Option Object}
    (outside : ∀ object, value = some object → ¬ data.filed own object) :
    Shows data own rendered value none :=
  .inr ⟨outside, rfl⟩

end Entry

/-! ## Cache updates -/

section Cache

variable {Item : Type}

theorem get?_eraseAll (removed : List Id) (cache : BTreeMap Id Item) (id : Id) :
    (removed.foldl BTreeMap.erase cache).get? id =
      if id ∈ removed then none else cache.get? id := by
  induction removed generalizing cache with
  | nil => simp
  | cons first removed ih =>
    rw [foldl_cons, ih, BTreeMap.get?_erase]
    by_cases here : id = first <;> by_cases later : id ∈ removed <;> simp [here, later]

def cacheOf (uid : Item → Id) (items : List Item) : BTreeMap Id Item :=
  items.foldl (fun cache item => cache.insert (uid item) item) ∅

theorem get?_cacheOf (uid : Item → Id) (items : List Item) (id : Id) :
    (∃ item ∈ items, uid item = id ∧ (cacheOf uid items).get? id = some item) ∨
      ((∀ item ∈ items, uid item ≠ id) ∧ (cacheOf uid items).get? id = none) :=
  BTreeMap.get?_insertAll uid (fun item => item) items ∅ id

end Cache

/-! ## Listings and deltas -/

section Listing

variable {Object Item : Type} {data : DataType Object} {store : Store data} {own id : Id}
  {rendered : Object → Item → Prop} {read finish : Nat} {entry : Option Item}

/-- What a listing that started at `read` makes of one object: an entry was read
from a member of the query's results, and a permanent member has an entry. -/
structure Listed (store : Store data) (own : Id) (rendered : Object → Item → Prop)
    (read finish : Nat) (id : Id) (entry : Option Item) : Prop where
  sound : ∀ item, entry = some item →
    (∃ moment, read ≤ moment ∧ moment ≤ finish ∧ id ∈ store.listing own moment) ∧
    ∃ moment object, read ≤ moment ∧ moment ≤ finish ∧
      store.history.value moment id = some object ∧ rendered object item
  complete : entry = none →
    ¬ ∀ moment, read ≤ moment → moment ≤ finish → id ∈ store.listing own moment

theorem Listed.mono {later : Nat} (listed : Listed store own rendered read finish id entry)
    (le : finish ≤ later) : Listed store own rendered read later id entry where
  sound item found := by
    rcases listed.sound item found with
      ⟨⟨queried, queriedGe, queriedLe, mem⟩, moment, object, momentGe, momentLe, drawn⟩
    exact ⟨⟨queried, queriedGe, queriedLe.trans le, mem⟩, moment, object, momentGe,
      momentLe.trans le, drawn⟩
  complete absent present :=
    listed.complete absent fun moment momentGe momentLe =>
      present moment momentGe (momentLe.trans le)

/-- After a listing an entry shows its object as it was when the state was read,
or the object changed since. -/
theorem Listed.tracks (listed : Listed store own rendered read finish id entry) :
    Tracks (Shows data own rendered) store.history id read finish entry := by
  by_cases changed : store.history.Changed id read finish
  · exact .inr changed
  · -- nothing happened to the object, so all moments of the listing agree on it
    have constant : ∀ moment, read ≤ moment → moment ≤ finish →
        store.history.value moment id = store.history.value read id :=
      fun moment readLe le => History.value_eq_of_not_changed readLe
        fun earlier => changed (earlier.mono le_rfl le)
    left
    cases found : entry with
    | some item =>
      obtain ⟨⟨queried, queriedGe, queriedLe, mem⟩, moment, object, momentGe, momentLe,
        value, drawn⟩ := listed.sound item found
      obtain ⟨present, presentValue, filed⟩ := store.mem_listing.mp mem
      rw [constant moment momentGe momentLe] at value
      rw [constant queried queriedGe queriedLe, value] at presentValue
      cases presentValue
      exact .inl ⟨object, item, value, filed, rfl, drawn⟩
    | none =>
      apply shows_of_not_filed
      intro object value filed
      apply listed.complete found
      intro moment momentGe momentLe
      refine store.mem_listing.mpr ⟨object, ?_, filed⟩
      rw [constant moment momentGe momentLe, value]

theorem listed_cacheOf {uid : Item → Id} {fetched : List (Id × Nat)} {objects : List Object}
    {items : List Item} {opened closed last : Nat} (opens : read ≤ opened)
    (closes : opened ≤ closed ∧ closed ≤ last ∧ last ≤ finish)
    (names : ∀ object item, rendered object item → data.id object = some (uid item))
    (queried : ∀ id ∈ fetched.map Prod.fst,
      ∃ moment, opened ≤ moment ∧ moment ≤ closed ∧ id ∈ store.listing own moment)
    (complete : ∀ id, (∀ moment, opened ≤ moment → moment ≤ closed →
      id ∈ store.listing own moment) → id ∈ fetched.map Prod.fst)
    (times : ∀ given ∈ fetched, closed ≤ given.2 ∧ given.2 ≤ last)
    (reads : ∀ object, object ∈ objects ↔
      ∃ given ∈ fetched, store.history.value given.2 given.1 = some object)
    (sound : ∀ item ∈ items, ∃ object ∈ objects, rendered object item)
    (drawn : ∀ object ∈ objects, ∃ item ∈ items, data.id object = some (uid item)) (id : Id) :
    Listed store own rendered read finish id ((cacheOf uid items).get? id) := by
  constructor
  · intro item found
    rcases get?_cacheOf uid items id with ⟨last, mem, named, entry⟩ | ⟨-, absent⟩
    · rw [entry] at found
      cases found
      obtain ⟨object, inObjects, isRendered⟩ := sound item mem
      obtain ⟨⟨given, moment⟩, isRead, value⟩ := (reads object).mp inObjects
      have sameId := names object item isRendered
      rw [store.id_eq value, named] at sameId
      cases sameId
      obtain ⟨asked, askedGe, askedLe, listed⟩ := queried _ (mem_map_of_mem isRead)
      have bounds := times _ isRead
      exact ⟨⟨asked, by omega, by omega, listed⟩, moment, object, by omega, by omega, value,
        isRendered⟩
    · rw [absent] at found
      cases found
  · intro absent present
    obtain ⟨⟨_, moment⟩, isRead, rfl⟩ := mem_map.mp
      (complete id fun moment _ _ => present moment (by omega) (by omega))
    have bounds := times _ isRead
    obtain ⟨object, value, -⟩ := store.mem_listing.mp (present moment (by omega) (by omega))
    obtain ⟨item, mem, sameId⟩ := drawn object ((reads object).mpr ⟨_, isRead, value⟩)
    rw [store.id_eq value] at sameId
    rcases get?_cacheOf uid items _ with ⟨last, -, -, entry⟩ | ⟨others, -⟩
    · rw [entry] at absent
      cases absent
    · exact others item mem (Option.some.inj sameId).symm

/-- One object through one delta that says what it does to entries: a created or updated
object is read again, a destroyed one loses its entry, every other one keeps it. -/
theorem ChangeSet.Describes.round {delta : ChangeSet} {origin : Id → Nat} {asked now fetch : Nat}
    {next : Option Item}
    (describes : delta.Describes store origin asked) (seen : now ≤ asked) (fetchLe : asked ≤ fetch)
    (tracks : Tracks (Shows data own rendered) store.history id (origin id) now entry)
    (survives : store.history.value (origin id) id = none → entry ≠ none →
      store.history.value asked id ≠ none)
    (onCreated : delta.created.contains id = true → delta.destroyed.contains id ≠ true →
      store.history.value (origin id) id = none →
      Shows data own rendered (store.history.value fetch id) next)
    (onUpdated : delta.updated.contains id = true → delta.destroyed.contains id ≠ true →
      Shows data own rendered (store.history.value fetch id) next)
    (onSilent : ¬ (delta.created.contains id = true ∨ delta.updated.contains id = true) →
      next = if delta.destroyed.contains id = true then none else entry) :
    TracksKnown (Shows data own rendered) store.history id asked fetch next := by
  obtain ⟨marks, reports, created, updated, destroyed⟩ := describes.marks id
  apply Tracks.round (describes.origin_le id) seen fetchLe reports tracks
  · intro notShown atOrigin
    apply survives atOrigin
    intro absent
    rw [atOrigin, absent] at notShown
    exact notShown (shows_none.mpr rfl)
  · intro isCreated notDestroyed
    exact onCreated (created.mpr ⟨isCreated, notDestroyed⟩) (by simp [destroyed, notDestroyed])
      (reports.of_created isCreated notDestroyed).1.value
  · intro notCreated isUpdated notDestroyed
    exact onUpdated (updated.mpr ⟨notCreated, isUpdated, notDestroyed⟩)
      (by simp [destroyed, notDestroyed])
  · intro notCreated isDestroyed
    rw [onSilent (by simp [created, updated, isDestroyed]),
      if_pos (destroyed.mpr ⟨notCreated, isDestroyed⟩)]
    exact shows_none.mpr rfl
  · intro isCreated isDestroyed
    rw [onSilent (by simp [created, updated, isDestroyed]), if_neg (by simp [destroyed, isCreated])]
  · intro notCreated notUpdated notDestroyed
    rw [onSilent (by simp [created, updated, notCreated, notUpdated]),
      if_neg (by simp [destroyed, notDestroyed])]

end Listing

/-! ## Sequences of calls -/

/-- The state of the last call and the cache it left. -/
structure Replica (Item : Type) where
  state : State
  cache : BTreeMap Id Item

/-- A synchronisation call and what the caller does with its result. -/
structure Syncer (lookups : Lookups) (Object ε Result Item : Type) where
  call : Replica Item → ClientM lookups Object ε Result
  apply : Result → Replica Item → Replica Item

/-- One successful call. -/
structure Episode (lookups : Lookups) (Object : Type) where
  start : Nat
  trace : Trace lookups Object
  finish : Nat

def Episode.Queried {lookups : Lookups} {Object : Type} (episode : Episode lookups Object) :
    Prop :=
  ∃ exchange ∈ episode.trace, exchange.request.isQuery = true

variable {lookups : Lookups} {Object ε Result Item : Type} {data : DataType Object}

/-- A sequence of calls, each from the replica the previous one left. A call that
fails leaves the replica as it is. Other clients act between and during calls. -/
inductive Rounds (store : Store data) (syncer : Syncer lookups Object ε Result Item) :
    Nat → Replica Item → List (Episode lookups Object) → Nat → Replica Item → Prop where
  | rest {now : Nat} {replica : Replica Item} :
      Rounds store syncer now replica [] now replica
  | wait {now finish : Nat} {replica final : Replica Item}
      {episodes : List (Episode lookups Object)} :
      Rounds store syncer (now + 1) replica episodes finish final →
      Rounds store syncer now replica episodes finish final
  | failed {now next finish : Nat} {replica final : Replica Item} {error : ε}
      {trace : Trace lookups Object}
      {episodes : List (Episode lookups Object)} :
      store.Run now (syncer.call replica) trace (.error error) next →
      Rounds store syncer next replica episodes finish final →
      Rounds store syncer now replica episodes finish final
  | synced {now next finish : Nat} {replica final : Replica Item} {result : Result}
      {trace : Trace lookups Object}
      {episodes : List (Episode lookups Object)} :
      store.Run now (syncer.call replica) trace (.ok result) next →
      Rounds store syncer next (syncer.apply result replica) episodes finish final →
      Rounds store syncer now replica (⟨now, trace, next⟩ :: episodes) finish final

section

variable {store : Store data} {syncer : Syncer lookups Object ε Result Item} {own : Id}
  {rendered : Object → Item → Prop} {now start finish : Nat} {replica final : Replica Item}

theorem Rounds.eq_of_nil (rounds : Rounds store syncer now replica [] finish final) :
    final = replica := by
  generalize noEpisode : ([] : List (Episode lookups Object)) = episodes at rounds
  induction rounds with
  | rest => rfl
  | wait _ ih => exact ih noEpisode
  | failed _ _ ih => exact ih noEpisode
  | synced => cases noEpisode

/-- After any sequence of calls whose last one met a server at rest, the cache holds the
collection of that moment, if each call keeps `motive`, which speaks of the replica and of the
calls still to come, and a call at rest leaves the collection in the cache. -/
theorem Rounds.mirrors {motive : Replica Item → Nat → List (Episode lookups Object) → Prop}
    (refresh : ∀ {replica : Replica Item} {now start finish : Nat} {trace : Trace lookups Object}
      {result : Result} {episodes : List (Episode lookups Object)},
      motive replica now (⟨start, trace, finish⟩ :: episodes) → now ≤ start →
      store.Run start (syncer.call replica) trace (.ok result) finish →
      motive (syncer.apply result replica) finish episodes ∧
        (start = finish → Mirrors data own rendered store (fun _ => finish)
          (syncer.apply result replica).cache))
    {episodes : List (Episode lookups Object)} {last : Episode lookups Object}
    (rounds : Rounds store syncer start replica episodes finish final) (seen : now ≤ start)
    (holds : motive replica now episodes) (isLast : episodes.getLast? = some last)
    (quiet : last.start = last.finish) :
    Mirrors data own rendered store (fun _ => last.finish) final.cache := by
  induction rounds generalizing now with
  | rest => cases isLast
  | wait _ ih => exact ih (Nat.le_succ_of_le seen) holds isLast
  | failed run _ ih => exact ih (seen.trans (run.le store.monotone)) holds isLast
  | synced run rest ih =>
    next episodes =>
    obtain ⟨holds, mirrors⟩ := refresh holds seen run
    cases episodes with
    | cons episode episodes =>
      rw [getLast?_cons_cons] at isLast
      exact ih le_rfl holds isLast
    | nil =>
      cases isLast
      rw [rest.eq_of_nil]
      exact mirrors quiet

/-- Each entry shows its object at the state's moment, or the object existed then and has
changed since. -/
def InStep (own : Id) (rendered : Object → Item → Prop) (store : Store data)
    (replica : Replica Item) (now : Nat) : Prop :=
  ∀ id, TracksKnown (Shows data own rendered) store.history id (store.cut replica.state id) now
    (replica.cache.get? id)

variable (inStep : InStep own rendered store replica now)

include inStep

theorem InStep.mirrors (current : replica.state = store.stateAt now) :
    Mirrors data own rendered store (fun _ => now) replica.cache := by
  intro id
  have tracks := inStep id
  rw [current, store.cut_stateAt] at tracks
  exact tracks.settled

/-- An object that did not exist at the state's moment has no entry. -/
theorem InStep.no_entry {id : Id}
    (atState : store.history.value (store.cut replica.state id) id = none) :
    replica.cache.get? id = none := by
  rcases inStep id with shown | stale
  · rw [atState] at shown
    exact shows_none.mp shown
  · exact absurd atState stale.1

end

end EvolutionJmap
