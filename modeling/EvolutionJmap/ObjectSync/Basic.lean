import EvolutionJmap.Client.Get
import EvolutionJmap.Client.Query

/-!
# The steps that calendars and address books share (`jmap-object-sync`)

An `ObjectKind` names an object type and its patch functions.  As in the source, the
functions are generic in it, in the rendered form and in the error type.  The two
backends' own listings are the same function up to names, defined here once.
-/

namespace EvolutionJmap

open Interaction

/-- One JMAP object type that a meta backend syncs, and its patch functions. -/
structure ObjectKind (Object : Type) extends DataType Object where
  /-- The JMAP type name, for example `ContactCard`. -/
  typeName : String
  /-- The object with its indefinite article, for example `a card`. -/
  aNoun : String
  /-- The property that files the object in its collection. -/
  membershipName : String
  diff : Object → Object → Patch
  /-- The patch limited to what differs between a base and the edited object,
  without the given properties. -/
  diffSinceExcept : Object → Object → Object → BTreeSet String → Patch
  /-- The properties that the user and a different client both changed. -/
  conflicts : Object → Object → Object → BTreeSet String

/-- What a save does with a property that the user and a different client both
changed after the base copy. -/
inductive OnConflict where
  | keepLocal
  | keepServer
  | fail
  deriving DecidableEq, Repr

/-- What changed in one collection since a given state. -/
structure Changes (Item : Type) where
  newState : State
  /-- Objects that were created or modified, already rendered. -/
  changed : List Item
  /-- Identifiers that are no longer in this collection. -/
  removed : List Id

namespace ObjectKind

variable {Object Item ε : Type} {lookups : Lookups} (kind : ObjectKind Object)

def idOf (object : Object) : Except Error Id :=
  match kind.id object with
  | some id => .ok id
  | none => .error (.protocol s!"{kind.typeName}/get returned {kind.aNoun} without an id")

/-- Whether an object is filed in the collection `own`. A `false` entry violates
the protocol, and no reading of it is safe. -/
def holds (object : Object) (own : Id) : Except Error Bool :=
  match (kind.membership object).bind (·.get? own) with
  | some false =>
    let id := (kind.id object).getD "<no id>"
    .error (.protocol
      s!"{kind.typeName}/get returned {id} with a false-valued {kind.membershipName} entry for {own}")
  | some true => .ok true
  | none => .ok false

/-- The loop of `classify` over the loaded candidates. -/
def classifyObjects (ofClient : Error → ε) (own : Id) (updated : BTreeSet Id)
    (render : Object → ClientM lookups Object ε Item) :
    List Object → List Item → List Id → ClientM lookups Object ε (List Item × List Id)
  | [], changed, removed => .done (changed, removed)
  | object :: objects, changed, removed => do
      let id ← .ofExcept ((kind.idOf object).mapError ofClient)
      let held ← .ofExcept ((kind.holds object own).mapError ofClient)
      if held then
        let item ← render object
        classifyObjects ofClient own updated render objects (changed ++ [item]) removed
      else if updated.contains id then
        classifyObjects ofClient own updated render objects changed (removed ++ [id])
      else
        classifyObjects ofClient own updated render objects changed removed

/-- Turn a raw `/changes` delta into the two lists that the meta backend uses.
An updated object that is not in `own` can have moved out, so it is reported as
removed. A created object that is not in `own` is ignored. -/
def classify (ofClient : Error → ε) (delta : ChangeSet) (own : Id)
    (get : List Id → ClientM lookups Object Error (GetResponse Object))
    (render : Object → ClientM lookups Object ε Item) :
    ClientM lookups Object ε (Changes Item) :=
  let destroyed := delta.destroyed.keys
  let candidates := (BTreeSet.union delta.created delta.updated).keys
  if candidates = [] then
    .done ⟨delta.newState, [], destroyed⟩
  else do
    let response ← (get candidates).mapError ofClient
    let (changed, removed) ←
      kind.classifyObjects ofClient own delta.updated render response.list [] destroyed
    -- destroyed between /changes and /get: report only an object that existed before
    .done ⟨delta.newState, changed,
      removed ++ response.notFound.filter fun id => delta.updated.contains id⟩

def get (client : Client) (ids : List Id) :
    ClientM lookups Object Error (GetResponse Object) :=
  getChunked client s!"{kind.typeName}/get" kind.id ids

def state (client : Client) : ClientM lookups Object Error State := do
  let response ← kind.get client []
  .done response.state

/-- Every object in the collection `own` and the state of that list. The state is
read before the query. -/
def listExisting (ofClient : Error → ε) (client : Client) (own : Id)
    (render : Object → ClientM lookups Object ε Item) :
    ClientM lookups Object ε (State × List Item) := do
  let state ← (kind.state client).mapError ofClient
  let ids ← (queryEveryId client s!"{kind.typeName}/query" own).mapError ofClient
  let response ← (kind.get client ids).mapError ofClient
  let items ← Program.forEach render response.list
  .done (state, items)

def getChanges (ofClient : Error → ε) (client : Client) (own : Id)
    (render : Object → ClientM lookups Object ε Item) (since : State) :
    ClientM lookups Object ε (Changes Item) := do
  let delta ← (allChanges client kind.typeName since).mapError ofClient
  kind.classify ofClient delta own (kind.get client) render

/-- The patch of an edit from `base`, with the conflicts resolved as asked. A base
that does not parse gives the plain `diff`. -/
def patchSince {parseError : Type} (base : Except parseError Object) (onConflict : OnConflict)
    (current edited : Object) : Option Patch :=
  match base with
  | .error _ => some (kind.diff current edited)
  | .ok base =>
    let conflicts := kind.conflicts base current edited
    if conflicts.isEmpty then
      some (kind.diffSinceExcept base current edited ∅)
    else
      match onConflict with
      | .keepLocal => some (kind.diffSinceExcept base current edited ∅)
      | .keepServer => some (kind.diffSinceExcept base current edited conflicts)
      | .fail => none

variable {kind} in
theorem patchSince_eq_some {parseError : Type} {base : Except parseError Object}
    {onConflict : OnConflict} {current edited : Object} {patch : Patch}
    (found : kind.patchSince base onConflict current edited = some patch) :
    patch = kind.diff current edited ∨
      ∃ base kept, patch = kind.diffSinceExcept base current edited kept := by
  unfold patchSince at found
  split at found
  · cases found
    exact .inl rfl
  · right
    dsimp only at found
    split at found
    · cases found
      exact ⟨_, _, rfl⟩
    · split at found
      · cases found
        exact ⟨_, _, rfl⟩
      · cases found
        exact ⟨_, _, rfl⟩
      · cases found

end ObjectKind

/-- The revision of a rendered object: the FNV-1a digest of its text (64 bits). -/
def revisionOf (rendered : String) : String :=
  let hash := rendered.toUTF8.toList.foldl
    (fun hash byte => (hash ^^^ byte.toUInt64) * 0x100000001b3) (0xcbf29ce484222325 : UInt64)
  let digits := Nat.toDigits 16 hash.toNat
  String.ofList (List.replicate (16 - digits.length) '0' ++ digits)

example : revisionOf "foobar" = "85944171f73967e8" := by decide +kernel

/-! ## The cache of a meta backend -/

variable {Item : Type}

/-- The cache after the changed objects are inserted and the removed ids are
deleted. -/
def Changes.apply (uid : Item → Id) (changes : Changes Item) (cache : BTreeMap Id Item) :
    BTreeMap Id Item :=
  changes.removed.foldl BTreeMap.erase
    (changes.changed.foldl (fun cache item => cache.insert (uid item) item) cache)

end EvolutionJmap
