import EvolutionJmap.MapM
import EvolutionJmap.Client.Protocol
import EvolutionJmap.Ui.Rules

/-!
# The Server Filters page (`jmap-ui/src/filters/form.rs`, the plan of `io.rs`)

The page stages every change to the account's Sieve scripts, and one submit writes
the plan made from them.  One script can be active.  The script of the vacation
responder is neither written nor destroyed, and an active responder stays active unless
some other script is deactivated.
-/

namespace EvolutionJmap.Ui

open List Option

/-! ## Scripts and plans -/

structure SieveScript where
  id : Option Id
  name : String
  blobId : Id
  isActive : Bool
  deriving DecidableEq, Repr

/-- A script with its downloaded source. -/
structure LoadedScript where
  script : SieveScript
  text : String
  deriving DecidableEq, Repr

structure SieveCapability where
  maxSizeScript : Nat
  maxNumberScripts : Option Nat := none
  sieveExtensions : List String := []
  /-- The properties without a field of their own. -/
  extra : BTreeMap String Value := ∅

/-- `maxSizeScriptName`, from the properties without a field of their own. -/
def maxSizeScriptName (capability : SieveCapability) : Option Nat :=
  (capability.extra.get? "maxSizeScriptName").bind Value.asU64

structure Loaded where
  capability : Option SieveCapability
  scripts : List LoadedScript
  folders : List Folder
  state : State

/-- The scripts a save depends on. -/
structure Baseline where
  /-- Id, name and blob id of each script that is not the vacation responder's. -/
  scripts : List (Id × String × Id) := []
  active : Option Id := none
  deriving DecidableEq, Repr

inductive ScriptWrite where
  | create (key name text : String)
  | update (id : Id) (name text : String)
  deriving DecidableEq, Repr

inductive ActivationTarget where
  | created (key : String)
  | existing (id : Id)
  deriving DecidableEq, Repr

inductive ActivationChange where
  | keep
  | activate (target : ActivationTarget)
  | deactivate
  deriving DecidableEq, Repr

/-- What one submit writes. -/
structure SavePlan where
  writes : List ScriptWrite
  destroys : List Id
  activation : ActivationChange
  /-- The active script is deactivated in a request of its own before the writes. -/
  deactivateFirst : Bool
  ifInState : Option State
  baseline : Baseline
  deriving DecidableEq, Repr

/-- The names under which a server keeps the script of its vacation responder. -/
def vacationScriptNames : List String := ["vacation", "urn:ietf:params:jmap:vacationresponse"]

def isVacationScript (name : String) : Bool := vacationScriptNames.contains name

/-- The order of the baseline's scripts. -/
def baselineLe (one other : Id × String × Id) : Bool :=
  one.1 < other.1 || one.1 = other.1 &&
    (one.2.1 < other.2.1 || one.2.1 = other.2.1 && one.2.2 ≤ other.2.2)

def Baseline.record (baseline : Baseline) (script : SieveScript) : Baseline :=
  match script.id with
  | none => baseline
  | some id =>
    { active := if script.isActive then some id else baseline.active
      scripts := if isVacationScript script.name then baseline.scripts
        else baseline.scripts ++ [(id, script.name, script.blobId)] }

def Baseline.of (scripts : List SieveScript) : Baseline :=
  let baseline := scripts.foldl Baseline.record {}
  { baseline with scripts := baseline.scripts.insertionSort (baselineLe · ·) }

/-! ## The form -/

/-- A script as the page shows it, with the staged edits. -/
structure ScriptEntry where
  id : Option Id
  (key originalName originalText name text : String)
  active : Bool
  /-- The vacation responder owns the script. -/
  isProtected : Bool
  deriving DecidableEq, Repr

/-- A submit must write the script. -/
def ScriptEntry.changed (entry : ScriptEntry) : Bool :=
  entry.id.isNone || entry.name ≠ entry.originalName || entry.text ≠ entry.originalText

/-- The scripts in the editor. -/
structure FiltersForm where
  entries : List ScriptEntry := []
  selected : Option Nat := none
  destroys : List Id := []
  /-- The script that the server has active. -/
  originalActive : Option Id := none
  offered : Bool := false
  (maxSizeScript maxNumberScripts maxSizeScriptName : Option Nat := none)
  nextKey : Nat := 0
  folders : List Folder := []
  extensions : List String := []
  state : Option State := none
  baseline : Baseline := {}
  deriving DecidableEq, Repr

def nameEmpty : String := "Give the script a name."
def noScriptSelected : String := "Select a script first."
def nameBadChars : String := "A script name cannot contain a newline or NUL character."
def nameReserved : String := "This name belongs to the vacation responder."
def nameTaken : String := "Another script already has this name."
def nameTooLong : String := "This name is too long for this server."
def tooManyScripts : String := "This server holds no more scripts. Remove one first."
def scriptProtected : String :=
  "The vacation responder owns this script. Change it on the Vacation Responder page."
def vacationActive : String := "Turn off the vacation responder to activate server filters."
def scriptTooLarge (name : String) : String := name ++ ": the script is too large for this server."

def newScriptText : String := "keep;\n"

def ScriptEntry.ofLoaded (loaded : LoadedScript) : ScriptEntry :=
  { id := loaded.script.id
    key := ""
    originalName := loaded.script.name
    originalText := loaded.text
    name := loaded.script.name
    text := loaded.text
    active := loaded.script.isActive
    isProtected := isVacationScript loaded.script.name }

theorem isSome_generateScript_nil (hasMailboxid : Bool) :
    (generateScript (fun _ => "") [] hasMailboxid).isSome = true := rfl

namespace FiltersForm

def fromLoaded (loaded : Loaded) : FiltersForm :=
  { entries := loaded.scripts.map ScriptEntry.ofLoaded
    selected := if loaded.scripts = [] then none else some 0
    originalActive := loaded.scripts.foldl
      (fun active script => if script.script.isActive then script.script.id else active) none
    offered := loaded.capability.isSome
    maxSizeScript := loaded.capability.map (·.maxSizeScript)
    maxNumberScripts := loaded.capability.bind (·.maxNumberScripts)
    maxSizeScriptName := loaded.capability.bind Ui.maxSizeScriptName
    folders := loaded.folders
    extensions := (loaded.capability.map (·.sieveExtensions)).getD []
    state := some loaded.state
    baseline := Baseline.of (loaded.scripts.map (·.script)) }

variable (form : FiltersForm)

def hasMailboxid : Bool := form.extensions.contains "mailboxid"

/-- Select a row. An index past the end selects nothing. -/
def select (index : Option Nat) : FiltersForm :=
  { form with selected := index.filter (· < form.entries.length) }

def vacationBlocksActivation : Bool :=
  form.entries.any fun entry => entry.isProtected && entry.active

variable (index : Nat)

/-- Refuse a change to a row that does not exist or to the responder's script. -/
def writable : Except String Unit :=
  match form.entries[index]? with
  | none => .error noScriptSelected
  | some entry => if entry.isProtected then .error scriptProtected else .ok ()

/-- The name rules of the servers, where `skip` is the row that has the name. -/
def checkName (name : String) (skip : Option Nat) : Except String Unit :=
  if trimText name = "" then .error nameEmpty
  else if containsChar name '\n' || containsChar name '\x00' then .error nameBadChars
  else if isVacationScript name then .error nameReserved
  else if form.maxSizeScriptName.any (· < name.utf8ByteSize) then .error nameTooLong
  else if form.entries.zipIdx.any fun (entry, row) => some row ≠ skip && entry.name = name then
    .error nameTaken
  else .ok ()

/-- Add a script and select it, with its row. -/
def add (name : String) : Except String (FiltersForm × Nat) := do
  if form.maxNumberScripts.any (· ≤ form.entries.length) then throw tooManyScripts
  form.checkName name none
  let text :=
    if name = managedScriptName then
      -- There is no rule to write as JSON.
      (generateScript (fun _ => "") [] form.hasMailboxid).get (isSome_generateScript_nil _)
    else newScriptText
  let entry : ScriptEntry :=
    { id := none, key := "new" ++ toString (form.nextKey + 1), originalName := "",
      originalText := "", name, text, active := false, isProtected := false }
  let index := form.entries.length
  return ({ form with
    nextKey := form.nextKey + 1, entries := form.entries ++ [entry],
    selected := some index }, index)

def rename (name : String) : Except String FiltersForm := do
  form.writable index
  form.checkName name (some index)
  return { form with entries := form.entries.modify index fun entry => { entry with name } }

def setText (text : String) : Except String FiltersForm := do
  form.writable index
  return { form with entries := form.entries.modify index fun entry => { entry with text } }

/-- Remove a row. A script of the server becomes a destroy. -/
def remove : Except String FiltersForm := do
  form.writable index
  let entries := form.entries.eraseIdx index
  return { form with
    entries
    destroys := form.destroys ++ ((form.entries[index]?).bind (·.id)).toList
    selected := if entries = [] then none else some (min index (entries.length - 1)) }

/-- Make a row the script that the account runs. -/
def activate : Except String FiltersForm := do
  form.writable index
  if form.vacationBlocksActivation then throw vacationActive
  return { form with
    entries := form.entries.mapIdx fun row entry => { entry with active := row = index } }

/-- Leave the account with no active script. -/
def deactivate : Except String FiltersForm := do
  form.writable index
  return { form with entries := form.entries.map fun entry => { entry with active := false } }

def desiredActive : Option Nat := form.entries.findIdx? (·.active)

/-- The row that the server has active, if its script is still listed. -/
def originalActiveRow : Option Nat :=
  form.originalActive.bind fun id => form.entries.findIdx? (·.id = some id)

def dirty : Bool :=
  form.destroys ≠ [] || form.entries.any ScriptEntry.changed ||
    form.desiredActive ≠ form.originalActiveRow

def write (entry : ScriptEntry) : Except String (Option ScriptWrite) :=
  if entry.isProtected || !entry.changed then .ok none
  else if form.maxSizeScript.any (· < entry.text.utf8ByteSize) then
    .error (scriptTooLarge entry.name)
  else
    match entry.id with
    | some id => .ok (some (.update id entry.name entry.text))
    | none => .ok (some (.create entry.key entry.name entry.text))

/-- The server's active script is among the destroyed ones. -/
def deactivatesFirst : Bool := form.originalActive.any (form.destroys.contains ·)

def activation : ActivationChange :=
  match form.desiredActive.bind (form.entries[·]?) with
  | none =>
    if form.deactivatesFirst then .keep
    else if form.originalActive.isSome then .deactivate
    else .keep
  | some entry =>
    match entry.id with
    | some id => if some id = form.originalActive then .keep else .activate (.existing id)
    | none => .activate (.created entry.key)

/-- What one submit writes, or nothing if nothing changed. -/
def plan : Except String (Option SavePlan) :=
  if !form.offered || !form.dirty then .ok none
  else do
    let writes ← form.entries.mapM form.write
    return some
      { writes := writes.filterMap id
        destroys := form.destroys
        activation := form.activation
        deactivateFirst := form.deactivatesFirst
        ifInState := form.state
        baseline := form.baseline }

end FiltersForm

/-! ## Sessions -/

/-- What the user can do. -/
inductive Operation where
  | select (index : Option Nat)
  | add (name : String)
  | rename (index : Nat) (name : String)
  | setText (index : Nat) (text : String)
  | remove (index : Nat)
  | activate (index : Nat)
  | deactivate (index : Nat)
  deriving DecidableEq, Repr

namespace FiltersForm

def operate (form : FiltersForm) : Operation → Except String FiltersForm
  | .select index => .ok (form.select index)
  | .add name => (form.add name).map Prod.fst
  | .rename index name => form.rename index name
  | .setText index text => form.setText index text
  | .remove index => form.remove index
  | .activate index => form.activate index
  | .deactivate index => form.deactivate index

/-- The form behind an operation. A refused operation changes nothing. -/
def apply (form : FiltersForm) (operation : Operation) : FiltersForm :=
  match form.operate operation with
  | .ok next => next
  | .error _ => form

/-- One operation after another. -/
def session (form : FiltersForm) (operations : List Operation) : FiltersForm :=
  operations.foldl apply form

end FiltersForm

/-! ## What an operation does to the entries -/

/-- What every operation does: the rows that are kept keep their id and their
owner, and only rows that the page may change go away. -/
structure Steps (form next : FiltersForm) : Prop where
  originalActive : next.originalActive = form.originalActive
  origin : ∀ other ∈ next.entries, other.id = none ∧ other.isProtected = false ∨
    ∃ entry ∈ form.entries, entry.id = other.id ∧ entry.isProtected = other.isProtected
  destroyed : ∀ id ∈ next.destroys, id ∈ form.destroys ∨
    ∃ entry ∈ form.entries, entry.id = some id ∧ entry.isProtected = false

/-- The active rows stay active, and no other row becomes active. -/
structure KeepsActive (form next : FiltersForm) : Prop where
  stays : ∀ entry ∈ form.entries, entry.isProtected = true → ∃ other ∈ next.entries,
    other.id = entry.id ∧ other.isProtected = true ∧ other.active = entry.active
  active : ∀ other ∈ next.entries, other.active = true → ∃ entry ∈ form.entries,
    entry.id = other.id ∧ entry.isProtected = other.isProtected ∧ entry.active = true

/-- The user switches off a script of their own. -/
def Deactivates (form : FiltersForm) (operation : Operation) : Prop :=
  ∃ index, operation = .deactivate index ∧ form.writable index = .ok ()

/-- What an operation does to the activation that is wanted. -/
inductive Effect (form next : FiltersForm) (operation : Operation) : Prop where
  | keeps (notDeactivated : ¬ Deactivates form operation) (keeps : KeepsActive form next)
  | activates (notDeactivated : ¬ Deactivates form operation)
      (free : form.vacationBlocksActivation = false)
      (active : ∀ other ∈ next.entries, other.active = true → other.isProtected = false)
  | deactivates (deactivated : Deactivates form operation)
      (inactive : ∀ other ∈ next.entries, other.active = false)

theorem FiltersForm.writable_ok {form : FiltersForm} {index : Nat} :
    form.writable index = .ok () ↔
      ∃ entry, form.entries[index]? = some entry ∧ entry.isProtected = false := by
  rw [writable]
  cases form.entries[index]? with
  | none => simp
  | some entry => cases owner : entry.isProtected <;> simp [owner]

section Entries

variable {form next : FiltersForm} {operation : Operation}

theorem not_deactivates (other : ∀ index, operation ≠ .deactivate index) :
    ¬ Deactivates form operation := by
  rintro ⟨index, isDeactivate, -⟩
  exact other index isDeactivate

/-- Each row is rewritten in place. -/
structure Rewrites (rewrite : Nat → ScriptEntry → ScriptEntry)
    (form next : FiltersForm) : Prop where
  originalActive : next.originalActive = form.originalActive
  destroys : next.destroys = form.destroys
  entries : ∀ index, next.entries[index]? = form.entries[index]?.map (rewrite index)
  id : ∀ index entry, (rewrite index entry).id = entry.id
  isProtected : ∀ index entry, (rewrite index entry).isProtected = entry.isProtected

namespace Rewrites

variable {rewrite : Nat → ScriptEntry → ScriptEntry}

section

variable (rewrites : Rewrites rewrite form next)

include rewrites

theorem mem {other : ScriptEntry} (mem : other ∈ next.entries) :
    ∃ index entry, form.entries[index]? = some entry ∧ rewrite index entry = other := by
  obtain ⟨index, found⟩ := mem_iff_getElem?.mp mem
  rw [rewrites.entries, map_eq_some_iff] at found
  exact ⟨index, found⟩

theorem steps : Steps form next where
  originalActive := rewrites.originalActive
  origin other mem := by
    obtain ⟨index, entry, found, rfl⟩ := rewrites.mem mem
    exact .inr ⟨entry, mem_of_getElem? found, (rewrites.id index entry).symm,
      (rewrites.isProtected index entry).symm⟩
  destroyed id mem := .inl (rewrites.destroys ▸ mem)

theorem keepsActive (active : ∀ index entry, (rewrite index entry).active = entry.active) :
    KeepsActive form next where
  stays entry mem owner := by
    obtain ⟨index, found⟩ := mem_iff_getElem?.mp mem
    refine ⟨rewrite index entry, ?_, rewrites.id index entry,
      (rewrites.isProtected index entry).trans owner, active index entry⟩
    apply mem_of_getElem?
    rw [rewrites.entries index, found, map_some]
  active other mem isActive := by
    obtain ⟨index, entry, found, rfl⟩ := rewrites.mem mem
    exact ⟨entry, mem_of_getElem? found, (rewrites.id index entry).symm,
      (rewrites.isProtected index entry).symm, (active index entry).symm.trans isActive⟩

end

theorem modify (form : FiltersForm) (index : Nat) (change : ScriptEntry → ScriptEntry)
    (id : ∀ entry, (change entry).id = entry.id)
    (isProtected : ∀ entry, (change entry).isProtected = entry.isProtected) :
    Rewrites (fun row entry => if index = row then change entry else entry) form
      { form with entries := form.entries.modify index change } where
  originalActive := rfl
  destroys := rfl
  entries row := getElem?_modify change index form.entries row
  id row entry := by
    split
    · exact id entry
    · rfl
  isProtected row entry := by
    split
    · exact isProtected entry
    · rfl

end Rewrites

theorem steps_add {name : String} {index : Nat} (added : form.add name = .ok (next, index)) :
    Steps form next ∧ KeepsActive form next := by
  simp only [FiltersForm.add, bind, Except.bind] at added
  split at added
  · cases added
  · split at added
    · cases added
    · cases added
      constructor
      · refine ⟨rfl, ?_, fun _ mem => .inl mem⟩
        intro other mem
        rcases mem_append.mp mem with old | new
        · exact .inr ⟨other, old, rfl, rfl⟩
        · rw [mem_singleton.mp new]
          exact .inl ⟨rfl, rfl⟩
      · constructor
        · intro entry mem owner
          exact ⟨entry, mem_append_left _ mem, rfl, owner, rfl⟩
        · intro other mem isActive
          rcases mem_append.mp mem with old | new
          · exact ⟨other, old, rfl, rfl, isActive⟩
          · rw [mem_singleton.mp new] at isActive
            cases isActive

theorem steps_remove {index : Nat} (removed : form.remove index = .ok next) :
    Steps form next ∧ KeepsActive form next := by
  simp only [FiltersForm.remove, bind, Except.bind] at removed
  split at removed
  · cases removed
  · next writable =>
    cases removed
    obtain ⟨gone, found, unowned⟩ := FiltersForm.writable_ok.mp writable
    have kept : ∀ other ∈ form.entries.eraseIdx index, other ∈ form.entries :=
      fun _ => mem_of_mem_eraseIdx
    constructor
    · refine ⟨rfl, fun other mem => .inr ⟨other, kept other mem, rfl, rfl⟩, ?_⟩
      intro id mem
      rcases mem_append.mp mem with old | new
      · exact .inl old
      · rw [found, bind_some, mem_toList] at new
        exact .inr ⟨gone, mem_of_getElem? found, new, unowned⟩
    · refine ⟨?_, fun other mem isActive => ⟨other, kept other mem, rfl, rfl, isActive⟩⟩
      intro entry mem owner
      refine ⟨entry, ?_, rfl, owner, rfl⟩
      obtain ⟨row, atRow⟩ := mem_iff_getElem?.mp mem
      apply mem_eraseIdx_iff_getElem?.mpr
      refine ⟨row, ?_, atRow⟩
      rintro rfl
      rw [found, Option.some.injEq] at atRow
      rw [atRow, owner] at unowned
      cases unowned

theorem operate_effect (operated : form.operate operation = .ok next) :
    Steps form next ∧ Effect form next operation := by
  cases operation with
  | select index =>
    cases operated
    have rewrites : Rewrites (fun _ entry => entry) form (form.select index) :=
      ⟨rfl, rfl, fun row => map_id'.symm, fun _ _ => rfl, fun _ _ => rfl⟩
    exact ⟨rewrites.steps, .keeps (not_deactivates (by simp)) (rewrites.keepsActive fun _ _ => rfl)⟩
  | add name =>
    rw [FiltersForm.operate] at operated
    cases added : form.add name with
    | error message => rw [added] at operated; nomatch operated
    | ok result =>
      rw [added] at operated
      cases operated
      obtain ⟨steps, keeps⟩ := steps_add added
      exact ⟨steps, .keeps (not_deactivates (by simp)) keeps⟩
  | rename index name =>
    simp only [FiltersForm.operate, FiltersForm.rename, bind, Except.bind] at operated
    split at operated
    · cases operated
    · split at operated
      · cases operated
      · cases operated
        have rewrites := Rewrites.modify form index (fun entry => { entry with name })
          (fun _ => rfl) fun _ => rfl
        refine ⟨rewrites.steps, .keeps (not_deactivates (by simp))
          (rewrites.keepsActive fun row entry => ?_)⟩
        split <;> rfl
  | setText index text =>
    simp only [FiltersForm.operate, FiltersForm.setText, bind, Except.bind] at operated
    split at operated
    · cases operated
    · cases operated
      have rewrites := Rewrites.modify form index (fun entry => { entry with text })
        (fun _ => rfl) fun _ => rfl
      refine ⟨rewrites.steps, .keeps (not_deactivates (by simp))
        (rewrites.keepsActive fun row entry => ?_)⟩
      split <;> rfl
  | remove index =>
    obtain ⟨steps, keeps⟩ := steps_remove operated
    exact ⟨steps, .keeps (not_deactivates (by simp)) keeps⟩
  | activate index =>
    simp only [FiltersForm.operate, FiltersForm.activate, bind, Except.bind] at operated
    split at operated
    · cases operated
    · next writable =>
      split at operated
      · cases operated
      · next free =>
        cases operated
        obtain ⟨chosen, found, unowned⟩ := FiltersForm.writable_ok.mp writable
        have rewrites : Rewrites
            (fun row entry => { entry with active := decide (row = index) }) form
            { form with entries := form.entries.mapIdx fun row entry =>
              { entry with active := decide (row = index) } } :=
          ⟨rfl, rfl, fun row => getElem?_mapIdx, fun _ _ => rfl, fun _ _ => rfl⟩
        refine ⟨rewrites.steps, .activates
          (not_deactivates (by simp))
          (Bool.eq_false_iff.mpr free) ?_⟩
        intro other mem isActive
        obtain ⟨row, entry, atRow, rfl⟩ := rewrites.mem mem
        rw [of_decide_eq_true isActive, found, Option.some.injEq] at atRow
        exact atRow ▸ unowned
  | deactivate index =>
    simp only [FiltersForm.operate, FiltersForm.deactivate, bind, Except.bind] at operated
    split at operated
    · cases operated
    · next writable =>
      cases operated
      have rewrites : Rewrites (fun _ entry => { entry with active := false }) form
          { form with entries := form.entries.map fun entry => { entry with active := false } } :=
        ⟨rfl, rfl, fun row => getElem?_map, fun _ _ => rfl, fun _ _ => rfl⟩
      refine ⟨rewrites.steps, .deactivates ⟨index, rfl, writable⟩ ?_⟩
      intro other mem
      obtain ⟨row, entry, -, rfl⟩ := rewrites.mem mem
      rfl

end Entries

/-! ## The vacation responder's script over a session -/

/-- The active script behind a save of the plan (RFC 9661 §2.4). -/
def SavePlan.activeAfter (plan : SavePlan) (before : Option ActivationTarget) :
    Option ActivationTarget :=
  match plan.activation with
  | .keep => if plan.deactivateFirst then none else before
  | .activate target => some target
  | .deactivate => none

/-- The plan does not write, rename or destroy the script, and leaves it active if
it is. -/
structure SavePlan.LeavesAlone (plan : SavePlan) (id : Id) (isActive : Bool) : Prop where
  notWritten : ∀ name text, .update id name text ∉ plan.writes
  notDestroyed : id ∉ plan.destroys
  active : isActive = true →
    plan.activeAfter (some (.existing id)) = some (.existing id)

/-- No script is deactivated while the vacation responder is active. -/
def Spared : FiltersForm → List Operation → Prop
  | _, [] => True
  | form, operation :: operations =>
    (form.vacationBlocksActivation = true → ¬ Deactivates form operation) ∧
      Spared (form.apply operation) operations

/-- The server's ids: each script has one, and different scripts have different
ones (RFC 8620 §1.2). -/
structure Loaded.Identified (loaded : Loaded) : Prop where
  hasId : ∀ script ∈ loaded.scripts, ∃ id, script.script.id = some id
  distinct : loaded.scripts.Pairwise fun one other => one.script.id ≠ other.script.id

/-- At most one script is active. -/
def Loaded.OneActive (loaded : Loaded) : Prop :=
  loaded.scripts.Pairwise fun one other =>
    ¬(one.script.isActive = true ∧ other.script.isActive = true)

/-- The id of a script of the responder. -/
def Loaded.Vacation (loaded : Loaded) (id : Id) : Prop :=
  ∃ script ∈ loaded.scripts, isVacationScript script.script.name = true ∧ script.script.id = some id

/-- Neither an entry that can be changed nor a destroy has the id of one of the
responder's scripts. -/
structure Spares (vacation : Id → Prop) (form : FiltersForm) : Prop where
  entries : ∀ entry ∈ form.entries, entry.isProtected = false → ∀ id, entry.id = some id →
    ¬ vacation id
  destroys : ∀ id ∈ form.destroys, ¬ vacation id

/-- The protected script is the active one. -/
structure IsActive (id : Id) (form : FiltersForm) : Prop where
  listed : ∃ entry ∈ form.entries, entry.id = some id ∧ entry.isProtected = true ∧
    entry.active = true
  only : ∀ entry ∈ form.entries, entry.active = true →
    entry.id = some id ∧ entry.isProtected = true

/-- No script of the responder is active. -/
def NoneActive (form : FiltersForm) : Prop :=
  ∀ entry ∈ form.entries, entry.active = true → entry.isProtected = false

section Session

variable {form next : FiltersForm} {operation : Operation} {operations : List Operation}
  {vacation : Id → Prop} {id : Id}

theorem Spares.step (spares : Spares vacation form) (steps : Steps form next) :
    Spares vacation next where
  entries other mem unowned id isId := by
    rcases steps.origin other mem with ⟨noId, -⟩ | ⟨entry, entryMem, sameId, sameOwner⟩
    · rw [noId] at isId
      cases isId
    · exact spares.entries entry entryMem (sameOwner.trans unowned) id (sameId.trans isId)
  destroys id mem := by
    rcases steps.destroyed id mem with old | ⟨entry, entryMem, isId, unowned⟩
    · exact spares.destroys id old
    · exact spares.entries entry entryMem unowned id isId

theorem vacationBlocksActivation_iff : form.vacationBlocksActivation = true ↔
    ∃ entry ∈ form.entries, entry.isProtected = true ∧ entry.active = true := by
  simp [FiltersForm.vacationBlocksActivation]

theorem IsActive.blocks (isActive : IsActive id form) : form.vacationBlocksActivation = true := by
  obtain ⟨entry, mem, -, owner, active⟩ := isActive.listed
  exact vacationBlocksActivation_iff.mpr ⟨entry, mem, owner, active⟩

theorem NoneActive.notBlocks (none : NoneActive form) : ¬ form.vacationBlocksActivation = true := by
  intro blocks
  obtain ⟨entry, mem, owner, active⟩ := vacationBlocksActivation_iff.mp blocks
  rw [none entry mem active] at owner
  cases owner

theorem NoneActive.effect (none : NoneActive form) (effect : Effect form next operation) :
    NoneActive next := by
  intro other mem active
  cases effect with
  | keeps _ keeps =>
    obtain ⟨entry, entryMem, -, sameOwner, wasActive⟩ := keeps.active other mem active
    exact sameOwner.symm.trans (none entry entryMem wasActive)
  | activates _ _ unowned => exact unowned other mem active
  | deactivates _ inactive =>
    rw [inactive other mem] at active
    cases active

theorem IsActive.effect (isActive : IsActive id form) (effect : Effect form next operation)
    (notDeactivated : ¬ Deactivates form operation) : IsActive id next := by
  cases effect with
  | keeps _ keeps =>
    constructor
    · obtain ⟨entry, mem, isId, owner, active⟩ := isActive.listed
      obtain ⟨other, otherMem, sameId, otherOwner, same⟩ := keeps.stays entry mem owner
      exact ⟨other, otherMem, sameId.trans isId, otherOwner, same.trans active⟩
    · intro other mem active
      rcases keeps.active other mem active with
        ⟨entry, entryMem, sameId, sameOwner, wasActive⟩
      obtain ⟨isId, owner⟩ := isActive.only entry entryMem wasActive
      exact ⟨sameId.symm.trans isId, sameOwner.symm.trans owner⟩
  | activates _ free _ =>
    rw [isActive.blocks] at free
    cases free
  | deactivates deactivated _ => exact absurd deactivated notDeactivated

theorem apply_cases (form : FiltersForm) (operation : Operation) :
    (Steps form (form.apply operation) ∧ Effect form (form.apply operation) operation) ∨
      form.apply operation = form ∧ ¬ Deactivates form operation := by
  rw [FiltersForm.apply]
  cases operated : form.operate operation with
  | ok next => exact .inl (operate_effect operated)
  | error message =>
    refine .inr ⟨rfl, ?_⟩
    rintro ⟨index, rfl, writable⟩
    rw [FiltersForm.operate, FiltersForm.deactivate, writable] at operated
    cases operated

/-- What each operation keeps, a session keeps. -/
theorem session_keeps {holds : FiltersForm → Prop}
    (step : ∀ {form next}, Steps form next → holds form → holds next) (atStart : holds form)
    (operations : List Operation) : holds (form.session operations) := by
  induction operations generalizing form with
  | nil => exact atStart
  | cons operation operations ih =>
    apply ih
    rcases apply_cases form operation with ⟨steps, -⟩ | ⟨same, -⟩
    · exact step steps atStart
    · rw [same]
      exact atStart

theorem NoneActive.session (none : NoneActive form) (operations : List Operation) :
    NoneActive (form.session operations) ∧ Spared form operations := by
  induction operations generalizing form with
  | nil => exact ⟨none, trivial⟩
  | cons operation operations ih =>
    have noneNext : NoneActive (form.apply operation) := by
      rcases apply_cases form operation with ⟨-, effect⟩ | ⟨same, -⟩
      · exact none.effect effect
      · rw [same]
        exact none
    obtain ⟨last, spared⟩ := ih noneNext
    exact ⟨last, fun blocks => absurd blocks none.notBlocks, spared⟩

theorem IsActive.session (isActive : IsActive id form) (operations : List Operation) :
    (Spared form operations → IsActive id (form.session operations)) ∧
      (¬ Spared form operations → NoneActive (form.session operations)) := by
  induction operations generalizing form with
  | nil => exact ⟨fun _ => isActive, fun unspared => absurd trivial unspared⟩
  | cons operation operations ih =>
    rcases apply_cases form operation with ⟨-, effect⟩ | ⟨same, notDeactivated⟩
    · by_cases deactivated : Deactivates form operation
      · have none : NoneActive (form.apply operation) := by
          cases effect with
          | deactivates _ inactive =>
            intro other mem active
            rw [inactive other mem] at active
            cases active
          | keeps notDeactivated _ | activates notDeactivated _ _ =>
            exact absurd deactivated notDeactivated
        exact ⟨fun spared => absurd deactivated (spared.1 isActive.blocks),
          fun _ => (none.session operations).1⟩
      · obtain ⟨spared, unspared⟩ := ih (isActive.effect effect deactivated)
        exact ⟨fun both => spared both.2,
          fun neither => unspared fun rest => neither ⟨fun _ => deactivated, rest⟩⟩
    · have stays : IsActive id (form.apply operation) := same.symm ▸ isActive
      obtain ⟨spared, unspared⟩ := ih stays
      exact ⟨fun both => spared both.2,
        fun neither => unspared fun rest => neither ⟨fun _ => notDeactivated, rest⟩⟩

end Session

/-! ## The plan of a session -/

section Plan

variable {loaded : Loaded} {form : FiltersForm} {plan : SavePlan} {id : Id}

theorem plan_ok (planned : form.plan = .ok (some plan)) :
    (∀ id name text, .update id name text ∈ plan.writes →
        ∃ entry ∈ form.entries, entry.isProtected = false ∧ entry.id = some id) ∧
      plan.destroys = form.destroys ∧ plan.activation = form.activation ∧
      plan.deactivateFirst = form.deactivatesFirst := by
  rw [FiltersForm.plan] at planned
  split at planned
  · cases planned
  · cases written : form.entries.mapM form.write with
    | error message => rw [written] at planned; nomatch planned
    | ok writes =>
      rw [written] at planned
      cases planned
      refine ⟨?_, rfl, rfl, rfl⟩
      intro id name text mem
      obtain ⟨write, writeMem, isWrite⟩ := mem_filterMap.mp mem
      obtain ⟨entry, entryMem, wrote⟩ := exists_of_forall₂ (mapM_eq_ok_iff.mp written) writeMem
      refine ⟨entry, entryMem, ?_⟩
      change write = _ at isWrite
      subst isWrite
      rw [FiltersForm.write] at wrote
      split at wrote
      · cases wrote
      · next changed =>
        split at wrote
        · cases wrote
        · cases isId : entry.id with
          | none => rw [isId] at wrote; nomatch wrote
          | some other =>
            rw [isId] at wrote
            cases wrote
            rw [Bool.or_eq_true, not_or] at changed
            exact ⟨Bool.eq_false_iff.mpr changed.1, rfl⟩

theorem desiredActive_cases (form : FiltersForm) :
    (form.desiredActive = none ∧ ∀ entry ∈ form.entries, entry.active = false) ∨
      ∃ row entry, form.desiredActive = some row ∧ form.entries[row]? = some entry ∧
        entry.active = true := by
  rw [FiltersForm.desiredActive]
  cases found : form.entries.findIdx? (·.active) with
  | none =>
    rw [findIdx?_eq_none_iff] at found
    exact .inl ⟨rfl, found⟩
  | some row =>
    obtain ⟨bound, active, -⟩ := findIdx?_eq_some_iff_getElem.mp found
    exact .inr ⟨row, form.entries[row], rfl, getElem?_eq_getElem bound, active⟩

theorem activation_isActive (isActive : IsActive id form)
    (original : form.originalActive = some id) :
    form.activation = .keep := by
  rcases desiredActive_cases form with ⟨-, inactive⟩ | ⟨row, entry, desired, found, active⟩
  · obtain ⟨entry, mem, -, -, active⟩ := isActive.listed
    rw [inactive entry mem] at active
    cases active
  · rw [FiltersForm.activation, desired, bind_some, found]
    simp [(isActive.only entry (mem_of_getElem? found) active).1, original]

theorem activeAfter_noneActive (none : NoneActive form) (planned : form.plan = .ok (some plan))
    (original : form.originalActive = some id)
    (others : ∀ entry ∈ form.entries, entry.isProtected = false → entry.id ≠ some id)
    (kept : id ∉ form.destroys) :
    plan.activeAfter (some (.existing id)) ≠ some (.existing id) := by
  obtain ⟨-, -, activation, -⟩ := plan_ok planned
  have notFirst : form.deactivatesFirst = false := by
    simp [FiltersForm.deactivatesFirst, original, kept]
  rw [SavePlan.activeAfter, activation, FiltersForm.activation]
  rcases desiredActive_cases form with ⟨desired, -⟩ | ⟨row, entry, desired, found, active⟩
  · simp [desired, notFirst, original]
  · have mem := mem_of_getElem? found
    have foreign := others entry mem (none entry mem active)
    simp only [desired, bind_some, found]
    cases isId : entry.id with
    | none => simp
    | some other =>
      rw [isId, ne_eq, Option.some.injEq] at foreign
      simp [original, foreign]

theorem fromLoaded_spares (identified : loaded.Identified) :
    Spares loaded.Vacation (.fromLoaded loaded) where
  entries entry mem unowned id isId := by
    obtain ⟨script, scriptMem, rfl⟩ := mem_map.mp mem
    rintro ⟨other, otherMem, owned, otherId⟩
    by_cases same : script = other
    · subst same
      change isVacationScript script.script.name = false at unowned
      rw [owned] at unowned
      cases unowned
    · have symmetric : Std.Symm fun one other : LoadedScript => one.script.id ≠ other.script.id :=
        ⟨fun _ _ => Ne.symm⟩
      exact identified.distinct.forall scriptMem otherMem same (isId.trans otherId.symm)
  destroys _ mem := nomatch mem

theorem foldl_active {scripts : List LoadedScript} {start : Option Id}
    (each : ∀ script ∈ scripts, script.script.isActive = true → script.script.id = some id)
    (found : start = some id ∨ ∃ script ∈ scripts, script.script.isActive = true) :
    scripts.foldl (fun active script =>
      if script.script.isActive then script.script.id else active) start = some id := by
  induction scripts generalizing start with
  | nil => simpa using found
  | cons script scripts ih =>
    rw [forall_mem_cons] at each
    apply ih each.2
    cases isActive : script.script.isActive with
    | true => exact .inl ((if_pos isActive).trans (each.1 isActive))
    | false => simpa [isActive] using found

theorem fromLoaded_isActive (oneActive : loaded.OneActive) {script : LoadedScript}
    (mem : script ∈ loaded.scripts) (owned : isVacationScript script.script.name = true)
    (active : script.script.isActive = true) (isId : script.script.id = some id) :
    IsActive id (.fromLoaded loaded) ∧
      (FiltersForm.fromLoaded loaded).originalActive = some id := by
  have only : ∀ other ∈ loaded.scripts, other.script.isActive = true → script = other := by
    intro other otherMem otherActive
    by_contra differ
    have symmetric : Std.Symm fun one other : LoadedScript =>
        ¬(one.script.isActive = true ∧ other.script.isActive = true) :=
      ⟨fun one other neither both => neither both.symm⟩
    exact oneActive.forall mem otherMem differ ⟨active, otherActive⟩
  refine ⟨⟨⟨.ofLoaded script, mem_map_of_mem mem, isId, owned, active⟩, ?_⟩, ?_⟩
  · intro entry entryMem entryActive
    obtain ⟨other, otherMem, rfl⟩ := mem_map.mp entryMem
    have same := only other otherMem entryActive
    subst same
    exact ⟨isId, owned⟩
  · apply foldl_active
    · intro other otherMem otherActive
      exact (only other otherMem otherActive) ▸ isId
    · exact .inr ⟨script, mem, active⟩

/-- For every load and every session, the plan leaves the scripts of the vacation
responder alone exactly if no script was deactivated while the responder was
active. -/
theorem plan_leavesAlone_iff (identified : loaded.Identified) (oneActive : loaded.OneActive)
    {operations : List Operation}
    (planned : ((FiltersForm.fromLoaded loaded).session operations).plan = .ok (some plan)) :
    (∀ script ∈ loaded.scripts, isVacationScript script.script.name = true →
        ∀ id, script.script.id = some id → plan.LeavesAlone id script.script.isActive) ↔
      Spared (.fromLoaded loaded) operations := by
  have spares := session_keeps (fun steps spares => spares.step steps)
    (fromLoaded_spares identified) operations
  have original : ((FiltersForm.fromLoaded loaded).session operations).originalActive =
      (FiltersForm.fromLoaded loaded).originalActive :=
    session_keeps (fun steps => steps.originalActive.trans) rfl operations
  constructor
  · intro leaves
    by_contra unspared
    have active : ¬ NoneActive (.fromLoaded loaded) := fun none =>
      unspared (none.session operations).2
    simp only [NoneActive, not_forall, Bool.not_eq_false] at active
    obtain ⟨entry, mem, isActive, owned⟩ := active
    obtain ⟨script, scriptMem, rfl⟩ := mem_map.mp mem
    obtain ⟨id, isId⟩ := identified.hasId script scriptMem
    obtain ⟨atLoad, isOriginal⟩ := fromLoaded_isActive oneActive scriptMem owned isActive isId
    have vacation : loaded.Vacation id := ⟨script, scriptMem, owned, isId⟩
    apply activeAfter_noneActive ((atLoad.session operations).2 unspared) planned
      (original.trans isOriginal)
    · intro entry entryMem unowned entryId
      exact spares.entries entry entryMem unowned id entryId vacation
    · exact fun destroyed => spares.destroys id destroyed vacation
    · exact (leaves script scriptMem owned id isId).active isActive
  · intro spared script mem owned id isId
    have vacation : loaded.Vacation id := ⟨script, mem, owned, isId⟩
    obtain ⟨writes, destroys, activation, first⟩ := plan_ok planned
    constructor
    · intro name text written
      obtain ⟨entry, entryMem, unowned, entryId⟩ := writes id name text written
      exact spares.entries entry entryMem unowned id entryId vacation
    · rw [destroys]
      exact fun destroyed => spares.destroys id destroyed vacation
    · intro isActive
      obtain ⟨atLoad, isOriginal⟩ := fromLoaded_isActive oneActive mem owned isActive isId
      have kept := activation_isActive ((atLoad.session operations).1 spared)
        (original.trans isOriginal)
      have notFirst : plan.deactivateFirst = false := by
        have notDestroyed : id ∉ _ := fun destroyed => spares.destroys id destroyed vacation
        rw [first, FiltersForm.deactivatesFirst, original, isOriginal]
        simpa using notDestroyed
      simp [SavePlan.activeAfter, activation, kept, notFirst]

end Plan

def respondingLoad : Loaded :=
  { capability := some { maxSizeScript := 1024 }
    scripts := [⟨⟨some "a", "vacation", "b1", true⟩, "keep;"⟩,
      ⟨⟨some "b", "mine", "b2", false⟩, "stop;"⟩]
    folders := []
    state := "s0" }

theorem respondingLoad_identified : respondingLoad.Identified :=
  ⟨by simp [respondingLoad], by simp [respondingLoad]⟩

theorem respondingLoad_oneActive : respondingLoad.OneActive := by
  simp [Loaded.OneActive, respondingLoad]

theorem plan_leavesAlone_edit :
    ∃ plan, ((FiltersForm.fromLoaded respondingLoad).session [.setText 1 "keep;"]).plan =
        .ok (some plan) ∧ plan.LeavesAlone "a" true := by
  refine ⟨_, rfl, ?_⟩
  refine (@plan_leavesAlone_iff respondingLoad _ respondingLoad_identified
    respondingLoad_oneActive [.setText 1 "keep;"] rfl).mpr ?_
    ⟨⟨some "a", "vacation", "b1", true⟩, "keep;"⟩ (by simp [respondingLoad]) (by decide) "a" rfl
  refine ⟨fun _ => ?_, trivial⟩
  rintro ⟨index, isDeactivate, -⟩
  cases isDeactivate

/-- Deactivating the user's script, which is not active, deactivates the responder. -/
theorem deactivate_stopsVacation :
    ∃ plan, ((FiltersForm.fromLoaded respondingLoad).session [.deactivate 1]).plan =
        .ok (some plan) ∧ plan.activeAfter (some (.existing "a")) = none :=
  ⟨_, rfl, rfl⟩

end EvolutionJmap.Ui
