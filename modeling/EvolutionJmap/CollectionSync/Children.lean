import EvolutionJmap.Client.Protocol

/-!
# The children of a login (`jmap-collection-sync`: `children.rs`, `parts.rs`)

The resource id of a child is `kind:collection` for the user's own collections and
`kind:account/collection` for shared ones.  A cached child is removed only if this
populate asked for it and it was not there.
-/

namespace EvolutionJmap.CollectionSync

open List Option

/-! ## Resource ids -/

inductive ChildKind where
  | addressBook
  | calendar
  deriving DecidableEq, Repr

namespace ChildKind

/-- The part of a resource id before the colon. -/
def name : ChildKind → String
  | .addressBook => "addressbook"
  | .calendar => "calendar"

def resourceId (kind : ChildKind) (collection : Id) : String :=
  kind.name ++ ":" ++ collection

def sharedResourceId (kind : ChildKind) (account collection : Id) : String :=
  kind.name ++ ":" ++ account ++ "/" ++ collection

end ChildKind

def splitSharedIdentity (identity : String) : Option (String × String) :=
  match splitTextOnce '/' identity with
  | none => none
  | some (account, collection) =>
    if account ≠ "" && collection ≠ "" && !containsChar collection '/' then
      some (account, collection)
    else none

def parseResourceId (resourceId : String) : Option (ChildKind × Id) :=
  match splitTextOnce ':' resourceId with
  | none => none
  | some (kind, collection) =>
    if collection = "" then none
    else if kind = "addressbook" then some (.addressBook, collection)
    else if kind = "calendar" then some (.calendar, collection)
    else none

/-! ## The fan-out of a login -/

structure ServiceAccount where
  id : Id
  name : String
  readOnly : Bool
  deriving DecidableEq, Repr

/-- An address book or a calendar. -/
structure Resource where
  id : Id
  name : String
  isDefault : Bool
  color : Option String
  (writable deletable : Option Bool)
  deriving DecidableEq, Repr

/-- The account that serves each kind. -/
structure CollectionLayout where
  (contacts calendars : Option ServiceAccount)
  deriving DecidableEq, Repr

def CollectionLayout.accountFor (layout : CollectionLayout) : ChildKind → Option ServiceAccount
  | .addressBook => layout.contacts
  | .calendar => layout.calendars

def CollectionLayout.serves (layout : CollectionLayout) (kind : ChildKind) : Bool :=
  (layout.accountFor kind).isSome

/-- The parts of the account that are switched on. -/
structure Parts where
  (mail contacts calendars : Bool)
  deriving DecidableEq, Repr

def Parts.wants (parts : Parts) : ChildKind → Bool
  | .addressBook => parts.contacts
  | .calendar => parts.calendars

/-- The collections of a shared account. A listing that was not sent or that failed
is `none`. -/
structure SharedListing where
  account : ServiceAccount
  (addressBooks calendars : Option (List Resource))
  deriving DecidableEq, Repr

def SharedListing.listing (shared : SharedListing) : ChildKind → Option (List Resource)
  | .addressBook => shared.addressBooks
  | .calendar => shared.calendars

/-- What the listings of an account gave. -/
structure Fanout where
  parts : Parts
  layout : CollectionLayout
  (addressBooks calendars : List Resource)
  shared : List SharedListing
  deriving DecidableEq, Repr

/-! ## The children -/

/-- A child source of the account. -/
structure Child where
  resourceId : String
  kind : ChildKind
  displayName : String
  (accountId collectionId : Id)
  isDefault : Bool
  color : Option String
  (readOnly remoteDeletable : Bool)
  deriving DecidableEq, Repr

/-- A name without the characters that put text on a new line or move it. -/
def plain (name : String) : String :=
  String.ofList (name.toList.filter fun char =>
    let code := char.toNat
    !(Text.isControl char || code = 0x061c || code = 0x200e || code = 0x200f || code = 0x2028 ||
      code = 0x2029 || (0x202a ≤ code && code ≤ 0x202e) || (0x2066 ≤ code && code ≤ 0x2069)))

namespace Child

def forResource (kind : ChildKind) (account : ServiceAccount) (resource : Resource) : Child :=
  { resourceId := kind.resourceId resource.id
    kind
    displayName := resource.name
    accountId := account.id
    collectionId := resource.id
    isDefault := resource.isDefault
    color := resource.color
    readOnly := account.readOnly || resource.writable = some false
    remoteDeletable := resource.deletable.getD true }

def forSharedResource (kind : ChildKind) (account : ServiceAccount) (resource : Resource) : Child :=
  { forResource kind account resource with
    resourceId := kind.sharedResourceId account.id resource.id
    displayName := plain account.name ++ ": " ++ plain resource.name
    remoteDeletable := resource.deletable = some true }

end Child

def firstOfEach (seen : List String) : List Child → List Child
  | [] => []
  | child :: rest =>
    if seen.contains child.resourceId then firstOfEach seen rest
    else child :: firstOfEach (seen ++ [child.resourceId]) rest

namespace Fanout

variable (fanout : Fanout)

def resources : ChildKind → List Resource
  | .addressBook => fanout.addressBooks
  | .calendar => fanout.calendars

def ownChildren (kind : ChildKind) : List Child :=
  match (fanout.layout.accountFor kind).filter fun _ => fanout.parts.wants kind with
  | none => []
  | some account => (fanout.resources kind).map (Child.forResource kind account)

def sharedChildren (shared : SharedListing) : List Child :=
  ([.addressBook, .calendar].filter fanout.parts.wants).flatMap fun kind =>
    ((shared.listing kind).getD []).map (Child.forSharedResource kind shared.account)

/-- The children of this login in the order of creation. -/
def children : List Child :=
  firstOfEach [] (fanout.ownChildren .addressBook ++ fanout.ownChildren .calendar ++
    fanout.shared.flatMap fanout.sharedChildren)

/-- Whether this populate listed the user's own collections of a kind. -/
def listed (kind : ChildKind) : Bool := fanout.parts.wants kind && fanout.layout.serves kind

def lacks (resourceId : String) : Bool := fanout.children.all (·.resourceId ≠ resourceId)

/-- Whether a cached child is gone. -/
def isObsolete (resourceId : String) : Bool :=
  match parseResourceId resourceId with
  | none => false
  | some (kind, identity) =>
    match splitSharedIdentity identity with
    | some (account, _) =>
      fanout.parts.wants kind &&
        match fanout.shared.find? (·.account.id = account) with
        | none => true
        | some shared => (shared.listing kind).isSome && fanout.lacks resourceId
    | none => fanout.listed kind && fanout.lacks resourceId

end Fanout

/-! ## Reading resource ids back -/

theorem splitTextOnce_eq_some {separator : Char} {text before after : String}
    (split : splitTextOnce separator text = some (before, after)) :
    text = before ++ String.singleton separator ++ after ∧
      containsChar before separator = false := by
  obtain ⟨⟨front, back⟩, rest, isPair⟩ := map_eq_some_iff.mp split
  cases isPair
  obtain ⟨whole, absent⟩ := Text.of_splitOnce rest
  constructor
  · apply String.toList_inj.mp
    simp [whole, String.toList_append]
  · simp [containsChar, absent]

variable {identity : String}

theorem parseResourceId_append (kind : ChildKind) (nonempty : identity ≠ "") :
    parseResourceId (kind.name ++ ":" ++ identity) = some (kind, identity) := by
  have absent : ':' ∉ kind.name.toList := by cases kind <;> decide
  have split := @splitTextOnce_append _ _ identity absent
  change splitTextOnce ':' (kind.name ++ ":" ++ identity) = _ at split
  rw [parseResourceId, split]
  cases kind <;> simp [nonempty, ChildKind.name]

theorem parseResourceId_empty (kind : ChildKind) :
    parseResourceId (kind.name ++ ":" ++ "") = none := by
  cases kind <;> decide

theorem parseResourceId_eq_some {resourceId : String} {kind : ChildKind}
    (parsed : parseResourceId resourceId = some (kind, identity)) :
    resourceId = kind.name ++ ":" ++ identity ∧ identity ≠ "" := by
  rw [parseResourceId] at parsed
  cases split : splitTextOnce ':' resourceId with
  | none => rw [split] at parsed; nomatch parsed
  | some pair =>
    obtain ⟨name, rest⟩ := pair
    rw [split] at parsed
    have whole := (splitTextOnce_eq_some split).1
    simp only at parsed
    split at parsed
    · cases parsed
    · next nonempty =>
      split at parsed
      · next isName =>
        cases parsed
        rw [isName] at whole
        exact ⟨whole, nonempty⟩
      · split at parsed
        · next isName =>
          cases parsed
          rw [isName] at whole
          exact ⟨whole, nonempty⟩
        · cases parsed

/-- A string that can be the id of a shared account or collection (RFC 8620 §1.2 has
no `/` in an id). -/
def SharedId (id : Id) : Prop := id ≠ "" ∧ containsChar id '/' = false

variable {account collection : Id}

theorem splitSharedIdentity_append (isAccount : SharedId account)
    (isCollection : SharedId collection) :
    splitSharedIdentity (account ++ "/" ++ collection) = some (account, collection) := by
  have absent : '/' ∉ account.toList := by simpa [containsChar] using isAccount.2
  have split := @splitTextOnce_append _ _ collection absent
  change splitTextOnce '/' (account ++ "/" ++ collection) = _ at split
  rw [splitSharedIdentity, split]
  simp [isAccount.1, isCollection.1, isCollection.2]

theorem splitSharedIdentity_eq_some {account collection : String}
    (split : splitSharedIdentity identity = some (account, collection)) :
    identity = account ++ "/" ++ collection ∧ SharedId account ∧ SharedId collection := by
  rw [splitSharedIdentity] at split
  cases found : splitTextOnce '/' identity with
  | none => rw [found] at split; nomatch split
  | some pair =>
    rw [found] at split
    simp only at split
    split at split
    · next valid =>
      cases split
      obtain ⟨whole, absent⟩ := splitTextOnce_eq_some found
      simp only [Bool.and_eq_true, decide_eq_true_eq, Bool.not_eq_true'] at valid
      exact ⟨whole, ⟨valid.1.1, absent⟩, ⟨valid.1.2, valid.2⟩⟩
    · cases split

/-- An identity that splits has one slash, so it splits there. -/
theorem splitSharedIdentity_account {front back : String}
    (split : splitSharedIdentity (account ++ "/" ++ collection) = some (front, back)) :
    front = account := by
  obtain ⟨whole, isFront, isBack⟩ := splitSharedIdentity_eq_some split
  have notFront : '/' ∉ front.toList := by simpa [containsChar] using isFront.2
  have notBack : '/' ∉ back.toList := by simpa [containsChar] using isBack.2
  have chars := congrArg String.toList whole.symm
  simp only [String.toList_append, append_assoc] at chars
  exact String.toList_inj.mp ((append_cons_inj_of_notMem notFront notBack).mp chars).1

/-! ## The resource ids of the children -/

variable {seen : List String} {list : List Child}

theorem firstOfEach_fresh {child : Child} (mem : child ∈ firstOfEach seen list) :
    child ∈ list ∧ child.resourceId ∉ seen := by
  induction list generalizing seen with
  | nil => cases mem
  | cons first rest ih =>
    rw [firstOfEach] at mem
    split at mem
    · obtain ⟨inRest, fresh⟩ := ih mem
      exact ⟨mem_cons_of_mem _ inRest, fresh⟩
    · next unseen =>
      rcases mem_cons.mp mem with rfl | mem
      · exact ⟨mem_cons_self, by simpa using unseen⟩
      · obtain ⟨inRest, fresh⟩ := ih mem
        exact ⟨mem_cons_of_mem _ inRest,
          fun inSeen => fresh (mem_append_left _ inSeen)⟩

theorem firstOfEach_nodup (seen : List String) (list : List Child) :
    ((firstOfEach seen list).map Child.resourceId).Nodup := by
  induction list generalizing seen with
  | nil => exact nodup_nil
  | cons first rest ih =>
    rw [firstOfEach]
    split
    · exact ih seen
    · rw [map_cons, nodup_cons]
      refine ⟨?_, ih _⟩
      intro again
      obtain ⟨child, mem, same⟩ := mem_map.mp again
      apply (firstOfEach_fresh mem).2
      simp [same]

theorem mem_resourceIds_firstOfEach {resourceId : String} (unseen : resourceId ∉ seen)
    (mem : resourceId ∈ list.map Child.resourceId) :
    resourceId ∈ (firstOfEach seen list).map Child.resourceId := by
  induction list generalizing seen with
  | nil => cases mem
  | cons first rest ih =>
    rw [firstOfEach]
    rw [map_cons, mem_cons] at mem
    split
    · next isSeen =>
      apply ih unseen
      apply mem.resolve_left
      rintro rfl
      exact unseen (by simpa using isSeen)
    · rw [map_cons, mem_cons]
      by_cases same : resourceId = first.resourceId
      · exact .inl same
      · apply Or.inr
        apply ih _ (mem.resolve_left same)
        simp [unseen, same]

section Obsolete

variable {fanout : Fanout} {kind : ChildKind} {child : Child} {resourceId : String}

theorem lacks_iff : fanout.lacks resourceId = true ↔
    ∀ child ∈ fanout.children, child.resourceId ≠ resourceId := by
  simp [Fanout.lacks]

theorem mem_ownChildren : child ∈ fanout.ownChildren kind ↔
    fanout.parts.wants kind = true ∧ ∃ account, fanout.layout.accountFor kind = some account ∧
      ∃ resource ∈ fanout.resources kind, Child.forResource kind account resource = child := by
  rw [Fanout.ownChildren]
  cases fanout.layout.accountFor kind with
  | none => simp
  | some account => cases wanted : fanout.parts.wants kind <;> simp [Option.filter]

theorem mem_sharedChildren {shared : SharedListing} : child ∈ fanout.sharedChildren shared ↔
    ∃ kind, fanout.parts.wants kind = true ∧ ∃ list, shared.listing kind = some list ∧
      ∃ resource ∈ list, Child.forSharedResource kind shared.account resource = child := by
  have every : ∀ kind : ChildKind, kind ∈ [ChildKind.addressBook, .calendar] := by
    intro kind
    cases kind <;> simp
  simp only [Fanout.sharedChildren, mem_flatMap, mem_filter, every, true_and]
  constructor
  · rintro ⟨kind, wanted, mem⟩
    refine ⟨kind, wanted, ?_⟩
    cases isList : shared.listing kind with
    | none => simp [isList] at mem
    | some list => exact ⟨list, rfl, by simpa [isList] using mem⟩
  · rintro ⟨kind, wanted, list, isList, mem⟩
    exact ⟨kind, wanted, by simpa [isList] using mem⟩

theorem mem_children (mem : child ∈ fanout.children) :
    (∃ kind, child ∈ fanout.ownChildren kind) ∨
      ∃ shared ∈ fanout.shared, child ∈ fanout.sharedChildren shared := by
  rcases mem_append.mp (firstOfEach_fresh mem).1 with own | shared
  · rcases mem_append.mp own with book | calendar
    · exact .inl ⟨.addressBook, book⟩
    · exact .inl ⟨.calendar, calendar⟩
  · exact .inr (mem_flatMap.mp shared)

theorem not_lacks (mem : (∃ kind, child ∈ fanout.ownChildren kind) ∨
    ∃ shared ∈ fanout.shared, child ∈ fanout.sharedChildren shared) :
    fanout.lacks child.resourceId = false := by
  have inList : child ∈ fanout.ownChildren .addressBook ++ fanout.ownChildren .calendar ++
      fanout.shared.flatMap fanout.sharedChildren := by
    rcases mem with ⟨kind, own⟩ | shared
    · cases kind <;> simp [own]
    · exact mem_append_right _ (mem_flatMap.mpr shared)
  have listed := mem_resourceIds_firstOfEach (not_mem_nil (a := child.resourceId))
    (mem_map_of_mem inList)
  obtain ⟨other, otherMem, same⟩ := mem_map.mp listed
  apply Bool.eq_false_iff.mpr
  intro lacks
  exact lacks_iff.mp lacks other otherMem same

/-- The user's own collection was asked for and is not there. -/
def OwnGone (fanout : Fanout) (kind : ChildKind) (collection : Id) : Prop :=
  fanout.listed kind = true ∧ ∀ resource ∈ fanout.resources kind, resource.id ≠ collection

/-- The shared account left the session, or it was listed without the collection. -/
def SharedGone (fanout : Fanout) (kind : ChildKind) (account collection : Id) : Prop :=
  fanout.parts.wants kind = true ∧
    ((∀ shared ∈ fanout.shared, shared.account.id ≠ account) ∨
      ∃ shared ∈ fanout.shared, shared.account.id = account ∧
        ∃ list, shared.listing kind = some list ∧ ∀ resource ∈ list, resource.id ≠ collection)

/-- No id of the user's own collections is read as one of a shared account. -/
def Fanout.Legible (fanout : Fanout) : Prop :=
  ∀ kind, ∀ resource ∈ fanout.resources kind, splitSharedIdentity resource.id = none

theorem isObsolete_children (legible : fanout.Legible) (mem : child ∈ fanout.children) :
    fanout.isObsolete child.resourceId = false := by
  have present := not_lacks (mem_children mem)
  rw [Fanout.isObsolete]
  cases parsed : parseResourceId child.resourceId with
  | none => rfl
  | some pair =>
    obtain ⟨kind, identity⟩ := pair
    have whole := (parseResourceId_eq_some parsed).1
    cases split : splitSharedIdentity identity with
    | none => simp [split, present]
    | some parts =>
      obtain ⟨account, collection⟩ := parts
      cases found : fanout.shared.find? (·.account.id = account) with
      | some shared => simp [split, found, present]
      | none =>
        -- a shared child's own account is found, and no child of the user's own
        -- has an identity that splits
        rw [find?_eq_none] at found
        rcases mem_children mem with ⟨own, isOwn⟩ | ⟨shared, sharedMem, isShared⟩
        · obtain ⟨-, _, -, resource, listed, rfl⟩ := mem_ownChildren.mp isOwn
          have same : parseResourceId (own.resourceId resource.id) = _ := parsed
          by_cases nonempty : resource.id = ""
          · rw [ChildKind.resourceId, nonempty, parseResourceId_empty] at same
            cases same
          · rw [ChildKind.resourceId, parseResourceId_append own nonempty] at same
            cases same
            rw [legible _ resource listed] at split
            cases split
        · obtain ⟨own, -, -, -, resource, -, rfl⟩ := mem_sharedChildren.mp isShared
          have same : parseResourceId (own.name ++ ":" ++
              (shared.account.id ++ "/" ++ resource.id)) = some (kind, identity) := by
            rw [← parsed]
            simp [Child.forSharedResource, ChildKind.sharedResourceId, String.append_assoc]
          rw [parseResourceId_append own (by
            intro empty
            simpa using congrArg String.toList empty)] at same
          cases same
          rw [splitSharedIdentity_account split] at found
          simpa using found shared sharedMem

theorem ownGone_of_isObsolete (own : splitSharedIdentity collection = none)
    (obsolete : fanout.isObsolete (kind.resourceId collection) = true) :
    OwnGone fanout kind collection := by
  rw [Fanout.isObsolete] at obsolete
  by_cases nonempty : collection = ""
  · rw [ChildKind.resourceId, nonempty, parseResourceId_empty] at obsolete
    cases obsolete
  · rw [ChildKind.resourceId, parseResourceId_append kind nonempty] at obsolete
    simp only [own, Bool.and_eq_true] at obsolete
    refine ⟨obsolete.1, ?_⟩
    rintro resource listed rfl
    have serves : (fanout.parts.wants kind && (fanout.layout.accountFor kind).isSome) = true :=
      obsolete.1
    rw [Bool.and_eq_true, isSome_iff_exists] at serves
    obtain ⟨wanted, account, isAccount⟩ := serves
    have present : fanout.lacks (Child.forResource kind account resource).resourceId = false :=
      not_lacks (.inl ⟨kind, mem_ownChildren.mpr
        ⟨wanted, account, isAccount, resource, listed, rfl⟩⟩)
    exact absurd obsolete.2 (Bool.eq_false_iff.mp present)

theorem sharedGone_of_isObsolete (isAccount : SharedId account) (isCollection : SharedId collection)
    (obsolete : fanout.isObsolete (kind.sharedResourceId account collection) = true) :
    SharedGone fanout kind account collection := by
  have nonempty : account ++ "/" ++ collection ≠ "" := by
    intro empty
    simpa [isAccount.1] using congrArg String.toList empty
  have whole : kind.sharedResourceId account collection =
      kind.name ++ ":" ++ (account ++ "/" ++ collection) := by
    simp [ChildKind.sharedResourceId, String.append_assoc]
  rw [Fanout.isObsolete, whole, parseResourceId_append kind nonempty] at obsolete
  simp only [splitSharedIdentity_append isAccount isCollection, Bool.and_eq_true] at obsolete
  refine ⟨obsolete.1, ?_⟩
  cases found : fanout.shared.find? (·.account.id = account) with
  | none =>
    rw [find?_eq_none] at found
    exact .inl fun shared mem => by simpa using found shared mem
  | some shared =>
    simp only [found, Bool.and_eq_true, isSome_iff_exists] at obsolete
    obtain ⟨wanted, ⟨list, isList⟩, lacks⟩ := obsolete
    have mem := mem_of_find?_eq_some found
    have sameAccount : shared.account.id = account := by
      simpa using find?_some found
    refine .inr ⟨shared, mem, sameAccount, list, isList, ?_⟩
    rintro resource listed rfl
    have present : fanout.lacks (Child.forSharedResource kind shared.account resource).resourceId =
        false :=
      not_lacks (.inr ⟨shared, mem,
        mem_sharedChildren.mpr ⟨kind, wanted, list, isList, resource, listed, rfl⟩⟩)
    rw [← whole, ← sameAccount] at lacks
    exact absurd lacks (Bool.eq_false_iff.mp present)

theorem gone_of_isObsolete (obsolete : fanout.isObsolete resourceId = true) :
    ∃ kind, (∃ collection, resourceId = kind.resourceId collection ∧
        OwnGone fanout kind collection) ∨
      ∃ account collection, resourceId = kind.sharedResourceId account collection ∧
        SharedGone fanout kind account collection := by
  cases parsed : parseResourceId resourceId with
  | none =>
    rw [Fanout.isObsolete, parsed] at obsolete
    cases obsolete
  | some pair =>
    obtain ⟨kind, identity⟩ := pair
    obtain ⟨rfl, -⟩ := parseResourceId_eq_some parsed
    refine ⟨kind, ?_⟩
    cases split : splitSharedIdentity identity with
    | none => exact .inl ⟨identity, rfl, ownGone_of_isObsolete split obsolete⟩
    | some parts =>
      obtain ⟨account, collection⟩ := parts
      obtain ⟨rfl, isAccount, isCollection⟩ := splitSharedIdentity_eq_some split
      have whole : kind.name ++ ":" ++ (account ++ "/" ++ collection) =
          kind.sharedResourceId account collection := by
        simp [ChildKind.sharedResourceId, String.append_assoc]
      rw [whole] at obsolete ⊢
      exact .inr ⟨account, collection, rfl,
        sharedGone_of_isObsolete isAccount isCollection obsolete⟩

end Obsolete

def oneBook (id : Id) : Fanout :=
  { parts := ⟨true, true, true⟩
    layout := ⟨some ⟨"A1", "Vera", false⟩, none⟩
    addressBooks := [⟨id, "Friends", false, none, none, none⟩]
    calendars := []
    shared := [⟨⟨"A2", "Max", false⟩, none, none⟩] }

end EvolutionJmap.CollectionSync
