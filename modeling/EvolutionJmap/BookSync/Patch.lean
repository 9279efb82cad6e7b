import EvolutionJmap.CalSync.Patch
import EvolutionJmap.Vcard.Vocabulary

/-!
# The patch of a saved contact (`jmap-book-sync/src/patch.rs`)

A vCard shows a card only in part.  A save compares the edited card with the server's
property by property; the predicates of the vCard mapping tell which absences the user
can have caused.  An entry that the vCard does not show is neither removed nor
overwritten.
-/

namespace EvolutionJmap.BookSync

open Vcard
open CalSync (Writes entryPath memberPath property touches)

/-! ## Members of an entry -/

def below (path member : String) : String := path ++ "/" ++ member

def diffText (path member old new : String) : Writes :=
  if old = new then [] else [(below path member, .string new)]

def diffOptional (path member : String) (old new : Option String) : Writes :=
  if old = new then [] else [(below path member, .ofText new)]

def flagsOf : Option Value → ValueMap
  | some (.object flags) => Value.toMap flags
  | _ => ∅

def orNull (map : ValueMap) : Value := if map.isEmpty then .null else .ofMap map

/-- Patch a boolean map. The absence of a flag is a removal if the line stated it; its
presence is an addition if the mapping can read it. -/
def diffFlags (path property : String) (current edited : Option Value)
    (isMapped wasStated : String → Bool) : Writes :=
  let kept := (flagsOf current).retain fun key _ => !wasStated key
  let merged := kept.extend ((flagsOf edited).retain fun key _ => isMapped key)
  if flagsOf current = merged then [] else [(below path property, orNull merged)]

/-- Patch `pref`. vCard 3.0 has only a flag, so a rank of the server stays. -/
def diffPref (path : String) (current edited : Option Nat) : Writes :=
  let wanted := edited.bind fun _ => current.or edited
  if wanted = current then [] else [(below path "pref", .ofOption (Value.ofRank wanted))]

/-- Whether the line stated the context. Lines with a slot state one of two contexts. -/
def slottedContext (contexts : Option Value) (key : String) : Bool :=
  mapsContext key && statesContext contexts key

/-- Whether the line stated the phone feature. -/
def slottedFeature (features : Option Value) (key : String) : Bool :=
  mapsPhoneFeature key && statesPhoneFeature features key

/-! ## Lists without keys -/

/-- Merge a list of named parts, which is written whole. A part that is still on the line
is the server's copy, and a part that the line never stated stays. New parts follow. -/
def mergeNamed {T : Type} (named : T → String × String) (wasStated : T → Bool) :
    (current spare : List T) → List T
  | [], spare => spare
  | part :: rest, spare =>
    let same (candidate : T) : Bool := named candidate == named part
    if spare.any same then part :: mergeNamed named wasStated rest (spare.eraseP same)
    else if wasStated part then mergeNamed named wasStated rest spare
    else part :: mergeNamed named wasStated rest spare

def listed {T : Type} (items : List T) : Option (List T) :=
  if items.isEmpty then none else some items

/-- The address components to write. Parts that one field joined are split again. -/
def mergeComponents (current edited : Option (List AddressComponent)) :
    Option (List AddressComponent) :=
  let current := current.getD []
  listed (mergeNamed (fun component => (component.kind, component.value)) statesAddressComponent
    current (restoreAddressComponents current (edited.getD [])))

/-- The server's unit that each edited unit has the name of, and the units that are left.
Units are given by their positions. -/
def matchUnits (current : List OrgUnit) :
    (spare : List Nat) → List OrgUnit → List (Option Nat) × List Nat
  | spare, [] => ([], spare)
  | spare, unit :: rest =>
    let origin := spare.find? fun index =>
      (current[index]?).any fun held => held.name == unit.name
    let later := matchUnits current (origin.elim spare spare.erase) rest
    (origin :: later.1, later.2)

/-- A renamed unit takes the place of a unit that is left, in order. -/
def pairUnits : List (Option Nat) → (spare : List Nat) → List (Option Nat)
  | [], _ => []
  | some index :: rest, spare => some index :: pairUnits rest spare
  | none :: rest, [] => none :: pairUnits rest []
  | none :: rest, index :: spare => some index :: pairUnits rest spare

/-- A unit with its name unchanged keeps the members of the server's unit. -/
def resolveUnit (current : List OrgUnit) (unit : OrgUnit) (origin : Option Nat) : OrgUnit :=
  ((origin.bind fun index => current[index]?).filter fun held => held.name == unit.name).getD unit

/-- Where the next unnamed unit goes. -/
structure UnitPlace where
  merged : List OrgUnit
  anchor : Option Nat := none
  shift : Nat := 0
  offset : Nat := 0

/-- An unnamed unit goes behind the visible unit that it followed. -/
def placeUnit (origins : List (Option Nat)) (place : UnitPlace) (unit : OrgUnit × Nat) :
    UnitPlace :=
  if statesOrgUnit unit.1 then
    match origins.idxOf? (some unit.2) with
    | some position => { place with anchor := some (position + place.shift), offset := 0 }
    | none => place
  else
    let insertAt := min (place.anchor.elim place.offset fun position =>
      position + 1 + place.offset) place.merged.length
    { place with
      merged := place.merged.insertIdx insertAt unit.1
      shift := place.shift + 1
      offset := place.offset + 1 }

/-- The units to write: those that `ORG` states, and the unnamed ones of the server. -/
def mergeUnits (current edited : Option (List OrgUnit)) : Option (List OrgUnit) :=
  let current := current.getD []
  let edited := edited.getD []
  let visible := (current.zipIdx.filter fun unit => statesOrgUnit unit.1).map Prod.snd
  let matched := matchUnits current visible edited
  let origins := pairUnits matched.1 matched.2
  let merged := List.zipWith (resolveUnit current) edited origins
  listed (current.zipIdx.foldl (placeUnit origins) { merged }).merged

/-! ## Keyed maps -/

/-- A keyed map of a card: what an entry is sent as, whether the vCard shows it, and the
patch of an entry under its path. -/
structure KeyedMap (T : Type) where
  property : String
  toJson : T → Value
  isVisible : T → Bool
  diffEntry : (path : String) → (old new : T) → Writes

def variantKey (wanted : String) (number : Nat) : String := wanted ++ "-" ++ toString number

/-- The key of an added entry: its own, or the first free variant. -/
def freeKey (wanted : String) (taken : BTreeSet String) : String :=
  if taken.contains wanted then
    variantKey wanted (nextFree taken.contains (variantKey wanted) (taken.entries.length + 1) 1)
  else wanted

namespace KeyedMap

variable {T : Type} (family : KeyedMap T)

def entryPath (key : String) : String := CalSync.entryPath family.property key

/-- The entries that the vCard shows. -/
def visible (map : BTreeMap String T) : BTreeMap String T :=
  map.retain fun _ entry => family.isVisible entry

/-- The loop over the edited entries. -/
def diffEdited (current : BTreeMap String T) :
    (taken : BTreeSet String) → (edited : List (String × T)) → Writes
  | _, [] => []
  | taken, (key, entry) :: rest =>
    match (family.visible current).get? key with
    | some existing =>
      family.diffEntry (family.entryPath key) existing entry ++ diffEdited current taken rest
    | none =>
      if (current.get? key).any fun hidden => family.toJson hidden = family.toJson entry then
        diffEdited current taken rest
      else
        let key := freeKey key taken
        (family.entryPath key, family.toJson entry) ::
          diffEdited current (BTreeSet.add taken key) rest

def diffEntries (current edited : Option (BTreeMap String T)) : Writes :=
  let current := current.getD ∅
  let edited := edited.getD ∅
  let visible := family.visible current
  let hidesSomething : Bool := visible.entries.length < current.entries.length
  if visible.isEmpty && edited.isEmpty then []
  else if visible.isEmpty && !hidesSomething then
    [(family.property, .ofEntries family.toJson edited)]
  else if edited.isEmpty then
    if hidesSomething then visible.keys.map fun key => (family.entryPath key, .null)
    else [(family.property, .null)]
  else
    family.diffEdited current (BTreeSet.ofElems current.keys) edited.entries ++
      (visible.keys.filter fun key => !edited.contains key).map fun key =>
        (family.entryPath key, .null)

end KeyedMap

/-- The loop of `rekeyKeyless`: an entry without a surviving key takes the key of the first
unclaimed entry that it pairs with. -/
def rekeyEntries {T : Type} (survived : String → Bool) (pairsWith : T → T → Bool) :
    (unclaimed edited : List (String × T)) → List (String × T)
  | _, [] => []
  | unclaimed, (key, entry) :: rest =>
    if survived key then (key, entry) :: rekeyEntries survived pairsWith unclaimed rest
    else
      match unclaimed.find? fun old => pairsWith old.2 entry with
      | some old =>
        (old.1, entry) ::
          rekeyEntries survived pairsWith (unclaimed.eraseP fun old => pairsWith old.2 entry) rest
      | none => (key, entry) :: rekeyEntries survived pairsWith unclaimed rest

/-- The edited entries under the server's keys, for maps whose key does not survive the
address book. -/
def rekeyKeyless {T : Type} (current edited : Option (BTreeMap String T)) (isVisible : T → Bool)
    (pairsWith : T → T → Bool) : Option (BTreeMap String T) :=
  edited.map fun edited =>
    let current := current.getD ∅
    let survived (key : String) : Bool := (current.get? key).any isVisible
    let unclaimed := current.entries.filter fun entry =>
      isVisible entry.2 && !edited.contains entry.1
    BTreeMap.ofList (rekeyEntries survived pairsWith unclaimed edited.entries)

/-! ## The keyed maps of a card -/

/-- Only the name crosses the vCard. -/
def nicknames : KeyedMap Nickname where
  property := "nicknames"
  toJson := Nickname.toJson
  isVisible := statesNickname
  diffEntry path old new := diffText path "name" old.name new.name

def emails : KeyedMap ContactEmail where
  property := "emails"
  toJson := ContactEmail.toJson
  isVisible := statesEmail
  diffEntry path old new :=
    diffText path "address" old.address new.address ++
      diffFlags path "contexts" old.contexts new.contexts mapsContext mapsContext ++
      diffPref path (entryPref old.pref old.extra) (entryPref new.pref new.extra)

def phones : KeyedMap ContactPhone where
  property := "phones"
  toJson := ContactPhone.toJson
  isVisible := statesPhone
  diffEntry path old new :=
    diffText path "number" old.number new.number ++
      diffFlags path "contexts" old.contexts new.contexts mapsContext
        (slottedContext old.contexts) ++
      diffFlags path "features" old.features new.features mapsPhoneFeature
        (slottedFeature old.features) ++
      diffPref path (entryPref old.pref old.extra) (entryPref new.pref new.extra)

def organizations : KeyedMap Organization where
  property := "organizations"
  toJson := Organization.toJson
  isVisible := statesOrganization
  diffEntry path old new :=
    let units := mergeUnits old.units new.units
    diffOptional path "name" (old.name.filter (· ≠ "")) (new.name.filter (· ≠ "")) ++
      if old.units.bind listed = units then []
      else [(below path "units",
        .ofOption (units.map fun units => .array (units.map OrgUnit.toJson)))]

/-- A title without a kind is of the default kind. -/
def titles : KeyedMap Title where
  property := "titles"
  toJson := Title.toJson
  isVisible := statesTitle
  diffEntry path old new :=
    diffText path "name" old.name new.name ++
      diffText path "kind" (titleKind old.kind) (titleKind new.kind)

def addresses : KeyedMap Address where
  property := "addresses"
  toJson := Address.toJson
  isVisible := statesAddress
  diffEntry path old new :=
    let components := mergeComponents old.components new.components
    (if old.components.bind listed = components then []
      else [(below path "components",
        .ofOption (components.map fun parts => .array (parts.map AddressComponent.toJson)))]) ++
      diffOptional path "full" (addressLabel old) (addressLabel new) ++
      diffFlags path "contexts" old.contexts new.contexts mapsContext
        (slottedContext old.contexts) ++
      diffPref path (entryPref old.pref old.extra) (entryPref new.pref new.extra)

def notes : KeyedMap Note where
  property := "notes"
  toJson := Note.toJson
  isVisible := statesNote
  diffEntry path old new := diffText path "note" old.note new.note

def links : KeyedMap Link where
  property := "links"
  toJson := Link.toJson
  isVisible := statesLink
  diffEntry path old new :=
    diffText path "uri" old.uri new.uri ++ diffOptional path "kind" old.kind new.kind

def calendars : KeyedMap Calendar where
  property := "calendars"
  toJson := Calendar.toJson
  isVisible := statesCalendar
  diffEntry path old new :=
    diffText path "uri" old.uri new.uri ++ diffOptional path "kind" old.kind new.kind

/-- Whether two media entries are drawn as the same line, whatever blobs they name. -/
def sameResolvedPhoto (base64 : Base64) (one other : Media) : Bool :=
  samePhoto base64 { one with blobId := none } { other with blobId := none }

/-- A photo on the server is compared by its line, not by its members. -/
def media (base64 : Base64) : KeyedMap Media where
  property := "media"
  toJson := Media.toJson
  isVisible := statesMedia base64
  diffEntry path old new :=
    if old.blobId.isSome && new.blobId.isNone && sameResolvedPhoto base64 old new then []
    else if samePhoto base64 old new then []
    else
      diffOptional path "uri" old.uri new.uri ++ diffOptional path "blobId" old.blobId new.blobId ++
        diffOptional path "mediaType" old.mediaType new.mediaType

def rebuiltUri (unicode : Unicode) (old new : OnlineService) (handle : String) : Option String :=
  if old.user.isNone then
    (new.service.or old.service).bind fun service => onlineServiceUri unicode service handle
  else none

/-- Write a handle that changed. A URI that names the old handle goes. -/
def diffHandle (unicode : Unicode) (path : String) (old new : OnlineService) (handle : String) :
    Writes :=
  match rebuiltUri unicode old new handle with
  | some uri => [(below path "uri", .string uri)]
  | none =>
    (below path "user", .ofText new.user) ::
      if old.uri.isSome then [(below path "uri", .null)] else []

def onlineServices (unicode : Unicode) : KeyedMap OnlineService where
  property := "onlineServices"
  toJson := OnlineService.toJson
  isVisible := statesOnlineService unicode
  diffEntry path old new :=
    let service :=
      if sameService unicode old.service new.service then []
      else [(below path "service", .ofText new.service)]
    if onlineServiceHandle unicode old = onlineServiceHandle unicode new then service
    else
      match onlineServiceHandle unicode new with
      -- an entry needs a handle
      | none => [(path, .null)]
      | some handle => diffHandle unicode path old new handle ++ service

def diffDay (path : String) (old : Anniversary) (date : Value) : Writes :=
  ["year", "month", "day"].flatMap fun member =>
    match date.get? member with
    | none => []
    | some value =>
      if old.date.bind (·.get? member) = some value then []
      else [(below path ("date/" ++ member), value)]

/-- A day replaces a point in time whole. -/
def anniversaries : KeyedMap Anniversary where
  property := "anniversaries"
  toJson := Anniversary.toJson
  isVisible := statesAnniversary
  diffEntry path old new :=
    diffText path "kind" old.kind new.kind ++
      if anniversaryDate old = anniversaryDate new then []
      else
        match new.date with
        | none => []
        | some date =>
          if statesAPointInTime old then [(below path "date", date)] else diffDay path old date

/-- Only the first photo can be edited, so a photo without a key is that one. -/
def diffMedia (base64 : Base64) (current edited : Option (BTreeMap String Media)) : Writes :=
  (media base64).diffEntries current
    (rekeyKeyless current edited (statesMedia base64) fun _ _ => true)

/-- A date without a key is paired by its kind. -/
def diffAnniversaries (current edited : Option (BTreeMap String Anniversary)) : Writes :=
  anniversaries.diffEntries current
    (rekeyKeyless current edited statesAnniversary fun old new => old.kind == new.kind)

/-! ## The name -/

def hasUnmappedNameMetadata (name : Name) : Bool :=
  name.isOrdered.isSome || name.sortAs.isSome ||
    name.extra.keys.any (fun key => key ≠ "fileAs" && key ≠ "file_as") ||
    (name.components.getD []).any fun component => !statesNameComponent component

def componentsJson (components : List NameComponent) : Value :=
  .array (components.map NameComponent.toJson)

/-- Take away what the vCard showed of a name, and the rest with it if it is of no use. -/
def removeName (current : Name) : Writes :=
  if hasUnmappedNameMetadata current then
    let components := current.components.getD []
    let kept := components.filter fun component => !statesNameComponent component
    (if current.full.isSome then [("name/full", .null)] else []) ++
      if kept.length = components.length then []
      else [("name/components", .ofOption ((listed kept).map componentsJson))]
  else [("name", .null)]

def mergeNameComponents (current edited : Name) : Option (List NameComponent) :=
  let held := current.components.getD []
  listed (mergeNamed (fun component => (component.kind, component.value)) statesNameComponent
    held (restoreNameComponents held (edited.components.getD [])))

def editName (current edited : Name) : Writes :=
  let components := mergeNameComponents current edited
  diffOptional "name" "full" (fullOf current) (fullOf edited) ++
    if current.components.bind listed = components then []
    else [("name/components", .ofOption (components.map componentsJson))]

def diffName (current edited : Option Name) : Writes :=
  if !current.any statesName && !edited.any statesName then []
  else
    match current, edited with
    | some current, some edited => editName current edited
    | some current, none => removeName current
    | none, some edited => [("name", edited.toJson)]
    | none, none => []

/-! ## Relations -/

def mappedRelations : List (String × (String → Relation → Bool)) :=
  [("spouse", statesSpouse), ("manager", statesManager), ("assistant", statesAssistant)]

def isMappedRelation (key : String) (relation : Relation) : Bool :=
  mappedRelations.any fun row => row.2 key relation

def shownRelations (states : String → Relation → Bool) (map : BTreeMap String Relation) :
    BTreeMap String Relation :=
  map.retain states

def holdsOnly (kinds : String → Bool) (relation : Relation) : Bool :=
  relation.extra.map.keys.all (· == "@type") &&
    (relation.relation.elim [] BTreeMap.keys).all kinds

def relationPath (key : String) : String := entryPath "relatedTo" key

def gainsOtherKind (current edited : BTreeMap String Relation) (kind key : String) : Bool :=
  (mappedRelations.filter fun row => row.1 ≠ kind).any fun row =>
    (edited.get? key).any (row.2 key) && !(current.get? key).any (row.2 key)

/-- Withdraw a relation. The entry goes if it holds nothing else. -/
def withdrawRelation (current edited : BTreeMap String Relation) (kind key : String)
    (relation : Relation) : String × Value :=
  if holdsOnly (· == kind) relation && !gainsOtherKind current edited kind key then
    (relationPath key, .null)
  else (below (relationPath key) ("relation/" ++ kind), .null)

/-- Add a relation. An entity that is new is written whole, once for all its kinds. -/
def addRelationKind (current : BTreeMap String Relation) (kind key : String) (relation : Relation)
    (patch : Writes) : Writes :=
  match current.get? key with
  | some existing =>
    patch ++
      [if existing.relation.isSome then
          (below (relationPath key) ("relation/" ++ kind), .bool true)
        else (below (relationPath key) "relation", .ofMembers [(kind, .bool true)])]
  | none =>
    if patch.any fun write => write.1 == relationPath key then patch
    else patch ++ [(relationPath key, relation.toJson)]

def diffRelationKind (current edited : BTreeMap String Relation) (patch : Writes)
    (row : String × (String → Relation → Bool)) : Writes :=
  let shown := shownRelations row.2 current
  let wanted := shownRelations row.2 edited
  if shown.keys = wanted.keys then patch
  else
    let withdrawn := (shown.entries.filter fun entry => !wanted.contains entry.1).map fun entry =>
      withdrawRelation current edited row.1 entry.1 entry.2
    (wanted.entries.filter fun entry => !shown.contains entry.1).foldl
      (fun patch entry => addRelationKind current row.1 entry.1 entry.2 patch) (patch ++ withdrawn)

def diffRelatedTo (current edited : Option (BTreeMap String Relation)) : Writes :=
  let current := current.getD ∅
  let edited := edited.getD ∅
  let wanted := edited.retain isMappedRelation
  if mappedRelations.all fun row =>
      (shownRelations row.2 current).keys = (shownRelations row.2 edited).keys then []
  else if current.isEmpty then
    if wanted.isEmpty then [] else [("relatedTo", .ofEntries Relation.toJson wanted)]
  else if wanted.isEmpty &&
      current.values.all (holdsOnly fun kind => mappedRelations.any fun row => row.1 == kind) then
    [("relatedTo", .null)]
  else mappedRelations.foldl (diffRelationKind current edited) []

/-! ## Members of a group -/

def shownMembers (members : BTreeMap String Bool) : BTreeMap String Bool :=
  members.retain statesMember

def diffMembers (current edited : Option (BTreeMap String Bool)) : Writes :=
  let current := current.getD ∅
  let shown := (shownMembers current).keys
  let wanted := (shownMembers (edited.getD ∅)).keys
  if shown = wanted then []
  else if current.isEmpty then
    if wanted.isEmpty then []
    else [("members", .ofMembers (wanted.map fun uid => (uid, .bool true)))]
  else
    ((shown.filter fun uid => !wanted.contains uid).map fun uid =>
        (entryPath "members" uid, .null)) ++
      (wanted.filter fun uid => !shown.contains uid).map fun uid =>
        (entryPath "members" uid, .bool true)

def diffVendorProperty (current edited : ContactCard) (name : String) : Writes :=
  if current.extra.map.get? name = edited.extra.map.get? name then []
  else [(name, .ofOption (edited.extra.map.get? name))]

/-! ## Tags -/

/-- Replace the tags. A tag that the vCard did not show is added to the new set. -/
def diffKeywords (current edited : ContactCard) : Writes :=
  let held := current.keywords.getD ∅
  let wanted := (held.retain fun tag set => !statesKeyword tag set).extend (edited.keywords.getD ∅)
  if wanted = held then [] else [("keywords", orNull wanted)]

/-! ## The patch -/

section
variable (unicode : Unicode) (base64 : Base64)

/-- The steps of the difference, each with its property. -/
def families (current edited : ContactCard) : List (String × Writes) :=
  [("name", diffName current.name edited.name),
    ("nicknames", nicknames.diffEntries current.nicknames edited.nicknames),
    ("emails", emails.diffEntries current.emails edited.emails),
    ("phones", phones.diffEntries current.phones edited.phones),
    ("organizations", organizations.diffEntries current.organizations edited.organizations),
    ("titles", titles.diffEntries current.titles edited.titles),
    ("addresses", addresses.diffEntries current.addresses edited.addresses),
    ("notes", notes.diffEntries current.notes edited.notes),
    ("anniversaries", diffAnniversaries current.anniversaries edited.anniversaries),
    ("links", links.diffEntries current.links edited.links),
    ("calendars", calendars.diffEntries current.calendars edited.calendars),
    ("media", diffMedia base64 current.media edited.media),
    ("onlineServices",
      (onlineServices unicode).diffEntries current.onlineServices edited.onlineServices),
    ("relatedTo", diffRelatedTo current.relatedTo edited.relatedTo),
    ("keywords", diffKeywords current edited),
    ("members", diffMembers current.members edited.members),
    (vendorBareMembers, diffVendorProperty current edited vendorBareMembers),
    (vendorMemberDetails, diffVendorProperty current edited vendorMemberDetails)]

def diff (current edited : ContactCard) : Patch :=
  BTreeMap.ofList ((families unicode base64 current edited).flatMap Prod.snd)

/-- The patch limited to the properties that differ between the base and the edited card,
without those that keep the server's value. -/
def diffSinceExcept (base current edited : ContactCard) (kept : BTreeSet String) : Patch :=
  let touched := diff unicode base64 base edited
  (diff unicode base64 current edited).retain fun path _ =>
    !kept.contains (property path) && touches touched (property path)

/-- What the user changed since `base`. -/
def diffSince (base current edited : ContactCard) : Patch :=
  diffSinceExcept unicode base64 base current edited ∅

/-- The properties that the user and a different client both changed. -/
def conflicts (base current edited : ContactCard) : BTreeSet String :=
  let remote := diff unicode base64 current base
  BTreeSet.ofElems
    (((diffSince unicode base64 base current edited).keys.map property).filter (touches remote))

end

end EvolutionJmap.BookSync
