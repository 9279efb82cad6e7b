import EvolutionJmap.BookSync.Patch
import EvolutionJmap.ObjectSync.Convergence
import EvolutionJmap.ObjectSync.Save
import EvolutionJmap.Vcard.Draw
import EvolutionJmap.Vcard.Read

/-!
# One address book (`jmap-book-sync/src/lib.rs`)

Listing, changes, and the save of an edit to a card that the server holds.  A photo on
the server is downloaded to be shown, and the members of a group are named by their ids
in a vCard and by their uids on the server.
-/

namespace EvolutionJmap

open Interaction

/-- Synchronises one JMAP address book. -/
structure BookSync where
  client : Client
  addressBookId : Id

namespace BookSync

open Vcard

/-- The libraries that the backend uses. -/
structure Libraries where
  calcard : Calcard
  unicode : Unicode
  base64 : Base64
  /-- The size of a card as a JSON text. -/
  cardOctets : ContactCard → Nat
  namesRequestLimit : Error → Bool

/-! ## Errors -/

inductive SyncError where
  | client (error : Error)
  | vCard (error : VCardError)
  | notFound (uid : String)
  | photoTooLarge (photoOctets : Nat)
  | outOfSync (uid : String)

def isRefusedForSize (libraries : Libraries) (error : Error) : Bool :=
  match error with
  | .set setError =>
    setError.errorType == "tooLarge" ||
      -- a server that gives the reason only in the description
      (setError.errorType == "invalidProperties" && (setError.properties.getD []).isEmpty &&
        setError.description.any (containsText · "exceeds the maximum allowed size"))
  | .requestTooLarge _ _ => true
  | .http 400 => libraries.namesRequestLimit error
  | _ => false

def isDataUri (uri : String) : Bool := (stripPrefixCi uri dataScheme).isSome

/-- The size of the content of a `data:` URI. -/
def decodedOctets (uri : String) : Nat :=
  match splitTextOnce ',' uri with
  | none => 0
  | some (header, payload) =>
    if (stripSuffixCi header base64Marker).isNone then Text.byteLength payload.toList
    else Text.byteLength (Text.trimEnd (· == '=') payload.toList) * 3 / 4

def inlinePhotos (card : ContactCard) : List String :=
  ((card.media.getD ∅).values.filter fun media => media.kind == some photoKind).filterMap
    fun media => media.uri.filter isDataUri

/-- What a refused save is reported as: the photos, if they are most of the card. -/
def refused (libraries : Libraries) (card : ContactCard) (error : Error) : SyncError :=
  let photos := inlinePhotos card
  let inlineOctets := (photos.map fun uri => Text.byteLength uri.toList).sum
  if inlineOctets = 0 || inlineOctets * 2 < libraries.cardOctets card ||
      !isRefusedForSize libraries error then
    .client error
  else .photoTooLarge (photos.map decodedOctets).sum

/-! ## Requests for other data -/

inductive Request where
  /-- The ids of the cards with a uid, all pages of the query. -/
  | cardsWithUid (uid : String)
  | downloadBlob (blobId : Id) (name : String) (limit : Nat)
  | uploadBlob (mediaType : String) (octets : List UInt8)

def Request.Answer : Request → Type
  | .cardsWithUid _ => List Id
  | .downloadBlob _ _ _ => List UInt8
  | .uploadBlob _ _ => Id

def lookups : Lookups := ⟨Request, Request.Answer⟩

/-- A program of the address book backend. -/
abbrev BookM (ε α : Type) : Type := ClientM lookups ContactCard ε α

variable {ε : Type}

def look (request : Request) : BookM ε (Option request.Answer) := do
  let outcome ← (ClientM.send (.lookup request : Call lookups)).attempt
  .done outcome.toOption

/-! ## Photos -/

/-- The largest photo that is downloaded to be shown. -/
def maxInlinePhotoBytes : Nat := 512 * 1024

/-- The blob and the media type of a photo that is not shown yet. -/
def pendingPhoto (media : Media) : Option (Id × String) :=
  if media.kind = some photoKind && media.uri.isNone then
    match media.blobId, media.mediaType with
    | some blobId, some mediaType =>
      if imagePrefix.toList.isPrefixOf mediaType.toList then some (blobId, mediaType) else none
    | _, _ => none
  else none

/-- Download the bytes of a photo. A photo that cannot be loaded stays as it is. -/
def resolvePhoto (base64 : Base64) (entry : String × Media) : BookM ε (String × Media) :=
  match pendingPhoto entry.2 with
  | none => .done entry
  | some (blobId, mediaType) => do
      let octets ← look (.downloadBlob blobId "photo" maxInlinePhotoBytes)
      match octets with
      | none => .done entry
      | some octets =>
        .done (entry.1, { entry.2 with uri := some (dataUriOf base64 (some mediaType) octets) })

def resolveInlinePhotos (base64 : Base64) (card : ContactCard) : BookM ε ContactCard :=
  match card.media with
  | none => .done card
  | some media => do
      let entries ← Program.forEach (resolvePhoto base64) media.entries
      .done { card with media := some (BTreeMap.ofList entries) }

def uploadPhoto (base64 : Base64) (patch : Patch) (path : String) : BookM ε Patch :=
  match (patch.get? path).bind Value.asStr with
  | none => .done patch
  | some uri =>
    match (dataUri uri).filter DataUri.base64 with
    | none => .done patch
    | some parsed =>
      match parsed.mediaType, base64.decode parsed.payload with
      | some mediaType, some octets => do
          let blobId ← look (.uploadBlob mediaType octets)
          match blobId with
          | none => .done patch
          | some blobId =>
            let stem := String.ofList (path.toList.take (path.toList.length - 3))
            .done ((patch.insert path .null).insert (stem ++ "blobId") (.string blobId))
      | _, _ => .done patch

def isPhotoUriPath (path : String) : Bool :=
  "media/".toList.isPrefixOf path.toList && "/uri".toList.isSuffixOf path.toList

def uploadPhotos {ε : Type} (base64 : Base64) : List String → Patch → BookM ε Patch
  | [], patch => .done patch
  | path :: paths, patch => do
      let patch ← uploadPhoto base64 patch path
      uploadPhotos base64 paths patch

def uploadInlinePhotos (base64 : Base64) (patch : Patch) : BookM ε Patch :=
  uploadPhotos base64 (patch.keys.filter isPhotoUriPath) patch

/-! ## Members of groups -/

def setVendor (extra : Extra cardProperties) (name : String) (isVendor : name ∉ cardProperties)
    (value : Option Value) : Extra cardProperties where
  map := value.elim (extra.map.erase name) (extra.map.insert name)
  unmodelled key member := by
    cases value with
    | none =>
      obtain ⟨held, found⟩ := extra.map.erase name |>.mem_keys.mp member
      rw [BTreeMap.get?_erase] at found
      split at found
      · cases found
      · exact extra.unmodelled key (extra.map.mem_keys.mpr ⟨held, found⟩)
    | some value =>
      obtain ⟨held, found⟩ := (extra.map.insert name value).mem_keys.mp member
      rw [BTreeMap.get?_insert] at found
      split at found
      · next same => exact same ▸ isVendor
      · exact extra.unmodelled key (extra.map.mem_keys.mpr ⟨held, found⟩)

def rekeyMemberDetails (card : ContactCard) (keys : BTreeMap String String) : ContactCard :=
  match (card.extra.map.get? vendorMemberDetails).bind Value.asObject with
  | none => card
  | some details =>
    let rekeyed := details.filterMap fun detail =>
      (keys.get? detail.1).map fun key => (key, detail.2)
    { card with
      extra := setVendor card.extra vendorMemberDetails (by decide)
        (if rekeyed.isEmpty then none else some (.ofMembers rekeyed)) }

/-- A member under another key. -/
structure Renamed where
  before : String
  after : String
  active : Bool

def withMembers (card : ContactCard) (found : List Renamed) : ContactCard :=
  rekeyMemberDetails
    { card with
      members := stated (BTreeMap.ofList (found.map fun member => (member.after, member.active))) }
    (BTreeMap.ofList (found.map fun member => (member.before, member.after)))

def resolveMemberId (member : String × Bool) : BookM ε (Option Renamed) := do
  let ids ← look (.cardsWithUid member.1)
  .done ((ids.bind List.head?).map fun id => ⟨member.1, id, member.2⟩)

def resolveMemberIds (card : ContactCard) : BookM ε ContactCard :=
  match card.members, statesGroupKind card.kind with
  | some members, true => do
      let found ← Program.forEach resolveMemberId members.entries
      .done (withMembers card (found.filterMap id))
  | _, _ => .done card

section
variable (libraries : Libraries) (sync : BookSync)

def cards : ObjectKind ContactCard where
  id card := card.id
  membership card := card.addressBookIds
  typeName := "ContactCard"
  aNoun := "a card"
  membershipName := "addressBookIds"
  diff := diff libraries.unicode libraries.base64
  diffSinceExcept := diffSinceExcept libraries.unicode libraries.base64
  conflicts := conflicts libraries.unicode libraries.base64

def memberUid (members : BTreeMap String Bool) (card : ContactCard) : Option Renamed :=
  card.id.bind fun id => (members.get? id).bind fun active =>
    card.uid.map fun uid => ⟨id, uid, active⟩

/-- Name the members of a group by their uids. If the cards cannot be read, there are
none. -/
def resolveMemberUids {ε : Type} (card : ContactCard) : BookM ε ContactCard :=
  match card.members, statesGroupKind card.kind with
  | some members, true => do
      let outcome ← ((cards libraries).get sync.client members.keys).attempt
      let found := (outcome.toOption.map GetResponse.list).getD []
      .done (withMembers card (found.filterMap (memberUid members)))
  | _, _ => .done card

/-! ## Reading -/

def componentText (name : Name) (kind : String) : Option String :=
  (((name.components.getD []).find? fun component => component.kind == kind).map
    fun component => trimText component.value).filter (· ≠ "")

def splitAtWhitespace : List Char → Option (List Char × List Char)
  | [] => none
  | char :: rest =>
    if Text.isWhitespace char then some ([], rest)
    else (splitAtWhitespace rest).map fun split => (char :: split.1, split.2)

/-- The surname and the given name, or the full name with its first word last. -/
def deriveFileAs (name : Name) : Option String :=
  match componentText name "surname", componentText name "given" with
  | some surname, some given => some (surname ++ ", " ++ given)
  | _, _ => do
      let full ← name.full
      let (first, rest) ← splitAtWhitespace (Text.trim full.toList)
      let rest := Text.trim rest
      if first.isEmpty || rest.isEmpty then none
      else some (String.ofList rest ++ ", " ++ String.ofList first)

def defaultFileAs (card : ContactCard) : ContactCard :=
  if statesFileAs card.name || statesGroupKind card.kind then card
  else
    match card.name with
    | none => card
    | some name =>
      match deriveFileAs name with
      | none => card
      | some derived =>
        { card with
          name := some { name with extra := name.extra.insert "fileAs" (.string derived) } }

/-- One card in the form that the meta backend uses. -/
structure ContactInfo where
  uid : String
  revision : String
  vcard : String
  deriving DecidableEq

def render (card : ContactCard) : BookM SyncError ContactInfo := do
  let uid ← .ofExcept (((cards libraries).idOf card).mapError .client)
  let card ← resolveInlinePhotos libraries.base64 card
  let card ← resolveMemberIds card
  let vcard := cardToVcard libraries.calcard libraries.unicode libraries.base64 (defaultFileAs card)
  .done ⟨uid, revisionOf vcard, vcard⟩

def listExisting : BookM SyncError (State × List ContactInfo) :=
  (cards libraries).listExisting .client sync.client sync.addressBookId (render libraries)

def getChanges (since : State) : BookM SyncError (Changes ContactInfo) :=
  (cards libraries).getChanges .client sync.client sync.addressBookId (render libraries) since

/-! ## Saving -/

/-- The copy of a card that a local edit started from. -/
structure Base where
  vcard : String
  onConflict : OnConflict

/-- The base copy as a card, with its members named by their uids. -/
def baseCard {ε : Type} (base : Base) : BookM ε (Except VCardError ContactCard) :=
  match vcardToCard libraries.calcard libraries.base64 base.vcard with
  | .error error => .done (.error error)
  | .ok card => do
      let card ← resolveMemberUids libraries sync card
      .done (.ok card)

/-- The patch against the server's copy of the card. The photos of the copy are inline,
as they were shown. -/
def patchFor (uid : String) (base : Option Base) (card current : ContactCard) :
    BookM SyncError Patch := do
  let resolved ← resolveInlinePhotos libraries.base64 current
  match base with
  | none => .done (diff libraries.unicode libraries.base64 resolved card)
  | some base =>
    let baseCard ← baseCard libraries sync base
    match (cards libraries).patchSince baseCard base.onConflict resolved card with
    | some patch => .done patch
    | none => .fail (.outOfSync uid)

/-- The address book's part in the update of a card. -/
def saving (uid : String) (base : Option Base) (card : ContactCard) :
    Saving lookups ContactCard SyncError ContactInfo where
  ofClient := .client
  notFound := .notFound
  plan current := do
    let patch ← patchFor libraries sync uid base card current
    .done (patch, none)
  complete patch := uploadInlinePhotos libraries.base64 patch
  refused error _ := refused libraries card error
  render := render libraries

/-- Compute and send the update for `uid`, guarded by `ifInState`. -/
def writeUpdate (uid : String) (base : Option Base) (card : ContactCard) (retry : Bool) :
    BookM SyncError ContactInfo :=
  (cards libraries).writeUpdate (saving libraries sync uid base card) sync.client uid retry

end

end BookSync

end EvolutionJmap
