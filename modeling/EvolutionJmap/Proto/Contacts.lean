import EvolutionJmap.Proto.Calendars

/-!
# Contact cards (`jmap-proto/src/contacts.rs`)

A JSContact card (RFC 9553) with the JMAP properties `id` and `addressBookIds`.
Properties that no modelled function reads or writes are left out; the server keeps
them, since a save only sends a patch.  An entry of a keyed map is sent whole when it is
new, so the types of the entries are complete.
-/

namespace EvolutionJmap

/-! ## Types -/

structure NameComponent where
  (kind value : String)
  extra : ValueMap := ∅
  deriving DecidableEq, Inhabited

structure Name where
  components : Option (List NameComponent) := none
  full : Option String := none
  isOrdered : Option Bool := none
  sortAs : Option (BTreeMap String String) := none
  defaultSeparator : Option String := none
  extra : ValueMap := ∅
  deriving DecidableEq, Inhabited

structure Nickname where
  name : String := ""
  contexts : Option Value := none
  pref : Option Nat := none
  extra : ValueMap := ∅
  deriving DecidableEq, Inhabited

structure ContactEmail where
  address : String := ""
  contexts : Option Value := none
  pref : Option Nat := none
  extra : ValueMap := ∅
  deriving DecidableEq, Inhabited

structure ContactPhone where
  number : String := ""
  (features contexts : Option Value := none)
  pref : Option Nat := none
  extra : ValueMap := ∅
  deriving DecidableEq, Inhabited

structure OrgUnit where
  name : String := ""
  sortAs : Option String := none
  extra : ValueMap := ∅
  deriving DecidableEq, Inhabited

structure Organization where
  name : Option String := none
  units : Option (List OrgUnit) := none
  sortAs : Option String := none
  contexts : Option Value := none
  extra : ValueMap := ∅
  deriving DecidableEq, Inhabited

structure Title where
  name : String := ""
  (kind organizationId : Option String := none)
  extra : ValueMap := ∅
  deriving DecidableEq, Inhabited

structure AddressComponent where
  (kind value : String := "")
  extra : ValueMap := ∅
  deriving DecidableEq, Inhabited

structure Address where
  components : Option (List AddressComponent) := none
  contexts : Option Value := none
  full : Option String := none
  isOrdered : Option Bool := none
  (countryCode coordinates timeZone : Option String := none)
  pref : Option Nat := none
  defaultSeparator : Option String := none
  /-- The vCard reader files a preference here. -/
  extra : ValueMap := ∅
  deriving DecidableEq, Inhabited

structure Note where
  note : String := ""
  created : Option String := none
  author : Option Value := none
  extra : ValueMap := ∅
  deriving DecidableEq, Inhabited

structure Anniversary where
  kind : String := ""
  /-- A `PartialDate` or a `Timestamp`. -/
  date : Option Value := none
  extra : Extra ["kind", "date"] := ∅
  deriving DecidableEq, Inhabited

structure Link where
  uri : String := ""
  kind : Option String := none
  contexts : Option Value := none
  mediaType : Option String := none
  pref : Option Nat := none
  label : Option String := none
  /-- The vCard reader files a label here. -/
  extra : ValueMap := ∅
  deriving DecidableEq, Inhabited

structure Calendar where
  kind : Option String := none
  uri : String := ""
  contexts : Option Value := none
  mediaType : Option String := none
  pref : Option Nat := none
  label : Option String := none
  extra : ValueMap := ∅
  deriving DecidableEq, Inhabited

structure SchedulingAddress where
  uri : String := ""
  contexts : Option Value := none
  pref : Option Nat := none
  label : Option String := none
  extra : ValueMap := ∅
  deriving DecidableEq, Inhabited

structure Media where
  (kind uri : Option String := none)
  blobId : Option Id := none
  mediaType : Option String := none
  contexts : Option Value := none
  pref : Option Nat := none
  label : Option String := none
  extra : ValueMap := ∅
  deriving DecidableEq, Inhabited

structure OnlineService where
  (service user uri : Option String := none)
  contexts : Option Value := none
  pref : Option Nat := none
  label : Option String := none
  extra : ValueMap := ∅
  deriving DecidableEq, Inhabited

/-- How a card is related to the entity under whose name the relation is filed. -/
structure Relation where
  relation : Option ValueMap := none
  extra : Extra ["relation"] := ∅
  deriving DecidableEq, Inhabited

def cardProperties : List String :=
  ["id", "addressBookIds", "@type", "kind", "version", "members", "uid", "name", "nicknames",
    "emails", "phones", "organizations", "titles", "addresses", "notes", "anniversaries",
    "links", "calendars", "schedulingAddresses", "media", "onlineServices", "keywords",
    "relatedTo"]

/-- A JSContact card on the server. -/
structure ContactCard where
  id : Option Id := none
  addressBookIds : Option (BTreeMap Id Bool) := none
  (kind version : Option String := none)
  members : Option (BTreeMap String Bool) := none
  uid : Option String := none
  name : Option Name := none
  nicknames : Option (BTreeMap String Nickname) := none
  emails : Option (BTreeMap String ContactEmail) := none
  phones : Option (BTreeMap String ContactPhone) := none
  organizations : Option (BTreeMap String Organization) := none
  titles : Option (BTreeMap String Title) := none
  addresses : Option (BTreeMap String Address) := none
  notes : Option (BTreeMap String Note) := none
  anniversaries : Option (BTreeMap String Anniversary) := none
  links : Option (BTreeMap String Link) := none
  calendars : Option (BTreeMap String Calendar) := none
  schedulingAddresses : Option (BTreeMap String SchedulingAddress) := none
  media : Option (BTreeMap String Media) := none
  onlineServices : Option (BTreeMap String OnlineService) := none
  keywords : Option ValueMap := none
  relatedTo : Option (BTreeMap String Relation) := none
  /-- Properties that the type does not model. -/
  extra : Extra cardProperties := ∅
  deriving DecidableEq, Inhabited

/-! ## Serialisation -/

namespace Value

/-- A preference rank or another small number. -/
def ofRank (rank : Option Nat) : Option Value := rank.map fun rank => .int rank

def ofEntries {T : Type} (toJson : T → Value) (map : BTreeMap String T) : Value :=
  .ofMap (map.mapValues fun _ entry => toJson entry)

end Value

def NameComponent.toJson (component : NameComponent) : Value :=
  .ofFields [("kind", some (.string component.kind)), ("value", some (.string component.value))]
    component.extra

def Name.toJson (name : Name) : Value :=
  .ofFields
    [("components", name.components.map fun parts => .array (parts.map NameComponent.toJson)),
      ("full", name.full.map .string), ("isOrdered", name.isOrdered.map .bool),
      ("sortAs", name.sortAs.map (.ofEntries .string)),
      ("defaultSeparator", name.defaultSeparator.map .string)]
    name.extra

def Nickname.toJson (nickname : Nickname) : Value :=
  .ofFields
    [("name", some (.string nickname.name)), ("contexts", nickname.contexts),
      ("pref", Value.ofRank nickname.pref)]
    nickname.extra

def ContactEmail.toJson (email : ContactEmail) : Value :=
  .ofFields
    [("address", some (.string email.address)), ("contexts", email.contexts),
      ("pref", Value.ofRank email.pref)]
    email.extra

def ContactPhone.toJson (phone : ContactPhone) : Value :=
  .ofFields
    [("number", some (.string phone.number)), ("features", phone.features),
      ("contexts", phone.contexts), ("pref", Value.ofRank phone.pref)]
    phone.extra

def OrgUnit.toJson (unit : OrgUnit) : Value :=
  .ofFields [("name", some (.string unit.name)), ("sortAs", unit.sortAs.map .string)] unit.extra

def Organization.toJson (organization : Organization) : Value :=
  .ofFields
    [("name", organization.name.map .string),
      ("units", organization.units.map fun units => .array (units.map OrgUnit.toJson)),
      ("sortAs", organization.sortAs.map .string), ("contexts", organization.contexts)]
    organization.extra

def Title.toJson (title : Title) : Value :=
  .ofFields
    [("name", some (.string title.name)), ("kind", title.kind.map .string),
      ("organizationId", title.organizationId.map .string)]
    title.extra

def AddressComponent.toJson (component : AddressComponent) : Value :=
  .ofFields [("kind", some (.string component.kind)), ("value", some (.string component.value))]
    component.extra

def Address.toJson (address : Address) : Value :=
  .ofFields
    [("components",
        address.components.map fun parts => .array (parts.map AddressComponent.toJson)),
      ("contexts", address.contexts), ("full", address.full.map .string),
      ("isOrdered", address.isOrdered.map .bool), ("countryCode", address.countryCode.map .string),
      ("coordinates", address.coordinates.map .string),
      ("timeZone", address.timeZone.map .string), ("pref", Value.ofRank address.pref),
      ("defaultSeparator", address.defaultSeparator.map .string)]
    address.extra

def noteAuthor : Value → Value
  | .string name => .ofMembers [("@type", .string "Author"), ("name", .string name)]
  | author => author

def Note.toJson (note : Note) : Value :=
  .ofFields
    [("note", some (.string note.note)), ("created", note.created.map .string),
      ("author", note.author.map noteAuthor)]
    note.extra

def parseIsoPartialDate (text : String) : Option Value :=
  let number (part : String) : Option Value :=
    (Text.parseUnsigned 32 part.toList).map fun number => .int number
  let year (part : String) : Option Value := (Text.parseSigned 32 part.toList).map .int
  let partialDate (members : List (String × Value)) : Value :=
    .ofMembers (("@type", .string "PartialDate") :: members)
  match splitText '-' text with
  | [y, m, d] => do
      let year ← year y
      let month ← number m
      let day ← number d
      some (partialDate [("year", year), ("month", month), ("day", day)])
  | [y, m] => do
      let year ← year y
      let month ← number m
      some (partialDate [("year", year), ("month", month)])
  | [y] =>
    if Text.byteLength y.toList = 4 then (year y).map fun year => partialDate [("year", year)]
    else none
  | _ => none

def anniversaryDateJson : Value → Value
  | .string text => (parseIsoPartialDate text).getD (.string text)
  | date => date

def Anniversary.toJson (anniversary : Anniversary) : Value :=
  .ofFields
    [("kind", some (.string anniversary.kind)), ("date", anniversary.date.map anniversaryDateJson)]
    anniversary.extra.map

def Link.toJson (link : Link) : Value :=
  .ofFields
    [("uri", some (.string link.uri)), ("kind", link.kind.map .string),
      ("contexts", link.contexts), ("mediaType", link.mediaType.map .string),
      ("pref", Value.ofRank link.pref), ("label", link.label.map .string)]
    link.extra

def Calendar.toJson (calendar : Calendar) : Value :=
  .ofFields
    [("kind", calendar.kind.map .string), ("uri", some (.string calendar.uri)),
      ("contexts", calendar.contexts), ("mediaType", calendar.mediaType.map .string),
      ("pref", Value.ofRank calendar.pref), ("label", calendar.label.map .string)]
    calendar.extra

def Media.toJson (media : Media) : Value :=
  .ofFields
    [("kind", media.kind.map .string), ("uri", media.uri.map .string),
      ("blobId", media.blobId.map .string), ("mediaType", media.mediaType.map .string),
      ("contexts", media.contexts), ("pref", Value.ofRank media.pref),
      ("label", media.label.map .string)]
    media.extra

def OnlineService.toJson (service : OnlineService) : Value :=
  .ofFields
    [("service", service.service.map .string), ("user", service.user.map .string),
      ("uri", service.uri.map .string), ("contexts", service.contexts),
      ("pref", Value.ofRank service.pref), ("label", service.label.map .string)]
    service.extra

def Relation.toJson (relation : Relation) : Value :=
  .ofFields [("relation", relation.relation.map .ofMap)] relation.extra.map

end EvolutionJmap
