import EvolutionJmap.Proto.Contacts
import EvolutionJmap.Vcard.Line

/-!
# What a vCard line can state (`jmap-vcard/src/contact.rs`)

The tables that both directions share, and the predicates that say whether an entry of a
card reaches the user, which a save uses so as not to read a missing line as a removal.
-/

namespace EvolutionJmap.Vcard

/-! ## Names of properties -/

def xJmapUid : String := "X-JMAP-UID"

def xEvolutionAnniversary : String := "X-EVOLUTION-ANNIVERSARY"

def xEvolutionSpouse : String := "X-EVOLUTION-SPOUSE"

def xEvolutionManager : String := "X-EVOLUTION-MANAGER"

def xEvolutionAssistant : String := "X-EVOLUTION-ASSISTANT"

def xEvolutionBlogUrl : String := "X-EVOLUTION-BLOG-URL"

def xEvolutionVideoUrl : String := "X-EVOLUTION-VIDEO-URL"

def xEvolutionList : String := "X-EVOLUTION-LIST"

def xEvolutionListShowAddresses : String := "X-EVOLUTION-LIST-SHOW-ADDRESSES"

def xEvolutionDestContactUid : String := "X-EVOLUTION-DEST-CONTACT-UID"

/-- An older name of the same parameter. -/
def xEvolutionContactListUid : String := "X-EVOLUTION-CONTACT-LIST-UID"

def xEvolutionDestEmail : String := "X-EVOLUTION-DEST-EMAIL"

def xEvolutionDestName : String := "X-EVOLUTION-DEST-NAME"

def xEvolutionFileAs : String := "X-EVOLUTION-FILE-AS"

def vendorListShowAddresses : String := "evolution-jmap.org:listShowAddresses"

/-- List addresses without a contact. -/
def vendorBareMembers : String := "evolution-jmap.org:bareMembers"

/-- Names and addresses of the members that are contacts. -/
def vendorMemberDetails : String := "evolution-jmap.org:memberDetails"

/-! ## Texts -/

def edgedWithWhitespace (text : String) : Bool :=
  let whitespace (char : Char) : Bool := char ∈ [' ', '\t', '\n', '\x0b', '\x0c', '\r']
  text.toList.head?.any whitespace || text.toList.getLast?.any whitespace

/-- The text behind a beginning that is compared without case. -/
def stripPrefixCi (value front : String) : Option String :=
  match Text.splitAtByte (Text.byteLength front.toList) value.toList with
  | none => none
  | some (start, rest) =>
    if eqIgnoreAsciiCase (String.ofList start) front then some (String.ofList rest) else none

/-- The text before an end that is compared without case. -/
def stripSuffixCi (value back : String) : Option String :=
  let length := Text.byteLength value.toList
  let size := Text.byteLength back.toList
  if length < size then none
  else
    match Text.splitAtByte (length - size) value.toList with
    | none => none
    | some (rest, tail) =>
      if eqIgnoreAsciiCase (String.ofList tail) back then some (String.ofList rest) else none

/-! ## Groups -/

def groupKind : String := "group"

variable (kind : Option String)

def statesGroupKind : Bool := kind == some groupKind

/-- Whether a text can stand in a parameter and comes back as it is. -/
def isDrawableGroupToken (value : String) : Bool :=
  value ≠ "" && !containsChar value '\r' && !edgedWithWhitespace value &&
    !value.toList.any fun char => Text.isControl char && char != '\n' && char != '\t'

def statesMember (uid : String) (active : Bool) : Bool := active && isDrawableGroupToken uid

/-! ## Names -/

/-- The kinds of name components and their fields in an `N` value. -/
def nameComponents : List (String × Nat) :=
  [("title", 3), ("given", 1), ("given2", 2), ("surname", 0), ("credential", 4)]

def fieldOf (table : List (String × Nat)) (kind : String) : Option Nat :=
  (table.find? fun row => row.1 == kind).map Prod.snd

def nameField (kind : String) : Option Nat := fieldOf nameComponents kind

def statesNameComponent (component : NameComponent) : Bool :=
  component.value ≠ "" && (nameField component.kind).isSome

def deriveFull (name : Name) : Option String :=
  match name.components with
  | none => none
  | some components =>
    let parts := nameComponents.flatMap fun row =>
      (components.filter fun component =>
        component.kind == row.1 && component.value ≠ "").map NameComponent.value
    if parts = [] then none else some (joined ' ' parts)

def fileAsOf (extra : ValueMap) : Option Value := (extra.get? "fileAs").or (extra.get? "file_as")

def statesFileAs (name : Option Name) : Bool :=
  ((name.bind fun name => fileAsOf name.extra).bind Value.asStr).any fun text => trimText text ≠ ""

def fullOf (name : Name) : Option String := name.full.filter (· ≠ "")

def statesName (name : Name) : Bool :=
  (fullOf name).isSome || (deriveFull name).isSome ||
    (name.components.getD []).any statesNameComponent || statesFileAs (some name)

/-- Put texts into numbered fields. Texts of one field are joined with spaces. -/
def fillFields : List (Nat × String) → List String → List String
  | [], fields => fields
  | (index, text) :: rest, fields =>
    let held := fields.getD index ""
    fillFields rest (fields.set index (if held = "" then text else held ++ " " ++ text))

def fieldTexts {T : Type} (field : T → Option Nat) (value : T → String) (parts : List T) :
    List (Nat × String) :=
  parts.filterMap fun part =>
    match field part with
    | none => none
    | some index => if value part = "" then none else some (index, value part)

def structuredFields {T : Type} (count : Nat) (field : T → Option Nat) (value : T → String)
    (parts : Option (List T)) : Option (List String) :=
  match parts with
  | none => none
  | some parts =>
    let texts := fieldTexts field value parts
    if texts = [] then none else some (fillFields texts (List.replicate count ""))

/-- The fields of an `N` value. -/
def nameFields (name : Name) : Option (List String) :=
  structuredFields 5 (fun component => nameField component.kind) NameComponent.value
    name.components

/-! ## Types -/

/-- The contexts and their `TYPE` values. -/
def contexts : List (String × String) := [("work", "WORK"), ("private", "HOME")]

/-- The phone features and their `TYPE` values, the most specific first. -/
def phoneFeatures : List (String × String) :=
  [("mobile", "CELL"), ("pager", "PAGER"), ("fax", "FAX"), ("voice", "VOICE"),
    ("video", "VIDEO")]

def phoneFeatureTypes : List (String × List String) :=
  [("mobile", ["CELL", "MOBILE"]), ("pager", ["PAGER"]), ("fax", ["FAX"]),
    ("voice", ["VOICE"]), ("video", ["VIDEO"])]

/-- The context of a line without one. -/
def defaultSlot : String := "HOME"

def mapsContext (key : String) : Bool := contexts.any fun row => row.1 == key

def mapsPhoneFeature (key : String) : Bool := phoneFeatures.any fun row => row.1 == key

/-- The `TYPE` values of a boolean map. -/
def typeNames (table : List (String × String)) (value : Option Value) : List String :=
  match value with
  | some (.object flags) =>
    (table.filter fun row => Entries.get? row.1 flags = some (.bool true)).map Prod.snd
  | _ => []

def contextSlot (value : Option Value) : Option String :=
  match typeNames contexts value with
  | [] => none
  | [stated] => some stated
  | _ => some defaultSlot

def statesContext (value : Option Value) (key : String) : Bool :=
  (contextSlot value).any fun slot => contexts.any fun row => row.1 == key && row.2 == slot

def featureSlot (value : Option Value) : Option String := (typeNames phoneFeatures value).head?

def statesPhoneFeature (value : Option Value) (key : String) : Bool :=
  (featureSlot value).any fun slot => phoneFeatures.any fun row => row.1 == key && row.2 == slot

/-! ## Addresses -/

/-- The kinds of address components and their fields in an `ADR` value. -/
def addressComponents : List (String × Nat) :=
  [("postOfficeBox", 0), ("apartment", 1), ("name", 2), ("locality", 3), ("region", 4),
    ("postcode", 5), ("country", 6)]

/-- Kinds that share the field of another kind. -/
def joinedComponents : List (String × String) := [("number", "name")]

def addressField (kind : String) : Option Nat :=
  (fieldOf addressComponents kind).or
    ((joinedComponents.find? fun row => row.1 == kind).bind fun row =>
      fieldOf addressComponents row.2)

def statesAddressComponent (component : AddressComponent) : Bool :=
  component.value ≠ "" && (addressField component.kind).isSome

/-- The fields of an `ADR` value. -/
def addressFields (address : Address) : Option (List String) :=
  structuredFields addressComponents.length (fun component => addressField component.kind)
    AddressComponent.value address.components

/-- The text of a `LABEL` line. -/
def addressLabel (address : Address) : Option String := address.full.filter (· ≠ "")

def statesAddress (address : Address) : Bool :=
  (addressFields address).isSome || (addressLabel address).isSome

/-- The rank of an entry, stated in its own field or among the other members. -/
def entryPref (pref : Option Nat) (extra : ValueMap) : Option Nat :=
  pref.or (((extra.get? "pref").bind Value.asU64).filter (· < 2 ^ 32))

def addressPref (address : Address) : Option Nat := entryPref address.pref address.extra

/-! ## Restoring joined fields -/

/-- The parts of one field that a line shows. -/
def shownIn {T : Type} (field : T → Option Nat) (value : T → String) (parts : List T)
    (index : Nat) : List T :=
  parts.filter fun part => field part == some index && value part ≠ ""

/-- Put the parts of one field back in place of the one part that joins them. -/
def restoreField {T : Type} (current : List T) (field : T → Option Nat) (value : T → String)
    (restored : List T) (index : Nat) : List T :=
  let parts := shownIn field value current index
  if parts.isEmpty then restored
  else
    match restored.filter (field · == some index) with
    | [part] =>
      if value part = joined ' ' (parts.map value) then
        restored.flatMap fun held => if field held == some index then parts else [held]
      else restored
    | _ => restored

/-- Split the joined fields that an edit left alone. -/
def restoreSharedFields {T : Type} (current edited : List T) (fields : List Nat)
    (field : T → Option Nat) (value : T → String) : List T :=
  fields.foldl (restoreField current field value) edited

def restoreAddressComponents (current edited : List AddressComponent) : List AddressComponent :=
  restoreSharedFields current edited (addressComponents.map Prod.snd)
    (fun component => addressField component.kind) AddressComponent.value

def restoreNameComponents (current edited : List NameComponent) : List NameComponent :=
  restoreSharedFields current edited (nameComponents.map Prod.snd)
    (fun component => nameField component.kind) NameComponent.value

/-! ## Entries with one text -/

def statesNote (note : Note) : Bool := note.note ≠ ""

def statesNickname (nickname : Nickname) : Bool := nickname.name ≠ ""

def statesEmail (email : ContactEmail) : Bool := email.address ≠ ""

def statesPhone (phone : ContactPhone) : Bool := phone.number ≠ ""

def defaultTitleKind : String := "title"

def titleKinds : List (String × String) := [("title", "TITLE"), ("role", "ROLE")]

def titleKind : String := kind.getD defaultTitleKind

def mapsTitleKind : Bool :=
  titleKinds.any fun row => row.1 == titleKind kind

def statesTitle (title : Title) : Bool := title.name ≠ "" && mapsTitleKind title.kind

def linkProperty : Option String → Option String
  | none => some "URL"
  | some "blog" => some xEvolutionBlogUrl
  | some "video" => some xEvolutionVideoUrl
  | _ => none

def mapsLinkKind : Bool := (linkProperty kind).isSome

def statesLink (link : Link) : Bool :=
  link.uri ≠ "" && !edgedWithWhitespace link.uri && !containsChar link.uri '\r' &&
    mapsLinkKind link.kind

def calendarKinds : List (String × String) := [("calendar", "CALURI"), ("freeBusy", "FBURL")]

/-- The second text of the first row with the given first text. -/
def rowOf (table : List (String × String)) (value : String) : Option String :=
  (table.find? fun row => row.1 == value).map Prod.snd

/-- The first text of the first row with the given second text. -/
def rowBack (table : List (String × String)) (value : String) : Option String :=
  (table.find? fun row => row.2 == value).map Prod.fst

def calendarProperty : Option String := kind.bind (rowOf calendarKinds)

def calendarKind (property : String) : Option String := rowBack calendarKinds property

def statesCalendar (calendar : Calendar) : Bool :=
  calendar.uri ≠ "" && (calendarProperty calendar.kind).isSome

def statesSchedulingAddress (address : SchedulingAddress) : Bool := address.uri ≠ ""

/-! ## Organisations -/

def statesOrgUnit (unit : OrgUnit) : Bool := unit.name ≠ ""

/-- The values of an `ORG` line: the name and the units. -/
def organizationComponents (organization : Organization) : Option (List String) :=
  let name := organization.name.getD ""
  let units := ((organization.units.getD []).filter statesOrgUnit).map OrgUnit.name
  if name = "" && units.isEmpty then none else some (name :: units)

def statesOrganization (organization : Organization) : Bool :=
  (organizationComponents organization).isSome

/-! ## Relations and tags -/

def hasRelationType (relation : Relation) (expected : String) : Bool :=
  relation.relation.bind (·.get? expected) = some (.bool true)

/-- Whether a key of `relatedTo` is the name of a person. -/
def namesAPerson (key : String) : Bool :=
  key ≠ "" && !hasUriScheme key && !edgedWithWhitespace key && !containsChar key '\r'

def statesRelation (kind key : String) (relation : Relation) : Bool :=
  hasRelationType relation kind && namesAPerson key

def statesSpouse : String → Relation → Bool := statesRelation "spouse"

def statesManager : String → Relation → Bool := statesRelation "manager"

def statesAssistant : String → Relation → Bool := statesRelation "assistant"

def statesKeyword (tag : String) (set : Value) : Bool :=
  set = .bool true && tag ≠ "" && !containsChar tag '\r' && !edgedWithWhitespace tag

/-! ## Photos -/

structure DataUri where
  mediaType : Option String
  base64 : Bool
  payload : String
  deriving DecidableEq, Repr

def dataScheme : String := "data:"

def base64Marker : String := ";base64"

def imagePrefix : String := "image/"

def dataUri (value : String) : Option DataUri :=
  match (stripPrefixCi value dataScheme).bind (splitTextOnce ',') with
  | none => none
  | some (metadata, payload) =>
    let stated := stripSuffixCi metadata base64Marker
    let metadata := stated.getD metadata
    some ⟨if metadata = "" then none else some metadata, stated.isSome, payload⟩

def imageSubtype (mediaType : String) : Option String :=
  let name := String.ofList (Text.trim (mediaType.toList.takeWhile (· ≠ ';')))
  (stripPrefixCi name imagePrefix).filter (· ≠ "")

def decoded (base64 : Base64) (payload : String) : Option (List UInt8) :=
  (base64.decode payload).or (base64.decodeUnpadded payload)

def statesRemotePhotoUri (uri : String) : Bool :=
  (uriScheme uri).any fun scheme =>
    eqIgnoreAsciiCase scheme "http" || eqIgnoreAsciiCase scheme "https"

def statesUnsupportedPhotoUri (uri : String) : Bool :=
  (uriScheme uri).any fun scheme =>
    !eqIgnoreAsciiCase scheme "http" && !eqIgnoreAsciiCase scheme "https" &&
      !eqIgnoreAsciiCase scheme "data"

def statesEmptySchemePhotoUri (uri : String) : Bool := "://".toList.isPrefixOf uri.toList

/-- What a `PHOTO` line states: the bytes, or where to fetch them. -/
inductive Photo where
  | inline (subtype : Option String) (base64 : String)
  | uri (uri : String)
  deriving DecidableEq, Repr

def photoKind : String := "photo"

def photo (base64 : Base64) (media : Media) : Option Photo :=
  if media.kind ≠ some photoKind then none
  else
    match media.uri with
    | none => none
    | some uri =>
      if uri = "" then none
      else
        match dataUri uri with
        | none => if statesRemotePhotoUri uri then some (.uri uri) else none
        | some parsed =>
          if !parsed.base64 then none
          else
            (decoded base64 parsed.payload).map fun octets =>
              .inline (imageSubtype (media.mediaType.getD (parsed.mediaType.getD "")))
                (base64.encode octets)

def statesMedia (base64 : Base64) (media : Media) : Bool := (photo base64 media).isSome

/-- Whether two media entries are drawn as the same line. -/
def samePhoto (base64 : Base64) (one other : Media) : Bool :=
  if one.blobId.isSome || other.blobId.isSome then one.blobId == other.blobId
  else
    match photo base64 one, photo base64 other with
    | none, none => true
    | some (.uri one), some (.uri other) => one == other
    | some (.inline one ours), some (.inline other theirs) =>
      ours == theirs && eqIgnoreAsciiCase (one.getD "") (other.getD "")
    | _, _ => false

/-! ## Online services -/

def onlineServices : List (String × String) :=
  [("AIM", "X-AIM"), ("Gadu-Gadu", "X-GADUGADU"), ("Google Talk", "X-GOOGLE-TALK"),
    ("GroupWise", "X-GROUPWISE"), ("ICQ", "X-ICQ"), ("Jabber", "X-JABBER"), ("MSN", "X-MSN"),
    ("Matrix", "X-MATRIX"), ("Skype", "X-SKYPE"), ("Yahoo", "X-YAHOO")]

def serviceSchemes : List (String × String) :=
  [("AIM", "aim"), ("AIM", "aol"), ("Gadu-Gadu", "gg"), ("Gadu-Gadu", "gadugadu"),
    ("Gadu-Gadu", "gadu"), ("Google Talk", "xmpp"), ("Google Talk", "gtalk"),
    ("GroupWise", "groupwise"), ("GroupWise", "novell"), ("ICQ", "icq"), ("Jabber", "xmpp"),
    ("Jabber", "jabber"), ("MSN", "msn"), ("MSN", "msnim"), ("Matrix", "matrix"),
    ("Skype", "skype"), ("Yahoo", "yahoo"), ("Yahoo", "ymsgr")]

/-- Whether the rest of a URI is a bare handle. -/
def plainHandle (handle : String) : Bool :=
  handle ≠ "" && !handle.toList.any fun char =>
    char ∈ ['/', '?', '#', '%'] || Text.isWhitespace char || Text.isControl char

section
variable (unicode : Unicode)

/-- A service name without punctuation, spaces and case. -/
def normalisedService (name : String) : String :=
  String.ofList ((name.toList.filter unicode.isAlphanumeric).flatMap unicode.toLowercase)

/-- The second text of the first row whose service is the given one. -/
def serviceRow (table : List (String × String)) (service : String) : Option String :=
  (table.find? fun row => normalisedService unicode row.1 == normalisedService unicode service).map
    Prod.snd

def serviceScheme (service : String) : Option String := serviceRow unicode serviceSchemes service

def serviceProperty (service : String) : Option String := serviceRow unicode onlineServices service

def sameService : Option String → Option String → Bool
  | some one, some other => normalisedService unicode one == normalisedService unicode other
  | none, none => true
  | _, _ => false

def handleInUri (service uri : String) : Option String :=
  match splitTextOnce ':' uri with
  | none => none
  | some (stated, handle) =>
    let known := serviceSchemes.any fun row =>
      normalisedService unicode row.1 == normalisedService unicode service &&
        eqIgnoreAsciiCase stated row.2
    if known && plainHandle handle then some handle else none

def onlineServiceHandle (service : OnlineService) : Option String :=
  match service.user with
  | some user => some user
  | none => service.service.bind fun name => service.uri.bind (handleInUri unicode name)

def onlineServiceUri (service handle : String) : Option String :=
  (serviceScheme unicode service).bind fun scheme =>
    if plainHandle handle then some (scheme ++ ":" ++ handle) else none

/-- The property and the handle of a service entry that has a line. -/
def drawnService (service : OnlineService) : Option (String × String) :=
  match service.service.bind (serviceProperty unicode), onlineServiceHandle unicode service with
  | some property, some handle =>
    if handle ≠ "" && !containsChar handle '\r' && !edgedWithWhitespace handle then
      some (property, handle)
    else none
  | _, _ => none

def statesOnlineService (service : OnlineService) : Bool := (drawnService unicode service).isSome

end

def serviceOf (property : String) : Option String := rowBack onlineServices property

def serviceSlot (service : OnlineService) : String :=
  let context (name : String) : Bool :=
    ((service.contexts.or (service.extra.get? "contexts")).bind (·.get? name)) = some (.bool true)
  if context "work" && !context "private" then "WORK" else defaultSlot

/-! ## Days -/

structure Day where
  year : Nat
  month : Nat
  day : Nat
  deriving DecidableEq, Repr

namespace Day

/-- The day as `YYYY-MM-DD`. -/
def text (day : Day) : String :=
  String.ofList (Text.padded 4 day.year ++ '-' :: Text.padded 2 day.month ++
    '-' :: Text.padded 2 day.day)

def isADate (day : Day) : Bool :=
  (1 ≤ day.year && day.year ≤ 9999) && (1 ≤ day.month && day.month ≤ 12) &&
    (1 ≤ day.day && day.day ≤ 31)

/-- Earlier years are rewritten by the address book. -/
def survivesTheFieldItLandsIn (day : Day) : Bool := 1000 ≤ day.year

def json (day : Day) : Value :=
  .ofMembers [("@type", .string "PartialDate"), ("year", .int day.year),
    ("month", .int day.month), ("day", .int day.day)]

end Day

def readDay (text : String) : Option Day :=
  let digits := (text.toList.takeWhile fun char => char ≠ 'T' && char ≠ 't').filter (· ≠ '-')
  if digits.length = 8 && digits.all Char.isDigit then do
    let year ← Text.parseDigits (digits.take 4)
    let month ← Text.parseDigits ((digits.drop 4).take 2)
    let day ← Text.parseDigits (digits.drop 6)
    if (Day.mk year month day).isADate then some ⟨year, month, day⟩ else none
  else none

def member (date : Value) (name : String) : Option Nat :=
  ((date.get? name).bind Value.asU64).filter (· < 2 ^ 32)

/-- The day of a date object, which is a point in time or a calendar day. -/
def dayOf (date : Value) : Option Day :=
  match (date.get? "utc").bind Value.asStr with
  | some utc => readDay utc
  | none => do
      let year ← member date "year"
      let month ← member date "month"
      let day ← member date "day"
      if (Day.mk year month day).isADate then some ⟨year, month, day⟩ else none

/-- The day of an anniversary as its line states it. -/
def anniversaryDate (anniversary : Anniversary) : Option String :=
  match anniversary.date.bind dayOf with
  | none => none
  | some day => if day.survivesTheFieldItLandsIn then some day.text else none

def statesAPointInTime (anniversary : Anniversary) : Bool :=
  anniversary.date.any fun date => (date.get? "utc").isSome

def anniversaryKinds : List (String × String) :=
  [("birth", "BDAY"), ("wedding", xEvolutionAnniversary)]

def anniversaryProperty (kind : String) : Option String := rowOf anniversaryKinds kind

def statesAnniversary (anniversary : Anniversary) : Bool :=
  (anniversaryProperty anniversary.kind).isSome && (anniversaryDate anniversary).isSome

end EvolutionJmap.Vcard
