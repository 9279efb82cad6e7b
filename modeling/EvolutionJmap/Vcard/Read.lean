import EvolutionJmap.Filing
import EvolutionJmap.Vcard.Vocabulary

/-!
# Reading a contact card (`jmap-vcard/src/contact.rs`)

`readLine` is one turn of the loop of `vcard_to_card`.  Each family of lines fills a map
of its own: a line is filed under the key that it states, or under the first free one.
`LABEL` lines come in a second loop, since they complete the addresses of the first.
-/

namespace EvolutionJmap.Vcard

open Filing (keyFor)

/-! ## Dates before parsing -/

/-- The name and parameters of a physical line, and its value. A colon in quotes does
not end the name. -/
def splitPropertyLine (inQuotes : Bool) : List Char → Option (List Char × List Char)
  | [] => none
  | char :: rest =>
    if char = ':' && !inQuotes then some ([], rest)
    else
      (splitPropertyLine (if char = '"' then !inQuotes else inQuotes) rest).map fun split =>
        (char :: split.1, split.2)

variable (name : String)

def isDatePropertyName : Bool :=
  ["BDAY", "ANNIVERSARY", xEvolutionAnniversary, "X-ABDATE", "X-AB-DATE"].any
    (eqIgnoreAsciiCase name)

/-- A date in the basic format. A time behind it is only read on an `ANNIVERSARY`
line. -/
def normalizeDateValue (value : List Char) : List Char :=
  match value with
  | y1 :: y2 :: y3 :: y4 :: '-' :: m1 :: m2 :: '-' :: d1 :: d2 :: rest =>
    let digits := [y1, y2, y3, y4, m1, m2, d1, d2]
    if !digits.all Char.isDigit then value
    else if rest = [] then digits
    else if eqIgnoreAsciiCase name "ANNIVERSARY" then
      match rest with
      | 'T' :: time | 't' :: time => digits ++ 'T' :: time.filter (· ≠ ':')
      | _ => digits ++ rest
    else value
  | _ => value

/-- The property name in front of a value, without its group and parameters. -/
def propertyName (header : List Char) : String :=
  let name := header.takeWhile (· ≠ ';')
  trimText (String.ofList ((Text.splitLast '.' name).elim name Prod.snd))

def normalizeLine (line : List Char) : List Char :=
  let body := Text.trimEnd (· == '\r') line
  match splitPropertyLine false body with
  | none => line
  | some (header, value) =>
    if isDatePropertyName (propertyName header) then
      header ++ ':' :: normalizeDateValue (propertyName header) value ++ line.drop body.length
    else line

/-- Put the dates of a text into the format that calcard reads. -/
def normalizeVcardDates (vcard : String) : String :=
  String.ofList (['\n'].intercalate ((Text.split '\n' vcard.toList).map normalizeLine))

/-! ## Keys -/

variable (entry : VCardEntry)

def statedKey : Option String :=
  (entryParam entry xJmapKey).filter (· ≠ "")

def entryKey {T : Type} (entry : VCardEntry) (stem : String) (taken : BTreeMap String T) : String :=
  keyFor stem taken (statedKey entry)

/-- File what a line states. -/
def addEntry {T : Type} (stem : String) (entry : VCardEntry) (value : Option T)
    (map : BTreeMap String T) : BTreeMap String T :=
  match value with
  | none => map
  | some value => map.insert (entryKey entry stem map) value

/-! ## Labels -/

abbrev GroupLabels := BTreeMap String String

variable (entries : List VCardEntry)

def readGroupLabels : GroupLabels :=
  BTreeMap.ofList (entries.filterMap fun entry =>
    match entry.group with
    | none => none
    | some group =>
      if eqIgnoreAsciiCase entry.name "X-ABLabel" && entryText entry ≠ "" then
        some (group, entryText entry)
      else none)

/-- The label inside an Apple marker, or the text itself. -/
def cleanAppleLabel (raw : String) : String :=
  let trimmed := Text.trim raw.toList
  match (Text.stripFront "_$!<".toList trimmed).bind (Text.stripBack ">!$_".toList) with
  | some inner => trimText (String.ofList inner)
  | none => String.ofList trimmed

variable (labels : GroupLabels)

def labelOf (entry : VCardEntry) : Option String :=
  (entry.group.bind labels.get?).map cleanAppleLabel

/-! ## Types -/

/-- An object with one member that is set. -/
def flag : Value := .ofMembers [(name, .bool true)]

def readRows {R : Type} (states : R → Bool) (key : R → String) (table : List R) : Option Value :=
  let flags := (table.filter states).map fun row => (key row, Value.bool true)
  if flags.isEmpty then none else some (.ofMembers flags)

def readContexts : Option Value :=
  readRows (fun row => entryHasType entry row.2) Prod.fst contexts

def readPhoneFlags : Option Value :=
  readRows (fun row => row.2.any (entryHasType entry)) Prod.fst phoneFeatureTypes

def readPref : Option Nat :=
  if entryHasType entry "PREF" then some 1 else none

def labelContexts (label : Option String) (contexts : Option Value) (extra : ValueMap) :
    Option Value × ValueMap :=
  match label with
  | none => (contexts, extra)
  | some label =>
    match toAsciiLowercase label with
    | "work" | "school" => (contexts.or (some (flag "work")), extra)
    | "home" => (contexts.or (some (flag "private")), extra)
    | "other" => (contexts, extra)
    | _ => (contexts, extra.insert "label" (.string label))

/-! ## Entries -/

def readNickname : Option Nickname :=
  let nickname : Nickname :=
    { name := entryTextList entry, contexts := readContexts entry, pref := readPref entry }
  if statesNickname nickname then some nickname else none

def readEmail (entry : VCardEntry) : Option ContactEmail :=
  if entryText entry = "" then none
  else
    let labelled := labelContexts (labelOf labels entry) (readContexts entry) ∅
    some { address := entryText entry, contexts := labelled.1, pref := readPref entry
           extra := labelled.2 }

/-- The feature and the context that a label of a phone number stands for. -/
def phoneLabel : String → Option (Option String × Option String)
  | "mobile" | "cell" | "iphone" => some (some "mobile", none)
  | "pager" => some (some "pager", none)
  | "workfax" | "work fax" => some (some "fax", some "work")
  | "homefax" | "home fax" => some (some "fax", some "private")
  | "fax" => some (some "fax", none)
  | "work" | "school" => some (none, some "work")
  | "home" => some (none, some "private")
  | "main" => some (some "voice", some "work")
  | "other" => some (none, none)
  | _ => none

def addFeature (features : Option Value) (feature : String) : Option Value :=
  match features.getD (.ofMembers []) with
  | .object members => some (.object (Entries.insert feature (.bool true) members))
  | other => some other

def readPhone (entry : VCardEntry) : Option ContactPhone :=
  if entryText entry = "" then none
  else
    let phone : ContactPhone :=
      { number := entryText entry, features := readPhoneFlags entry
        contexts := readContexts entry, pref := readPref entry }
    match labelOf labels entry with
    | none => some phone
    | some label =>
      match phoneLabel (toAsciiLowercase label) with
      | some (feature, context) =>
        some { phone with
          features := feature.elim phone.features (addFeature phone.features)
          contexts := phone.contexts.or (context.map flag) }
      | none => some { phone with extra := phone.extra.insert "label" (.string label) }

def readFields {T : Type} (table : List (String × Nat)) (component : String → String → T)
    (fields : List String) : List T :=
  table.filterMap fun row =>
    ((fields[row.2]?).filter (· ≠ "")).map (component row.1)

def nonEmptyList {T : Type} (items : List T) : Option (List T) :=
  if items.isEmpty then none else some items

def readAddress (label : Option String) (entry : VCardEntry) : Option Address :=
  let components := readFields addressComponents
    (fun kind value => { kind, value : AddressComponent }) (entryComponents entry)
  let full := (entryParam entry "LABEL").filter (· ≠ "")
  if components.isEmpty && full.isNone then none
  else
    let extra : ValueMap :=
      if entryHasType entry "PREF" then BTreeMap.insert ∅ "pref" (.int 1) else ∅
    let labelled := labelContexts label (readContexts entry) extra
    some { components := nonEmptyList components, contexts := labelled.1, full
           extra := labelled.2 }

def readOrganization : Option Organization :=
  let components := entryComponents entry
  let name := components.head?.filter (· ≠ "")
  let units := ((components.drop 1).filter (· ≠ "")).map fun name => { name : OrgUnit }
  if name.isNone && units.isEmpty then none else some { name, units := nonEmptyList units }

def readTitle : Option Title :=
  if entryText entry = "" then none
  else
    let kind := (titleKinds.find? fun row => eqIgnoreAsciiCase row.2 entry.name).map Prod.fst
    some { name := entryText entry, kind := kind.filter (· ≠ defaultTitleKind) }

def readNote : Option Note :=
  let note : Note := { note := entryText entry }
  if statesNote note then some note else none

def linkKind : Option String :=
  if name = "URL" then none else if name = xEvolutionBlogUrl then some "blog" else some "video"

def labelLink (label : Option String) (link : Link) : Link :=
  match label with
  | none => link
  | some label =>
    match toAsciiLowercase label with
    | "homepage" | "home page" => { link with kind := none }
    | "blog" => { link with kind := some "blog" }
    | "work" | "school" => { link with extra := link.extra.insert "contexts" (flag "work") }
    | "home" => { link with extra := link.extra.insert "contexts" (flag "private") }
    | "other" => link
    | _ => { link with extra := link.extra.insert "label" (.string label) }

def readLink (name : String) (entry : VCardEntry) : Option Link :=
  let link := labelLink (labelOf labels entry) { uri := entryText entry, kind := linkKind name }
  if statesLink link then some link else none

def readCalendar (entry : VCardEntry) : Option Calendar :=
  if entryText entry = "" then none
  else
    some { kind := calendarKind name, uri := entryText entry
           mediaType := ((entryParam entry "MEDIATYPE").map trimText).filter (· ≠ "")
           pref := readPref entry }

def readSchedulingAddress : Option SchedulingAddress :=
  if entryText entry = "" then none
  else some { uri := entryText entry, pref := readPref entry }

/-! ## Photos -/

/-- The type that the address book gives to an image it does not know. -/
def unknownType : String := "X-EVOLUTION-UNKNOWN"

def isKnownImageSubtype (subtype : String) : Bool :=
  toAsciiUppercase subtype ∈ ["JPEG", "JPG", "PNG", "GIF", "TIFF", "TIF", "BMP", "WEBP", "SVG",
    "SVG+XML", "HEIC", "AVIF", "ICO"]

def namesImageType (subtype : String) : Bool :=
  !eqIgnoreAsciiCase subtype unknownType &&
    toAsciiUppercase subtype ∉ ["WORK", "HOME", "PREF", "OTHER"]

def imageType (subtype : String) : String :=
  if containsChar subtype '/' then subtype else imagePrefix ++ subtype

def photoMediaType : Option String :=
  let stated := (entryParam entry "MEDIATYPE").or
    (((entryParam entry "TYPE").filter namesImageType).map imageType)
  let named := (entry.params.find? fun param => isKnownImageSubtype param.1).map fun param =>
    imagePrefix ++ param.1
  ((stated.or named).or (entryBinaryContentType entry)).filter fun mediaType =>
    (imageSubtype mediaType).isSome

def photoEntry (uri : String) (mediaType : Option String) : Media :=
  { kind := some photoKind, uri := some uri, mediaType }

/-- The bytes of a photo and the media type in its `data:` URI. -/
def photoBytes (base64 : Base64) (text : String) : Option (List UInt8 × Option String) :=
  if (stripPrefixCi text dataScheme).isSome then
    match dataUri text with
    | some parsed =>
      ((decoded base64 parsed.payload).or (entryBinary entry)).map fun octets =>
        (octets, if parsed.base64 then parsed.mediaType else none)
    | none => (entryBinary entry).map fun octets => (octets, none)
  else some ((entryBinary entry).getD text.toUTF8.toList, none)

def dataUriOf (base64 : Base64) (mediaType : Option String) (octets : List UInt8) : String :=
  dataScheme ++ mediaType.getD "" ++ base64Marker ++ "," ++ base64.encode octets

def readInlinePhoto (base64 : Base64) (text : String) : Option Media :=
  match photoBytes entry base64 text with
  | none => none
  | some (octets, stated) =>
    if octets.isEmpty then none
    else
      let mediaType := (photoMediaType entry).or
        (stated.filter fun mediaType => (imageSubtype mediaType).isSome)
      some (photoEntry (dataUriOf base64 mediaType octets) mediaType)

def readPhoto (base64 : Base64) : Option Media :=
  let text := entryText entry
  let statesUri := (entryParam entry "VALUE").any (eqIgnoreAsciiCase · "uri")
  if statesRemotePhotoUri text then some (photoEntry text (photoMediaType entry))
  else if statesUri && text ≠ "" then none
  else if statesUnsupportedPhotoUri text || statesEmptySchemePhotoUri text then none
  else readInlinePhoto entry base64 text

/-! ## Relations, days and services -/

def labelRelation (label : String) : String :=
  match toAsciiLowercase label with
  | "spouse" | "partner" => "spouse"
  | "manager" => "manager"
  | "assistant" => "assistant"
  | "" => "contact"
  | other => other

def statedRelation (entry : VCardEntry) : String :=
  if entryHasType entry "spouse" || entryHasType entry "partner" then "spouse"
  else if entryHasType entry "manager" then "manager"
  else if entryHasType entry "assistant" then "assistant"
  else
    match entryParam entry "TYPE" with
    | some stated =>
      let clean := cleanAppleLabel stated
      if clean = "" then "contact" else toAsciiLowercase clean
    | none => ((labelOf labels entry).map labelRelation).getD "contact"

def relationType (name : String) (entry : VCardEntry) : Option String :=
  if name = xEvolutionSpouse then some "spouse"
  else if name = xEvolutionManager then some "manager"
  else if name = xEvolutionAssistant then some "assistant"
  else if name = "RELATED" then some (statedRelation labels entry)
  else (labelOf labels entry).map labelRelation

def addRelation (name : String) (entry : VCardEntry)
    (relatedTo : BTreeMap String Relation) : BTreeMap String Relation :=
  if !namesAPerson (entryText entry) then relatedTo
  else
    match relationType labels name entry with
    | none => relatedTo
    | some type =>
      let held := (relatedTo.get? (entryText entry)).getD { relation := some ∅ }
      relatedTo.insert (entryText entry)
        { held with relation := some ((held.relation.getD ∅).insert type (.bool true)) }

/-- The anniversary that a line states by its name. -/
def readAnniversary : Option Anniversary :=
  let dated (kind : String) : Option Anniversary :=
    (readDay (entryText entry)).map fun day => { kind, date := some day.json }
  if eqIgnoreAsciiCase entry.name "BDAY" then dated "birth"
  else if eqIgnoreAsciiCase entry.name "ANNIVERSARY" ||
      eqIgnoreAsciiCase entry.name xEvolutionAnniversary then dated "wedding"
  else none

/-- The kind of an anniversary that a label names. -/
def labelDay (label : String) : String :=
  match toAsciiLowercase label with
  | "anniversary" | "wedding" => "wedding"
  | "birthday" | "birth" => "birth"
  | "" => "wedding"
  | other => other

def readDayLine (name : String) (entry : VCardEntry) : Option Anniversary :=
  if name = "X-ABDATE" || name = "X-AB-DATE" then
    match readDay (entryText entry), labelOf labels entry with
    | some day, some label => some { kind := labelDay label, date := some day.json }
    | _, _ => none
  else readAnniversary entry

def sameAnniversary (one other : Anniversary) : Bool :=
  one.kind == other.kind && one.date == other.date

/-- Whether an anniversary is already filed, under the stated key or under any. -/
def repeatsAnniversary (anniversary : Anniversary) (map : BTreeMap String Anniversary) : Bool :=
  match statedKey entry with
  | some key => (map.get? key).any (sameAnniversary · anniversary)
  | none => map.values.any (sameAnniversary · anniversary)

/-- File an anniversary. A wedding is stated on two lines. -/
def addAnniversary (anniversary : Option Anniversary)
    (map : BTreeMap String Anniversary) : BTreeMap String Anniversary :=
  addEntry "y" entry (anniversary.filter fun anniversary =>
    !repeatsAnniversary entry anniversary map) map

def readImpp : Option OnlineService :=
  match splitTextOnce ':' (entryText entry) with
  | none => none
  | some (scheme, handle) =>
    let wanted := toAsciiLowercase scheme
    let service :=
      if wanted = "xmpp" then some "Jabber"
      else (serviceSchemes.find? fun row => eqIgnoreAsciiCase row.2 wanted).map Prod.fst
    (service.filter fun _ => plainHandle handle).map fun service =>
      { service := some service, user := some handle }

def readServiceLine (entry : VCardEntry) : Option OnlineService :=
  ((serviceOf name).filter fun _ => entryText entry ≠ "").map fun service =>
    { service := some service, user := some (entryText entry) }

/-! ## Destinations of a list -/

def parseDestinationValue (raw : String) : Option String × Option String :=
  let trimmed := Text.trim raw.toList
  match (Text.stripLast (· == '>') trimmed).bind (Text.splitLast '<') with
  | some (before, inside) =>
    let email := trimText (String.ofList inside)
    if isDrawableGroupToken email then
      let shown := Text.trim before
      let name :=
        if 2 ≤ shown.length && shown.head? == some '"' && shown.getLast? == some '"' then
          Text.replacePair '\\' '\\' '\\'
            (Text.replacePair '\\' '"' '"' (shown.drop 1).dropLast)
        else shown
      (some (String.ofList name) |>.filter isDrawableGroupToken, some email)
    else (none, none)
  | none => (none, some (String.ofList trimmed) |>.filter isDrawableGroupToken)

/-- What the lines of a list say about its members. -/
structure Destinations where
  members : BTreeMap String Bool := ∅
  memberDetails : ValueMap := ∅
  bareMembers : List Value := []

/-- Set the members of an object that are stated. -/
def destinationDetails (details : Option Value) (name email : Option String) : Value :=
  match details.getD (.ofMembers []) with
  | .object members =>
    let members := (name.map fun name => Entries.insert "name" (.string name) members).getD members
    .object ((email.map fun email => Entries.insert "email" (.string email) members).getD members)
  | other => other

def addMember (uid : String) (name email : Option String) (destinations : Destinations) :
    Destinations :=
  let destinations := { destinations with members := destinations.members.insert uid true }
  if name.isSome || email.isSome then
    { destinations with
      memberDetails := destinations.memberDetails.insert uid
        (destinationDetails (destinations.memberDetails.get? uid) name email) }
  else destinations

def addBareMember (name email : Option String) (destinations : Destinations) : Destinations :=
  match email.filter isDrawableGroupToken with
  | none => destinations
  | some email =>
    { destinations with
      bareMembers := destinations.bareMembers ++
        [destinationDetails none (name.filter isDrawableGroupToken) (some email)] }

/-- One `EMAIL` line of a list. -/
def readGroupEmailEntry (destinations : Destinations) : Destinations :=
  let uid := ((entryParam entry xEvolutionDestContactUid).or
    (entryParam entry xEvolutionContactListUid)).filter fun uid => statesMember uid true
  let name := (entryParam entry xEvolutionDestName).filter isDrawableGroupToken
  let email := (entryParam entry xEvolutionDestEmail).filter isDrawableGroupToken
  let raw := entryText entry
  match uid with
  | some uid =>
    let parsed :=
      if raw = uid || email = some raw then (none, none) else parseDestinationValue raw
    addMember uid (name.or parsed.1) (email.or (parsed.2.filter (· ≠ uid))) destinations
  | none =>
    let parsed := if email = some raw then (none, none) else parseDestinationValue raw
    addBareMember (name.or parsed.1) (email.or parsed.2) destinations

def readListShowAddresses : Option Bool :=
  (findLine entries xEvolutionListShowAddresses).bind fun entry =>
    let text := trimText (entryText entry)
    if eqIgnoreAsciiCase text "TRUE" then some true
    else if eqIgnoreAsciiCase text "FALSE" then some false
    else none

/-! ## The loop -/

/-- The families of lines. -/
inductive LineKind where
  | nickname
  | email
  | tel
  | adr
  | org
  | title
  | note
  | url
  | calendar
  | caladruri
  | photo
  | related
  | day
  | impp
  | other
  deriving DecidableEq

/-- The family of a name in upper case. -/
def lineKind : String → LineKind
  | "NICKNAME" => .nickname
  | "EMAIL" => .email
  | "TEL" => .tel
  | "ADR" => .adr
  | "ORG" => .org
  | "TITLE" | "ROLE" => .title
  | "NOTE" => .note
  | "URL" | "X-EVOLUTION-BLOG-URL" | "X-EVOLUTION-VIDEO-URL" => .url
  | "CALURI" | "FBURL" => .calendar
  | "CALADRURI" => .caladruri
  | "PHOTO" => .photo
  | "X-EVOLUTION-SPOUSE" | "X-EVOLUTION-MANAGER" | "X-EVOLUTION-ASSISTANT" | "X-ABRELATEDNAMES"
  | "X-AB-RELATED-NAMES" | "RELATED" => .related
  | "BDAY" | "ANNIVERSARY" | "X-EVOLUTION-ANNIVERSARY" | "X-ABDATE" | "X-AB-DATE" => .day
  | "IMPP" => .impp
  | _ => .other

/-- What the lines have stated so far. -/
structure Reading where
  nicknames : BTreeMap String Nickname := ∅
  emails : BTreeMap String ContactEmail := ∅
  destinations : Destinations := {}
  phones : BTreeMap String ContactPhone := ∅
  addresses : BTreeMap String Address := ∅
  organizations : BTreeMap String Organization := ∅
  titles : BTreeMap String Title := ∅
  notes : BTreeMap String Note := ∅
  anniversaries : BTreeMap String Anniversary := ∅
  links : BTreeMap String Link := ∅
  calendars : BTreeMap String Calendar := ∅
  schedulingAddresses : BTreeMap String SchedulingAddress := ∅
  media : BTreeMap String Media := ∅
  onlineServices : BTreeMap String OnlineService := ∅
  relatedTo : BTreeMap String Relation := ∅

/-- One turn of the loop over the lines. -/
def readLine (base64 : Base64) (isGroup : Bool) (labels : GroupLabels) (reading : Reading)
    (entry : VCardEntry) :
    Reading :=
  let name := toAsciiUppercase entry.name
  match lineKind name with
  | .nickname =>
    { reading with nicknames := addEntry "k" entry (readNickname entry) reading.nicknames }
  | .email =>
    if isGroup then
      { reading with destinations := readGroupEmailEntry entry reading.destinations }
    else { reading with emails := addEntry "e" entry (readEmail labels entry) reading.emails }
  | .tel => { reading with phones := addEntry "p" entry (readPhone labels entry) reading.phones }
  | .adr =>
    { reading with
      addresses := addEntry "a" entry (readAddress (labelOf labels entry) entry)
        reading.addresses }
  | .org =>
    { reading with
      organizations := addEntry "o" entry (readOrganization entry) reading.organizations }
  | .title => { reading with titles := addEntry "t" entry (readTitle entry) reading.titles }
  | .note => { reading with notes := addEntry "n" entry (readNote entry) reading.notes }
  | .url => { reading with links := addEntry "l" entry (readLink labels name entry) reading.links }
  | .calendar =>
    { reading with calendars := addEntry "c" entry (readCalendar name entry) reading.calendars }
  | .caladruri =>
    { reading with
      schedulingAddresses := addEntry "s" entry (readSchedulingAddress entry)
        reading.schedulingAddresses }
  | .photo => { reading with media := addEntry "m" entry (readPhoto entry base64) reading.media }
  | .related => { reading with relatedTo := addRelation labels name entry reading.relatedTo }
  | .day =>
    { reading with
      anniversaries := addAnniversary entry (readDayLine labels name entry)
        reading.anniversaries }
  | .impp =>
    { reading with
      onlineServices := addEntry "s" entry (readImpp entry) reading.onlineServices }
  | .other =>
    { reading with
      onlineServices := addEntry "s" entry (readServiceLine name entry) reading.onlineServices }

/-! ## Envelope labels -/

def takesLabel (full : String) (address : Address) : Bool :=
  address.full.isNone || address.full == some full

def labelEntry (contexts : Option Value) (addresses : BTreeMap String Address)
    (full : String) : String :=
  match (statedKey entry).filter fun key => (addresses.get? key).all (takesLabel full) with
  | some key => key
  | none =>
    match addresses.entries.find? fun address =>
      takesLabel full address.2 && address.2.contexts == contexts with
    | some (key, _) => key
    | none => entryKey entry "a" addresses

def withLabel (full : String) (address : Address) : Address :=
  { address with
    full := some full
    extra :=
      if entryHasType entry "PREF" && !address.extra.contains "pref" then
        address.extra.insert "pref" (.int 1)
      else address.extra }

/-- One turn of the loop over the `LABEL` lines. -/
def readLabel (addresses : BTreeMap String Address) (entry : VCardEntry) :
    BTreeMap String Address :=
  let full := entryText entry
  if full = "" then addresses
  else
    let contexts := readContexts entry
    let key := labelEntry entry contexts addresses full
    addresses.insert key (withLabel entry full ((addresses.get? key).getD { contexts }))

def labelLines : List VCardEntry :=
  entries.filter fun entry => eqIgnoreAsciiCase entry.name "LABEL"

/-! ## The card -/

def readFileAs : Option String :=
  ((((findLine entries xEvolutionFileAs).or (findLine entries "FILE-AS")).or
    (findLine entries "X-FILE-AS")).map entryText).filter (· ≠ "")

def readName : Option Name :=
  let full := textOf entries "FN"
  let components := readFields nameComponents
    (fun kind value => { kind, value : NameComponent })
    (((findLine entries "N").map entryComponents).getD [])
  let extra : ValueMap :=
    (readFileAs entries).elim ∅ fun fileAs => BTreeMap.insert ∅ "fileAs" (.string fileAs)
  if full.isNone && components.isEmpty && extra.isEmpty then none
  else some { components := nonEmptyList components, full, extra }

def readKeywords : Option ValueMap :=
  let tags := ((entries.filter fun entry =>
    eqIgnoreAsciiCase entry.name "CATEGORIES").flatMap entryComponents).filter (· ≠ "")
  if tags.isEmpty then none else some (BTreeMap.ofList (tags.map fun tag => (tag, .bool true)))

def isList : Bool :=
  entries.any fun entry =>
    eqIgnoreAsciiCase entry.name xEvolutionList &&
      eqIgnoreAsciiCase (trimText (entryText entry)) "TRUE"

def stated {T : Type} (map : BTreeMap String T) : Option (BTreeMap String T) :=
  if map.isEmpty then none else some map

def listProperties (destinations : Destinations) : List (String × Value) :=
  ((readListShowAddresses entries).map fun shows =>
      (vendorListShowAddresses, Value.bool shows)).toList ++
    (if destinations.memberDetails.isEmpty then []
      else [(vendorMemberDetails, .ofMap destinations.memberDetails)]) ++
    (if destinations.bareMembers.isEmpty then []
      else [(vendorBareMembers, .array destinations.bareMembers)])

theorem listProperties_names {entries : List VCardEntry} {destinations : Destinations}
    {property : String × Value} (mem : property ∈ listProperties entries destinations) :
    property.1 ∉ cardProperties := by
  have vendor : property.1 = vendorListShowAddresses ∨ property.1 = vendorMemberDetails ∨
      property.1 = vendorBareMembers := by
    simp only [listProperties, List.mem_append, Option.mem_toList, Option.map_eq_some_iff] at mem
    rcases mem with (⟨_, _, rfl⟩ | mem) | mem
    · exact .inl rfl
    · split at mem
      · cases mem
      · exact .inr (.inl (congrArg Prod.fst (List.mem_singleton.mp mem)))
    · split at mem
      · cases mem
      · exact .inr (.inr (congrArg Prod.fst (List.mem_singleton.mp mem)))
  rcases vendor with isName | isName | isName <;> rw [isName] <;> decide

def listExtra (destinations : Destinations) : Extra cardProperties where
  map := BTreeMap.ofList (listProperties entries destinations)
  unmodelled key member := by
    obtain ⟨property, inMap, rfl⟩ := List.mem_map.mp member
    exact listProperties_names (BTreeMap.mem_of_mem_ofList inMap)

/-- What the lines state, with the labels of the addresses. -/
def readLines (base64 : Base64) : Reading :=
  let reading := entries.foldl (readLine base64 (isList entries) (readGroupLabels entries)) {}
  { reading with addresses := (labelLines entries).foldl readLabel reading.addresses }

def cardOf (base64 : Base64) : ContactCard :=
  let reading := readLines entries base64
  let group := isList entries
  { id := textOf entries "UID"
    version := some "1.0"
    uid := textOf entries xJmapUid
    name := readName entries
    nicknames := stated reading.nicknames
    emails := stated reading.emails
    phones := stated reading.phones
    addresses := stated reading.addresses
    organizations := stated reading.organizations
    titles := stated reading.titles
    notes := stated reading.notes
    anniversaries := stated reading.anniversaries
    links := stated reading.links
    calendars := stated reading.calendars
    schedulingAddresses := stated reading.schedulingAddresses
    media := stated reading.media
    onlineServices := stated reading.onlineServices
    keywords := readKeywords entries
    relatedTo := stated reading.relatedTo
    kind := if group then some groupKind else none
    members := if group then stated reading.destinations.members else none
    extra := if group then listExtra entries reading.destinations else ∅ }

/-- Read a card from vCard. -/
def vcardToCard (calcard : Calcard) (base64 : Base64) (vcard : String) :
    Except VCardError ContactCard :=
  match calcard.parse (normalizeVcardDates vcard) with
  | .vCard entries => .ok (cardOf entries base64)
  | .unterminatedComponent => .error .unterminated
  | .invalidLine line => .error (.malformed line)
  | .other => .error .notAVCard

end EvolutionJmap.Vcard
