import EvolutionJmap.Vcard.Vocabulary

/-!
# Drawing a contact card (`jmap-vcard/src/contact.rs`)

`cardLines` is the content lines that `card_to_vcard` writes.  Each entry of a keyed map
has a line that carries the key; a group card has its members on `EMAIL` lines.
-/

namespace EvolutionJmap.Vcard

open Ical (ParameterValue)

def entriesIn {T : Type} (map : Option (BTreeMap String T)) : List (String × T) :=
  map.elim [] BTreeMap.entries

def drawnEntries {T : Type} (draw : String → T → List VCardEntry)
    (map : Option (BTreeMap String T)) : List VCardEntry :=
  (entriesIn map).flatMap fun entry => draw entry.1 entry.2

/-- The lines of the entries of a map, the preferred ones first. -/
def drawnByRank {T : Type} (rank : T → Option Nat) (draw : String → T → List VCardEntry)
    (map : Option (BTreeMap String T)) : List VCardEntry :=
  let place (entry : String × T) : Nat ×ₗ String :=
    toLex ((rank entry.2).getD (2 ^ 32 - 1), entry.1)
  ((entriesIn map).insertionSort fun one other => place one ≤ place other).flatMap fun entry =>
    draw entry.1 entry.2

/-- vCard 3.0 has no rank, only a flag. -/
def prefTypes (pref : Option Nat) : List (String × ParameterValue) :=
  if pref.isSome then [typeParam "PREF"] else []

/-! ## Who the card is about -/

variable (card : ContactCard)

/-- `UID` has the id of the server, and another line the uid of the card. -/
def drawnUids : List VCardEntry :=
  ((card.id.or card.uid).map fun uid => line "UID" uid).toList ++
    (card.uid.map fun uid => line xJmapUid uid).toList

def drawnName (name : Name) : List VCardEntry :=
  (((fullOf name).or (deriveFull name)).map fun full => line "FN" full).toList ++
    ((nameFields name).map fun fields => listLine "N" fields).toList

/-- The file-as text that the card states. -/
def explicitFileAs : Option String :=
  let stated := (((card.name.bind fun name => fileAsOf name.extra).or
    (card.extra.map.get? "fileAs")).or (card.extra.map.get? "file_as")).bind Value.asStr
  (stated.map trimText).filter (· ≠ "")

/-- A group is filed under its full name. -/
def fileAs : Option String :=
  (explicitFileAs card).or
    (if statesGroupKind card.kind then
      ((card.name.bind Name.full).map trimText).filter (· ≠ "")
    else none)

/-! ## Entries -/

variable (key : String)

def drawnNickname (nickname : Nickname) : List VCardEntry :=
  if statesNickname nickname then [line "NICKNAME" nickname.name [keyParam key]] else []

def drawnEmail (email : ContactEmail) : List VCardEntry :=
  if statesEmail email then
    [line "EMAIL" email.address
      (keyParam key :: (typeNames contexts email.contexts).map typeParam ++ prefTypes email.pref)]
  else []

def drawnPhone (phone : ContactPhone) : List VCardEntry :=
  if statesPhone phone then
    [line "TEL" phone.number
      (keyParam key :: (contextSlot phone.contexts).toList.map typeParam ++
        (featureSlot phone.features).toList.map typeParam ++ prefTypes phone.pref)]
  else []

def addressTypes (address : Address) : List (String × ParameterValue) :=
  (contextSlot address.contexts).toList.map typeParam ++ prefTypes (addressPref address)

/-- The same address for envelopes comes behind its `ADR` line, or alone. -/
def drawnAddress (address : Address) : List VCardEntry :=
  let params := keyParam key :: addressTypes address
  ((addressFields address).map fun fields => listLine "ADR" fields params).toList ++
    ((addressLabel address).map fun full => line "LABEL" full params).toList

def drawnOrganization (organization : Organization) : List VCardEntry :=
  ((organizationComponents organization).map fun components =>
    listLine "ORG" components [keyParam key]).toList

def drawnTitle (title : Title) : List VCardEntry :=
  if statesTitle title then
    ((rowOf titleKinds (titleKind title.kind)).map fun name =>
      line name title.name [keyParam key]).toList
  else []

def drawnNote (note : Note) : List VCardEntry :=
  if statesNote note then [line "NOTE" note.note [keyParam key]] else []

def drawnLink (link : Link) : List VCardEntry :=
  if statesLink link then
    ((linkProperty link.kind).map fun name => line name link.uri [keyParam key]).toList
  else []

def drawnCalendar (calendar : Calendar) : List VCardEntry :=
  if calendar.uri = "" then []
  else
    ((calendarProperty calendar.kind).map fun name =>
      line name calendar.uri [keyParam key]).toList

def drawnSchedulingAddress (address : SchedulingAddress) : List VCardEntry :=
  if statesSchedulingAddress address then [line "CALADRURI" address.uri [keyParam key]] else []

/-- A photo has its bytes on the line, or says that the line is a reference. -/
def drawnMedia (base64 : Base64) (key : String) (media : Media) : List VCardEntry :=
  match photo base64 media with
  | none => []
  | some (.inline subtype bytes) =>
    [line "PHOTO" bytes
      (keyParam key :: subtype.toList.map typeParam ++ [param "ENCODING" "b"])]
  | some (.uri uri) => [line "PHOTO" uri [keyParam key, param "VALUE" "uri"]]

def drawnOnlineService (unicode : Unicode) (key : String) (service : OnlineService) :
    List VCardEntry :=
  ((drawnService unicode service).map fun drawn =>
    line drawn.1 drawn.2 [keyParam key, typeParam (serviceSlot service)]).toList

/-- A wedding is stated on two lines, for old and new address books. -/
def drawnAnniversary (anniversary : Anniversary) : List VCardEntry :=
  match anniversaryDate anniversary with
  | none => []
  | some date =>
    if anniversary.kind = "birth" then [line "BDAY" date [keyParam key]]
    else if anniversary.kind = "wedding" then
      [line xEvolutionAnniversary date [keyParam key], line "ANNIVERSARY" date [keyParam key]]
    else []

/-- The relations with a field in the editor. The name is the key, so there is no
other. -/
def drawnRelation (relation : Relation) : List VCardEntry :=
  (if statesSpouse key relation then [line xEvolutionSpouse key] else []) ++
    (if statesManager key relation then [line xEvolutionManager key] else []) ++
    (if statesAssistant key relation then [line xEvolutionAssistant key] else [])

def drawnTags : List String :=
  ((entriesIn card.keywords).filter fun entry => statesKeyword entry.1 entry.2).map Prod.fst

def drawnCategories : List VCardEntry :=
  if (drawnTags card).isEmpty then [] else [listLine "CATEGORIES" (drawnTags card)]

/-! ## Groups -/

def destinationText (details : Option Value) (name : String) : Option String :=
  (((details.bind (·.get? name))).bind Value.asStr).filter isDrawableGroupToken

def destinationValue (name email : Option String) (otherwise : String) : String :=
  match name, email with
  | some name, some email => name ++ " <" ++ email ++ ">"
  | none, some email => email
  | _, none => otherwise

def destinationParams (name email : Option String) : List (String × ParameterValue) :=
  (name.map (param xEvolutionDestName)).toList ++ (email.map (param xEvolutionDestEmail)).toList

def drawnMember (uid : String) (active : Bool) : List VCardEntry :=
  if statesMember uid active then
    let details := ((card.extra.map.get? vendorMemberDetails).bind (·.get? uid))
    let name := destinationText details "name"
    let email := destinationText details "email"
    [line "EMAIL" (destinationValue name email uid)
      (param xEvolutionDestContactUid uid :: destinationParams name email)]
  else []

def drawnBareMember (item : Value) : List VCardEntry :=
  match destinationText (some item) "email" with
  | none => []
  | some email =>
    let name := destinationText (some item) "name"
    [line "EMAIL" (destinationValue name (some email) "") (destinationParams name (some email))]

def emitGroupEntries : List VCardEntry :=
  line xEvolutionList "TRUE" ::
    (((card.extra.map.get? vendorListShowAddresses).bind Value.asBool).map fun shows =>
      line xEvolutionListShowAddresses (if shows then "TRUE" else "FALSE")).toList ++
    drawnEntries (drawnMember card) card.members ++
    (((card.extra.map.get? vendorBareMembers).bind Value.asArray).getD []).flatMap drawnBareMember

/-! ## The card -/

def cardLines (unicode : Unicode) (base64 : Base64) (card : ContactCard) : List VCardEntry :=
  drawnUids card ++
    card.name.elim [] drawnName ++
    ((fileAs card).map fun fileAs => line xEvolutionFileAs fileAs).toList ++
    drawnEntries drawnNickname card.nicknames ++
    (if statesGroupKind card.kind then emitGroupEntries card
      else drawnByRank ContactEmail.pref drawnEmail card.emails) ++
    drawnByRank ContactPhone.pref drawnPhone card.phones ++
    drawnByRank addressPref drawnAddress card.addresses ++
    drawnEntries drawnOrganization card.organizations ++
    drawnEntries drawnTitle card.titles ++
    drawnEntries drawnNote card.notes ++
    drawnEntries drawnLink card.links ++
    drawnEntries drawnCalendar card.calendars ++
    drawnEntries drawnSchedulingAddress card.schedulingAddresses ++
    drawnEntries (drawnMedia base64) card.media ++
    drawnEntries (drawnOnlineService unicode) card.onlineServices ++
    drawnEntries drawnAnniversary card.anniversaries ++
    drawnEntries drawnRelation card.relatedTo ++
    drawnCategories card

def cardToVcard (calcard : Calcard) (unicode : Unicode) (base64 : Base64) (card : ContactCard) :
    String :=
  document calcard (cardLines unicode base64 card)

end EvolutionJmap.Vcard
