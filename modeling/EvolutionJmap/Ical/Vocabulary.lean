import EvolutionJmap.Ical.DateTime
import EvolutionJmap.Proto.Calendars
import EvolutionJmap.Proto.Text

/-!
# The vocabulary that both directions share (`jmap-ical/src/event.rs`)

The values that have a spelling in both formats, and the texts that can stand
for a URI, a map key or a time zone.
-/

namespace EvolutionJmap.Ical

/-! ## Tables: the JSCalendar value and its iCalendar spelling -/

abbrev Table := List (String × String)

def statuses : Table :=
  [("confirmed", "CONFIRMED"), ("cancelled", "CANCELLED"), ("tentative", "TENTATIVE")]

def freeBusyStatuses : Table := [("free", "TRANSPARENT"), ("busy", "OPAQUE")]

def privacies : Table :=
  [("public", "PUBLIC"), ("private", "PRIVATE"), ("secret", "CONFIDENTIAL")]

def participationStatuses : Table :=
  [("needs-action", "NEEDS-ACTION"), ("accepted", "ACCEPTED"), ("declined", "DECLINED"),
    ("tentative", "TENTATIVE"), ("delegated", "DELEGATED")]

/-- The roles that a `ROLE` parameter states, in order of precedence. -/
def participantRoles : Table :=
  [("chair", "CHAIR"), ("informational", "NON-PARTICIPANT"), ("optional", "OPT-PARTICIPANT"),
    ("required", "REQ-PARTICIPANT"), ("attendee", "REQ-PARTICIPANT")]

def conferenceFeatures : Table :=
  [("audio", "AUDIO"), ("chat", "CHAT"), ("feed", "FEED"), ("moderator", "MODERATOR"),
    ("phone", "PHONE"), ("screen", "SCREEN"), ("video", "VIDEO")]

def linkDisplays : Table :=
  [("badge", "BADGE"), ("graphic", "GRAPHIC"), ("fullsize", "FULLSIZE"),
    ("thumbnail", "THUMBNAIL")]

def participantKinds : Table :=
  [("individual", "INDIVIDUAL"), ("group", "GROUP"), ("resource", "RESOURCE"),
    ("location", "ROOM")]

namespace Table

def toIcal (table : Table) (value : String) : Option String :=
  (table.find? fun row => eqIgnoreAsciiCase row.1 value).map Prod.snd

def fromIcal (table : Table) (value : String) : Option String :=
  (table.find? fun row => eqIgnoreAsciiCase row.2 value).map Prod.fst

end Table

def ownerRole : String := "owner"

/-- The `sendTo` method whose URI an `ATTENDEE` line holds. -/
def imip : String := "imip"

/-- The relation that makes a link a picture of the event. -/
def iconRel : String := "icon"

/-- The JSCalendar and the iCalendar action of a reminder. -/
def displayAlert : String × String := ("display", "DISPLAY")

def xJmapUid : String := "X-JMAP-UID"

/-- The parameter that carries the map key of an entry. -/
def xJmapKey : String := "X-JMAP-KEY"

def recurrenceId : String := "RECURRENCE-ID"

def icalStatus : String → Option String := statuses.toIcal

def knownStatus (status : String) : Bool := (icalStatus status).isSome

def icalTransparency : String → Option String := freeBusyStatuses.toIcal

def knownTransparency (freeBusyStatus : String) : Bool := (icalTransparency freeBusyStatus).isSome

def icalPrivacy : String → Option String := privacies.toIcal

def knownPrivacy (privacy : String) : Bool := (icalPrivacy privacy).isSome

/-- 0 is undefined, 1 is the highest and 9 the lowest priority. -/
def knownPriority (priority : Int) : Bool := 0 ≤ priority && priority ≤ 9

/-- The properties that an edited instance may restate. -/
def overrideProperties : List String :=
  ["title", "description", "start", "timeZone", "duration", "status", "freeBusyStatus",
    "priority", "privacy", "keywords", "alerts"]

/-! ## URIs and keys -/

/-- Whether a value is a URI that can stand on a content line. -/
def namesAUri (value : String) : Bool :=
  match splitUri value with
  | none => false
  | some (_, rest) =>
    rest ≠ "" && !value.toList.any fun char =>
      Text.isWhitespace char || Text.isControl char || char == '\\'

/-- Whether a value is a URI with the given scheme. -/
def hasScheme (scheme href : String) : Bool :=
  (splitTextOnce ':' href).any fun (stated, _) => eqIgnoreAsciiCase stated scheme

def fetchedLocally (href : String) : Bool := hasScheme "file" href

def isDataUri (href : String) : Bool := hasScheme "data" href

def namesAnAddress (address : String) : Bool := namesAUri address && !isDataUri address

def namesAResource (href : String) : Bool :=
  namesAUri href && !fetchedLocally href && !isDataUri href

/-- Whether a value is an RFC 8984 `Id`. -/
def namesMapEntry (value : String) : Bool :=
  let length := Text.byteLength value.toList
  1 ≤ length && length ≤ 255 &&
    value.toList.all fun char => char.isAlphanum || char == '_' || char == '-'

def restrictedNameChars : List Char := ['!', '#', '$', '&', '-', '^', '_', '.', '+']

/-- Whether a text is a restricted name of RFC 6838. -/
def restrictedName (name : String) : Bool :=
  name.toList.head?.any Char.isAlphanum &&
    name.toList.all fun char => char.isAlphanum || char ∈ restrictedNameChars

def isType (value : Option Value) (name : String) : Bool :=
  value.all fun value => value.asStr == some name

/-! ## Time zones -/

def namesTimeZone (value : String) : Bool :=
  (Text.split '/' value.toList).all fun segment =>
    segment ≠ [] && segment.all fun char =>
      char.isAlphanum || char == '_' || char == '-' || char == '+'

def windowsTimeZones : Table :=
  [("Afghanistan Standard Time", "Asia/Kabul"), ("Alaskan Standard Time", "America/Anchorage"),
    ("Aleutian Standard Time", "America/Adak"), ("Altai Standard Time", "Asia/Barnaul"),
    ("Arab Standard Time", "Asia/Riyadh"), ("Arabian Standard Time", "Asia/Dubai"),
    ("Arabic Standard Time", "Asia/Baghdad"),
    ("Argentina Standard Time", "America/Buenos_Aires"),
    ("Astrakhan Standard Time", "Europe/Astrakhan"),
    ("Atlantic Standard Time", "America/Halifax"),
    ("AUS Central Standard Time", "Australia/Darwin"),
    ("AUS Eastern Standard Time", "Australia/Sydney"), ("Azerbaijan Standard Time", "Asia/Baku"),
    ("Azores Standard Time", "Atlantic/Azores"), ("Bahia Standard Time", "America/Bahia"),
    ("Bangladesh Standard Time", "Asia/Dhaka"), ("Belarus Standard Time", "Europe/Minsk"),
    ("Bougainville Standard Time", "Pacific/Bougainville"),
    ("Canada Central Standard Time", "America/Regina"),
    ("Cape Verde Standard Time", "Atlantic/Cape_Verde"),
    ("Caucasus Standard Time", "Asia/Yerevan"),
    ("Cen. Australia Standard Time", "Australia/Adelaide"),
    ("Central America Standard Time", "America/Guatemala"),
    ("Central Asia Standard Time", "Asia/Almaty"),
    ("Central Brazilian Standard Time", "America/Cuiaba"),
    ("Central Europe Standard Time", "Europe/Budapest"),
    ("Central European Standard Time", "Europe/Warsaw"),
    ("Central Pacific Standard Time", "Pacific/Guadalcanal"),
    ("Central Standard Time", "America/Chicago"),
    ("Central Standard Time (Mexico)", "America/Mexico_City"),
    ("Chatham Islands Standard Time", "Pacific/Chatham"),
    ("China Standard Time", "Asia/Shanghai"), ("Cuba Standard Time", "America/Havana"),
    ("Dateline Standard Time", "Etc/GMT+12"), ("E. Africa Standard Time", "Africa/Nairobi"),
    ("E. Australia Standard Time", "Australia/Brisbane"),
    ("E. Europe Standard Time", "Europe/Chisinau"),
    ("E. South America Standard Time", "America/Sao_Paulo"),
    ("Easter Island Standard Time", "Pacific/Easter"),
    ("Eastern Standard Time", "America/New_York"),
    ("Eastern Standard Time (Mexico)", "America/Cancun"),
    ("Egypt Standard Time", "Africa/Cairo"),
    ("Ekaterinburg Standard Time", "Asia/Yekaterinburg"), ("FLE Standard Time", "Europe/Kyiv"),
    ("Fiji Standard Time", "Pacific/Fiji"), ("GMT Standard Time", "Europe/London"),
    ("Georgian Standard Time", "Asia/Tbilisi"), ("Greenland Standard Time", "America/Nuuk"),
    ("Greenwich Standard Time", "Atlantic/Reykjavik"), ("GTB Standard Time", "Europe/Bucharest"),
    ("Haiti Standard Time", "America/Port-au-Prince"),
    ("Hawaiian Standard Time", "Pacific/Honolulu"), ("India Standard Time", "Asia/Kolkata"),
    ("Iran Standard Time", "Asia/Tehran"), ("Israel Standard Time", "Asia/Jerusalem"),
    ("Jordan Standard Time", "Asia/Amman"), ("Kaliningrad Standard Time", "Europe/Kaliningrad"),
    ("Korea Standard Time", "Asia/Seoul"), ("Libya Standard Time", "Africa/Tripoli"),
    ("Line Islands Standard Time", "Pacific/Kiritimati"),
    ("Lord Howe Standard Time", "Australia/Lord_Howe"),
    ("Magadan Standard Time", "Asia/Magadan"),
    ("Magallanes Standard Time", "America/Punta_Arenas"),
    ("Marquesas Standard Time", "Pacific/Marquesas"),
    ("Mauritius Standard Time", "Indian/Mauritius"),
    ("Middle East Standard Time", "Asia/Beirut"),
    ("Montevideo Standard Time", "America/Montevideo"),
    ("Morocco Standard Time", "Africa/Casablanca"), ("Mountain Standard Time", "America/Denver"),
    ("Mountain Standard Time (Mexico)", "America/Chihuahua"),
    ("Myanmar Standard Time", "Asia/Yangon"),
    ("N. Central Asia Standard Time", "Asia/Novosibirsk"),
    ("Namibia Standard Time", "Africa/Windhoek"), ("Nepal Standard Time", "Asia/Kathmandu"),
    ("New Zealand Standard Time", "Pacific/Auckland"),
    ("Newfoundland Standard Time", "America/St_Johns"),
    ("Norfolk Standard Time", "Pacific/Norfolk"),
    ("North Asia East Standard Time", "Asia/Irkutsk"),
    ("North Asia Standard Time", "Asia/Krasnoyarsk"),
    ("North Korea Standard Time", "Asia/Pyongyang"), ("Omsk Standard Time", "Asia/Omsk"),
    ("Pacific SA Standard Time", "America/Santiago"),
    ("Pacific Standard Time", "America/Los_Angeles"),
    ("Pacific Standard Time (Mexico)", "America/Tijuana"),
    ("Pakistan Standard Time", "Asia/Karachi"), ("Paraguay Standard Time", "America/Asuncion"),
    ("Qyzylorda Standard Time", "Asia/Qyzylorda"), ("Romance Standard Time", "Europe/Paris"),
    ("Russia Time Zone 3", "Europe/Samara"), ("Russia Time Zone 10", "Asia/Srednekolymsk"),
    ("Russia Time Zone 11", "Asia/Kamchatka"), ("Russian Standard Time", "Europe/Moscow"),
    ("SA Eastern Standard Time", "America/Cayenne"),
    ("SA Pacific Standard Time", "America/Bogota"),
    ("SA Western Standard Time", "America/La_Paz"), ("SE Asia Standard Time", "Asia/Bangkok"),
    ("Saint Pierre Standard Time", "America/Miquelon"),
    ("Sakhalin Standard Time", "Asia/Sakhalin"), ("Samoa Standard Time", "Pacific/Apia"),
    ("Sao Tome Standard Time", "Africa/Sao_Tome"), ("Saratov Standard Time", "Europe/Saratov"),
    ("Singapore Standard Time", "Asia/Singapore"),
    ("South Africa Standard Time", "Africa/Johannesburg"),
    ("South Sudan Standard Time", "Africa/Juba"), ("Sri Lanka Standard Time", "Asia/Colombo"),
    ("Sudan Standard Time", "Africa/Khartoum"), ("Syria Standard Time", "Asia/Damascus"),
    ("Taipei Standard Time", "Asia/Taipei"), ("Tasmania Standard Time", "Australia/Hobart"),
    ("Tocantins Standard Time", "America/Araguaina"), ("Tokyo Standard Time", "Asia/Tokyo"),
    ("Tomsk Standard Time", "Asia/Tomsk"), ("Tonga Standard Time", "Pacific/Tongatapu"),
    ("Transbaikal Standard Time", "Asia/Chita"), ("Turkey Standard Time", "Europe/Istanbul"),
    ("Turks And Caicos Standard Time", "America/Grand_Turk"),
    ("US Eastern Standard Time", "America/Indianapolis"),
    ("US Mountain Standard Time", "America/Phoenix"), ("UTC", "Etc/UTC"),
    ("UTC-02", "Etc/GMT+2"), ("UTC-08", "Etc/GMT+8"), ("UTC-09", "Etc/GMT+9"),
    ("UTC-11", "Etc/GMT+11"), ("UTC+12", "Etc/GMT-12"), ("UTC+13", "Etc/GMT-13"),
    ("Ulyanovsk Standard Time", "Europe/Ulyanovsk"),
    ("Venezuela Standard Time", "America/Caracas"),
    ("Vladivostok Standard Time", "Asia/Vladivostok"),
    ("Volgograd Standard Time", "Europe/Volgograd"),
    ("W. Australia Standard Time", "Australia/Perth"),
    ("W. Central Africa Standard Time", "Africa/Lagos"),
    ("W. Europe Standard Time", "Europe/Berlin"), ("W. Mongolia Standard Time", "Asia/Hovd"),
    ("West Asia Standard Time", "Asia/Tashkent"), ("West Bank Standard Time", "Asia/Hebron"),
    ("West Pacific Standard Time", "Pacific/Port_Moresby"),
    ("Yakutsk Standard Time", "Asia/Yakutsk"), ("Yukon Standard Time", "America/Whitehorse")]

def ianaAreas : List String :=
  ["Africa", "America", "Antarctica", "Arctic", "Asia", "Atlantic", "Australia", "Brazil",
    "Canada", "Chile", "Etc", "Europe", "Indian", "Mexico", "Pacific", "US"]

def windowsTimeZoneToIana (name : String) : Option String :=
  let trimmed := Text.trim name.toList
  let trimmed := Text.trimEnd (· == '"') (trimmed.dropWhile (· == '"'))
  windowsTimeZones.toIcal (String.ofList trimmed)

/-- The IANA name at the end of a globally unique identifier. The parts are
walked with the text that begins at each of them. -/
def ianaTail : List (List Char) → Option String
  | [] => none
  | part :: parts =>
    let name := String.ofList part
    let candidate := String.ofList (['/'].intercalate (part :: parts))
    if (ianaAreas.any (eqIgnoreAsciiCase · name) || eqIgnoreAsciiCase name "UTC" ||
        eqIgnoreAsciiCase name "GMT") && namesTimeZone candidate then some candidate
    else ianaTail parts

def uniqueTzidToIana (tzid : String) : Option String :=
  if startsWith tzid '/' then ianaTail (Text.split '/' tzid.toList).tail else none

def resolveCanonicalTimeZone (tzid : String) : Option String :=
  (windowsTimeZoneToIana tzid).or
    (if namesTimeZone tzid then some tzid else uniqueTzidToIana tzid)

end EvolutionJmap.Ical
