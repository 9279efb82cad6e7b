import EvolutionJmap.Vcard.Labels

/-!
# The keys of the entries of a vCard

The map of a family of lines is the one that `Filing` describes for the keys that its
lines state, so the keys survive exactly when no line gets an invented key that a later
line states.  The addresses have two kinds of lines: a `LABEL` line, read behind the `ADR`
lines, labels an address of another line or makes one of its own.
-/

namespace EvolutionJmap.Vcard

open List BTreeMap Bool

open Filing (Request Survives Clear file fileAll given)

/-- The maps whose keys lines can state. -/
inductive Family where
  | nicknames
  | emails
  | phones
  | addresses
  | organizations
  | titles
  | notes
  | anniversaries
  | links
  | calendars
  | schedulingAddresses
  | media
  | onlineServices

namespace Family

/-- What a line of a family states. -/
@[reducible] def Entry : Family → Type
  | .nicknames => Nickname
  | .emails => ContactEmail
  | .phones => ContactPhone
  | .addresses => Address
  | .organizations => Organization
  | .titles => Title
  | .notes => Note
  | .anniversaries => Anniversary
  | .links => Link
  | .calendars => Calendar
  | .schedulingAddresses => SchedulingAddress
  | .media => Media
  | .onlineServices => OnlineService

instance : (family : Family) → DecidableEq family.Entry
  | .nicknames | .emails | .phones | .addresses | .organizations | .titles | .notes
  | .anniversaries | .links | .calendars | .schedulingAddresses | .media | .onlineServices =>
    inferInstance

/-- The letters in front of the number of an invented key. -/
def stem : Family → String
  | .nicknames => "k"
  | .emails => "e"
  | .phones => "p"
  | .addresses => "a"
  | .organizations => "o"
  | .titles => "t"
  | .notes => "n"
  | .anniversaries => "y"
  | .links => "l"
  | .calendars => "c"
  | .schedulingAddresses => "s"
  | .media => "m"
  | .onlineServices => "s"

/-- Whether a line that repeats another one shares its entry. A wedding is stated on two
lines. -/
def merges : Family → Bool
  | .anniversaries => true
  | _ => false

/-- What a line states in a family, if it belongs there. An `EMAIL` line of a list is a
destination instead. -/
def read (base64 : Base64) (isGroup : Bool) (labels : GroupLabels) (family : Family)
    (entry : VCardEntry) :
    Option family.Entry :=
  let name := toAsciiUppercase entry.name
  match family, lineKind name with
  | .nicknames, .nickname => readNickname entry
  | .emails, .email => if isGroup then none else readEmail labels entry
  | .phones, .tel => readPhone labels entry
  | .addresses, .adr => readAddress (labelOf labels entry) entry
  | .organizations, .org => readOrganization entry
  | .titles, .title => readTitle entry
  | .notes, .note => readNote entry
  | .anniversaries, .day => readDayLine labels name entry
  | .links, .url => readLink labels name entry
  | .calendars, .calendar => readCalendar name entry
  | .schedulingAddresses, .caladruri => readSchedulingAddress entry
  | .media, .photo => readPhoto entry base64
  | .onlineServices, .impp => readImpp entry
  | .onlineServices, .other => readServiceLine name entry
  | _, _ => none

def readSoFar (reading : Reading) : (family : Family) → BTreeMap String family.Entry
  | .nicknames => reading.nicknames
  | .emails => reading.emails
  | .phones => reading.phones
  | .addresses => reading.addresses
  | .organizations => reading.organizations
  | .titles => reading.titles
  | .notes => reading.notes
  | .anniversaries => reading.anniversaries
  | .links => reading.links
  | .calendars => reading.calendars
  | .schedulingAddresses => reading.schedulingAddresses
  | .media => reading.media
  | .onlineServices => reading.onlineServices

def entriesOf (card : ContactCard) : (family : Family) → BTreeMap String family.Entry
  | .nicknames => card.nicknames.getD ∅
  | .emails => card.emails.getD ∅
  | .phones => card.phones.getD ∅
  | .addresses => card.addresses.getD ∅
  | .organizations => card.organizations.getD ∅
  | .titles => card.titles.getD ∅
  | .notes => card.notes.getD ∅
  | .anniversaries => card.anniversaries.getD ∅
  | .links => card.links.getD ∅
  | .calendars => card.calendars.getD ∅
  | .schedulingAddresses => card.schedulingAddresses.getD ∅
  | .media => card.media.getD ∅
  | .onlineServices => card.onlineServices.getD ∅

/-- Whether an entry holds what a line states. A `LABEL` line completes the address of
another line. -/
def Holds : (family : Family) → (held stated : family.Entry) → Prop
  | .addresses, held, stated => Completes held stated
  | _, held, stated => held = stated

/-- The card has the entry under the key. -/
def Shows (family : Family) (card : ContactCard) (key : String) (stated : family.Entry) : Prop :=
  ∃ held, (family.entriesOf card).get? key = some held ∧ family.Holds held stated

/-- What the lines of the first loop ask for, which reads every line but the `LABEL` lines. -/
def lineRequests (base64 : Base64) (family : Family) (entries : List VCardEntry) :
    List (Request family.Entry) :=
  entries.filterMap fun entry =>
    (family.read base64 (isList entries) (readGroupLabels entries) entry).map
      (Request.mk (statedKey entry))

end Family

/-- What the lines of a family ask for, in the order in which they are read. -/
def Family.requests (base64 : Base64) (entries : List VCardEntry) :
    (family : Family) → List (Request family.Entry)
  | .addresses =>
    addressRequests (Family.addresses.lineRequests base64 entries) (readableLabels entries)
  | family => family.lineRequests base64 entries

/-! ## One line -/

variable {base64 : Base64} {anniversary : Anniversary}

section Line

variable {isGroup : Bool} {labels : GroupLabels} {reading : Reading}

theorem addEntry_eq_file {T : Type} [DecidableEq T] (stem : String) (entry : VCardEntry)
    (value : Option T) (map : BTreeMap String T) :
    addEntry stem entry value map =
      value.elim map fun value => file false stem map ⟨statedKey entry, value⟩ := by
  cases value with
  | none => rfl
  | some value => rfl

/-- The anniversaries that lines state have a kind and a date alone. -/
def PlainDays (map : BTreeMap String Anniversary) : Prop :=
  ∀ key anniversary, map.get? key = some anniversary → anniversary.extra = ∅

variable {entry : VCardEntry}

theorem readAnniversary_plain (isRead : readAnniversary entry = some anniversary) :
    anniversary.extra = ∅ := by
  have dated {kind : String} (isDated : (readDay (entryText entry)).map
      (fun day => ({ kind, date := some day.json } : Anniversary)) = some anniversary) :
      anniversary.extra = ∅ := by
    obtain ⟨day, -, rfl⟩ := Option.map_eq_some_iff.mp isDated
    rfl
  simp only [readAnniversary] at isRead
  split at isRead
  · exact dated isRead
  · split at isRead
    · exact dated isRead
    · cases isRead

theorem readDayLine_plain {name : String}
    (isRead : readDayLine labels name entry = some anniversary) : anniversary.extra = ∅ := by
  rw [readDayLine] at isRead
  split at isRead
  · split at isRead
    · rw [← Option.some.inj isRead]
    · cases isRead
  · exact readAnniversary_plain isRead

theorem sameAnniversary_iff {one other : Anniversary} (onePlain : one.extra = ∅)
    (otherPlain : other.extra = ∅) : sameAnniversary one other = true ↔ one = other := by
  rw [sameAnniversary, and_eq_true, beq_iff_eq, beq_iff_eq]
  constructor
  · rintro ⟨kind, date⟩
    cases one
    cases other
    simp_all
  · rintro rfl
    exact ⟨rfl, rfl⟩

theorem repeatsAnniversary_eq {map : BTreeMap String Anniversary} (plain : PlainDays map)
    (isPlain : anniversary.extra = ∅) :
    repeatsAnniversary entry anniversary map =
      (Request.mk (statedKey entry) anniversary).isRepeat true map := by
  rw [repeatsAnniversary, Request.isRepeat, Bool.true_and]
  cases statedKey entry with
  | some key =>
    simp only
    cases found : map.get? key with
    | none => rfl
    | some held =>
      rw [Bool.eq_iff_iff, Option.any_some, beq_iff_eq, Option.some.injEq]
      exact sameAnniversary_iff (plain key held found) isPlain
  | none =>
    simp only
    rw [Bool.eq_iff_iff, any_eq_true, contains_iff_mem]
    have held_plain {held : Anniversary} (mem : held ∈ map.values) : held.extra = ∅ := by
      obtain ⟨entry, inEntries, rfl⟩ := mem_map.mp mem
      exact plain entry.1 entry.2 ((mem_entries _).mp inEntries)
    constructor
    · rintro ⟨held, mem, same⟩
      rw [← (sameAnniversary_iff (held_plain mem) isPlain).mp same]
      exact mem
    · intro mem
      exact ⟨anniversary, mem, (sameAnniversary_iff isPlain isPlain).mpr rfl⟩

theorem addAnniversary_eq_file {value : Option Anniversary}
    {map : BTreeMap String Anniversary} (plain : PlainDays map)
    (isPlain : ∀ anniversary, value = some anniversary → anniversary.extra = ∅) :
    addAnniversary entry value map =
      value.elim map fun value => file true "y" map ⟨statedKey entry, value⟩ := by
  cases value with
  | none => rfl
  | some anniversary =>
    rw [addAnniversary, Option.filter_some, repeatsAnniversary_eq plain (isPlain _ rfl),
      Option.elim_some, file]
    cases (Request.mk (statedKey entry) anniversary).isRepeat true map with
    | true => rfl
    | false => rfl

theorem PlainDays.file {map : BTreeMap String Anniversary} (plain : PlainDays map)
    {request : Request Anniversary} (isPlain : request.value.extra = ∅) :
    PlainDays (file true "y" map request) := by
  intro key anniversary found
  rw [Filing.file] at found
  split at found
  · exact plain key anniversary found
  · rw [get?_insert] at found
    split at found
    · exact Option.some.inj found ▸ isPlain
    · exact plain key anniversary found

theorem readSoFar_readLine (plain : PlainDays reading.anniversaries) (entry : VCardEntry)
    (family : Family) :
    family.readSoFar (readLine base64 isGroup labels reading entry) =
      (family.read base64 isGroup labels entry).elim (family.readSoFar reading) fun value =>
        file family.merges family.stem (family.readSoFar reading) ⟨statedKey entry, value⟩ := by
  have day := @addAnniversary_eq_file entry
    (readDayLine labels (toAsciiUppercase entry.name) entry) _ plain fun _ => readDayLine_plain
  simp only [readLine, Family.read, addEntry_eq_file, day]
  cases family <;> cases lineKind (toAsciiUppercase entry.name) <;> cases isGroup <;> rfl

theorem Family.read_plain
    (isRead : Family.read base64 isGroup labels .anniversaries entry = some anniversary) :
    anniversary.extra = ∅ := by
  simp only [Family.read] at isRead
  cases kind : lineKind (toAsciiUppercase entry.name) <;> rw [kind] at isRead <;>
    first | exact readDayLine_plain isRead | contradiction

theorem plainDays_readLine (plain : PlainDays reading.anniversaries) (entry : VCardEntry) :
    PlainDays (readLine base64 isGroup labels reading entry).anniversaries := by
  have step := @readSoFar_readLine base64 isGroup labels reading plain entry .anniversaries
  change (readLine base64 isGroup labels reading entry).anniversaries = _ at step
  rw [step]
  cases isRead : Family.read base64 isGroup labels .anniversaries entry with
  | none => exact plain
  | some anniversary => exact plain.file (Family.read_plain isRead)

theorem readSoFar_foldl (entries : List VCardEntry) (plain : PlainDays reading.anniversaries)
    (family : Family) :
    family.readSoFar (entries.foldl (readLine base64 isGroup labels) reading) =
      (entries.filterMap fun entry => (family.read base64 isGroup labels entry).map
        (Request.mk (statedKey entry))).foldl (file family.merges family.stem)
          (family.readSoFar reading) := by
  induction entries generalizing reading with
  | nil => rfl
  | cons entry entries ih =>
    rw [foldl_cons, ih (plainDays_readLine plain entry), readSoFar_readLine plain]
    cases isRead : family.read base64 isGroup labels entry with
    | none => simp [isRead]
    | some value => simp [isRead]

end Line

theorem readSoFar_lines (entries : List VCardEntry) (family : Family) :
    family.readSoFar
        (entries.foldl (readLine base64 (isList entries) (readGroupLabels entries)) {}) =
      fileAll family.merges family.stem (family.lineRequests base64 entries) := by
  have plain : PlainDays ({} : Reading).anniversaries := by
    intro key anniversary found
    cases found
  rw [readSoFar_foldl entries plain]
  cases family <;> rfl

/-! ## The card -/

theorem getD_stated {T : Type} (map : BTreeMap String T) : (stated map).getD ∅ = map := by
  rw [stated]
  split
  · next isEmpty => exact ((isEmpty_iff map).mp isEmpty).symm
  · rfl

variable {entries : List VCardEntry}

theorem addresses_cardOf : Family.addresses.entriesOf (cardOf entries base64) =
    behind (Family.addresses.lineRequests base64 entries) (readableLabels entries) := by
  rw [Family.entriesOf, cardOf, getD_stated, readLines, foldl_readLabel_readable, behind,
    ← show fileAll Family.addresses.merges Family.addresses.stem _ = fileAll false "a" _ from rfl,
    ← readSoFar_lines]
  rfl

/-- In every family, no line is given an invented key that a later line states, and no `LABEL`
line gets the address of another one. -/
structure KeysClear (base64 : Base64) (entries : List VCardEntry) : Prop where
  families : ∀ family : Family, Clear family.merges family.stem (family.requests base64 entries)
  labels : LabelsClear (Family.addresses.lineRequests base64 entries) (readableLabels entries)

/-- Every readable line of a family has an entry of its own or shares that of a line it
repeats, the first line that states a key is found there, and a line without a key never
takes one that another line states.  Each label shows in the address that it was given to, and
the first `LABEL` line that states the key of an address labels it. -/
structure KeysSurvive (base64 : Base64) (entries : List VCardEntry) (card : ContactCard) :
    Prop where
  families : ∀ family : Family,
    Survives family.merges family.stem (family.Shows card) (family.requests base64 entries)
  labels : ∀ front label back, readableLabels entries = front ++ label :: back →
    ∃ address, (Family.addresses.entriesOf card).get?
        (labelKey (Family.addresses.lineRequests base64 entries) front label) = some address ∧
      address.full = some (entryText label)
  keptLabels : LabelsKept (Family.addresses.lineRequests base64 entries) (readableLabels entries)

theorem readableLabels_texts : ∀ label ∈ readableLabels entries, entryText label ≠ "" := by
  intro label mem
  simpa using (mem_filter.mp mem).2

theorem shows_cardOf (clear : KeysClear base64 entries) {family : Family} {key : String}
    {value : family.Entry}
    (found : (fileAll family.merges family.stem (family.requests base64 entries)).get? key =
      some value) : family.Shows (cardOf entries base64) key value := by
  cases family with
  | addresses =>
    have follows := Follows.of_clear (clear.families .addresses) readableLabels_texts
      (append_nil _).symm
    obtain ⟨held, isHeld, completes⟩ := follows.values key value found
    exact ⟨held, addresses_cardOf ▸ isHeld, completes⟩
  | _ =>
    rw [Family.requests, ← readSoFar_lines] at found
    · refine ⟨value, ?_, rfl⟩
      rw [Family.entriesOf, cardOf, getD_stated]
      exact found
    · nofun

def streetLine (key : Option String) : VCardEntry :=
  listLine "ADR" ["", "", "Main Street"] (key.map keyParam).toList

def street : Address := { components := some [{ kind := "name", value := "Main Street" }] }

/-- In each family a line with a key ahead of a line without one. -/
def orderedLines : List VCardEntry :=
  [line "EMAIL" "old@example.com" [keyParam "e1"], line "EMAIL" "new@example.com",
    streetLine (some "a1"), line "LABEL" "Old" [keyParam "a1"], line "LABEL" "New"]

theorem orderedLines_clear : KeysClear .empty orderedLines where
  families family := by
    intro front request back key isSplit isGiven inventing later isLater
    have short : (family.requests .empty orderedLines).length ≤ 2 := by
      cases family <;> decide +kernel
    have behind := length_pos_of_mem isLater
    -- only the first line has a line behind it, and it states a new key
    have isFirst : front = [] := by
      rw [isSplit, length_append, length_cons] at short
      apply eq_nil_of_length_eq_zero
      omega
    have isHead : (family.requests .empty orderedLines).head? = some request := by
      rw [isSplit, isFirst]
      rfl
    have keeps : ((family.requests .empty orderedLines).head?).all fun request =>
        given family.merges family.stem [] request == request.stated := by
      cases family <;> decide +kernel
    rw [isHead, Option.all_some, ← isFirst, isGiven, beq_iff_eq] at keeps
    exact absurd keeps.symm inventing
  labels front label middle later back isSplit _ _ _ isStated _ := by
    -- the second label has no key
    have keyless : ∀ later ∈ (readableLabels orderedLines).tail, statedKey later = none := by
      decide +kernel
    have mem : later ∈ (readableLabels orderedLines).tail := by
      rw [isSplit]
      cases front <;> simp
    rw [keyless later mem] at isStated
    cases isStated

/-- A line without a key ahead of a line that states the key invented for it. -/
def overtakenLines : List VCardEntry :=
  [line "EMAIL" "new@example.com", line "EMAIL" "old@example.com" [keyParam "e1"]]

def overtakenLabels : List VCardEntry :=
  [line "LABEL" "New", line "LABEL" "Old" [keyParam "a1"]]

/-- The `ADR` line has the key that is invented for it when the `LABEL` line is read. -/
def overtakenAddress : List VCardEntry :=
  [streetLine none, line "LABEL" "Old" [keyParam "a1"]]

/-- The label without a key is given to the address of the other one. -/
def overtakenLabel : List VCardEntry := streetLine (some "a1") :: overtakenLabels

end EvolutionJmap.Vcard
