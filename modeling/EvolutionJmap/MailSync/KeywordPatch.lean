import EvolutionJmap.MailSync.Keywords
import EvolutionJmap.Proto.PatchObject

/-!
# A keyword change on the wire (`jmap-mail-sync`, `keywords.rs`, `pointer.rs`)

The difference of two keyword sets is the patch that the server applies to its keywords,
and the replay on the row of a message.  The replay keeps opposite keywords apart, the
patch does not.
-/

namespace EvolutionJmap.MailSync

open BTreeMap List

def pointerMember (property name : String) : String :=
  property ++ "/" ++ escapePointerSegment name

def KeywordChange.patch (change : KeywordChange) : Patch :=
  BTreeMap.ofList
    (change.set.map (fun name => (pointerMember "keywords" name, .bool true)) ++
      change.cleared.map fun name => (pointerMember "keywords" name, .null))

/-! ## The server -/

/-- A server applies a patch to the keywords of a message and folds the names to
lower case. It refuses any other path. -/
def applyKeywords (lower : String → String) : List (String × Value) → Value → Option Value
  | [], held => some held
  | (path, value) :: rest, held =>
    match Pointer.keys path with
    | ["keywords", name] =>
      (Value.write [lower name] value held).bind (applyKeywords lower rest)
    | _ => none

variable {keywords : Keywords lower} {key partner : String}

namespace Keywords

variable {lower : String → String}

/-- The keywords as a server states them (RFC 8621 §4.1.1). -/
def toJson (keywords : Keywords lower) : Value :=
  .ofMembers (keywords.names.values.map fun name => (name, .bool true))

/-- Every keyword is spelled in lower case. -/
def Lowercase (keywords : Keywords lower) : Prop :=
  ∀ entry ∈ keywords.names.entries, entry.2 = entry.1

instance (keywords : Keywords lower) : Decidable keywords.Lowercase :=
  inferInstanceAs (Decidable (∀ entry ∈ _, _))

theorem Lowercase.mem_values (lowercase : keywords.Lowercase) :
    key ∈ keywords.names.values ↔ keywords.has key = true := by
  rw [has_iff, BTreeMap.values, mem_map]
  constructor
  · intro found
    obtain ⟨entry, mem, rfl⟩ := found
    rw [lowercase entry mem]
    exact ⟨entry.2, (mem_entries _).mp mem⟩
  · intro found
    obtain ⟨name, held⟩ := found
    have mem := (mem_entries _).mpr held
    exact ⟨_, mem, lowercase _ mem⟩

theorem Lowercase.get?_toJson (lowercase : keywords.Lowercase) (key : String) :
    keywords.toJson.get? key = if keywords.has key then some (.bool true) else none := by
  change (BTreeMap.ofList _).get? key = _
  split
  · next held =>
    have listed : key ∈ (keywords.names.values.map fun name => (name, Value.bool true)).map
        Prod.fst := by
      simpa using lowercase.mem_values.mpr held
    obtain ⟨value, found⟩ := exists_get?_ofList listed
    rcases mem_map.mp (mem_of_mem_ofList ((mem_entries _).mpr found)) with
      ⟨name, -, same⟩
    cases same
    exact found
  · next absent =>
    apply Option.eq_none_iff_forall_ne_some.mpr
    intro value found
    rcases mem_map.mp (mem_of_mem_ofList ((mem_entries _).mpr found)) with
      ⟨name, mem, same⟩
    cases same
    exact absent (lowercase.mem_values.mp mem)

end Keywords

/-! ## Applying the patch -/

variable {value : Value}

section

variable {lower : String → String} {before after : Keywords lower}

theorem keys_pointerMember (name : String) :
    Pointer.keys (pointerMember "keywords" name) = ["keywords", name] := by
  rw [pointerMember, Pointer.keys_append, Pointer.keys_escape, Pointer.keys_plain (by decide)]
  rfl

def writtenFor (before after : Keywords lower) (key : String) : Option Value :=
  if after.has key && !before.has key then some (.bool true)
  else if before.has key && !after.has key then some .null
  else none

theorem mem_patch {path : String}
    (mem : (path, value) ∈ (KeywordChange.between before after).patch.entries) :
    ∃ name, path = pointerMember "keywords" name ∧
      writtenFor before after (lower name) = some value := by
  have listed := mem_of_mem_ofList mem
  rw [mem_append, mem_map, mem_map] at listed
  rcases listed with ⟨name, inSet, same⟩ | ⟨name, inCleared, same⟩
  · cases same
    have added := Keywords.mem_set_between.mp ⟨name, inSet, rfl⟩
    exact ⟨name, rfl, by simp [writtenFor, added.1, added.2]⟩
  · cases same
    have cleared := Keywords.mem_cleared_between.mp ⟨name, inCleared, rfl⟩
    exact ⟨name, rfl, by simp [writtenFor, cleared.1, cleared.2]⟩

theorem exists_mem_patch (writes : writtenFor before after key = some value) :
    ∃ entry ∈ (KeywordChange.between before after).patch.entries,
      ∃ name, entry.1 = pointerMember "keywords" name ∧ lower name = key := by
  have named : ∃ name, lower name = key ∧
      (name ∈ (KeywordChange.between before after).set ∨
        name ∈ (KeywordChange.between before after).cleared) := by
    rw [writtenFor] at writes
    split at writes
    · next added =>
      have ends : after.has key = true ∧ before.has key = false := by simpa using added
      obtain ⟨name, mem, same⟩ := Keywords.mem_set_between.mpr ends
      exact ⟨name, same, .inl mem⟩
    · split at writes
      · next cleared =>
        have ends : before.has key = true ∧ after.has key = false := by simpa using cleared
        obtain ⟨name, mem, same⟩ := Keywords.mem_cleared_between.mpr ends
        exact ⟨name, same, .inr mem⟩
      · cases writes
  obtain ⟨name, same, mem⟩ := named
  have listed : pointerMember "keywords" name ∈
      ((KeywordChange.between before after).set.map (fun name =>
          (pointerMember "keywords" name, Value.bool true)) ++
        (KeywordChange.between before after).cleared.map fun name =>
          (pointerMember "keywords" name, Value.null)).map Prod.fst := by
    simp only [map_append, map_map, mem_append, mem_map, Function.comp]
    exact mem.imp (fun inSet => ⟨name, inSet, rfl⟩) fun inCleared => ⟨name, inCleared, rfl⟩
  obtain ⟨written, found⟩ := exists_get?_ofList listed
  exact ⟨_, (mem_entries _).mpr found, name, rfl, same⟩

/-- Some entry is for the keyword, in any case. -/
def Names (lower : String → String) (entries : List (String × Value)) (key : String) : Prop :=
  ∃ entry ∈ entries, ∃ name, entry.1 = pointerMember "keywords" name ∧ lower name = key

theorem keywordPath_injective {name other : String}
    (samePath : pointerMember "keywords" name = pointerMember "keywords" other) : name = other := by
  have keys := congrArg Pointer.keys samePath
  rw [keys_pointerMember, keys_pointerMember] at keys
  simpa using keys

theorem names_cons {name : String} {rest : List (String × Value)} :
    Names lower ((pointerMember "keywords" name, value) :: rest) key ↔
      lower name = key ∨ Names lower rest key := by
  rw [Names, exists_mem_cons_iff]
  apply or_congr_left
  constructor
  · rintro ⟨other, samePath, same⟩
    exact keywordPath_injective samePath ▸ same
  · exact fun same => ⟨name, rfl, same⟩

theorem applyKeywords_cons (name : String) (value : Value) (rest members : List (String × Value)) :
    applyKeywords lower ((pointerMember "keywords" name, value) :: rest) (.object members) =
      applyKeywords lower rest
        (.object (Value.setMember (lower name) value members)) := by
  rw [applyKeywords, keys_pointerMember]
  rfl

/-- The server's keywords after entries that write what the change writes: each
named keyword has what is written for it, the others stay. -/
theorem get?_applyKeywords {entries : List (String × Value)} (members : List (String × Value))
    (wellFormed : ∀ entry ∈ entries, ∃ name, entry.1 = pointerMember "keywords" name ∧
      writtenFor before after (lower name) = some entry.2) :
    ∃ patched, applyKeywords lower entries (.object members) = some (.object patched) ∧
      ∀ key,
        (Names lower entries key → Entries.get? key patched =
          (writtenFor before after key).filter (!Value.isNull ·)) ∧
        (¬ Names lower entries key → Entries.get? key patched = Entries.get? key members) := by
  induction entries generalizing members with
  | nil =>
    refine ⟨members, rfl, fun key => ⟨?_, fun _ => rfl⟩⟩
    rintro ⟨entry, mem, -⟩
    cases mem
  | cons entry rest ih =>
    obtain ⟨path, value⟩ := entry
    rw [forall_mem_cons] at wellFormed
    obtain ⟨⟨name, isPath, writes⟩, restWellFormed⟩ := wellFormed
    change path = _ at isPath
    subst isPath
    rcases ih (Value.setMember (lower name) value members) restWellFormed with
      ⟨patched, applied, each⟩
    refine ⟨patched, (applyKeywords_cons name value rest members).trans applied, fun key => ?_⟩
    rw [names_cons]
    constructor
    · intro named
      by_cases later : Names lower rest key
      · exact (each key).1 later
      · have here : lower name = key := named.resolve_right later
        rw [(each key).2 later, Value.get?_setMember, if_pos here.symm, ← here, writes]
        cases isNull : value.isNull <;> simp [isNull, Option.filter]
    · intro unnamed
      rw [not_or] at unnamed
      rw [(each key).2 unnamed.2, Value.get?_setMember, if_neg (Ne.symm unnamed.1)]

theorem applyKeywords_change (before after : Keywords lower)
    (members : List (String × Value)) :
    ∃ patched, applyKeywords lower (KeywordChange.between before after).patch.entries
        (.object members) = some (.object patched) ∧
      ∀ key, Entries.get? key patched = (writtenFor before after key).elim
        (Entries.get? key members) fun value => if value.isNull then none else some value := by
  obtain ⟨patched, applied, each⟩ := get?_applyKeywords members fun entry mem => mem_patch mem
  refine ⟨patched, applied, fun key => ?_⟩
  cases written : writtenFor before after key with
  | some value =>
    obtain ⟨entry, mem, states⟩ := exists_mem_patch written
    rw [(each key).1 ⟨entry, mem, states⟩, written]
    cases isNull : value.isNull <;> simp [isNull, Option.filter]
  | none =>
    apply (each key).2
    rintro ⟨entry, mem, name, isPath, rfl⟩
    obtain ⟨other, otherPath, writes⟩ := mem_patch mem
    rw [keywordPath_injective (otherPath.symm.trans isPath), written] at writes
    cases writes

def writtenOver (before after server : Keywords lower) (key : String) : Bool :=
  (after.has key && !before.has key) || (server.has key && (after.has key || !before.has key))

variable (before after) in
/-- The server applies the patch. Each keyword that the change names is set or
removed, every other one stays. -/
theorem applyKeywords_between {server : Keywords lower} (lowercase : server.Lowercase) :
    ∃ patched, applyKeywords lower (KeywordChange.between before after).patch.entries
        server.toJson = some patched ∧
      ∀ key, patched.get? key =
        if writtenOver before after server key then some (.bool true) else none := by
  rcases applyKeywords_change before after (BTreeMap.ofList
      (server.names.values.map fun name => (name, Value.bool true))).entries with
    ⟨patched, applied, each⟩
  refine ⟨.object patched, applied, fun key => (each key).trans ?_⟩
  rw [show Entries.get? key _ = _ from lowercase.get?_toJson key]
  cases isBefore : before.has key <;> cases isAfter : after.has key <;>
    simp [writtenFor, writtenOver, isBefore, isAfter, Value.isNull]

/-- Whatever changes clients make one after the other, none is refused, and each keyword
has what the last change that names it writes. -/
theorem applyKeywords_lastWins
    (changes : List (Keywords lower × Keywords lower)) (members : List (String × Value)) :
    ∃ patched, changes.foldlM (fun held change => applyKeywords lower
        (KeywordChange.between change.1 change.2).patch.entries held) (.object members) =
        some (.object patched) ∧
      ∀ key, Entries.get? key patched =
        (changes.reverse.findSome? fun change => writtenFor change.1 change.2 key).elim
          (Entries.get? key members) fun value => if value.isNull then none else some value := by
  induction changes generalizing members with
  | nil => exact ⟨members, rfl, fun _ => rfl⟩
  | cons change changes ih =>
    obtain ⟨middle, applied, one⟩ := applyKeywords_change change.1 change.2 members
    obtain ⟨patched, rest, each⟩ := ih middle
    refine ⟨patched, by rw [foldlM_cons, applied]; exact rest, fun key => ?_⟩
    rw [each, one, reverse_cons, findSome?_append, findSome?_singleton]
    cases changes.reverse.findSome? fun change => writtenFor change.1 change.2 key <;> rfl

end

/-! ## The replay -/

namespace Keywords

variable {lower : String → String} (before after server : Keywords lower)

/-- The keyword is new. -/
def Adds (key : String) : Prop := after.has key = true ∧ before.has key = false

instance (key : String) : Decidable (Adds before after key) :=
  inferInstanceAs (Decidable (_ ∧ _))

/-- The change adds a keyword while an opposite one is added as well, or is on the
server and stays there. -/
def Opposing : Prop :=
  ∃ key partner, Partner key partner ∧ Adds before after key ∧
    writtenOver before after server partner = true

instance : Decidable (Opposing before after server) :=
  decidable_of_iff (∃ pair ∈ exclusivePairs ++ exclusivePairs.map Prod.swap,
      Adds before after pair.1 ∧ writtenOver before after server pair.2 = true) (by
    constructor
    · intro found
      obtain ⟨pair, member, adds, stays⟩ := found
      exact ⟨_, _, partner_iff.mpr member, adds, stays⟩
    · intro opposing
      obtain ⟨key, partner, isPartner, adds, stays⟩ := opposing
      exact ⟨_, partner_iff.mp isPartner, adds, stays⟩)

variable {before after server}

theorem not_both_addAll {names : List String} (isPartner : Partner key partner)
    (apart : (∃ name ∈ names, lower name = key ∨ lower name = partner) ∨
      ¬ (server.has key = true ∧ server.has partner = true)) :
    ¬ ((server.addAll names).has key = true ∧ (server.addAll names).has partner = true) := by
  induction names generalizing server with
  | nil => simpa [addAll] using apart
  | cons name names ih =>
    rw [has_addAll_cons, has_addAll_cons]
    apply ih
    rcases apart with ⟨other, mem, named⟩ | apart
    · rcases mem_cons.mp mem with rfl | later
      · right
        rintro ⟨hasKey, hasPartner⟩
        rw [has_clearPartners, Bool.and_eq_true, Bool.not_eq_true', decide_eq_false_iff_not]
          at hasKey hasPartner
        rcases named with rfl | rfl
        · exact hasPartner.2 isPartner
        · exact hasKey.2 isPartner.symm
      · exact .inl ⟨other, later, named⟩
    · right
      rintro ⟨hasKey, hasPartner⟩
      rw [has_clearPartners, has_insert, Bool.and_eq_true, Bool.or_eq_true, decide_eq_true_eq,
        Bool.not_eq_true', decide_eq_false_iff_not] at hasKey hasPartner
      rcases hasKey.1 with rfl | heldKey
      · exact hasPartner.2 isPartner
      · rcases hasPartner.1 with rfl | heldPartner
        · exact hasKey.2 isPartner.symm
        · exact apart ⟨heldKey, heldPartner⟩

/-- A replay does not set two opposite keywords. If both are there, both were there
before and the change adds neither. -/
theorem patched_both (isPartner : Partner key partner)
    (hasKey : (server.patched (.between before after)).has key = true)
    (hasPartner : (server.patched (.between before after)).has partner = true) :
    server.has key = true ∧ server.has partner = true ∧ ¬ Adds before after key ∧
      ¬ Adds before after partner := by
  rw [patched_eq] at hasKey hasPartner
  have neither : ¬ ∃ name ∈ (KeywordChange.between before after).set,
      lower name = key ∨ lower name = partner := fun added =>
    not_both_addAll isPartner (.inl added) ⟨hasKey, hasPartner⟩
  have fresh : ∀ {other}, (other = key ∨ other = partner) → ¬ Adds before after other := by
    intro other which adds
    obtain ⟨name, mem, rfl⟩ := mem_set_between.mpr adds
    exact neither ⟨name, mem, which⟩
  have held : ∀ {other}, (other = key ∨ other = partner) →
      ((((KeywordChange.between before after).cleared.foldl
        (fun keywords name => keywords.remove (lower name)) server).addAll
          (KeywordChange.between before after).set).has other = true) →
            server.has other = true := by
    intro other which stays
    have notAdded : ∀ name ∈ (KeywordChange.between before after).set,
        lower name ≠ other := fun name mem same =>
      neither ⟨name, mem, same ▸ which⟩
    rw [has_addAll_of_not_mem _ notAdded, has_foldl_remove] at stays
    exact stays.1.1
  exact ⟨held (.inl rfl) hasKey, held (.inr rfl) hasPartner, fresh (.inl rfl), fresh (.inr rfl)⟩

theorem writtenOver_of_adds (adds : Adds before after key) :
    writtenOver before after server key = true := by
  simp [writtenOver, adds.1, adds.2]

theorem has_patched_of_not_opposing (unopposed : ¬ Opposing before after server) (key : String) :
    (server.patched (.between before after)).has key = writtenOver before after server key := by
  have alone : writtenOver before after server key = true →
      ∀ name ∈ (KeywordChange.between before after).set, ¬ Partner (lower name) key :=
    fun stays name mem isPartner =>
      unopposed ⟨_, key, isPartner, mem_set_between.mp ⟨name, mem, rfl⟩, stays⟩
  rw [patched_eq]
  by_cases adds : Adds before after key
  · have stays : writtenOver before after server key = true := writtenOver_of_adds adds
    rw [stays]
    exact has_addAll_of_mem _ (.inl (mem_set_between.mpr adds)) (alone stays)
  · have notAdded : ∀ name ∈ (KeywordChange.between before after).set, lower name ≠ key :=
      fun name mem same => adds (mem_set_between.mp ⟨name, mem, same⟩)
    have kept : (∀ name ∈ (KeywordChange.between before after).cleared, lower name ≠ key) ↔
        ¬ (before.has key = true ∧ after.has key = false) := by
      rw [← mem_cleared_between]
      simp
    have written : writtenOver before after server key = true ↔
        server.has key = true ∧ ¬ (before.has key = true ∧ after.has key = false) := by
      rw [Adds] at adds
      cases isBefore : before.has key <;> cases isAfter : after.has key <;>
        simp [writtenOver, isBefore, isAfter] at adds ⊢
    rw [Bool.eq_iff_iff, has_addAll_of_not_mem _ notAdded, has_foldl_remove, kept, ← written]
    exact and_iff_left_of_imp alone

/-- The patch on the server and the replay on the row give the same keywords just
when the change adds no keyword whose opposite is there afterwards. A replay never
sets two opposite keywords. -/
theorem keywordPatch_agrees_iff (lowercase : server.Lowercase) :
    ((∃ patched, applyKeywords lower (KeywordChange.between before after).patch.entries
        server.toJson = some patched ∧
      ∀ key, patched.get? key =
        if (server.patched (.between before after)).has key then some (.bool true) else none) ∧
      ∀ key partner, Partner key partner →
        (server.patched (.between before after)).has key = true →
        (server.patched (.between before after)).has partner = true →
        server.has key = true ∧ server.has partner = true ∧ ¬ Adds before after key ∧
          ¬ Adds before after partner) ↔
      ¬ Opposing before after server := by
  obtain ⟨written, applied, each⟩ := applyKeywords_between before after lowercase
  constructor
  · rintro ⟨⟨patched, isPatched, agrees⟩, -⟩ ⟨key, partner, isPartner, adds, stays⟩
    cases applied.symm.trans isPatched
    have same : ∀ {other}, writtenOver before after server other = true →
        (server.patched (.between before after)).has other = true := by
      intro other isWritten
      have both := (each other).symm.trans (agrees other)
      rw [if_pos isWritten] at both
      split at both
      · next held => exact held
      · cases both
    have apart := patched_both isPartner (same (writtenOver_of_adds adds)) (same stays)
    exact apart.2.2.1 adds
  · intro unopposed
    refine ⟨⟨written, applied, fun key => ?_⟩, fun key partner => patched_both⟩
    rw [each key, has_patched_of_not_opposing unopposed key]

def ofNames (names : List String) : Keywords toAsciiLowercase := names.foldl insert empty

theorem keywordPatch_agrees_junk :
    (ofNames ["$seen", "work"]).Lowercase ∧
      ¬ Opposing (ofNames ["Work"]) (ofNames ["$junk"]) (ofNames ["$seen", "work"]) ∧
      ((ofNames ["$seen", "work"]).patched
          (.between (ofNames ["Work"]) (ofNames ["$junk"]))).names.keys = ["$junk", "$seen"] ∧
      ∃ patched, applyKeywords toAsciiLowercase
          (KeywordChange.between (ofNames ["Work"]) (ofNames ["$junk"])).patch.entries
          (ofNames ["$seen", "work"]).toJson = some patched ∧
        ∀ key, patched.get? key =
          if ((ofNames ["$seen", "work"]).patched
            (.between (ofNames ["Work"]) (ofNames ["$junk"]))).has key then some (.bool true)
          else none :=
  have lowercase : (ofNames ["$seen", "work"]).Lowercase := by decide +kernel
  have unopposed : ¬ Opposing (ofNames ["Work"]) (ofNames ["$junk"])
      (ofNames ["$seen", "work"]) := by decide +kernel
  ⟨lowercase, unopposed, by decide +kernel,
    ((keywordPatch_agrees_iff lowercase).mpr unopposed).1⟩

/-- Another client marked the message as not junk, and the row marks it as junk.
The server then has both keywords, the row only one. -/
theorem keywordPatch_leaves_both :
    applyKeywords toAsciiLowercase
        (KeywordChange.between (ofNames []) (ofNames ["$junk"])).patch.entries
        (ofNames ["$notjunk"]).toJson =
        some (.ofMembers [("$junk", .bool true), ("$notjunk", .bool true)]) ∧
      ((ofNames ["$notjunk"]).patched (.between (ofNames []) (ofNames ["$junk"]))).toJson =
        .ofMembers [("$junk", .bool true)] := by
  decide +kernel

end Keywords

end EvolutionJmap.MailSync
