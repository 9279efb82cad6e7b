import EvolutionJmap.MailSync.Message

/-!
# Keyword sets and their difference (`jmap-mail-sync`, `keywords.rs`)

A row's flags and labels are one set of keywords on the server, and a change is sent as
the difference of two such sets.  `lower` is `to_lowercase` of the standard library; the
results only use that it leaves the flag keywords alone.
-/

namespace EvolutionJmap.MailSync

open List BTreeMap

def flagKeywords : List (String × (MessageFlags → Bool)) :=
  [("$seen", MessageFlags.seen), ("$answered", MessageFlags.answered),
    ("$flagged", MessageFlags.flagged), ("$draft", MessageFlags.draft),
    ("$forwarded", MessageFlags.forwarded), ("$junk", MessageFlags.junk),
    ("$notjunk", MessageFlags.notJunk)]

/-- Keyword pairs that must never both be set on one message. -/
def exclusivePairs : List (String × String) := [("$junk", "$notjunk")]

/-- The keywords of one message: the lowercase name of each, with the spelling
that came first. -/
structure Keywords (lower : String → String) where
  names : BTreeMap String String
  folded : ∀ {key name : String}, names.get? key = some name → lower name = key

/-- What has to happen on the server for one keyword set to become another. -/
structure KeywordChange where
  set : List String
  cleared : List String
  deriving DecidableEq, Repr

def KeywordChange.isEmpty (change : KeywordChange) : Bool :=
  change.set.isEmpty && change.cleared.isEmpty

variable {entry : String × (MessageFlags → Bool)} {flags : MessageFlags} {tags names : List String}

namespace Keywords

variable {lower : String → String}

def empty : Keywords lower := ⟨∅, nofun⟩

variable (keywords : Keywords lower)

/-- Whether the set has the keyword with this lowercase name. -/
def has (key : String) : Bool := keywords.names.contains key

def insert (keywords : Keywords lower) (name : String) : Keywords lower :=
  if keywords.has (lower name) then
    keywords
  else
    ⟨keywords.names.insert (lower name) name, by
      intro key held found
      rw [get?_insert] at found
      split at found
      · next here =>
        cases found
        exact here.symm
      · exact keywords.folded found⟩

def remove (key : String) : Keywords lower :=
  ⟨keywords.names.erase key, by
    intro other held found
    rw [get?_erase] at found
    split at found
    · cases found
    · exact keywords.folded found⟩

/-- The keyword set of a summary row. The attachments bit is not a keyword. -/
def new (flags : MessageFlags) (tags : List String) : Keywords lower :=
  let named := flagKeywords.filterMap fun (name, isSet) => if isSet flags then some name else none
  tags.foldl insert (named.foldl insert empty)

def splitName (columns : MessageFlags × List String) (entry : String × String) :
    MessageFlags × List String :=
  match entry.1 with
  | "$seen" => ({ columns.1 with seen := true }, columns.2)
  | "$answered" => ({ columns.1 with answered := true }, columns.2)
  | "$flagged" => ({ columns.1 with flagged := true }, columns.2)
  | "$draft" => ({ columns.1 with draft := true }, columns.2)
  | "$forwarded" => ({ columns.1 with forwarded := true }, columns.2)
  | "$junk" => ({ columns.1 with junk := true }, columns.2)
  | "$notjunk" => ({ columns.1 with notJunk := true }, columns.2)
  | _ => (columns.1, columns.2 ++ [entry.2])

/-- The set as the two columns of a summary row. -/
def split : MessageFlags × List String :=
  keywords.names.entries.foldl splitName ({}, [])

/-- The set without the keywords that say the opposite of `key`. -/
def clearPartners (key : String) : Keywords lower :=
  exclusivePairs.foldl (fun keywords pair =>
    if key = pair.1 then keywords.remove pair.2
    else if key = pair.2 then keywords.remove pair.1
    else keywords) keywords

/-- This set with `change` applied to it. An added keyword clears its partner. -/
def patched (change : KeywordChange) : Keywords lower :=
  let cleared := change.cleared.foldl (fun keywords name => keywords.remove (lower name))
    keywords
  change.set.foldl (fun keywords name =>
    (keywords.insert name).clearPartners (lower name)) cleared

end Keywords

/-- The change from `before` to `after`. An added keyword is spelled as in `after`,
a removed one as in `before`. -/
def KeywordChange.between {lower : String → String}
    (before after : Keywords lower) : KeywordChange where
  set := (after.names.entries.filter fun entry => !before.has entry.1).map Prod.snd
  cleared := (before.names.entries.filter fun entry => !after.has entry.1).map Prod.snd

/-! ## What the operations do to one keyword -/

namespace Keywords

variable {lower : String → String} (keywords : Keywords lower)

theorem has_iff {key : String} :
    keywords.has key = true ↔ ∃ name, keywords.names.get? key = some name :=
  keywords.names.contains_eq_true

@[simp] theorem has_empty (key : String) : (empty : Keywords lower).has key = false := rfl

theorem has_insert (name key : String) :
    (keywords.insert name).has key = (decide (key = lower name) || keywords.has key) := by
  unfold insert
  by_cases held : keywords.has (lower name) = true
  · rw [if_pos held]
    by_cases same : key = lower name
    · simp [same, held]
    · simp [same]
  · rw [if_neg held]
    simp only [has, BTreeMap.contains, get?_insert]
    by_cases same : key = lower name <;> simp [same]

theorem has_remove (other key : String) :
    (keywords.remove other).has key = (!decide (key = other) && keywords.has key) := by
  simp only [has, remove, BTreeMap.contains, get?_erase]
  by_cases same : key = other <;> simp [same]

theorem has_foldl_insert (names : List String) (key : String) :
    (names.foldl insert keywords).has key = true ↔
      (∃ name ∈ names, lower name = key) ∨ keywords.has key = true := by
  apply foldl_gathers fun keywords : Keywords lower => keywords.has key = true
  simp [has_insert, eq_comm (a := key)]

theorem has_foldl_remove (names : List String) (key : String) :
    (names.foldl (fun keywords name => keywords.remove (lower name)) keywords).has key =
        true ↔
      keywords.has key = true ∧ ∀ name ∈ names, lower name ≠ key := by
  induction names generalizing keywords with
  | nil => simp
  | cons name names ih =>
    rw [foldl_cons, ih, has_remove]
    simp only [Bool.and_eq_true, Bool.not_eq_true', decide_eq_false_iff_not,
      forall_mem_cons, ne_eq, eq_comm (a := key)]
    exact ⟨fun h => ⟨h.1.2, h.1.1, h.2⟩, fun h => ⟨⟨h.2.1, h.1⟩, h.2.2⟩⟩

/-- Lowering leaves the keywords of flags as they are. -/
def KeepsFlagKeywords (lower : String → String) : Prop :=
  ∀ entry ∈ flagKeywords, lower entry.1 = entry.1

instance (lower : String → String) : Decidable (KeepsFlagKeywords lower) :=
  inferInstanceAs (Decidable (∀ entry ∈ flagKeywords, _))

/-- The keyword stands for a flag. -/
def IsFlag (key : String) : Prop := key ∈ flagKeywords.map Prod.fst

instance (key : String) : Decidable (IsFlag key) :=
  inferInstanceAs (Decidable (key ∈ flagKeywords.map Prod.fst))

theorem has_new (keeps : KeepsFlagKeywords lower) (flags : MessageFlags)
    (tags : List String) (key : String) :
    (new flags tags : Keywords lower).has key = true ↔
      (∃ entry ∈ flagKeywords, entry.2 flags = true ∧ entry.1 = key) ∨
        ∃ tag ∈ tags, lower tag = key := by
  unfold new
  rw [has_foldl_insert, has_foldl_insert, or_comm]
  simp only [has_empty, Bool.false_eq_true, or_false, mem_filterMap]
  apply or_congr_left
  constructor
  · intro found
    obtain ⟨name, ⟨entry, mem, isName⟩, folds⟩ := found
    by_cases isSet : entry.2 flags = true
    · rw [if_pos isSet] at isName
      cases isName
      exact ⟨entry, mem, isSet, (keeps entry mem).symm.trans folds⟩
    · rw [if_neg isSet] at isName
      cases isName
  · intro found
    obtain ⟨entry, mem, isSet, isKey⟩ := found
    exact ⟨entry.1, ⟨entry, mem, if_pos isSet⟩, (keeps entry mem).trans isKey⟩

section

variable (mem : entry ∈ flagKeywords)

include mem

theorem splitName_flag (columns : MessageFlags × List String) (name : String × String) :
    entry.2 (splitName columns name).1 =
      (entry.2 columns.1 || decide (name.1 = entry.1)) := by
  simp only [flagKeywords, mem_cons, not_mem_nil, or_false] at mem
  rcases mem with rfl | rfl | rfl | rfl | rfl | rfl | rfl <;>
    (unfold splitName; split <;> simp_all)

theorem foldl_splitName_flag (names : List (String × String))
    (columns : MessageFlags × List String) :
    entry.2 (names.foldl splitName columns).1 = true ↔
      entry.2 columns.1 = true ∨ ∃ name ∈ names, name.1 = entry.1 := by
  rw [or_comm]
  apply foldl_gathers fun columns : MessageFlags × List String => entry.2 columns.1 = true
  simp [splitName_flag mem, or_comm]

theorem split_flag : entry.2 keywords.split.1 = keywords.has entry.1 := by
  rw [Bool.eq_iff_iff, split, foldl_splitName_flag mem, has_iff]
  have unset : entry.2 ({} : MessageFlags) = false := by
    simp only [flagKeywords, mem_cons, not_mem_nil, or_false] at mem
    rcases mem with rfl | rfl | rfl | rfl | rfl | rfl | rfl <;> rfl
  simp [unset, mem_entries]

end

theorem splitName_tags (columns : MessageFlags × List String) (name : String × String) :
    (splitName columns name).2 =
      columns.2 ++ if IsFlag name.1 then [] else [name.2] := by
  unfold splitName
  split <;> simp_all [IsFlag, flagKeywords]

theorem foldl_splitName_tags (names : List (String × String))
    (columns : MessageFlags × List String) (tag : String) :
    tag ∈ (names.foldl splitName columns).2 ↔
      tag ∈ columns.2 ∨ ∃ name ∈ names, ¬ IsFlag name.1 ∧ name.2 = tag := by
  rw [or_comm]
  apply foldl_gathers fun columns : MessageFlags × List String => tag ∈ columns.2
  intro columns name
  by_cases isFlag : IsFlag name.1 <;> simp [splitName_tags, isFlag, or_comm, eq_comm (a := tag)]

theorem mem_split_tags {tag : String} :
    tag ∈ keywords.split.2 ↔ ∃ key, ¬ IsFlag key ∧ keywords.names.get? key = some tag := by
  rw [split, foldl_splitName_tags]
  simp only [not_mem_nil, false_or, Prod.exists, mem_entries]
  constructor
  · intro found
    obtain ⟨key, name, held, notFlag, rfl⟩ := found
    exact ⟨key, notFlag, held⟩
  · intro found
    obtain ⟨key, notFlag, held⟩ := found
    exact ⟨key, tag, held, notFlag, rfl⟩

theorem has_new_split (keeps : KeepsFlagKeywords lower)
    (sameFlags : ∀ entry ∈ flagKeywords, entry.2 flags = entry.2 keywords.split.1)
    (sameTags : tags = keywords.split.2) (key : String) :
    (new flags tags : Keywords lower).has key = keywords.has key := by
  rw [Bool.eq_iff_iff, has_new keeps, sameTags]
  constructor
  · intro found
    rcases found with ⟨entry, mem, isSet, rfl⟩ | ⟨tag, mem, rfl⟩
    · rw [sameFlags entry mem, keywords.split_flag mem] at isSet
      exact isSet
    · obtain ⟨key, -, held⟩ := keywords.mem_split_tags.mp mem
      rw [keywords.folded held]
      exact keywords.has_iff.mpr ⟨tag, held⟩
  · intro held
    by_cases isFlag : IsFlag key
    · obtain ⟨entry, mem, rfl⟩ := mem_map.mp isFlag
      refine .inl ⟨entry, mem, ?_, rfl⟩
      rw [sameFlags entry mem, keywords.split_flag mem]
      exact held
    · obtain ⟨name, found⟩ := keywords.has_iff.mp held
      exact .inr ⟨name, keywords.mem_split_tags.mpr ⟨key, isFlag, found⟩,
        keywords.folded found⟩

/-- Two keywords that say the opposite of each other. -/
def Partner (one other : String) : Prop :=
  (one, other) ∈ exclusivePairs ∨ (other, one) ∈ exclusivePairs

instance (one other : String) : Decidable (Partner one other) :=
  inferInstanceAs (Decidable (_ ∨ _))

theorem partner_iff {partner key : String} :
    Partner partner key ↔ (partner, key) ∈ exclusivePairs ++ exclusivePairs.map Prod.swap := by
  rw [Partner, mem_append, mem_map]
  apply or_congr_right
  constructor
  · exact fun mem => ⟨(key, partner), mem, rfl⟩
  · intro found
    obtain ⟨pair, mem, same⟩ := found
    cases same
    exact mem

theorem has_clearPartners (key other : String) :
    (keywords.clearPartners key).has other =
      (keywords.has other && !decide (Partner key other)) := by
  simp only [clearPartners, exclusivePairs, foldl_cons, foldl_nil, Partner,
    mem_singleton, Prod.mk.injEq]
  split
  · next isFirst =>
    subst isFirst
    rw [has_remove]
    by_cases same : other = "$notjunk" <;> simp [same]
  · split
    · next notFirst isSecond =>
      subst isSecond
      rw [has_remove]
      by_cases same : other = "$junk" <;> simp [same]
    · next notFirst notSecond => simp [notFirst, notSecond]

def addAll (keywords : Keywords lower) (names : List String) : Keywords lower :=
  names.foldl (fun keywords name => (keywords.insert name).clearPartners (lower name))
    keywords

theorem patched_eq (change : KeywordChange) :
    keywords.patched change = (change.cleared.foldl
      (fun keywords name => keywords.remove (lower name)) keywords).addAll change.set :=
  rfl

theorem has_addAll_cons (name : String) (names : List String) (key : String) :
    (keywords.addAll (name :: names)).has key =
      (((keywords.insert name).clearPartners (lower name)).addAll names).has key :=
  rfl

theorem has_addAll_of_not_mem {key : String} (absent : ∀ name ∈ names, lower name ≠ key) :
    (keywords.addAll names).has key = true ↔
      keywords.has key = true ∧ ∀ name ∈ names, ¬ Partner (lower name) key := by
  induction names generalizing keywords with
  | nil => simp [addAll]
  | cons name names ih =>
    rw [forall_mem_cons] at absent
    rw [has_addAll_cons, ih _ absent.2, has_clearPartners, has_insert, forall_mem_cons]
    simp [Ne.symm absent.1, and_assoc]

theorem has_addAll_of_mem {key : String}
    (added : (∃ name ∈ names, lower name = key) ∨ keywords.has key = true)
    (alone : ∀ name ∈ names, ¬ Partner (lower name) key) :
    (keywords.addAll names).has key = true := by
  induction names generalizing keywords with
  | nil => simpa [addAll] using added
  | cons name names ih =>
    rw [forall_mem_cons] at alone
    rw [has_addAll_cons]
    refine ih _ ?_ alone.2
    rw [has_clearPartners, has_insert]
    by_cases here : lower name = key
    · simp [here, here ▸ alone.1]
    · simpa [here, Ne.symm here, alone.1] using added

theorem mem_set_between {before after : Keywords lower} {key : String} :
    (∃ name ∈ (KeywordChange.between before after).set, lower name = key) ↔
      after.has key = true ∧ before.has key = false := by
  simp only [KeywordChange.between, mem_map, mem_filter, Bool.not_eq_true']
  constructor
  · intro found
    obtain ⟨name, ⟨entry, ⟨held, absent⟩, rfl⟩, rfl⟩ := found
    have found := after.names.mem_entries.mp held
    rw [after.folded found]
    exact ⟨after.has_iff.mpr ⟨_, found⟩, absent⟩
  · intro ends
    obtain ⟨name, found⟩ := after.has_iff.mp ends.1
    exact ⟨name, ⟨(key, name), ⟨after.names.mem_entries.mpr found, ends.2⟩, rfl⟩,
      after.folded found⟩

theorem mem_cleared_between {before after : Keywords lower} {key : String} :
    (∃ name ∈ (KeywordChange.between before after).cleared, lower name = key) ↔
      before.has key = true ∧ after.has key = false :=
  @mem_set_between _ after before key

/-- No new keyword is there with its opposite. -/
def Exclusive (before after : Keywords lower) : Prop :=
  ∀ key partner, Partner key partner → after.has key = true → before.has key = false →
    after.has partner = false

instance (before after : Keywords lower) : Decidable (Exclusive before after) :=
  decidable_of_iff (∀ pair ∈ exclusivePairs ++ exclusivePairs.map Prod.swap,
      after.has pair.1 = true → before.has pair.1 = false → after.has pair.2 = false) (by
    constructor
    · exact fun exclusive key partner isPartner => exclusive _ (partner_iff.mp isPartner)
    · exact fun exclusive pair member => exclusive _ _ (partner_iff.mpr member))

/-- The opposite of the keyword is new. -/
def Opposed (before after : Keywords lower) (key : String) : Prop :=
  ∃ partner, Partner partner key ∧ after.has partner = true ∧ before.has partner = false

instance (before after : Keywords lower) (key : String) :
    Decidable (Opposed before after key) :=
  decidable_of_iff (∃ pair ∈ exclusivePairs ++ exclusivePairs.map Prod.swap,
      pair.2 = key ∧ after.has pair.1 = true ∧ before.has pair.1 = false) (by
    constructor
    · intro found
      obtain ⟨pair, member, rfl, added⟩ := found
      exact ⟨pair.1, partner_iff.mpr member, added⟩
    · intro opposed
      obtain ⟨partner, isPartner, added⟩ := opposed
      exact ⟨(partner, key), partner_iff.mp isPartner, rfl, added⟩)

section

variable {before after : Keywords lower} {key : String}

theorem opposed_iff : Opposed before after key ↔
      ∃ name ∈ (KeywordChange.between before after).set, Partner (lower name) key := by
  constructor
  · intro opposed
    obtain ⟨partner, isPartner, added⟩ := opposed
    obtain ⟨name, mem, rfl⟩ := mem_set_between.mpr added
    exact ⟨name, mem, isPartner⟩
  · intro found
    obtain ⟨name, mem, isPartner⟩ := found
    exact ⟨_, isPartner, mem_set_between.mp ⟨name, mem, rfl⟩⟩

theorem not_opposed_of_added (exclusive : Exclusive before after) (held : after.has key = true)
    (absent : before.has key = false) : ¬ Opposed before after key := by
  intro opposed
  obtain ⟨partner, isPartner, added, -⟩ := opposed
  have cleared := exclusive key partner isPartner.symm held absent
  rw [added] at cleared
  cases cleared

/-- A keyword that the change names gets the value of `after`. -/
theorem has_patched_of_ne (exclusive : Exclusive before after)
    (changed : after.has key ≠ before.has key) :
    (keywords.patched (.between before after)).has key = after.has key := by
  rw [patched_eq]
  cases held : after.has key with
  | true =>
    have absent : before.has key = false := by
      rw [held] at changed
      simpa using changed.symm
    refine has_addAll_of_mem _ (.inl (mem_set_between.mpr ⟨held, absent⟩)) ?_
    intro name mem isPartner
    exact not_opposed_of_added exclusive held absent
      (opposed_iff.mpr ⟨name, mem, isPartner⟩)
  | false =>
    have present : before.has key = true := by
      rw [held] at changed
      simpa using changed.symm
    have notAdded : ∀ name ∈ (KeywordChange.between before after).set,
        lower name ≠ key := by
      intro name mem same
      have added := mem_set_between.mp ⟨name, mem, same⟩
      rw [held] at added
      cases added.1
    obtain ⟨name, mem, same⟩ := mem_cleared_between.mpr ⟨present, held⟩
    rw [Bool.eq_false_iff, Ne, has_addAll_of_not_mem _ notAdded, has_foldl_remove]
    exact fun kept => kept.1.2 name mem same

/-- A keyword that the change does not name keeps its own value, unless the change
adds its partner. -/
theorem has_patched_of_eq (same : after.has key = before.has key) :
    (keywords.patched (.between before after)).has key =
      (keywords.has key && !decide (Opposed before after key)) := by
  have notAdded : ∀ name ∈ (KeywordChange.between before after).set,
      lower name ≠ key := by
    intro name mem isKey
    have added := mem_set_between.mp ⟨name, mem, isKey⟩
    rw [same, added.2] at added
    cases added.1
  have notCleared : ∀ name ∈ (KeywordChange.between before after).cleared,
      lower name ≠ key := by
    intro name mem isKey
    have cleared := mem_cleared_between.mp ⟨name, mem, isKey⟩
    rw [same, cleared.1] at cleared
    cases cleared.2
  rw [patched_eq, Bool.eq_iff_iff, has_addAll_of_not_mem _ notAdded, has_foldl_remove,
    and_iff_left notCleared, Bool.and_eq_true, Bool.not_eq_true', decide_eq_false_iff_not,
    opposed_iff]
  simp

end

/-! ## The names of a set -/

/-- Every name of the set is an allowed one. -/
def All (allowed : String → Prop) (keywords : Keywords lower) : Prop :=
  ∀ key name : String, keywords.names.get? key = some name → allowed name

variable {allowed : String → Prop} {keywords}

section

variable (all : keywords.All allowed)

include all

theorem All.insert {name : String} (isAllowed : allowed name) :
    (keywords.insert name).All allowed := by
  intro key held found
  unfold Keywords.insert at found
  split at found
  · exact all _ _ found
  · rw [get?_insert] at found
    split at found
    · cases found
      exact isAllowed
    · exact all _ _ found

theorem All.remove (key : String) : (keywords.remove key).All allowed := by
  intro other held found
  simp only [Keywords.remove, get?_erase] at found
  split at found
  · cases found
  · exact all _ _ found

theorem All.foldl_insert (areAllowed : ∀ name ∈ names, allowed name) :
    (names.foldl Keywords.insert keywords).All allowed := by
  apply foldlRecOn _ _ all
  intro keywords all name mem
  exact all.insert (areAllowed name mem)

theorem All.patched {change : KeywordChange} (areAllowed : ∀ name ∈ change.set, allowed name) :
    (keywords.patched change).All allowed := by
  have alone : ∀ (keywords : Keywords lower) (key : String),
      keywords.All allowed → (keywords.clearPartners key).All allowed := by
    intro keywords key all
    simp only [clearPartners, exclusivePairs, foldl_cons, foldl_nil]
    split
    · exact all.remove _
    · split
      · exact all.remove _
      · exact all
  apply foldlRecOn
  · exact foldlRecOn _ _ all fun keywords all name _ => all.remove _
  · intro keywords all name mem
    exact alone _ _ (all.insert (areAllowed name mem))

end

theorem all_new (flagsAllowed : ∀ entry ∈ flagKeywords, allowed entry.1)
    (tagsAllowed : ∀ tag ∈ tags, allowed tag) :
    (new flags tags : Keywords lower).All allowed := by
  apply All.foldl_insert _ tagsAllowed
  apply All.foldl_insert
  · intro key name found
    cases found
  · intro name mem
    obtain ⟨⟨flag, isSet⟩, isEntry, named⟩ := mem_filterMap.mp mem
    cases (Option.ite_none_right_eq_some.mp named).2
    exact flagsAllowed _ isEntry

theorem All.set_between {before after : Keywords lower} (all : after.All allowed) :
    ∀ name ∈ (KeywordChange.between before after).set, allowed name := by
  intro name mem
  obtain ⟨entry, held, rfl⟩ := mem_map.mp mem
  exact all _ _ (after.names.mem_entries.mp (mem_of_mem_filter held))

end Keywords

end EvolutionJmap.MailSync
