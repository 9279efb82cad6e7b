import EvolutionJmap.Vcard.Read

/-!
# The labels of addresses

A `LABEL` line, read behind the `ADR` lines, labels an address that has no label yet or makes
one of its own.  `Follows` says that the addresses are then those that `Filing` describes, if
no key is invented that a later line states.
-/

namespace EvolutionJmap.Vcard

open List BTreeMap Bool

open Filing (Request Clear fileAll)

/-- An address with all that another one has, and maybe a label and a rank. -/
structure Completes (held address : Address) : Prop where
  components : held.components = address.components
  contexts : held.contexts = address.contexts
  full : ∀ full, address.full = some full → held.full = some full
  extra : ∀ name value, address.extra.get? name = some value → held.extra.get? name = some value

theorem Completes.refl (address : Address) : Completes address address where
  components := rfl
  contexts := rfl
  full _ := id
  extra _ _ := id

theorem Completes.trans {one two three : Address} (first : Completes one two)
    (second : Completes two three) : Completes one three where
  components := first.components.trans second.components
  contexts := first.contexts.trans second.contexts
  full full isFull := first.full full (second.full full isFull)
  extra name value found := first.extra name value (second.extra name value found)

/-! ## What the lines ask for -/

/-- The `LABEL` lines with a text. -/
def readableLabels (entries : List VCardEntry) : List VCardEntry :=
  (labelLines entries).filter fun entry => entryText entry ≠ ""

section

-- what the `ADR` lines ask for
variable (lines : List (Request Address)) (front : List VCardEntry) (label : VCardEntry)

/-- The addresses behind the `ADR` lines and some `LABEL` lines. -/
def behind : BTreeMap String Address := front.foldl readLabel (fileAll false "a" lines)

/-- The key of the address that a `LABEL` line behind others labels. -/
def labelKey : String :=
  labelEntry label (readContexts label) (behind lines front) (entryText label)

/-- The address that a `LABEL` line alone states. -/
def labelAddress : Address :=
  withLabel label (entryText label) { contexts := readContexts label }

/-- Whether a `LABEL` line is the first line of the family that states its key. -/
def statesFirst : Bool :=
  (statedKey label).any fun key =>
    !(lines.map Request.stated).contains (some key) && !(front.map statedKey).contains (some key)

/-- Whether a `LABEL` line is about an address of its own: it is the first to state its key,
or no address takes its label. -/
def labelsOwn : Bool :=
  statesFirst lines front label || !(behind lines front).contains (labelKey lines front label)

/-- What the `LABEL` lines behind others ask for that are about an address of their own. -/
def labelRequests : (front labels : List VCardEntry) → List (Request Address)
  | _, [] => []
  | front, label :: rest =>
    (if labelsOwn lines front label then [⟨statedKey label, labelAddress label⟩] else []) ++
      labelRequests (front ++ [label]) rest

/-- What the lines of both kinds ask for. -/
def addressRequests (labels : List VCardEntry) : List (Request Address) :=
  lines ++ labelRequests lines [] labels

end

/-! ## One `LABEL` line -/

section Labels

variable {addresses : BTreeMap String Address} {entry : VCardEntry} {key : String}
  {address : Address}

theorem takesLabel_labelEntry {contexts : Option Value} {full : String}
    (found : addresses.get? (labelEntry entry contexts addresses full) = some address) :
    takesLabel full address = true := by
  rw [labelEntry] at found
  split at found
  · next key chosen =>
    have allowed := (Option.filter_eq_some_iff.mp chosen).2
    rwa [found] at allowed
  · split at found
    · next key _ chosen =>
      have mem := mem_of_find?_eq_some chosen
      rw [(mem_entries _).mp mem] at found
      rw [← Option.some.inj found]
      exact (and_eq_true .. ▸ find?_some chosen).1
    · have free := Filing.keyFor_free "a" addresses (statedKey entry)
      rw [← entryKey, BTreeMap.contains, found] at free
      cases free

theorem completes_withLabel {full : String} (takes : takesLabel full address = true) :
    Completes (withLabel entry full address) address where
  components := rfl
  contexts := rfl
  full other isFull := by
    have same : other = full := by simpa [takesLabel, isFull] using takes
    rw [withLabel, same]
  extra name value found := by
    rw [withLabel]
    simp only
    split
    · next added =>
      rw [get?_insert, if_neg]
      · exact found
      · rintro rfl
        simp [BTreeMap.contains, found] at added
    · exact found

theorem readLabel_completes (found : addresses.get? key = some address) :
    ∃ held, (readLabel addresses entry).get? key = some held ∧ Completes held address := by
  rw [readLabel]
  split
  · exact ⟨address, found, Completes.refl address⟩
  · simp only [get?_insert]
    split
    · next same =>
      rw [same] at found
      rw [found]
      exact ⟨_, rfl, completes_withLabel (takesLabel_labelEntry found)⟩
    · exact ⟨address, found, Completes.refl address⟩

theorem foldl_readLabel_completes (labels : List VCardEntry)
    (found : addresses.get? key = some address) :
    ∃ held, (labels.foldl readLabel addresses).get? key = some held ∧ Completes held address := by
  induction labels generalizing addresses address with
  | nil => exact ⟨address, found, Completes.refl address⟩
  | cons label labels ih =>
    obtain ⟨between, foundBetween, step⟩ := readLabel_completes found
    obtain ⟨held, isHeld, rest⟩ := ih foundBetween
    exact ⟨held, isHeld, rest.trans step⟩

theorem foldl_readLabel_readable (entries : List VCardEntry) :
    (labelLines entries).foldl readLabel addresses =
      (readableLabels entries).foldl readLabel addresses := by
  rw [readableLabels, foldl_filter]
  congr
  funext addresses entry
  split
  · rfl
  · next noText => rw [readLabel, if_pos (by simpa using noText)]

end Labels

section Behind

variable {lines : List (Request Address)} {labels front back : List VCardEntry}
  {label : VCardEntry} {key : String}

theorem behind_snoc (front : List VCardEntry) (label : VCardEntry) :
    behind lines (front ++ [label]) = readLabel (behind lines front) label := by
  rw [behind, foldl_append]
  rfl

theorem behind_append (front back : List VCardEntry) :
    behind lines (front ++ back) = back.foldl readLabel (behind lines front) := by
  rw [behind, foldl_append]
  rfl

theorem behind_completes {address : Address} (back : List VCardEntry)
    (found : (behind lines front).get? key = some address) :
    ∃ held, (behind lines (front ++ back)).get? key = some held ∧ Completes held address := by
  rw [behind_append]
  exact foldl_readLabel_completes back found

theorem readLabel_eq (text : entryText label ≠ "") :
    readLabel (behind lines front) label =
      (behind lines front).insert (labelKey lines front label)
        (withLabel label (entryText label)
          (((behind lines front).get? (labelKey lines front label)).getD
            { contexts := readContexts label })) := by
  rw [readLabel, if_neg text]
  rfl

/-- A label stays with the address that got it. -/
theorem labelled_behind (text : entryText label ≠ "") (back : List VCardEntry) :
    ∃ held, (behind lines (front ++ label :: back)).get? (labelKey lines front label) = some held ∧
      held.full = some (entryText label) := by
  rw [append_cons, behind_append, behind_snoc, readLabel_eq text]
  obtain ⟨held, found, completes⟩ := foldl_readLabel_completes back (get?_insert_self ..)
  exact ⟨held, found, completes.full _ rfl⟩

theorem labelRequests_append (front middle back : List VCardEntry) :
    labelRequests lines front (middle ++ back) =
      labelRequests lines front middle ++ labelRequests lines (front ++ middle) back := by
  induction middle generalizing front with
  | nil => simp [labelRequests]
  | cons label middle ih => simp [labelRequests, ih]

theorem mem_labelRequests {request : Request Address}
    (mem : request ∈ labelRequests lines front labels) :
    ∃ label ∈ labels, request.stated = statedKey label := by
  induction labels generalizing front with
  | nil => cases mem
  | cons label labels ih =>
    rcases mem_append.mp mem with here | later
    · split at here
      · rw [mem_singleton.mp here]
        exact ⟨label, mem_cons_self, rfl⟩
      · cases here
    · obtain ⟨other, inRest, isStated⟩ := ih later
      exact ⟨other, mem_cons_of_mem _ inRest, isStated⟩

theorem statesFirst_iff : statesFirst lines front label = true ↔
    ∃ key, statedKey label = some key ∧ some key ∉ lines.map Request.stated ∧
      some key ∉ front.map statedKey := by
  rw [statesFirst]
  cases statedKey label with
  | none => simp
  | some key => simp [-mem_map]

/-- A line gets the key that it states if the address there takes its label. -/
theorem labelKey_of_takes (isStated : statedKey label = some key)
    (takes : ((behind lines front).get? key).all (takesLabel (entryText label)) = true) :
    labelKey lines front label = key := by
  rw [labelKey, labelEntry, isStated, Option.filter_some, takes]
  rfl

/-- A line that finds no address gets the key that `Filing` gives it. -/
theorem labelKey_of_new
    (new : (behind lines front).contains (labelKey lines front label) = false) :
    labelKey lines front label = Filing.keyFor "a" (behind lines front) (statedKey label) := by
  rw [labelKey, labelEntry] at new ⊢
  split
  · next key chosen =>
    rw [chosen] at new
    simp only at new
    rw [(Option.filter_eq_some_iff.mp chosen).1, Filing.keyFor, new]
    rfl
  · next chosen =>
    rw [chosen] at new
    simp only at new
    split
    · next key _ found =>
      rw [found] at new
      simp [BTreeMap.contains, (mem_entries _).mp (mem_of_find?_eq_some found)] at new
    · rfl

/-- The addresses behind some `LABEL` lines are those that `Filing` describes, with
labels. -/
structure Follows (lines : List (Request Address)) (front : List VCardEntry) : Prop where
  keys : ∀ key, (behind lines front).contains key =
    (fileAll false "a" (addressRequests lines front)).contains key
  values : ∀ key value, (fileAll false "a" (addressRequests lines front)).get? key = some value →
    ∃ held, (behind lines front).get? key = some held ∧ Completes held value

theorem Follows.nil : Follows lines [] where
  keys key := by simp [behind, addressRequests, labelRequests]
  values key value found := by
    refine ⟨value, ?_, .refl value⟩
    simpa [behind, addressRequests, labelRequests] using found

theorem Follows.joins (follows : Follows lines front) (text : entryText label ≠ "")
    (shared : labelsOwn lines front label = false) : Follows lines (front ++ [label]) := by
  have same : addressRequests lines (front ++ [label]) = addressRequests lines front := by
    simp [addressRequests, labelRequests_append, labelRequests, shared]
  rw [labelsOwn, or_eq_false_iff, not_eq_false'] at shared
  constructor
  · intro key
    rw [same, ← follows.keys, behind_snoc, readLabel_eq text, Bool.eq_iff_iff,
      Filing.contains_insert]
    constructor
    · rintro (rfl | held)
      · exact shared.2
      · exact held
    · exact .inr
  · intro key value found
    rw [same] at found
    obtain ⟨between, foundBetween, first⟩ := follows.values key value found
    rw [behind_snoc]
    obtain ⟨held, isHeld, second⟩ := readLabel_completes foundBetween
    exact ⟨held, isHeld, second.trans first⟩

theorem Follows.makes (follows : Follows lines front) (text : entryText label ≠ "")
    (own : labelsOwn lines front label = true)
    (new : (behind lines front).contains (labelKey lines front label) = false) :
    Follows lines (front ++ [label]) := by
  have added : addressRequests lines (front ++ [label]) =
      addressRequests lines front ++ [⟨statedKey label, labelAddress label⟩] := by
    simp [addressRequests, labelRequests_append, labelRequests, own]
  have filed : fileAll false "a" (addressRequests lines (front ++ [label])) =
      (fileAll false "a" (addressRequests lines front)).insert (labelKey lines front label)
        (labelAddress label) := by
    rw [added, Filing.fileAll_snoc, labelKey_of_new new, Filing.keyFor_congr "a" _ follows.keys]
    rfl
  have notFound : (behind lines front).get? (labelKey lines front label) = none := by
    simpa [BTreeMap.contains] using new
  have isRead : behind lines (front ++ [label]) =
      (behind lines front).insert (labelKey lines front label) (labelAddress label) := by
    rw [behind_snoc, readLabel_eq text, notFound]
    rfl
  constructor
  · intro key
    rw [isRead, filed, Bool.eq_iff_iff, Filing.contains_insert, Filing.contains_insert,
      follows.keys]
  · intro key value found
    rw [filed, get?_insert] at found
    rw [isRead, get?_insert]
    split at found
    · next same => exact ⟨_, if_pos same, Option.some.inj found ▸ .refl _⟩
    · next other =>
      rw [if_neg other]
      exact follows.values key value found

section

variable (clear : Clear false "a" (addressRequests lines labels))

include clear

/-- The first line that states a key finds it free. -/
theorem Follows.free (follows : Follows lines front)
    (isSplit : labels = front ++ label :: back) (first : statesFirst lines front label = true)
    (isStated : statedKey label = some key) : (behind lines front).get? key = none := by
  have own : labelsOwn lines front label = true := by rw [labelsOwn, first, Bool.true_or]
  have whole : addressRequests lines labels = addressRequests lines front ++
      ⟨statedKey label, labelAddress label⟩ :: labelRequests lines (front ++ [label]) back := by
    rw [addressRequests, isSplit, labelRequests_append]
    simp [addressRequests, labelRequests, own]
  obtain ⟨other, isOther, notInLines, notInLabels⟩ := statesFirst_iff.mp first
  cases isStated.symm.trans isOther
  have given := clear.kept whole isStated (by
    intro earlier mem asks
    rcases mem_append.mp mem with inLines | inLabels
    · exact notInLines (mem_map.mpr ⟨earlier, inLines, asks⟩)
    · obtain ⟨other, isOther, same⟩ := mem_labelRequests inLabels
      exact notInLabels (mem_map.mpr ⟨other, isOther, same ▸ asks⟩))
  have contained := follows.keys key
  rw [BTreeMap.contains, BTreeMap.contains, Filing.given_free given] at contained
  simpa using contained

theorem Follows.of_clear (texts : ∀ label ∈ labels, entryText label ≠ "")
    (isSplit : labels = front ++ back) : Follows lines front := by
  -- from the end of the part, since the state is that behind the part
  induction front using List.reverseRecOn generalizing back with
  | nil => exact .nil
  | append_singleton front label ih =>
    rw [← append_cons] at isSplit
    have follows := ih isSplit
    have text := texts label (by simp [isSplit])
    cases own : labelsOwn lines front label with
    | false => exact follows.joins text own
    | true =>
      refine follows.makes text own ?_
      rw [labelsOwn, or_eq_true_iff, not_eq_true'] at own
      rcases own with first | new
      · obtain ⟨key, isStated, -⟩ := statesFirst_iff.mp first
        have free := follows.free clear isSplit first isStated
        rw [labelKey_of_takes isStated (free ▸ rfl), BTreeMap.contains, free]
        rfl
      · exact new


end

/-! ## Labels that are kept -/

/-- The first `LABEL` line that states a key gets it, unless the `ADR` line there has another
label. -/
def LabelsKept (lines : List (Request Address)) (labels : List VCardEntry) : Prop :=
  ∀ front label back key, labels = front ++ label :: back → statedKey label = some key →
    (∀ earlier ∈ front, statedKey earlier ≠ some key) →
    ((behind lines []).get? key).all (takesLabel (entryText label)) = true →
    labelKey lines front label = key

/-- A `LABEL` line that is given an address without a label and does not state its key has the
label of the first line that does. -/
def LabelsClear (lines : List (Request Address)) (labels : List VCardEntry) : Prop :=
  ∀ front label middle later back, labels = front ++ label :: middle ++ later :: back →
    ∀ address, (behind lines front).get? (labelKey lines front label) = some address →
    address.full = none → statedKey later = some (labelKey lines front label) →
    (∀ earlier ∈ front ++ label :: middle,
      statedKey earlier ≠ some (labelKey lines front label)) →
    entryText later = entryText label

/-- An address that got a label got it from a line that found it without one. -/
theorem exists_labelled {full : String} {start held : Address}
    (texts : ∀ label ∈ front, entryText label ≠ "")
    (isStart : (behind lines []).get? key = some start) (unlabelled : start.full = none)
    (isHeld : (behind lines front).get? key = some held) (labelled : held.full = some full) :
    ∃ before label after, front = before ++ label :: after ∧
      labelKey lines before label = key ∧ entryText label = full ∧
      ∃ address, (behind lines before).get? key = some address ∧ address.full = none := by
  induction front using List.reverseRecOn generalizing held with
  | nil =>
    rw [isStart, Option.some.injEq] at isHeld
    rw [← isHeld, unlabelled] at labelled
    cases labelled
  | append_singleton front label ih =>
    obtain ⟨between, isBetween, -⟩ := behind_completes front isStart
    rw [nil_append] at isBetween
    obtain ⟨again, isAgain, completes⟩ := behind_completes [label] isBetween
    cases isHeld.symm.trans isAgain
    cases wasLabelled : between.full with
    | some other =>
      have same : other = full := by
        rw [completes.full other wasLabelled, Option.some.injEq] at labelled
        exact labelled
      rcases ih (fun label mem => texts label (mem_append_left _ mem)) isBetween
        (same ▸ wasLabelled) with ⟨before, earlier, after, rfl, found⟩
      exact ⟨before, earlier, after ++ [label], by simp, found⟩
    | none =>
      rw [behind_snoc, readLabel_eq (texts label (by simp)), get?_insert] at isHeld
      split at isHeld
      · next isKey =>
        refine ⟨front, label, [], rfl, isKey.symm, ?_, between, isBetween, wasLabelled⟩
        rw [← Option.some.inj isHeld] at labelled
        exact Option.some.inj labelled
      · cases isHeld.symm.trans isBetween
        rw [wasLabelled] at labelled
        cases labelled

section

variable (texts : ∀ label ∈ labels, entryText label ≠ "")

include texts

/-- If no `ADR` line has the key, the line is the first of the family to state it. -/
theorem free_of_absent (clear : Clear false "a" (addressRequests lines labels))
    (isSplit : labels = front ++ label :: back) (isStated : statedKey label = some key)
    (isFirst : ∀ earlier ∈ front, statedKey earlier ≠ some key)
    (absent : (behind lines []).get? key = none) : (behind lines front).get? key = none := by
  have follows := Follows.of_clear clear texts isSplit
  refine follows.free clear isSplit (statesFirst_iff.mpr ⟨key, isStated, ?_, ?_⟩) isStated
  · intro asked
    have contained := clear.contains rfl asked
    rw [BTreeMap.contains] at contained
    exact absurd (Option.isSome_iff_ne_none.mp contained) (not_not.mpr absent)
  · intro asked
    obtain ⟨earlier, mem, same⟩ := mem_map.mp asked
    exact isFirst earlier mem same

theorem labelsKept_of_clear (clear : Clear false "a" (addressRequests lines labels))
    (labelsClear : LabelsClear lines labels) : LabelsKept lines labels := by
  intro front label back key isSplit isStated isFirst takes
  apply labelKey_of_takes isStated
  cases isStart : (behind lines []).get? key with
  | none =>
    rw [free_of_absent texts clear isSplit isStated isFirst isStart]
    rfl
  | some start =>
    obtain ⟨held, isHeld, completes⟩ := behind_completes front isStart
    rw [nil_append] at isHeld
    rw [isStart, Option.all_some] at takes
    rw [isHeld, Option.all_some]
    cases isFull : held.full with
    | none => simp [takesLabel, isFull]
    | some full =>
      cases wasLabelled : start.full with
      | some stated =>
        rw [completes.full stated wasLabelled] at isFull
        simpa [takesLabel, wasLabelled, completes.full stated wasLabelled] using takes
      | none =>
        -- the label came from a line that found the address without one
        have inFront : ∀ label ∈ front, entryText label ≠ "" := fun label mem =>
          texts label (by simp [isSplit, mem])
        rcases exists_labelled inFront isStart wasLabelled isHeld isFull with
          ⟨before, earlier, after, rfl, rfl, rfl, address, found, unlabelled⟩
        have same := labelsClear before earlier after label back isSplit address found unlabelled
          isStated isFirst
        simp [takesLabel, isFull, same]

theorem labelsClear_of_kept (kept : LabelsKept lines labels) : LabelsClear lines labels := by
  intro front label middle later back isSplit address found unlabelled isStated isFirst
  have takes : ((behind lines []).get? (labelKey lines front label)).all
      (takesLabel (entryText later)) = true := by
    cases isStart : (behind lines []).get? _ with
    | none => rfl
    | some start =>
      obtain ⟨held, isHeld, completes⟩ := behind_completes front isStart
      cases found.symm.trans isHeld
      cases wasLabelled : start.full with
      | some full => exact nomatch unlabelled.symm.trans (completes.full full wasLabelled)
      | none => simp [takesLabel, wasLabelled]
  have isKey := kept _ later back _ isSplit isStated isFirst takes
  have text := texts label (by simp [isSplit])
  obtain ⟨held, isHeld, isFull⟩ := @labelled_behind lines front label text middle
  have takesNow : takesLabel (entryText later) held = true := by
    apply takesLabel_labelEntry
    rw [← labelKey, isKey]
    exact isHeld
  have same : entryText label = entryText later := by simpa [takesLabel, isFull] using takesNow
  exact same.symm

end

end Behind

end EvolutionJmap.Vcard
