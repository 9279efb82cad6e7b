import EvolutionJmap.BookSync.Patch

/-!
# The merge of named parts (`jmap-book-sync/src/patch.rs`)

A part is known by its kind and value only, so the merge is a difference of multisets.
-/

namespace EvolutionJmap.BookSync

open List Vcard

/-- What a merge makes of named parts. -/
structure NamedMerge {T : Type} (named : T → String × String) (wasStated : T → Bool)
    (current edited merged : List T) : Prop where
  /-- The server's parts that are kept, and those that only the line has. -/
  parts : ∃ kept new, merged = kept ++ new ∧ kept <+ current ∧ new <+ edited ∧
    kept.filter (!wasStated ·) = current.filter (!wasStated ·) ∧
    ∀ pair, (new.map named).count pair =
      (edited.map named).count pair - (current.map named).count pair
  visible : ((merged.filter wasStated).map named).Perm ((edited.filter wasStated).map named)
  unchanged : (edited.map named).Perm ((current.filter wasStated).map named) → merged = current

section

variable {T : Type} {named : T → String × String} {stated : String × String → Bool}

/-- Each part of the server takes one part of the line with its name. -/
theorem mergeNamed_parts (current : List T) :
    ∀ spare, ∃ kept new, mergeNamed named (stated ∘ named) current spare = kept ++ new ∧
      kept <+ current ∧ new <+ spare ∧ ∀ pair,
        (new.map named).count pair = (spare.map named).count pair - (current.map named).count pair ∧
        (kept.map named).count pair = if stated pair then
          min ((current.map named).count pair) ((spare.map named).count pair)
          else (current.map named).count pair := by
  induction current with
  | nil => exact fun spare => ⟨[], spare, rfl, .refl _, .refl _, by simp⟩
  | cons part current ih =>
    intro spare
    rw [mergeNamed]
    split
    · next found =>
      obtain ⟨taken, isTaken, same⟩ := any_eq_true.mp found
      rcases exists_of_eraseP (p := (named · == named part)) isTaken same with
        ⟨other, front, back, -, isOther, isSpare, erased⟩
      obtain ⟨kept, new, isMerged, isKept, isNew, counts⟩ :=
        ih (spare.eraseP (named · == named part))
      refine ⟨part :: kept, new, by rw [isMerged, cons_append], isKept.cons_cons _,
        isNew.trans (eraseP_sublist ..), fun pair => ?_⟩
      have isName : named other = named part := eq_of_beq isOther
      have counted := counts pair
      rw [erased] at counted
      simp only [isSpare, map_cons, map_append, count_cons, count_append, isName] at counted ⊢
      split_ifs at counted ⊢ <;> omega
    · next missing =>
      have absent : (spare.map named).count (named part) = 0 := by
        rw [count_eq_zero]
        simpa using missing
      obtain ⟨kept, new, isMerged, isKept, isNew, counts⟩ := ih spare
      split
      · next isStated =>
        refine ⟨kept, new, isMerged, isKept.cons _, isNew, fun pair => ?_⟩
        have counted := counts pair
        by_cases same : named part = pair
        · subst same
          simp_all
        · simpa [count_cons_of_ne same] using counted
      · next hidden =>
        refine ⟨part :: kept, new, by rw [isMerged, cons_append], isKept.cons_cons _, isNew,
          fun pair => ?_⟩
        have counted := counts pair
        by_cases same : named part = pair
        · subst same
          simp_all
        · simpa [count_cons_of_ne same] using counted

theorem count_stated (parts : List T) (pair : String × String) :
    ((parts.filter (stated ∘ named)).map named).count pair =
      if stated pair then (parts.map named).count pair else 0 := by
  rw [← filter_map]
  split
  · next isStated => exact count_filter isStated
  · next hidden => exact count_eq_zero.mpr fun mem => hidden (mem_filter.mp mem).2

theorem namedMerge_mergeNamed (current edited : List T) :
    NamedMerge named (stated ∘ named) current edited
      (mergeNamed named (stated ∘ named) current edited) := by
  rcases @mergeNamed_parts T named stated current edited with
    ⟨kept, new, isMerged, isKept, isNew, counts⟩
  rw [isMerged]
  refine ⟨⟨kept, new, rfl, isKept, isNew, ?_, fun pair => (counts pair).1⟩, ?_, fun same => ?_⟩
  · have hidden := @count_stated T named (fun pair => !stated pair)
    have perm : ((kept.filter (!(stated ∘ named) ·)).map named).Perm
        ((current.filter (!(stated ∘ named) ·)).map named) := by
      refine perm_iff_count.mpr fun pair => ?_
      refine (hidden kept pair).trans ((?_ : _ = _).trans (hidden current pair).symm)
      rw [(counts pair).2]
      cases stated pair <;> rfl
    exact (isKept.filter _).eq_of_length (by simpa using perm.length_eq)
  · refine perm_iff_count.mpr fun pair => ?_
    rw [count_stated, count_stated, map_append, count_append, (counts pair).1, (counts pair).2]
    split
    · omega
    · rfl
  · have counted : ∀ pair, (edited.map named).count pair =
        if stated pair then (current.map named).count pair else 0 :=
      fun pair => (same.count_eq pair).trans (count_stated current pair)
    have all : (kept.map named).Perm (current.map named) := by
      refine perm_iff_count.mpr fun pair => ?_
      rw [(counts pair).2, counted]
      split
      · exact Nat.min_self _
      · rfl
    have none : new.map named = [] := by
      refine eq_nil_iff_forall_not_mem.mpr fun pair mem => ?_
      have := count_pos_iff.mpr mem
      rw [(counts pair).1, counted] at this
      split at this <;> omega
    rw [isKept.eq_of_length (by simpa using all.length_eq), map_eq_nil_iff.mp none, append_nil]

end

/-! ## Joined fields -/

section

variable {T : Type} {current edited restored : List T} {field : T → Option Nat} {value : T → String}
  {index : Nat}

theorem shownIn_field {part : T} (mem : part ∈ shownIn field value current index) :
    field part = some index := by
  rw [shownIn, mem_filter, Bool.and_eq_true, beq_iff_eq] at mem
  exact mem.2.1

theorem restoreField_other {other : Nat} (differs : other ≠ index) :
    (restoreField current field value restored index).filter (field · == some other) =
      restored.filter (field · == some other) := by
  have none : (shownIn field value current index).filter (field · == some other) = [] := by
    rw [filter_eq_nil_iff]
    intro part mem
    simpa [shownIn_field mem] using differs.symm
  have replaced : ∀ held : List T, (held.flatMap fun part => if field part == some index then
      shownIn field value current index else [part]).filter (field · == some other) =
        held.filter (field · == some other) := by
    intro held
    induction held with
    | nil => rfl
    | cons first rest ih =>
      rw [flatMap_cons, filter_append, ih]
      split
      · next inField =>
        rw [none, filter_cons_of_neg]
        · rfl
        · simpa [beq_iff_eq.mp inField] using differs.symm
      · rw [← filter_append]
        rfl
  rw [restoreField]
  split
  · rfl
  · split
    · split
      · exact replaced restored
      · rfl
    · rfl

theorem restoreField_joined {part : T} (alone : restored.filter (field · == some index) = [part])
    (isJoined : value part = joined ' ' ((shownIn field value current index).map value))
    (shown : shownIn field value current index ≠ []) :
    (restoreField current field value restored index).filter (field · == some index) =
      shownIn field value current index := by
  have every : (shownIn field value current index).filter (field · == some index) =
      shownIn field value current index :=
    filter_eq_self.mpr fun part mem => beq_iff_eq.mpr (shownIn_field mem)
  have replaced : ∀ held : List T, (held.flatMap fun part => if field part == some index then
      shownIn field value current index else [part]).filter (field · == some index) =
        (held.filter (field · == some index)).flatMap fun _ =>
          shownIn field value current index := by
    intro held
    induction held with
    | nil => rfl
    | cons first rest ih =>
      rw [flatMap_cons, filter_append, ih, filter_cons]
      split
      · rw [every, flatMap_cons]
      · next outside => simp [outside]
  rw [restoreField, if_neg (by simpa using shown), alone]
  dsimp only
  rw [if_pos isJoined, replaced, alone, flatMap_singleton]

/-- A joined field that an edit left alone is split again. -/
theorem restoreSharedFields_joined {fields : List Nat} (nodup : fields.Nodup) (mem : index ∈ fields)
    {part : T} (alone : edited.filter (field · == some index) = [part])
    (isJoined : value part = joined ' ' ((shownIn field value current index).map value))
    (shown : shownIn field value current index ≠ []) :
    (restoreSharedFields current edited fields field value).filter (field · == some index) =
      shownIn field value current index := by
  have others : ∀ (fields : List Nat) (restored : List T), index ∉ fields →
      (fields.foldl (restoreField current field value) restored).filter (field · == some index) =
        restored.filter (field · == some index) := by
    intro fields
    induction fields with
    | nil => exact fun _ _ => rfl
    | cons first rest ih =>
      intro restored absent
      rw [mem_cons, not_or] at absent
      rw [foldl_cons, ih _ absent.2, restoreField_other absent.1]
  obtain ⟨front, back, rfl⟩ := append_of_mem mem
  rw [nodup_append, nodup_cons] at nodup
  have notFront : index ∉ front := fun inFront => nodup.2.2 _ inFront _ mem_cons_self rfl
  rw [restoreSharedFields, foldl_append, foldl_cons, others back _ nodup.2.1.1]
  exact restoreField_joined ((others front edited notFront).trans alone) isJoined shown

end

/-- The merge of names and of addresses, and of addresses whose joined fields are split. -/
theorem mergeNamed_merges :
    (∀ current edited : List NameComponent,
      NamedMerge (fun part => (part.kind, part.value)) statesNameComponent current edited
        (mergeNamed (fun part => (part.kind, part.value)) statesNameComponent current edited)) ∧
    (∀ current edited : List AddressComponent,
      NamedMerge (fun part => (part.kind, part.value)) statesAddressComponent current edited
        (mergeNamed (fun part => (part.kind, part.value)) statesAddressComponent current edited)) ∧
    ∀ current edited : Option (List AddressComponent), ∃ restored merged,
      mergeComponents current edited = listed merged ∧
      NamedMerge (fun part => (part.kind, part.value)) statesAddressComponent (current.getD [])
        restored merged ∧
      restored = restoreAddressComponents (current.getD []) (edited.getD []) ∧
      ∀ index ∈ addressComponents.map Prod.snd, ∀ part : AddressComponent,
        let field (part : AddressComponent) := addressField part.kind
        let shown := shownIn field AddressComponent.value (current.getD []) index
        (edited.getD []).filter (field · == some index) = [part] → shown ≠ [] →
        part.value = joined ' ' (shown.map AddressComponent.value) →
        restored.filter (field · == some index) = shown := by
  refine ⟨fun current edited => ?_, ?_⟩
  · exact @namedMerge_mergeNamed _ _ (fun pair => pair.2 ≠ "" && (nameField pair.1).isSome) _ _
  · have merges : ∀ current edited : List AddressComponent, NamedMerge _ _ _ _ _ :=
      @namedMerge_mergeNamed _ (fun part : AddressComponent => (part.kind, part.value))
        (fun pair => pair.2 ≠ "" && (addressField pair.1).isSome)
    refine ⟨merges, fun current edited => ⟨_, _, rfl, merges _ _, rfl, ?_⟩⟩
    intro index mem part field shown alone nonempty isJoined
    exact restoreSharedFields_joined (by decide) mem alone isJoined nonempty

/-- An edited part without a field is not visible after the merge either. -/
theorem mergeNamed_unstated :
    ∃ merged, mergeNamed (fun part => (part.kind, part.value)) statesNameComponent []
        [({ kind := "x", value := "y" } : NameComponent)] = merged ∧
      ¬ ((merged.filter statesNameComponent).map fun part => (part.kind, part.value)).Perm
        [("x", "y")] :=
  ⟨_, rfl, by decide⟩

end EvolutionJmap.BookSync
