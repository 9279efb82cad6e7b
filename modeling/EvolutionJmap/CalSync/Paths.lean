import EvolutionJmap.CalSync.Patch
import EvolutionJmap.Proto.PatchObject

/-!
# The paths of a patch

Each step of the difference writes only below the one property that it is about.
So the properties of a patch do not get in each other's way.
-/

namespace EvolutionJmap.CalSync

open Ical Pointer List BTreeMap

/-- All writes are at or below the property. -/
def Writes.Under (name : String) (writes : Writes) : Prop :=
  ∀ write ∈ writes, Pointer.Under name write.1

variable {path : String} {value : Value}

namespace Writes

variable {name : String} {first second : Writes}

@[simp] theorem under_nil : Under name [] := nofun

theorem under_singleton (under : Pointer.Under name path) : Under name [(path, value)] := by
  intro write member
  rw [mem_singleton.mp member]
  exact under

@[simp] theorem under_property (value : Value) : Under name [(name, value)] :=
  under_singleton (.inl rfl)

theorem Under.append (inFirst : first.Under name) (inSecond : second.Under name) :
    Under name (first ++ second) := by
  intro write member
  cases mem_append.mp member with
  | inl early => exact inFirst write early
  | inr late => exact inSecond write late

theorem Under.flatMap {α : Type} {values : List α} {image : α → Writes}
    (each : ∀ value ∈ values, (image value).Under name) : Under name (values.flatMap image) := by
  intro write member
  obtain ⟨value, inValues, written⟩ := mem_flatMap.mp member
  exact each value inValues write written

end Writes

theorem entryPath_under (name key : String) : Pointer.Under name (entryPath name key) :=
  .of_rest name (escaped key)

theorem memberPath_under (name key member : String) :
    Pointer.Under name (memberPath name key member) :=
  .inr ⟨escaped key ++ "/" ++ member, by simp [memberPath, String.append_assoc]⟩

/-! ## Each step's paths -/

variable {patch : Patch}

section

variable (calcard : Calcard) (current baseline edited : CalendarEvent)

theorem diffText_under (name : String) (was now : Option String) :
    (diffText name was now).Under name := by
  rw [diffText]
  split <;> simp

theorem diffStart_under : (diffStart baseline edited).Under "start" := by
  rw [diffStart]
  split
  · exact diffText_under _ _ _
  · simp

theorem diffTimeZone_under : (diffTimeZone calcard baseline edited).Under "timeZone" := by
  rw [diffTimeZone]
  split
  · exact diffText_under _ _ _
  · simp

theorem diffPriority_under : (diffPriority baseline edited).Under "priority" := by
  rw [diffPriority]
  split <;> simp

theorem diffShowWithoutTime_under :
    (diffShowWithoutTime baseline edited).Under "showWithoutTime" := by
  rw [diffShowWithoutTime]
  split <;> simp

theorem diffLocations_under : (diffLocations current baseline edited).Under "locations" := by
  unfold diffLocations
  dsimp only
  split
  · simp
  · split
    · simp
    · split
      · exact Writes.under_singleton (memberPath_under _ _ _)
      · split
        · simp
        · exact Writes.under_singleton (memberPath_under _ _ _)
      · simp
      · simp

theorem diffConferenceMember_under (key : String) (before after : Value) (member : String) :
    (diffConferenceMember key before after member).Under "virtualLocations" := by
  unfold diffConferenceMember
  dsimp only
  split
  · simp
  · split
    · exact Writes.under_singleton (memberPath_under _ _ _)
    · split
      · exact Writes.under_singleton (memberPath_under _ _ _)
      · simp

theorem diffVirtualLocations_under :
    (diffVirtualLocations current baseline edited).Under "virtualLocations" := by
  rw [diffVirtualLocations]
  split
  · simp
  · apply Writes.Under.flatMap
    intro shown _
    rw [diffConference]
    split
    · exact Writes.Under.flatMap fun member _ => diffConferenceMember_under _ _ _ _
    · simp

theorem diffLinks_under : (diffLinks current baseline edited).Under "links" := by
  apply Writes.Under.flatMap
  intro shown _
  rw [diffLink]
  split
  · split
    · simp
    · cases Value.get? _ "href" with
      | none => simp
      | some href => exact Writes.under_singleton (memberPath_under _ _ _)
  · simp

theorem diffKeywords_under : (diffKeywords current baseline edited).Under "keywords" := by
  rw [diffKeywords]
  split <;> simp

theorem diffAlerts_under : (diffAlerts current baseline edited).Under "alerts" := by
  rw [diffAlerts]
  split
  · simp
  · split <;> simp

theorem diffRecurrence_under : (diffRecurrence current baseline edited).Under "recurrenceRule" := by
  rw [diffRecurrence]
  split
  · simp
  · split <;> simp

theorem diffOverrides_under :
    (diffOverrides calcard current baseline edited).Under "recurrenceOverrides" := by
  rw [diffOverrides]
  split
  · simp
  · split <;> simp

theorem diffParticipant_under (key : String) (held before after : Value) :
    (diffParticipant key held before after).Under "participants" := by
  rw [diffParticipant]
  apply Writes.Under.append
  · split
    · simp
    · exact Writes.under_singleton (memberPath_under _ _ _)
  · apply Writes.Under.flatMap
    intro member _
    split
    · simp
    · split
      · simp
      · exact Writes.under_singleton (memberPath_under _ _ _)

theorem addParticipants_under (taken : BTreeSet String) (added : List Value) :
    (addParticipants taken added).Under "participants" := by
  induction added generalizing taken with
  | nil => simp [addParticipants]
  | cons participant rest ih =>
    intro write member
    rcases mem_cons.mp member with rfl | later
    · exact .inr ⟨_, rfl⟩
    · exact ih _ write later

theorem diffGuests_under : (diffGuests current baseline edited).Under "participants" := by
  rw [diffGuests]
  split
  · split <;> simp
  · split
    · simp
    · apply Writes.Under.append
      · apply Writes.Under.flatMap
        intro person _
        rw [changesOf]
        split
        · simp
        · split
          · exact diffParticipant_under _ _ _ _
          · exact Writes.under_singleton (entryPath_under _ _)
      · exact addParticipants_under _ _

theorem diffOrganizer_under :
    (diffOrganizer baseline edited).Under "organizerCalendarAddress" := by
  rw [diffOrganizer]
  split <;> simp

/-! ## The whole patch -/

/-- The steps of the difference, each with its property. -/
def families : List (String × Writes) :=
  [("start", diffStart baseline edited), ("timeZone", diffTimeZone calcard baseline edited),
    ("title", diffText "title" baseline.title edited.title),
    ("description", diffText "description" baseline.description edited.description),
    ("duration", diffText "duration" baseline.duration edited.duration),
    ("status", diffText "status" baseline.status edited.status),
    ("freeBusyStatus", diffText "freeBusyStatus" baseline.freeBusyStatus edited.freeBusyStatus),
    ("privacy", diffText "privacy" baseline.privacy edited.privacy),
    ("priority", diffPriority baseline edited),
    ("showWithoutTime", diffShowWithoutTime baseline edited),
    ("locations", diffLocations current baseline edited),
    ("virtualLocations", diffVirtualLocations current baseline edited),
    ("links", diffLinks current baseline edited),
    ("keywords", diffKeywords current baseline edited),
    ("alerts", diffAlerts current baseline edited),
    ("recurrenceRule", diffRecurrence current baseline edited),
    ("recurrenceOverrides", diffOverrides calcard current baseline edited),
    ("participants", diffGuests current baseline edited),
    ("organizerCalendarAddress", diffOrganizer baseline edited)]

theorem writesFrom_eq_flatMap : writesFrom calcard current baseline edited =
    (families calcard current baseline edited).flatMap Prod.snd := by
  unfold writesFrom
  simp [families, diffParticipants]

theorem families_names_nodup :
    ((families calcard current baseline edited).map Prod.fst).Nodup := by
  simp [families]

theorem families_names_plain :
    ∀ family ∈ families calcard current baseline edited, Plain family.1 := by
  simp only [families, forall_mem_cons, not_mem_nil, false_implies, implies_true]
  decide

theorem families_under :
    ∀ family ∈ families calcard current baseline edited, family.2.Under family.1 := by
  simp only [families, forall_mem_cons, not_mem_nil, false_implies, implies_true,
    diffText_under, diffStart_under, diffTimeZone_under, diffPriority_under,
    diffShowWithoutTime_under, diffLocations_under, diffVirtualLocations_under, diffLinks_under,
    diffKeywords_under, diffAlerts_under, diffRecurrence_under, diffOverrides_under,
    diffGuests_under, diffOrganizer_under, and_self]

variable {calcard current baseline edited} {name : String}

/-- The first key of a path names the step that wrote it. -/
theorem family_of_head {write : String × Value}
    (member : write ∈ writesFrom calcard current baseline edited)
    (head : (keys write.1).head? = some name) :
    ∃ writes, (name, writes) ∈ families calcard current baseline edited ∧ write ∈ writes := by
  rw [writesFrom_eq_flatMap] at member
  obtain ⟨⟨other, writes⟩, inFamilies, written⟩ := mem_flatMap.mp member
  have under := families_under calcard current baseline edited _ inFamilies write written
  have plain := families_names_plain calcard current baseline edited _ inFamilies
  have same : some other = some name := (under.head_keys plain).symm.trans head
  cases same
  exact ⟨writes, inFamilies, written⟩

theorem mem_diffMapped (found : (diffMapped calcard current edited).get? path = some value) :
    ∃ baseline, baselineOf calcard current = .ok baseline ∧
      (path, value) ∈ writesFrom calcard current baseline edited := by
  unfold diffMapped at found
  split at found
  · cases found
  · next baseline drawn => exact ⟨baseline, drawn, mem_of_mem_ofList
      ((mem_entries _).mpr found)⟩

/-- Settling the zones of a property can only drop the property. -/
theorem get?_settleZones {state : Patch × ValueMap}
    (found : (settleZones current edited state name).1.get? path = some value) :
    state.1.get? path = some value := by
  unfold settleZones at found
  split at found
  · exact found
  · dsimp only at found
    split at found
    · rw [get?_erase] at found
      split at found
      · cases found
      · exact found
    · exact found

/-- Zone definitions are the only thing that is added to a patch. -/
theorem get?_diffTimeZones (found : (diffTimeZones patch current edited).get? path = some value) :
    patch.get? path = some value ∨
      (current.timeZones.isSome = true ∧ ∃ tzid, path = entryPath "timeZones" tzid) ∨
      (current.timeZones = none ∧ path = "timeZones") := by
  unfold diffTimeZones at found
  dsimp only [foldl_cons, foldl_nil] at found
  generalize settled : settleZones current edited
    (settleZones current edited (patch, ∅) "timeZone") "recurrenceOverrides" = state at found
  have kept : state.1.get? path = some value → patch.get? path = some value := by
    intro atEnd
    rw [← settled] at atEnd
    exact get?_settleZones (get?_settleZones atEnd)
  split at found
  · exact .inl (kept found)
  · split at found
    · next stated =>
      rcases of_get?_foldl_insert found with before | ⟨zone, -, isZone, -⟩
      · exact .inl (kept before)
      · exact .inr (.inl ⟨stated, zone.1, isZone⟩)
    · next absent =>
      rw [get?_insert] at found
      split at found
      · next isZones => exact .inr (.inr ⟨Option.not_isSome_iff_eq_none.mp absent, isZones⟩)
      · exact .inl (kept found)

/-- Where the entries of a sent patch come from. -/
def Sends (calcard : Calcard) (current edited : CalendarEvent) (patch : Patch) : Prop :=
  ∀ path value, patch.get? path = some value →
    (∃ baseline, baselineOf calcard current = .ok baseline ∧
      (path, value) ∈ writesFrom calcard current baseline edited) ∨
    (current.timeZones.isSome = true ∧ ∃ tzid, path = entryPath "timeZones" tzid) ∨
    (current.timeZones = none ∧ path = "timeZones")

theorem Sends.family (sends : Sends calcard current edited patch)
    (found : patch.get? path = some value) (head : (keys path).head? = some name)
    (notZones : name ≠ "timeZones") :
    ∃ baseline writes, (name, writes) ∈ families calcard current baseline edited ∧
      (path, value) ∈ writes := by
  have zones : ∀ {path}, Pointer.Under "timeZones" path →
      (keys path).head? = some name → False := by
    intro path under head
    rw [under.head_keys (by decide)] at head
    exact notZones (Option.some.inj head).symm
  rcases sends path value found with ⟨baseline, -, member⟩ | ⟨-, tzid, rfl⟩ | ⟨-, rfl⟩
  · exact ⟨baseline, family_of_head member head⟩
  · exact (zones (entryPath_under _ _) head).elim
  · exact (zones (.inl rfl) head).elim

theorem Sends.erase (sends : Sends calcard current edited patch) (name : String) :
    Sends calcard current edited (patch.erase name) := by
  intro path value found
  rw [get?_erase] at found
  split at found
  · cases found
  · exact sends path value found

theorem diff_sends : Sends calcard current edited (diff calcard current edited) := by
  intro path value found
  rw [diff] at found
  rcases get?_diffTimeZones found with mapped | zone
  · exact .inl (mem_diffMapped mapped)
  · exact .inr zone

theorem diffSinceExcept_sends (base : CalendarEvent) (kept : BTreeSet String) :
    Sends calcard current edited (diffSinceExcept calcard base current edited kept) := by
  intro path value found
  rw [diffSinceExcept] at found
  rcases get?_diffTimeZones found with retained | zone
  · rw [get?_retain] at retained
    obtain ⟨mapped, -⟩ := Option.filter_eq_some_iff.mp retained
    exact .inl (mem_diffMapped mapped)
  · exact .inr zone

end

end EvolutionJmap.CalSync
