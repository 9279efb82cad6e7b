import EvolutionJmap.FreeName
import EvolutionJmap.OrderedMap

/-!
# Filing values under keys

Values arrive one after the other, some with a key that they ask for.  A value whose
key is free gets it; any other one gets the first free key of a numbered sequence.
`survives_iff` says that every key is kept exactly if no value gets an invented key that a
later one asks for.
-/

namespace EvolutionJmap.Filing

open List BTreeMap Nat Option

/-- A value, and the key that it asks for. -/
structure Request (T : Type) where
  stated : Option String
  value : T
  deriving DecidableEq

variable {number : Nat}

section Keys

variable {T : Type} (stem : String) (taken : BTreeMap String T)

def freeNumber : Nat :=
  nextFree taken.contains (inventedKey stem) (taken.entries.length + 1) 0

def freeKey : String := inventedKey stem (freeNumber stem taken)

/-- The stated key unless it is taken, else the first free one. -/
def keyFor (stated : Option String) : String :=
  match stated with
  | some key => if taken.contains key then freeKey stem taken else key
  | none => freeKey stem taken

theorem freeNumber_pos : 0 < freeNumber stem taken := nextFree_pos _ _

theorem freeKey_free : taken.contains (freeKey stem taken) = false := by
  apply @nextFree_free _ _ (inventedKey_injective stem) _ _ taken.keys
  · intro number _ isTaken
    exact taken.mem_keys.mpr (taken.contains_eq_true.mp isTaken)
  · rw [BTreeMap.keys, length_map]
    exact le_succ _

theorem freeNumber_least (positive : 0 < number) (below : number < freeNumber stem taken) :
    taken.contains (inventedKey stem number) = true :=
  nextFree_least positive below

theorem keyFor_free (stated : Option String) :
    taken.contains (keyFor stem taken stated) = false := by
  cases stated with
  | none => exact freeKey_free stem taken
  | some key =>
    rw [keyFor]
    split
    · exact freeKey_free stem taken
    · next free => exact Bool.eq_false_iff.mpr free

/-- The key depends only on which keys are taken. -/
theorem keyFor_congr {other : BTreeMap String T}
    (same : ∀ key, taken.contains key = other.contains key) (stated : Option String) :
    keyFor stem taken stated = keyFor stem other stated := by
  have notLess {one two : BTreeMap String T} (same : ∀ key, one.contains key = two.contains key) :
      ¬ freeNumber stem one < freeNumber stem two := by
    intro less
    have free := freeKey_free stem one
    rw [freeKey, same, freeNumber_least stem two (freeNumber_pos ..) less] at free
    cases free
  have isFree : freeKey stem taken = freeKey stem other := by
    have first := notLess same
    have second := notLess fun key => (same key).symm
    exact congrArg (inventedKey stem) (by omega)
  simp only [keyFor, same, isFree]

theorem contains_insert (map : BTreeMap String T) (key query : String) (value : T) :
    (map.insert key value).contains query = true ↔ query = key ∨ map.contains query = true := by
  rw [BTreeMap.contains, BTreeMap.contains, get?_insert]
  split <;> simp_all

end Keys

/-! ## Filing -/

section Filing

variable {T : Type} [DecidableEq T] (merge : Bool) (stem : String)

/-- Whether a value is there already: under the key that it asks for, or under any.
Only some families `merge` such values. -/
def Request.isRepeat (request : Request T) (map : BTreeMap String T) : Bool :=
  merge &&
    match request.stated with
    | some key => map.get? key == some request.value
    | none => map.values.contains request.value

def file (map : BTreeMap String T) (request : Request T) : BTreeMap String T :=
  if request.isRepeat merge map then map
  else map.insert (keyFor stem map request.stated) request.value

def fileAll (requests : List (Request T)) : BTreeMap String T := requests.foldl (file merge stem) ∅

/-- The key that a request gets behind others, unless it is a repeat. -/
def given (front : List (Request T)) (request : Request T) : Option String :=
  let map := fileAll merge stem front
  if request.isRepeat merge map then none else some (keyFor stem map request.stated)

theorem fileAll_snoc (front : List (Request T)) (request : Request T) :
    fileAll merge stem (front ++ [request]) =
      file merge stem (fileAll merge stem front) request := by
  rw [fileAll, foldl_append]
  rfl

variable {merge stem} {map : BTreeMap String T} {request : Request T}
  {front back : List (Request T)}
  {key : String} {value : T}

theorem get?_file (found : map.get? key = some value) :
    (file merge stem map request).get? key = some value := by
  rw [file]
  split
  · exact found
  · rw [get?_insert, if_neg]
    · exact found
    · rintro rfl
      have free := keyFor_free stem map request.stated
      rw [BTreeMap.contains, found] at free
      cases free

theorem get?_fileAll_append (found : (fileAll merge stem front).get? key = some value) :
    (fileAll merge stem (front ++ back)).get? key = some value := by
  induction back generalizing front with
  | nil => rwa [append_nil]
  | cons request back ih =>
    rw [append_cons]
    apply ih
    rw [fileAll_snoc]
    exact get?_file found

section

variable (isGiven : given merge stem front request = some key)

include isGiven

theorem fileAll_given :
    fileAll merge stem (front ++ [request]) =
      (fileAll merge stem front).insert key request.value := by
  obtain ⟨anew, isKey⟩ := ite_none_left_eq_some.mp isGiven
  rw [fileAll_snoc, file, if_neg anew, Option.some.inj isKey]

theorem get?_given : (fileAll merge stem (front ++ [request])).get? key = some request.value := by
  rw [fileAll_given isGiven]
  exact get?_insert_self ..

theorem given_free : (fileAll merge stem front).get? key = none := by
  have free := keyFor_free stem (fileAll merge stem front) request.stated
  rw [Option.some.inj (ite_none_left_eq_some.mp isGiven).2] at free
  simpa [BTreeMap.contains] using free

end

theorem fileAll_not_given (isRepeat : given merge stem front request = none) :
    fileAll merge stem (front ++ [request]) = fileAll merge stem front := by
  simp only [given] at isRepeat
  split at isRepeat
  · next found => rw [fileAll_snoc, file, if_pos found]
  · cases isRepeat

theorem exists_get?_of_not_given (isRepeat : given merge stem front request = none) :
    ∃ key, (fileAll merge stem front).get? key = some request.value := by
  simp only [given] at isRepeat
  split at isRepeat
  · next found =>
    simp only [Request.isRepeat, Bool.and_eq_true] at found
    cases isStated : request.stated with
    | some key =>
      rw [isStated] at found
      exact ⟨key, beq_iff_eq.mp found.2⟩
    | none =>
      rw [isStated] at found
      obtain ⟨entry, mem, isValue⟩ := mem_map.mp (contains_iff_mem.mp found.2)
      exact ⟨entry.1, isValue ▸ (mem_entries _).mp mem⟩
  · cases isRepeat

/-! ## Keys that survive -/

/-- Every value shows under a key of its own or repeats one, the first value that asks
for a key gets it, and a value without a key never gets one that another value asks
for. -/
structure Survives (merge : Bool) (stem : String) (shows : String → T → Prop)
    (requests : List (Request T)) : Prop where
  filed : ∀ front request back, requests = front ++ request :: back →
    match given merge stem front request with
    | some key => shows key request.value
    | none => ∃ key, shows key request.value
  distinct : ∀ front request middle later back,
    requests = front ++ request :: middle ++ later :: back →
    ∀ key, given merge stem front request = some key →
      given merge stem (front ++ request :: middle) later ≠ some key
  kept : ∀ front request back key, requests = front ++ request :: back →
    request.stated = some key → (∀ earlier ∈ front, earlier.stated ≠ some key) →
    given merge stem front request = some key
  spared : ∀ front request back, requests = front ++ request :: back →
    request.stated = none → ∀ other ∈ front ++ back, other.stated ≠ none →
    given merge stem front request ≠ other.stated

variable {requests : List (Request T)}

theorem given_ne {middle : List (Request T)} {later : Request T}
    (isGiven : given merge stem front request = some key) :
    given merge stem (front ++ request :: middle) later ≠ some key := by
  intro again
  have found : (fileAll merge stem (front ++ request :: middle)).get? key = some request.value := by
    rw [append_cons]
    exact get?_fileAll_append (get?_given isGiven)
  rw [given_free again] at found
  cases found

/-! ## When they do -/

/-- No request is given an invented key that a later one asks for. -/
def Clear (merge : Bool) (stem : String) (requests : List (Request T)) : Prop :=
  ∀ front request back key, requests = front ++ request :: back →
    given merge stem front request = some key → request.stated ≠ some key →
    ∀ later ∈ back, later.stated ≠ some key

theorem exists_given (contained : (fileAll merge stem requests).contains key = true) :
    ∃ front request back, requests = front ++ request :: back ∧
      given merge stem front request = some key := by
  -- from the end, since the map is that behind all requests
  induction requests using List.reverseRecOn with
  | nil => cases contained
  | append_singleton front request ih =>
    have earlier (held : (fileAll merge stem front).contains key = true) :
        ∃ before one after, front ++ [request] = before ++ one :: after ∧
          given merge stem before one = some key := by
      obtain ⟨before, one, after, rfl, isGiven⟩ := ih held
      exact ⟨before, one, after ++ [request], by simp, isGiven⟩
    cases isGiven : given merge stem front request with
    | none => exact earlier (fileAll_not_given isGiven ▸ contained)
    | some other =>
      rw [fileAll_given isGiven, contains_insert] at contained
      rcases contained with rfl | held
      · exact ⟨front, request, [], rfl, isGiven⟩
      · exact earlier held

omit [DecidableEq T] in
/-- The first of the requests for a key. -/
theorem exists_first (asked : some key ∈ requests.map Request.stated) :
    ∃ front request back, requests = front ++ request :: back ∧ request.stated = some key ∧
      ∀ earlier ∈ front, earlier.stated ≠ some key := by
  obtain ⟨other, mem, asks⟩ := mem_map.mp asked
  cases found : requests.find? fun request => request.stated == some key with
  | none => exact absurd asks (by simpa using find?_eq_none.mp found other mem)
  | some first =>
    obtain ⟨isAsked, front, back, isSplit, before⟩ := find?_eq_some_iff_append.mp found
    exact ⟨front, first, back, isSplit, by simpa using isAsked, by simpa using before⟩

/-- A key that its first request gets is taken behind all requests for it. -/
theorem contains_of_kept
    (kept : ∀ front request back, requests = front ++ request :: back →
      request.stated = some key → (∀ earlier ∈ front, earlier.stated ≠ some key) →
      given merge stem front request = some key)
    (asked : some key ∈ requests.map Request.stated) :
    (fileAll merge stem requests).contains key = true := by
  obtain ⟨front, first, back, isSplit, asks, isFirst⟩ := exists_first asked
  have found := get?_given (kept front first back isSplit asks isFirst)
  rw [isSplit, append_cons, BTreeMap.contains, get?_fileAll_append found]
  rfl

section

variable (clear : Clear merge stem requests)

include clear

theorem Clear.kept (isSplit : requests = front ++ request :: back)
    (isStated : request.stated = some key)
    (isFirst : ∀ earlier ∈ front, earlier.stated ≠ some key) :
    given merge stem front request = some key := by
  have free : (fileAll merge stem front).contains key = false := by
    by_contra contained
    rcases exists_given (Bool.not_eq_false _ ▸ contained) with
      ⟨before, earlier, after, rfl, isGiven⟩
    exact clear before earlier (after ++ request :: back) key (by simp [isSplit]) isGiven
      (isFirst earlier (by simp)) request (by simp) isStated
  have notFound : (fileAll merge stem front).get? key = none := by
    simpa [BTreeMap.contains] using free
  simp [given, Request.isRepeat, isStated, notFound, keyFor, free]

theorem Clear.contains (isSplit : requests = front ++ back)
    (asked : some key ∈ front.map Request.stated) :
    (fileAll merge stem front).contains key = true := by
  refine contains_of_kept (fun before first after isFront => ?_) asked
  have whole : requests = before ++ first :: (after ++ back) := by simp [isSplit, isFront]
  exact clear.kept whole

theorem Clear.spared (isSplit : requests = front ++ request :: back)
    (notStated : request.stated = none) {other : Request T} (mem : other ∈ front ++ back)
    (asks : other.stated = some key) : given merge stem front request ≠ some key := by
  intro isGiven
  rcases mem_append.mp mem with earlier | later
  · have contained := clear.contains isSplit (mem_map.mpr ⟨other, earlier, asks⟩)
    rw [BTreeMap.contains, given_free isGiven] at contained
    cases contained
  · exact clear front request back key isSplit isGiven (by simp [notStated]) other later asks

end

theorem Survives.clear {shows : String → T → Prop}
    (survives : Survives merge stem shows requests) : Clear merge stem requests := by
  intro front request back key isSplit isGiven inventing later isLater asks
  have notBefore : ∀ earlier ∈ front, earlier.stated ≠ some key := by
    intro earlier mem asked
    have contained : (fileAll merge stem front).contains key = true := by
      refine contains_of_kept (fun before first after isFront => ?_)
        (mem_map.mpr ⟨earlier, mem, asked⟩)
      exact survives.kept before first (after ++ request :: back) key (by simp [isSplit, isFront])
    rw [BTreeMap.contains, given_free isGiven] at contained
    cases contained
  -- the first request for the key comes behind the one that got it
  rcases exists_first (mem_map.mpr ⟨later, isLater, asks⟩) with
    ⟨middle, first, rest, rfl, isAsked, before⟩
  have whole : requests = front ++ request :: middle ++ first :: rest := by simp [isSplit]
  have keeps := survives.kept _ first rest key whole isAsked (by
    intro earlier mem
    rcases mem_append.mp mem with early | here
    · exact notBefore earlier early
    · rcases mem_cons.mp here with rfl | inMiddle
      · exact inventing
      · exact before earlier inMiddle)
  exact survives.distinct front request middle first rest whole key isGiven keeps

section

variable {shows : String → T → Prop}
  (shown : ∀ key value, (fileAll merge stem requests).get? key = some value → shows key value)

include shown

theorem filed_of_split (isSplit : requests = front ++ request :: back) :
    match given merge stem front request with
    | some key => shows key request.value
    | none => ∃ key, shows key request.value := by
  split
  · next key isGiven =>
    apply shown
    rw [isSplit, append_cons]
    exact get?_fileAll_append (get?_given isGiven)
  · next isRepeat =>
    obtain ⟨key, found⟩ := exists_get?_of_not_given isRepeat
    refine ⟨key, shown key _ ?_⟩
    rw [isSplit]
    exact get?_fileAll_append found

/-- The keys survive exactly if no invented key is asked for later. -/
theorem survives_iff : Survives merge stem shows requests ↔ Clear merge stem requests := by
  refine ⟨Survives.clear, fun clear => ?_⟩
  constructor
  · exact fun _ _ _ => filed_of_split shown
  · exact fun _ _ _ _ _ _ _ => given_ne
  · exact fun _ _ _ _ => clear.kept
  · intro front request back isSplit notStated other mem asks
    obtain ⟨key, isKey⟩ := ne_none_iff_exists'.mp asks
    rw [isKey]
    exact clear.spared isSplit notStated mem isKey

end

end Filing

end EvolutionJmap.Filing
