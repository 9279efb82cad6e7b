import EvolutionJmap.Mail.Row

/-!
# Writing the clicks of the user (`jmap-mail`, `synchronize.rs`)

`pushRow` reads a row, sends the difference between what it shows and what the server
had, and stores the answer.  Clicks, listings and other clients act in between.  `World`
is one row and its message with what became of the last click on each keyword.
-/

namespace EvolutionJmap.Mail

open MailSync List

/-- Why a request of the store failed. `refused` stands for every other error. -/
inductive StoreError where
  | disconnected
  | noMessage
  | refused
  deriving DecidableEq, Repr

variable {lower : String → String}

/-- What `push_row` does with the row when its write is answered. A row is settled
if the write succeeded or the message is gone. -/
def settle (row : Row lower) (after : Keywords lower) :
    Except StoreError Unit → Row lower
  | .ok _ => { row with serverKeywords := after, folderFlagged := false }
  | .error .noMessage => { row with folderFlagged := false }
  | .error _ => row

/-- A `push_row` run between its read and its store. -/
structure Push (lower : String → String) where
  before : Keywords lower
  after : Keywords lower
  /-- The server has carried out the change. -/
  accepted : Bool
  /-- The user has clicked on the row since the read. -/
  clicked : Bool

/-- The request of the run. -/
def Push.change (push : Push lower) : KeywordChange := .between push.before push.after

/-- What became of a click. -/
inductive Fate where
  | waiting
  /-- The server carried out a request with it. -/
  | accepted
  /-- Another client changed the keyword after that. -/
  | overridden
  /-- A listing that was written to the row had the keyword so before any request. -/
  | listed
  deriving DecidableEq, Repr

/-- The value that the user last gave to a keyword, other than the remembered one. -/
structure Wish where
  value : Bool
  fate : Fate
  deriving DecidableEq, Repr

/-- One row, its message on the server, and the clicks. -/
structure World (lower : String → String) where
  row : Row lower
  /-- The keywords of the message. -/
  server : String → Bool
  /-- Another client destroyed the message. -/
  gone : Bool
  push : Option (Push lower)
  /-- The keyword sets of the message since the last accepted request. -/
  recent : List (String → Bool)
  wishes : String → Option Wish

/-- What happens to a row. -/
inductive Event where
  /-- The user gives the row these flags and labels. -/
  | click (flags : MessageFlags) (tags : List String)
  /-- Another client changes the keywords. -/
  | others (keywords : String → Bool)
  | destroy
  /-- A listing is written to the row. -/
  | list (message : MessageSummary)
  /-- `push_row` reads the row. -/
  | read
  /-- The server carries out the change that was sent. -/
  | accept
  /-- `push_row` stores the answer. -/
  | store (answer : Except StoreError Unit)

def applyChange (lower : String → String) (change : KeywordChange)
    (keywords : String → Bool) (key : String) : Bool :=
  if key ∈ change.set.map lower then true
  else if key ∈ change.cleared.map lower then false
  else keywords key

namespace World

/-- The row as a click leaves it. Camel marks it for the server. -/
def clicked (row : Row lower) (flags : MessageFlags) (tags : List String) : Row lower :=
  { row with flags := flags, tags := tags, folderFlagged := true }

variable (world : World lower)

/-- What a click asks of a keyword. A click that returns a keyword to the remembered
value asks for nothing, and one that adds the opposite withdraws the keyword. -/
def wishAfterClick (shown : Keywords lower) (key : String) : Option Wish :=
  if shown.has key = (rowKeywords world.row).has key then
    (world.wishes key).filter fun wish =>
      !(wish.value && decide (Keywords.Opposed world.row.serverKeywords shown key))
  else if shown.has key = world.row.serverKeywords.has key then none
  else some ⟨shown.has key, .waiting⟩

/-- Note what became of the wishes that an event decides. -/
def judge (fate : Fate) (decided : String → Wish → Prop)
    [∀ key wish, Decidable (decided key wish)] (key : String) : Option Wish :=
  (world.wishes key).map fun wish => if decided key wish then { wish with fate := fate } else wish

def afterClick (flags : MessageFlags) (tags : List String) : World lower :=
  { world with
    row := clicked world.row flags tags
    push := world.push.map ({ · with clicked := true })
    wishes := world.wishAfterClick (.new flags tags) }

def afterOthers (keywords : String → Bool) : World lower :=
  { world with
    server := keywords
    recent := keywords :: world.recent
    wishes := world.judge .overridden fun key wish =>
      wish.fate = .accepted ∧ keywords key ≠ world.server key }

def afterList (message : MessageSummary) : World lower :=
  { world with
    row := updateMessageInfo world.row message
    wishes := world.judge .listed fun key wish =>
      wish.fate = .waiting ∧
        (Keywords.new message.flags message.tags : Keywords lower).has key = wish.value }

def afterRead : World lower :=
  { world with push := some ⟨world.row.serverKeywords, rowKeywords world.row, false, false⟩ }

def afterAccept (push : Push lower) : World lower :=
  { world with
    server := applyChange lower push.change world.server
    push := some { push with accepted := true }
    recent := [applyChange lower push.change world.server]
    wishes := world.judge .accepted fun key wish =>
      wish.fate = .waiting ∧ push.before.has key ≠ push.after.has key ∧
        push.after.has key = wish.value }

def afterStore (push : Push lower) (answer : Except StoreError Unit) : World lower :=
  { world with row := settle world.row push.after answer, push := none }

/-- Whether the server can give this answer. An empty change is not sent, and counts
as a success. -/
def answerable (push : Push lower) : Except StoreError Unit → Bool
  | .ok _ => push.accepted || push.change.isEmpty
  | .error .noMessage => !push.change.isEmpty && world.gone
  | .error _ => !push.change.isEmpty

def step : Event → Option (World lower)
  | .click flags tags => some (world.afterClick flags tags)
  | .others keywords => some (world.afterOthers keywords)
  | .destroy => some { world with gone := true }
  | .list message => some (world.afterList message)
  | .read => if world.push.isSome then none else some world.afterRead
  | .accept => world.push.bind fun push =>
    if push.accepted || push.change.isEmpty || world.gone then none
    else some (world.afterAccept push)
  | .store answer => world.push.bind fun push =>
    if world.answerable push answer then some (world.afterStore push answer) else none

/-- The row of a listed message, before any click. -/
def start (message : MessageSummary) (server : String → Bool) : World lower where
  row := newMessageInfo message
  server := server
  gone := false
  push := none
  recent := [server]
  wishes := fun _ => none

def run (world : World lower) : List Event → Option (World lower)
  | [] => some world
  | event :: events => (world.step event).bind fun next => next.run events

/-- The row is marked, and the difference between what it shows and what it
remembers gives the keyword this value. -/
def Pending (key : String) (value : Bool) : Prop :=
  world.row.folderFlagged = true ∧ (rowKeywords world.row).has key = value ∧
    world.row.serverKeywords.has key ≠ value

instance (world : World lower) (key : String) (value : Bool) :
    Decidable (world.Pending key value) :=
  inferInstanceAs (Decidable (_ ∧ _ ∧ _))

/-- The user's click on a keyword is not lost. -/
def Kept (key : String) : Prop :=
  ∀ wish, world.wishes key = some wish →
    match wish.fate with
    | .waiting => world.gone = true ∨ world.Pending key wish.value
    | .accepted => world.server key = wish.value
    | .overridden => True
    | .listed => True

/-- What the events must leave alone. A click lands on a row that `push_row` has read and not
yet settled only if the server does not carry out its request and the run fails, and none adds
a keyword to one that says the opposite; a listing that is written in that time is from after
the last accepted request; the names of keywords have no line breaks. -/
def Undisturbed : Event → Prop
  | .click flags tags =>
    (∀ push, world.push = some push → push.accepted = false) ∧ (∀ tag ∈ tags, Clean tag) ∧
      Keywords.Exclusive world.row.serverKeywords (.new flags tags)
  | .accept | .store (.ok _) => ∀ push, world.push = some push → push.clicked = false
  | .list message =>
    (∀ tag ∈ message.tags, Clean tag) ∧
      (world.push ≠ none → ∃ keywords ∈ world.recent, ∀ key,
        (Keywords.new message.flags message.tags : Keywords lower).has key = keywords key)
  | _ => True

/-- Every event meets the condition when it happens. -/
def AllUndisturbed (world : World lower) : List Event → Prop
  | [] => True
  | event :: events => world.Undisturbed event ∧
      ∀ next, world.step event = some next → next.AllUndisturbed events

end World

/-! ## What a listing leaves of a click -/

section Listing

variable {row : Row lower} {message : MessageSummary}

theorem has_rowKeywords_updateMessageInfo (keeps : Keywords.KeepsFlagKeywords lower)
    (rowClean : ∀ tag ∈ row.tags, Clean tag) (listedClean : ∀ tag ∈ message.tags, Clean tag)
    (key : String) :
    (rowKeywords (updateMessageInfo row message)).has key =
      ((Keywords.new message.flags message.tags : Keywords lower).patched
        (outstandingChange row)).has key := by
  have allClean : ((Keywords.new message.flags message.tags : Keywords lower).patched
      (outstandingChange row)).All Clean := by
    apply Keywords.All.patched (Keywords.all_new flagKeywords_clean listedClean)
    unfold outstandingChange
    split
    · exact Keywords.All.set_between (Keywords.all_new flagKeywords_clean rowClean)
    · exact forall_mem_nil _
  apply Keywords.has_new_split _ keeps
  · intro entry mem
    simp only [flagKeywords, mem_cons, not_mem_nil, or_false] at mem
    rcases mem with rfl | rfl | rfl | rfl | rfl | rfl | rfl <;> rfl
  · refine (map_congr_left fun tag mem => ?_).trans (map_id _)
    obtain ⟨key, -, held⟩ := (Keywords.mem_split_tags _).mp mem
    exact sanitized_of_clean (allClean key tag held)

section Columns

variable (keeps : Keywords.KeepsFlagKeywords lower)
  (rowClean : ∀ tag ∈ row.tags, Clean tag) (listedClean : ∀ tag ∈ message.tags, Clean tag)
  {key : String}

include keeps rowClean listedClean

theorem has_updateMessageInfo_unmarked (unmarked : row.folderFlagged = false) :
    (rowKeywords (updateMessageInfo row message)).has key =
      (updateMessageInfo row message).serverKeywords.has key := by
  rw [has_rowKeywords_updateMessageInfo keeps rowClean listedClean, outstandingChange, unmarked]
  rfl

theorem has_updateMessageInfo_of_ne (marked : row.folderFlagged = true)
    (exclusive : Keywords.Exclusive row.serverKeywords (rowKeywords row))
    (changed : (rowKeywords row).has key ≠ row.serverKeywords.has key) :
    (rowKeywords (updateMessageInfo row message)).has key = (rowKeywords row).has key := by
  rw [has_rowKeywords_updateMessageInfo keeps rowClean listedClean, outstandingChange,
    if_pos marked]
  exact Keywords.has_patched_of_ne _ exclusive changed

theorem has_updateMessageInfo_of_eq (marked : row.folderFlagged = true)
    (same : (rowKeywords row).has key = row.serverKeywords.has key) :
    (rowKeywords (updateMessageInfo row message)).has key =
      ((updateMessageInfo row message).serverKeywords.has key &&
        !decide (Keywords.Opposed row.serverKeywords (rowKeywords row) key)) := by
  rw [has_rowKeywords_updateMessageInfo keeps rowClean listedClean, outstandingChange,
    if_pos marked]
  exact Keywords.has_patched_of_eq _ same

section

variable (marked : row.folderFlagged = true)
  (exclusive : Keywords.Exclusive row.serverKeywords (rowKeywords row))

include marked exclusive

theorem added_before_update (shown : (rowKeywords (updateMessageInfo row message)).has key = true)
    (absent : (updateMessageInfo row message).serverKeywords.has key = false) :
    (rowKeywords row).has key = true ∧ row.serverKeywords.has key = false := by
  by_cases same : (rowKeywords row).has key = row.serverKeywords.has key
  · rw [has_updateMessageInfo_of_eq keeps rowClean listedClean marked same, absent] at shown
    cases shown
  · rw [has_updateMessageInfo_of_ne keeps rowClean listedClean marked exclusive same] at shown
    rw [shown] at same
    exact ⟨shown, by simpa using Ne.symm same⟩

theorem opposed_before_update
    (opposed : Keywords.Opposed (updateMessageInfo row message).serverKeywords
      (rowKeywords (updateMessageInfo row message)) key) :
    Keywords.Opposed row.serverKeywords (rowKeywords row) key := by
  obtain ⟨partner, isPartner, shown, absent⟩ := opposed
  exact ⟨partner, isPartner,
    added_before_update keeps rowClean listedClean marked exclusive shown absent⟩

theorem exclusive_updateMessageInfo :
    Keywords.Exclusive (updateMessageInfo row message).serverKeywords
      (rowKeywords (updateMessageInfo row message)) := by
  intro added partner isPartner shown absent
  have before := added_before_update keeps rowClean listedClean marked exclusive shown absent
  by_cases same : (rowKeywords row).has partner = row.serverKeywords.has partner
  · rw [has_updateMessageInfo_of_eq keeps rowClean listedClean marked same]
    have opposed : Keywords.Opposed row.serverKeywords (rowKeywords row) partner :=
      ⟨added, isPartner, before⟩
    simp [opposed]
  · rw [has_updateMessageInfo_of_ne keeps rowClean listedClean marked exclusive same]
    exact exclusive added partner isPartner before.1 before.2

end

end Columns

end Listing

/-! ## A click through every interleaving -/

namespace World

/-- A click that waits is in the difference that the next `push_row` sends, and in
the one that a `push_row` under way is about to send if the user has not clicked since. -/
structure Waits (world : World lower) (key : String) (value : Bool) : Prop where
  pending : world.Pending key value
  sent : ∀ push, world.push = some push → push.clicked = false →
    push.accepted = false ∧ push.after.has key = value ∧ push.before.has key ≠ value

/-- An accepted click is in force, and nothing that the row can still send or store
takes it back. -/
structure Stands (world : World lower) (key : String) (value : Bool) : Prop where
  inForce : ∀ keywords ∈ world.recent, keywords key = value
  remembered : (rowKeywords world.row).has key ≠ value →
    world.row.serverKeywords.has key ≠ value
  unopposed : world.row.folderFlagged = true → value = true →
    ¬ Keywords.Opposed world.row.serverKeywords (rowKeywords world.row) key
  stored : ∀ push, world.push = some push → push.clicked = false →
    (rowKeywords world.row).has key ≠ value → push.after.has key ≠ value
  sent : ∀ push, world.push = some push → push.clicked = false → push.accepted = false →
    push.after.has key ≠ value → push.before.has key ≠ value

/-- What holds of a wish until another client or a listing decides it. -/
def Tracked (world : World lower) (key : String) (wish : Wish) : Prop :=
  match wish.fate with
  | .waiting => world.gone = true ∨ world.Waits key wish.value
  | .accepted => world.Stands key wish.value
  | .overridden => True
  | .listed => True

/-- What holds in every state of an undisturbed run. -/
structure Inv (world : World lower) : Prop where
  clean : ∀ tag ∈ world.row.tags, Clean tag
  exclusive : world.row.folderFlagged = true →
    Keywords.Exclusive world.row.serverKeywords (rowKeywords world.row)
  current : world.server ∈ world.recent
  tracked : ∀ key wish, world.wishes key = some wish → world.Tracked key wish

theorem Inv.kept {world : World lower} (inv : world.Inv) (key : String) :
    world.Kept key := by
  intro wish wished
  have tracked := inv.tracked key wish wished
  obtain ⟨value, fate⟩ := wish
  cases fate with
  | waiting => exact tracked.imp id Waits.pending
  | accepted => exact tracked.inForce _ inv.current
  | overridden => exact tracked
  | listed => exact tracked

theorem Tracked.imp {world next : World lower} {key : String} {wish : Wish}
    (tracked : world.Tracked key wish) (gone : world.gone = true → next.gone = true)
    (waits : wish.fate = .waiting → world.Waits key wish.value →
      next.gone = true ∨ next.Waits key wish.value)
    (stands : wish.fate = .accepted → world.Stands key wish.value →
      next.Stands key wish.value) :
    next.Tracked key wish := by
  obtain ⟨value, fate⟩ := wish
  cases fate with
  | waiting => exact tracked.elim (fun isGone => .inl (gone isGone)) (waits rfl)
  | accepted => exact stands rfl tracked
  | overridden => trivial
  | listed => trivial

/-- An event that decides some wishes keeps the invariant of each if the decided
ones get theirs and the others keep theirs. -/
theorem tracked_judge {world next : World lower} {fate : Fate}
    {decided : String → Wish → Prop} [∀ key wish, Decidable (decided key wish)]
    (inv : world.Inv)
    (judged : ∀ key wish, world.Tracked key wish → decided key wish →
      next.Tracked key { wish with fate := fate })
    (others : ∀ key wish, world.Tracked key wish → ¬ decided key wish → next.Tracked key wish)
    (key : String) (wish : Wish) (wished : world.judge fate decided key = some wish) :
    next.Tracked key wish := by
  obtain ⟨old, held, rfl⟩ := Option.map_eq_some_iff.mp wished
  have tracked := inv.tracked key old held
  split
  · next isDecided => exact judged key old tracked isDecided
  · next notDecided => exact others key old tracked notDecided

theorem applyChange_between (before after : Keywords lower) (server : String → Bool)
    (key : String) :
    applyChange lower (.between before after) server key =
      if before.has key = after.has key then server key else after.has key := by
  have set : key ∈ (KeywordChange.between before after).set.map lower ↔
      after.has key = true ∧ before.has key = false := by
    rw [mem_map, ← Keywords.mem_set_between]
  have cleared : key ∈ (KeywordChange.between before after).cleared.map lower ↔
      before.has key = true ∧ after.has key = false := by
    rw [mem_map, ← Keywords.mem_cleared_between]
  simp only [applyChange, set, cleared]
  cases before.has key <;> cases after.has key <;> simp

theorem between_isEmpty {before after : Keywords lower}
    (isEmpty : (KeywordChange.between before after).isEmpty = true) (key : String) :
    before.has key = after.has key := by
  obtain ⟨noSet, noCleared⟩ := Bool.and_eq_true_iff.mp isEmpty
  have notSet : ¬ (after.has key = true ∧ before.has key = false) := by
    rw [← Keywords.mem_set_between, isEmpty_iff.mp noSet]
    simp
  have notCleared : ¬ (before.has key = true ∧ after.has key = false) := by
    rw [← Keywords.mem_cleared_between, isEmpty_iff.mp noCleared]
    simp
  revert notSet notCleared
  cases before.has key <;> cases after.has key <;> simp

section Steps

variable {world : World lower} (inv : world.Inv)

include inv

theorem Inv.afterClick {flags : MessageFlags} {tags : List String}
    (clean : ∀ tag ∈ tags, Clean tag)
    (exclusive : Keywords.Exclusive world.row.serverKeywords (.new flags tags)) :
    (world.afterClick flags tags).Inv where
  clean := clean
  exclusive := fun _ => exclusive
  current := inv.current
  tracked := by
    intro key wish wished
    have isClicked : ∀ push, (world.afterClick flags tags).push = some push →
        push.clicked ≠ false := by
      intro push isPush
      obtain ⟨_, _, rfl⟩ := Option.map_eq_some_iff.mp isPush
      exact nofun
    simp only [World.afterClick, wishAfterClick] at wished
    split at wished
    · next same =>
      obtain ⟨held, kept⟩ := Option.filter_eq_some_iff.mp wished
      refine (inv.tracked key wish held).imp id ?_ ?_
      · intro _ waits
        exact .inr ⟨⟨rfl, same.trans waits.pending.2.1, waits.pending.2.2⟩,
          fun push isPush unclicked => (isClicked push isPush unclicked).elim⟩
      · intro _ stands
        refine ⟨stands.inForce, fun differs => ?_, fun _ isSet opposed => ?_,
          fun push isPush unclicked => (isClicked push isPush unclicked).elim,
          fun push isPush unclicked => (isClicked push isPush unclicked).elim⟩
        · exact stands.remembered fun shown => differs (same.trans shown)
        · have isOpposed : Keywords.Opposed world.row.serverKeywords (.new flags tags) key :=
            opposed
          rw [isSet, decide_eq_true isOpposed] at kept
          cases kept
    · split at wished
      · cases wished
      · next differs =>
        cases wished
        exact .inr ⟨⟨rfl, rfl, Ne.symm differs⟩,
          fun push isPush unclicked => (isClicked push isPush unclicked).elim⟩

theorem Inv.afterOthers (keywords : String → Bool) : (world.afterOthers keywords).Inv where
  clean := inv.clean
  exclusive := inv.exclusive
  current := mem_cons_self
  tracked := by
    apply tracked_judge inv
    · intro key wish _ _
      trivial
    · intro key wish tracked undecided
      refine tracked.imp id ?_ ?_
      · intro _ waits
        exact .inr ⟨waits.pending, waits.sent⟩
      · intro accepted stands
        have unchanged : keywords key = world.server key := by
          by_contra changed
          exact undecided ⟨accepted, changed⟩
        have inForce : ∀ known ∈ keywords :: world.recent, known key = wish.value := by
          rw [forall_mem_cons]
          exact ⟨unchanged.trans (stands.inForce _ inv.current), stands.inForce⟩
        exact ⟨inForce, stands.remembered, stands.unopposed, stands.stored, stands.sent⟩

theorem Inv.destroyed : ({ world with gone := true } : World lower).Inv where
  clean := inv.clean
  exclusive := inv.exclusive
  current := inv.current
  tracked := by
    intro key wish wished
    refine (inv.tracked key wish wished).imp (fun _ => rfl) ?_ ?_
    · exact fun _ _ => .inl rfl
    · intro _ stands
      exact ⟨stands.inForce, stands.remembered, stands.unopposed, stands.stored, stands.sent⟩

theorem Inv.afterRead : world.afterRead.Inv where
  clean := inv.clean
  exclusive := inv.exclusive
  current := inv.current
  tracked := by
    intro key wish wished
    refine (inv.tracked key wish wished).imp id ?_ ?_
    · intro _ waits
      refine .inr ⟨waits.pending, fun push isPush _ => ?_⟩
      cases isPush
      exact ⟨rfl, waits.pending.2.1, waits.pending.2.2⟩
    · intro _ stands
      refine ⟨stands.inForce, stands.remembered, stands.unopposed, fun push isPush _ => ?_,
        fun push isPush _ _ => ?_⟩
      · cases isPush
        exact id
      · cases isPush
        exact stands.remembered

section

variable {message : MessageSummary} (keeps : Keywords.KeepsFlagKeywords lower)
  (clean : ∀ tag ∈ message.tags, Clean tag)

include keeps clean

theorem Stands.shown_afterList {key : String} {value : Bool} (stands : world.Stands key value)
    (listed : (world.afterList message).row.serverKeywords.has key = value) :
    (rowKeywords (world.afterList message).row).has key = value := by
  cases marked : world.row.folderFlagged with
  | false =>
    exact (has_updateMessageInfo_unmarked keeps inv.clean clean marked).trans listed
  | true =>
    by_cases same : (rowKeywords world.row).has key = world.row.serverKeywords.has key
    · refine (has_updateMessageInfo_of_eq keeps inv.clean clean marked same).trans ?_
      have hasListed : (updateMessageInfo world.row message).serverKeywords.has key = value :=
        listed
      rw [hasListed]
      cases value with
      | false => rfl
      | true => rw [decide_eq_false (stands.unopposed marked rfl)]; rfl
    · refine (has_updateMessageInfo_of_ne keeps inv.clean clean marked
        (inv.exclusive marked) same).trans ?_
      by_contra differs
      have remembered := stands.remembered differs
      revert same differs remembered
      cases (rowKeywords world.row).has key <;> cases world.row.serverKeywords.has key <;>
        cases value <;> simp

theorem Inv.afterList
    (fresh : world.push ≠ none → ∃ keywords ∈ world.recent, ∀ key,
      (Keywords.new message.flags message.tags : Keywords lower).has key = keywords key) :
    (world.afterList message).Inv where
  clean := by
    intro tag mem
    obtain ⟨source, -, rfl⟩ := mem_map.mp mem
    exact clean_sanitized source
  exclusive := fun marked =>
    exclusive_updateMessageInfo keeps inv.clean clean marked (inv.exclusive marked)
  current := inv.current
  tracked := by
    apply tracked_judge inv
    · intro key wish _ _
      trivial
    · intro key wish tracked undecided
      refine tracked.imp id ?_ ?_
      · intro waiting waits
        have differs : (rowKeywords world.row).has key ≠ world.row.serverKeywords.has key := by
          rw [waits.pending.2.1]
          exact waits.pending.2.2.symm
        have shown := has_updateMessageInfo_of_ne keeps inv.clean clean waits.pending.1
          (inv.exclusive waits.pending.1) differs
        exact .inr ⟨⟨waits.pending.1, shown.trans waits.pending.2.1,
          fun listed => undecided ⟨waiting, listed⟩⟩, waits.sent⟩
      · intro _ stands
        have shown := stands.shown_afterList inv keeps clean
        refine ⟨stands.inForce, fun differs listed => differs (shown listed), ?_, ?_,
          stands.sent⟩
        · intro marked isSet opposed
          exact stands.unopposed marked isSet
            (opposed_before_update keeps inv.clean clean marked (inv.exclusive marked) opposed)
        · intro push isPush _ differs
          have running : world.push ≠ none := by
            rw [show world.push = some push from isPush]
            exact Option.some_ne_none push
          obtain ⟨keywords, recent, same⟩ := fresh running
          exact (differs (shown ((same key).trans (stands.inForce _ recent)))).elim

end

section

variable {push : Push lower} (running : world.push = some push)

include running

theorem Inv.afterAccept (unclicked : push.clicked = false) (unsent : push.accepted = false)
    (present : world.gone = false) :
    (world.afterAccept push).Inv where
  clean := inv.clean
  exclusive := inv.exclusive
  current := mem_singleton_self _
  tracked := by
    apply tracked_judge inv
    · intro key wish tracked decided
      obtain ⟨value, fate⟩ := wish
      cases decided.1
      have waits : world.Waits key value := by
        apply tracked.resolve_left
        rw [present]
        exact Bool.false_ne_true
      have inForce : applyChange lower push.change world.server key = value := by
        rw [Push.change, applyChange_between, if_neg decided.2.1]
        exact decided.2.2
      refine ⟨by simpa [World.afterAccept] using inForce,
        fun differs => (differs waits.pending.2.1).elim, fun marked isSet => ?_,
        fun _ _ _ differs => (differs waits.pending.2.1).elim, fun other isPush _ notYet => ?_⟩
      · have isTrue : value = true := isSet
        subst isTrue
        exact Keywords.not_opposed_of_added (inv.exclusive marked) waits.pending.2.1
          (Bool.eq_false_iff.mpr waits.pending.2.2)
      · cases isPush
        cases notYet
    · intro key wish tracked undecided
      refine tracked.imp id ?_ ?_
      · intro waiting waits
        have sent := waits.sent push running unclicked
        exact (undecided
          ⟨waiting, fun same => sent.2.2 (same.trans sent.2.1), sent.2.1⟩).elim
      · intro _ stands
        have inForce : applyChange lower push.change world.server key = wish.value := by
          rw [Push.change, applyChange_between]
          split
          · exact stands.inForce _ inv.current
          · next differs =>
            by_contra wrong
            have old := stands.sent push running unclicked unsent wrong
            revert differs wrong old
            cases push.before.has key <;> cases push.after.has key <;> cases wish.value <;> simp
        refine ⟨by simpa [World.afterAccept] using inForce, stands.remembered, stands.unopposed,
          fun other isPush _ => ?_, fun other isPush _ notYet => ?_⟩
        · cases isPush
          exact stands.stored push running unclicked
        · cases isPush
          cases notYet

theorem Inv.afterStore {answer : Except StoreError Unit}
    (answered : world.answerable push answer = true)
    (unclicked : answer = .ok () → push.clicked = false) : (world.afterStore push answer).Inv := by
  have noPush : ∀ other, (world.afterStore push answer).push ≠ some other := nofun
  cases answer with
  | ok written =>
    refine ⟨inv.clean, nofun, inv.current, fun key wish wished => ?_⟩
    refine (inv.tracked key wish wished).imp id ?_ ?_
    · intro _ waits
      have sent := waits.sent push running (unclicked rfl)
      rcases Bool.or_eq_true_iff.mp answered with accepted | unchanged
      · rw [sent.1] at accepted
        cases accepted
      · have same := (between_isEmpty unchanged) key
        exact (sent.2.2 (same.trans sent.2.1)).elim
    · intro _ stands
      exact ⟨stands.inForce, stands.stored push running (unclicked rfl), nofun, nofun, nofun⟩
  | error failure =>
    cases failure with
    | noMessage =>
      refine ⟨inv.clean, nofun, inv.current, fun key wish wished => ?_⟩
      refine (inv.tracked key wish wished).imp id ?_ ?_
      · exact fun _ _ => .inl (Bool.and_eq_true_iff.mp answered).2
      · intro _ stands
        exact ⟨stands.inForce, stands.remembered, nofun, nofun, nofun⟩
    | disconnected | refused =>
      refine ⟨inv.clean, inv.exclusive, inv.current, fun key wish wished => ?_⟩
      refine (inv.tracked key wish wished).imp id ?_ ?_
      · intro _ waits
        exact .inr ⟨waits.pending, nofun⟩
      · intro _ stands
        exact ⟨stands.inForce, stands.remembered, stands.unopposed, nofun, nofun⟩

end

end Steps

theorem Inv.step (keeps : Keywords.KeepsFlagKeywords lower) {world next : World lower}
    {event : Event} (inv : world.Inv) (undisturbed : world.Undisturbed event)
    (stepped : world.step event = some next) : next.Inv := by
  cases event with
  | click flags tags =>
    cases stepped
    exact inv.afterClick undisturbed.2.1 undisturbed.2.2
  | others keywords =>
    cases stepped
    exact inv.afterOthers keywords
  | destroy =>
    cases stepped
    exact inv.destroyed
  | list message =>
    cases stepped
    exact inv.afterList keeps undisturbed.1 undisturbed.2
  | read =>
    cases (Option.ite_none_left_eq_some.mp stepped).2
    exact inv.afterRead
  | accept =>
    obtain ⟨push, running, sent⟩ := Option.bind_eq_some_iff.mp stepped
    obtain ⟨allowed, isNext⟩ := Option.ite_none_left_eq_some.mp sent
    cases isNext
    simp only [Bool.or_eq_true, not_or, Bool.not_eq_true] at allowed
    exact inv.afterAccept running (undisturbed push running) allowed.1.1 allowed.2
  | store answer =>
    obtain ⟨push, running, stored⟩ := Option.bind_eq_some_iff.mp stepped
    obtain ⟨answered, isNext⟩ := Option.ite_none_right_eq_some.mp stored
    cases isNext
    refine inv.afterStore running answered ?_
    rintro rfl
    exact undisturbed push running

theorem Inv.run (keeps : Keywords.KeepsFlagKeywords lower) {events : List Event} :
    ∀ {world finish : World lower}, world.Inv → world.AllUndisturbed events →
      world.run events = some finish → finish.Inv := by
  induction events with
  | nil =>
    intro world finish inv _ ran
    cases ran
    exact inv
  | cons event events ih =>
    intro world finish inv undisturbed ran
    obtain ⟨next, stepped, rest⟩ := Option.bind_eq_some_iff.mp ran
    exact ih (inv.step keeps undisturbed.1 stepped) (undisturbed.2 next stepped) rest

theorem inv_start (message : MessageSummary) (server : String → Bool) :
    (start message server : World lower).Inv where
  clean := by
    intro tag mem
    obtain ⟨source, -, rfl⟩ := mem_map.mp mem
    exact clean_sanitized source
  exclusive := nofun
  current := mem_singleton_self server
  tracked := nofun

def unread : MessageSummary :=
  { uid := "m1", blobId := none, threadId := none, flags := {}, tags := [], size := 0,
    receivedAt := none, sentAt := none, subject := none, «from» := [], «to» := [], cc := [],
    messageId := none, references := [], preview := none }

def only (names : List String) (key : String) : Bool := decide (key ∈ names)

/-- The second run of `push_row` fails after another click. -/
def readAndLabel : List Event :=
  [.click { seen := true } [], .read, .list unread, .accept, .store (.ok ()),
    .click { seen := true } ["Work"], .others (only ["$seen", "$flagged"]), .read,
    .click { seen := true } ["Work", "Later"], .store (.error .disconnected)]

theorem readAndLabel_undisturbed :
    (start unread (only []) : World toAsciiLowercase).AllUndisturbed readAndLabel := by
  have first : Keywords.Exclusive (.new {} [] : Keywords toAsciiLowercase)
      (.new { seen := true } []) := by decide
  refine ⟨⟨nofun, by decide, first⟩, fun _ stepped => ?_⟩
  cases stepped
  refine ⟨trivial, fun _ stepped => ?_⟩
  cases stepped
  refine ⟨⟨by decide, fun _ => ⟨only [], mem_singleton_self _, fun key => ?_⟩⟩,
    fun _ stepped => ?_⟩
  · rfl
  cases stepped
  have unclicked {world : World toAsciiLowercase} {push : Push toAsciiLowercase}
      (running : world.push = some push) (isUnclicked : push.clicked = false) :
      ∀ other, world.push = some other → other.clicked = false := by
    intro other isOther
    cases running.symm.trans isOther
    exact isUnclicked
  refine ⟨unclicked rfl rfl, fun _ stepped => ?_⟩
  cases stepped
  refine ⟨unclicked rfl rfl, fun _ stepped => ?_⟩
  cases stepped
  refine ⟨⟨nofun, by decide, by decide⟩, fun _ stepped => ?_⟩
  cases stepped
  refine ⟨trivial, fun _ stepped => ?_⟩
  cases stepped
  refine ⟨trivial, fun _ stepped => ?_⟩
  cases stepped
  refine ⟨⟨?_, by decide, by decide⟩, fun _ stepped => ?_⟩
  · rintro _ ⟨⟩
    rfl
  cases stepped
  exact ⟨trivial, fun _ _ => trivial⟩

end World

end EvolutionJmap.Mail
