import EvolutionJmap.BookSync.Basic
import EvolutionJmap.CalSync.Received
import EvolutionJmap.Mail.Summary

/-!
# Calendars, address books and mail folders under concurrent changes

The general results about listings, deltas and guarded updates, put to the calendar and
to the address book, and beside them the results about mail folders, which list their
messages again when the server cannot compute a delta.
-/

namespace EvolutionJmap

open ChangeFeed Interaction List

/-! ## The address book changes nothing but by its updates -/

namespace BookSync

variable {ε : Type} {libraries : Libraries} {sync : BookSync}

theorem look_quiet (request : Request) :
    (look request : BookM ε _).Sends NoUpdate := by
  apply Program.Sends.bind
  · apply Program.Sends.attempt
    exact ClientM.sends_send rfl
  · exact fun _ => trivial

theorem resolvePhoto_quiet (base64 : Vcard.Base64) (entry : String × Media) :
    (resolvePhoto base64 entry : BookM ε _).Sends NoUpdate := by
  rw [resolvePhoto]
  split
  · exact trivial
  · apply (look_quiet _).bind
    intro octets
    split <;> exact trivial

section

variable (card : ContactCard)

include card

theorem resolveInlinePhotos_quiet {base64 : Vcard.Base64} :
    (resolveInlinePhotos base64 card : BookM ε _).Sends NoUpdate := by
  rw [resolveInlinePhotos]
  split
  · exact trivial
  · exact (Program.Sends.forEach (resolvePhoto_quiet base64) _).bind fun _ => trivial

theorem resolveMemberIds_quiet :
    (resolveMemberIds card : BookM ε _).Sends NoUpdate := by
  rw [resolveMemberIds]
  split
  · apply Program.Sends.bind
    · apply Program.Sends.forEach
      intro member
      exact (look_quiet _).bind fun _ => trivial
    · exact fun _ => trivial
  · exact trivial

theorem resolveMemberUids_quiet :
    (resolveMemberUids libraries sync card : BookM ε _).Sends NoUpdate := by
  rw [resolveMemberUids]
  split
  · apply Program.Sends.bind
    · apply Program.Sends.attempt
      apply (getChunked_sends sync.client _ _ _).mono
      rintro _ ⟨ids, rfl⟩
      rfl
    · exact fun _ => trivial
  · exact trivial

theorem render_quiet : (render libraries card).Sends NoUpdate :=
  (Program.sends_ofExcept _).bind fun _ => (resolveInlinePhotos_quiet card).bind fun _ =>
    (resolveMemberIds_quiet _).bind fun _ => trivial

end

theorem uploadPhoto_quiet (base64 : Vcard.Base64) (patch : Patch) (path : String) :
    (uploadPhoto base64 patch path : BookM ε _).Sends NoUpdate := by
  rw [uploadPhoto]
  split
  · exact trivial
  · split
    · exact trivial
    · split
      · apply (look_quiet _).bind
        intro blobId
        split <;> exact trivial
      · exact trivial

theorem uploadPhotos_quiet (base64 : Vcard.Base64) (paths : List String) (patch : Patch) :
    (uploadPhotos base64 paths patch : BookM ε _).Sends NoUpdate := by
  induction paths generalizing patch with
  | nil => exact trivial
  | cons path paths ih => exact (uploadPhoto_quiet base64 patch path).bind ih

theorem baseCard_quiet (base : Base) :
    (baseCard libraries sync base : BookM ε _).Sends NoUpdate := by
  rw [baseCard]
  split
  · exact trivial
  · exact (resolveMemberUids_quiet _).bind fun _ => trivial

theorem patchFor_quiet (uid : String) (base : Option Base) (card current : ContactCard) :
    (patchFor libraries sync uid base card current).Sends NoUpdate := by
  rw [patchFor]
  apply (resolveInlinePhotos_quiet current).bind
  intro resolved
  split
  · exact trivial
  · apply (baseCard_quiet _).bind
    intro base
    split <;> exact trivial

theorem saving_quiet {uid : String} {base : Option Base} {card : ContactCard} :
    (saving libraries sync uid base card).Quiet where
  plan current := (patchFor_quiet uid base card current).bind fun _ => trivial
  complete patch := uploadPhotos_quiet _ _ patch
  render := render_quiet

theorem render_names (store : Store (cards libraries).toDataType) :
    ObjectKind.NamesItems store (render libraries) ContactInfo.uid := by
  rintro card item ⟨start, trace, finish, run⟩
  obtain ⟨uid, isUid, run⟩ := Run.ofExcept_ok_bind run
  obtain ⟨photographed, _, _, _, -, run, -⟩ := Run.bind_ok run
  obtain ⟨resolved, _, _, _, -, run, -⟩ := Run.bind_ok run
  cases run.done_ok
  exact ObjectKind.idOf_ok (ObjectKind.mapError_ok isUid)

end BookSync

theorem CalSync.render_names {calcard : Ical.Calcard}
    (store : Store (CalSync.events calcard).toDataType) :
    ObjectKind.NamesItems store (CalSync.render calcard) CalSync.ComponentInfo.uid := by
  rintro event item ⟨start, trace, finish, run⟩
  obtain ⟨uid, isUid, run⟩ := Run.ofExcept_ok_bind run
  cases run.done_ok
  exact ObjectKind.idOf_ok (ObjectKind.mapError_ok isUid)

/-! ## A listing and a delta -/

/-- A listing and then a delta from its state, on a server at rest, leave the collection
in the cache, if other clients did not disturb the listing. -/
theorem listExisting_then_getChanges (start middle quiet : Nat) :
    (∀ (calcard : Ical.Calcard) (sync : CalSync) (store : Store (CalSync.events calcard).toDataType)
        (state : State) (items : List CalSync.ComponentInfo)
        (changes : Changes CalSync.ComponentInfo)
        (trace deltaTrace : Trace CalSync.lookups CalendarEvent),
      store.Run start (CalSync.listExisting calcard sync) trace
        (.ok (state, items)) middle →
      middle ≤ quiet →
      store.Run quiet (CalSync.getChanges calcard sync state) deltaTrace
        (.ok changes) quiet →
      ObjectKind.Undisturbed store sync.calendarId trace start middle quiet →
      Mirrors (CalSync.events calcard).toDataType sync.calendarId
        (ObjectKind.Rendered store (CalSync.render calcard)) store (fun _ => quiet)
        (changes.apply CalSync.ComponentInfo.uid (cacheOf CalSync.ComponentInfo.uid items))) ∧
    (∀ (libraries : BookSync.Libraries) (sync : BookSync)
        (store : Store (BookSync.cards libraries).toDataType) (state : State)
        (items : List BookSync.ContactInfo) (changes : Changes BookSync.ContactInfo)
        (trace deltaTrace : Trace BookSync.lookups ContactCard),
      store.Run start (BookSync.listExisting libraries sync) trace
        (.ok (state, items)) middle →
      middle ≤ quiet →
      store.Run quiet (BookSync.getChanges libraries sync state)
        deltaTrace (.ok changes) quiet →
      ObjectKind.Undisturbed store sync.addressBookId trace start middle quiet →
      Mirrors (BookSync.cards libraries).toDataType sync.addressBookId
        (ObjectKind.Rendered store (BookSync.render libraries)) store (fun _ => quiet)
        (changes.apply BookSync.ContactInfo.uid (cacheOf BookSync.ContactInfo.uid items))) :=
  ⟨fun _ _ store _ _ _ _ _ listing later round undisturbed =>
      ObjectKind.listExisting_getChanges
        (CalSync.render_names store) listing later round undisturbed,
    fun _ _ store _ _ _ _ _ listing later round undisturbed =>
      ObjectKind.listExisting_getChanges (BookSync.render_names store) listing later round
        undisturbed⟩

/-! ## An object that comes while its collection is listed -/

namespace ObjectKind

section Newcomer

variable {Object Item ε : Type} {lookups : Lookups} (kind : ObjectKind Object) (object : Object)

theorem allChanges_page {data : DataType Object} {store : Store data} {moment : Nat}
    {typeName : String} {since : State} {response : ChangesResponse} {kept : Kept}
    (known : typeName ∈ knownTypes) (answered : store.AnswersChanges moment since response)
    (isLast : response.hasMoreChanges = false)
    (isKept : keepPage typeName ⟨∅, .perSync⟩ response = .ok kept) :
    Run (store.service lookups) moment (allChanges {} typeName since)
      [⟨moment, .changes typeName since, .ok response, moment⟩]
      (.ok (.classify response.newState kept.byId)) moment := by
  have sent : Run (store.service lookups) moment (changes typeName since)
      [⟨moment, .changes typeName since, .ok response, moment⟩] (.ok response) moment := by
    rw [changes, if_pos known]
    exact .call ⟨rfl, answered⟩ .done
  refine sent.andThen ?_
  dsimp only
  rw [isKept, Program.ofExcept_ok, Program.done_bind, if_pos isLast]
  exact .done

def newcomerStore (named : kind.id object = some "a") (died : Option Nat) :
    Store kind.toDataType :=
  .ofLives kind.toDataType [("a", ⟨1, died, fun _ => object⟩)] (by simp) (by simpa using named)
    fun _ _ _ => False

def newcomerTrace : Trace lookups Object :=
  [⟨0, .get s!"{kind.typeName}/get" [], .ok ⟨"", [], []⟩, 0⟩,
    ⟨1, .query s!"{kind.typeName}/query" "c" 0, .ok ⟨["a"], some 1, none⟩, 1⟩,
    ⟨1, .get s!"{kind.typeName}/get" ["a"], .ok ⟨"x", [object], []⟩, 1⟩]

def newcomerDelta : Trace lookups Object :=
  [⟨1, .changes kind.typeName "", .ok ⟨"x", false, ["a"], [], []⟩, 1⟩,
    ⟨1, .get s!"{kind.typeName}/get" ["a"], .ok ⟨"x", [object], []⟩, 1⟩]

variable {kind object} {named : kind.id object = some "a"} {died : Option Nat}
  {ofClient : Error → ε} {render : Object → ClientM lookups Object ε Item} {item : Item}

section

variable (filed : kind.filed "c" object)
  (alive : (kind.newcomerStore object named died).history.value 1 "a" = some object)

include filed alive

theorem newcomer_listing : (kind.newcomerStore object named died).listing "c" 1 = ["a"] := by
  have member : "a" ∈ (kind.newcomerStore object named died).listing "c" 1 :=
    (kind.newcomerStore object named died).mem_listing.mpr ⟨object, alive, filed⟩
  apply filter_eq_self.mpr
  intro id isNewcomer
  rw [mem_singleton.mp isNewcomer]
  exact (mem_filter.mp member).2

theorem newcomer_listed
    (drawn : (kind.newcomerStore object named died).Run 1 (render object) []
      (.ok item) 1) : (kind.newcomerStore object named died).Run 0
      (kind.listExisting ofClient {} "c" render) (kind.newcomerTrace object)
      (.ok ("", [item])) 1 := by
  have listing := newcomer_listing filed alive
  have queried : (kind.newcomerStore object named died).AnswersQuery 1 "c" 0
      ⟨["a"], some 1, none⟩ := by
    constructor
    · exact ⟨1, by rw [listing]; rfl⟩
    · rw [listing]
      rfl
    · intro _
      rw [listing]
      rfl
  have stateRead : Run ((kind.newcomerStore object named died).service lookups) 0 (kind.state {})
      [⟨0, .get s!"{kind.typeName}/get" [], .ok ⟨"", [], []⟩, 0⟩] (.ok "") 0 := by
    rw [state, get, getChunked_unlimited]
    exact .call ⟨rfl, (kind.newcomerStore object named died).answersGet_all 0 []⟩ .done
  have idsRead : Run ((kind.newcomerStore object named died).service lookups) 1
      (queryEveryId {} s!"{kind.typeName}/query" "c")
      [⟨1, .query s!"{kind.typeName}/query" "c" 0, .ok ⟨["a"], some 1, none⟩, 1⟩] (.ok ["a"]) 1 :=
    .call ⟨rfl, queried⟩ .done
  have itemsDrawn : (kind.newcomerStore object named died).Run 1
      (Program.forEach render [object]) [] (.ok [item]) 1 :=
    drawn.andThen .done
  exact (Run.mapError_iff.mpr ⟨_, rfl, stateRead⟩).andThen (.move rfl
    ((Run.mapError_iff.mpr ⟨_, rfl, idsRead⟩).andThen
      ((Run.mapError_iff.mpr ⟨_, rfl, get_finds alive⟩).andThen (itemsDrawn.andThen .done))))

end

theorem newcomer_changed [DecidableEq Object] (known : kind.typeName ∈ knownTypes)
    (filed : kind.filed "c" object)
    (drawn : (kind.newcomerStore object named none).Run 1 (render object) []
      (.ok item) 1) :
    (kind.newcomerStore object named none).Run 1
      (kind.getChanges ofClient {} "c" render "") (kind.newcomerDelta object)
      (.ok ⟨"x", [item], []⟩) 1 := by
  have answered : (kind.newcomerStore object named none).AnswersChanges 1 ""
      ⟨"x", false, ["a"], [], []⟩ := by
    apply Store.ofLives_answersChanges <;> exact of_decide_eq_true rfl
  have alive : (kind.newcomerStore object named none).history.value 1 "a" = some object := rfl
  have held : kind.holds object "c" = .ok true := by
    rw [holds, show (kind.membership object).bind (·.get? "c") = some true from filed]
  have sorted : (kind.newcomerStore object named none).Run 1
      (kind.classifyObjects ofClient "c" ∅ render [object] [] []) [] (.ok ([item], [])) 1 := by
    rw [classifyObjects, idOf, named, held]
    exact drawn.andThen .done
  refine (Run.mapError_iff.mpr ⟨_, rfl, allChanges_page known answered rfl rfl⟩).andThen ?_
  exact (Run.mapError_iff.mpr ⟨_, rfl, get_finds alive⟩).andThen (sorted.andThen .done)

/-- A delta need not name an object that is gone again. -/
theorem newcomer_missed [DecidableEq Object] (known : kind.typeName ∈ knownTypes) :
    Run ((kind.newcomerStore object named (some 2)).service lookups) 2
      (kind.getChanges ofClient {} "c" render "")
      [⟨2, .changes kind.typeName "", .ok ⟨"xx", false, [], [], []⟩, 2⟩]
      (.ok ⟨"xx", [], []⟩) 2 := by
  have answered : (kind.newcomerStore object named (some 2)).AnswersChanges 2 ""
      ⟨"xx", false, [], [], []⟩ := by
    apply Store.ofLives_answersChanges <;> exact of_decide_eq_true rfl
  exact (Run.mapError_iff.mpr ⟨_, rfl, allChanges_page known answered rfl rfl⟩).andThen .done

theorem newcomer_unborn (named : kind.id object = some "a") (died : Option Nat) (id : Id) :
    (kind.newcomerStore object named died).history.value 0 id = none := by
  unfold newcomerStore
  exact Store.ofLives_unborn Nat.zero_lt_one id

theorem newcomer_undisturbed :
    Undisturbed (kind.newcomerStore object named none) "c"
      (kind.newcomerTrace object : Trace lookups Object) 0 1 1 where
  pages := steady_of_at 1 (by simp [newcomerTrace, Call.isQuery])
  newcomers id moment _ before _ member := by
    rcases Nat.le_one_iff_eq_zero_or_eq_one.mp before with rfl | rfl
    · obtain ⟨held, value, -⟩ := (kind.newcomerStore object named none).mem_listing.mp member
      rw [newcomer_unborn] at value
      cases value
    · exact member

end Newcomer

end ObjectKind

def newcomerEvent : CalendarEvent :=
  { id := some "a", calendarIds := some (.ofList [("c", true)]) }

def newcomerCard : ContactCard :=
  { id := some "a", addressBookIds := some (.ofList [("c", true)]) }

def plainLibraries : BookSync.Libraries where
  calcard := .fixed []
  unicode := .ascii
  base64 := .empty
  cardOctets _ := 0
  namesRequestLimit _ := false

def newcomerComponent : CalSync.ComponentInfo :=
  let icalendar := Ical.eventToIcal (.fixed []) newcomerEvent
  ⟨"a", revisionOf icalendar, icalendar⟩

def newcomerContact : BookSync.ContactInfo :=
  let vcard := Vcard.cardToVcard (.fixed []) .ascii .empty newcomerCard
  ⟨"a", revisionOf vcard, vcard⟩

variable (died : Option Nat)

def calendarStore : Store (CalSync.events (.fixed [])).toDataType :=
  (CalSync.events (.fixed [])).newcomerStore newcomerEvent rfl died

def addressBookStore : Store (BookSync.cards plainLibraries).toDataType :=
  (BookSync.cards plainLibraries).newcomerStore newcomerCard rfl died

variable (moment : Nat)

theorem newcomerEvent_drawn :
    (calendarStore died).Run moment
      (CalSync.render (.fixed []) newcomerEvent) [] (.ok newcomerComponent) moment :=
  .done

theorem newcomerCard_drawn :
    (addressBookStore died).Run moment
      (BookSync.render plainLibraries newcomerCard) [] (.ok newcomerContact) moment :=
  .done

theorem listExisting_newcomer :
    Mirrors (CalSync.events (.fixed [])).toDataType "c"
      (ObjectKind.Rendered (calendarStore none) (CalSync.render (.fixed []))) (calendarStore none)
      (fun _ => 1)
      ((⟨"x", [newcomerComponent], []⟩ : Changes CalSync.ComponentInfo).apply
        CalSync.ComponentInfo.uid (cacheOf CalSync.ComponentInfo.uid [newcomerComponent])) ∧
    Mirrors (BookSync.cards plainLibraries).toDataType "c"
      (ObjectKind.Rendered (addressBookStore none) (BookSync.render plainLibraries))
      (addressBookStore none) (fun _ => 1)
      ((⟨"x", [newcomerContact], []⟩ : Changes BookSync.ContactInfo).apply
        BookSync.ContactInfo.uid (cacheOf BookSync.ContactInfo.uid [newcomerContact])) :=
  ⟨(listExisting_then_getChanges 0 1 1).1 _ ⟨{}, "c", false⟩ _ _ _ _ _ _
      (ObjectKind.newcomer_listed rfl rfl (newcomerEvent_drawn none 1)) le_rfl
      (ObjectKind.newcomer_changed (by decide) rfl (newcomerEvent_drawn none 1))
      ObjectKind.newcomer_undisturbed,
    (listExisting_then_getChanges 0 1 1).2 _ ⟨{}, "c"⟩ _ _ _ _ _ _
      (ObjectKind.newcomer_listed rfl rfl (newcomerCard_drawn none 1)) le_rfl
      (ObjectKind.newcomer_changed (by decide) rfl (newcomerCard_drawn none 1))
      ObjectKind.newcomer_undisturbed⟩

/-- The event was created after the listing's state and destroyed before the next delta,
which need not name it: it stays in the cache. -/
theorem listExisting_keeps_destroyed :
    Run ((calendarStore (some 2)).service CalSync.lookups) 0
      (CalSync.listExisting (.fixed []) ⟨{}, "c", false⟩)
      ((CalSync.events (.fixed [])).newcomerTrace newcomerEvent)
      (.ok ("", [newcomerComponent])) 1 ∧
    Run ((calendarStore (some 2)).service CalSync.lookups) 2
      (CalSync.getChanges (.fixed []) ⟨{}, "c", false⟩ "")
      [⟨2, .changes "CalendarEvent" "", .ok ⟨"xx", false, [], [], []⟩, 2⟩]
      (.ok ⟨"xx", [], []⟩) 2 ∧
    ((⟨"xx", [], []⟩ : Changes CalSync.ComponentInfo).apply CalSync.ComponentInfo.uid
      (cacheOf CalSync.ComponentInfo.uid [newcomerComponent])).get? "a" =
        some newcomerComponent ∧
    "a" ∉ (calendarStore (some 2)).listing "c" 2 := by
  refine ⟨ObjectKind.newcomer_listed rfl rfl (newcomerEvent_drawn (some 2) 1),
    ObjectKind.newcomer_missed (by decide), rfl, by decide⟩

/-! ## Sequences of deltas -/

/-- A cache that equals its collection at a state equals it again after any sequence of
refreshes from that state whose last one met a server at rest. A mail folder may be
listed again on the way; then the listing must have been left alone. -/
theorem refreshes_mirror (start finish : Nat) :
    (∀ (calcard : Ical.Calcard) (sync : CalSync) (store : Store (CalSync.events calcard).toDataType)
        (replica final : Replica CalSync.ComponentInfo)
        (episodes : List (Episode CalSync.lookups CalendarEvent))
        (last : Episode CalSync.lookups CalendarEvent),
      Mirrors (CalSync.events calcard).toDataType sync.calendarId
        (ObjectKind.Rendered store (CalSync.render calcard)) store (store.cut replica.state)
        replica.cache →
      Rounds store ((CalSync.events calcard).syncer CalSync.SyncError.client sync.client
        sync.calendarId (CalSync.render calcard) CalSync.ComponentInfo.uid) start replica episodes
        finish final →
      episodes.getLast? = some last → last.start = last.finish →
      Mirrors (CalSync.events calcard).toDataType sync.calendarId
        (ObjectKind.Rendered store (CalSync.render calcard)) store (fun _ => last.finish)
        final.cache) ∧
    (∀ (libraries : BookSync.Libraries) (sync : BookSync)
        (store : Store (BookSync.cards libraries).toDataType)
        (replica final : Replica BookSync.ContactInfo)
        (episodes : List (Episode BookSync.lookups ContactCard))
        (last : Episode BookSync.lookups ContactCard),
      Mirrors (BookSync.cards libraries).toDataType sync.addressBookId
        (ObjectKind.Rendered store (BookSync.render libraries)) store (store.cut replica.state)
        replica.cache →
      Rounds store ((BookSync.cards libraries).syncer BookSync.SyncError.client sync.client
        sync.addressBookId (BookSync.render libraries) BookSync.ContactInfo.uid) start replica
        episodes finish final →
      episodes.getLast? = some last → last.start = last.finish →
      Mirrors (BookSync.cards libraries).toDataType sync.addressBookId
        (ObjectKind.Rendered store (BookSync.render libraries)) store (fun _ => last.finish)
        final.cache) ∧
    (∀ (lookups : Lookups) (client : Client) (mailbox : Id)
        (held : Replica MailSync.MessageSummary → Nat) (store : Store MailSync.emailData)
        (replica final : Replica MailSync.MessageSummary)
        (episodes : List (Episode lookups MailSync.Email)) (last : Episode lookups MailSync.Email),
      Mirrors MailSync.emailData mailbox MailSync.Summarises store (store.cut replica.state)
        replica.cache →
      Rounds store (MailSync.syncer client mailbox held) start replica episodes finish final →
      MailSync.ListingsUndisturbed store mailbox episodes →
      episodes.getLast? = some last → last.start = last.finish →
      Mirrors MailSync.emailData mailbox MailSync.Summarises store (fun _ => last.finish)
        final.cache) := by
  refine ⟨?_, ?_, ?_⟩
  · intro calcard sync store replica final episodes last mirrors rounds
    exact ObjectKind.rounds_mirror (CalSync.render_names store) rounds le_rfl
      fun id => .inl (mirrors id)
  · intro libraries sync store replica final episodes last mirrors rounds
    exact ObjectKind.rounds_mirror (BookSync.render_names store) rounds le_rfl
      fun id => .inl (mirrors id)
  · intro lookups client mailbox held store replica final episodes last mirrors rounds
    exact MailSync.rounds_mirror rounds le_rfl (.inl fun id => .inl (mirrors id))

theorem refreshes_newcomer :
    Mirrors (CalSync.events (.fixed [])).toDataType "c"
      (ObjectKind.Rendered (calendarStore none) (CalSync.render (.fixed []))) (calendarStore none)
      (fun _ => 1)
      ((⟨"x", [newcomerComponent], []⟩ : Changes CalSync.ComponentInfo).apply
        CalSync.ComponentInfo.uid ∅) ∧
    Mirrors (BookSync.cards plainLibraries).toDataType "c"
      (ObjectKind.Rendered (addressBookStore none) (BookSync.render plainLibraries))
      (addressBookStore none) (fun _ => 1)
      ((⟨"x", [newcomerContact], []⟩ : Changes BookSync.ContactInfo).apply
        BookSync.ContactInfo.uid ∅) ∧
    Mirrors MailSync.emailData "inbox" MailSync.Summarises (Mail.newcomerStore none) (fun _ => 1)
      ((MailSync.MessageUpdate.changed "x" [Mail.newcomer] []).apply ∅) :=
  ⟨(refreshes_mirror 1 1).1 (.fixed []) ⟨{}, "c", false⟩ (calendarStore none) ⟨"", ∅⟩ _ _ _
      (mirrors_nothing (ObjectKind.newcomer_unborn rfl none))
      (.synced (ObjectKind.newcomer_changed (by decide) rfl (newcomerEvent_drawn none 1)) .rest)
      rfl rfl,
    (refreshes_mirror 1 1).2.1 plainLibraries ⟨{}, "c"⟩ (addressBookStore none) ⟨"", ∅⟩ _ _ _
      (mirrors_nothing (ObjectKind.newcomer_unborn rfl none))
      (.synced (ObjectKind.newcomer_changed (by decide) rfl (newcomerCard_drawn none 1)) .rest)
      rfl rfl,
    (refreshes_mirror 1 1).2.2 _ {} "inbox" (fun _ => 1) (Mail.newcomerStore none) ⟨"", ∅⟩ _ _ _
      (mirrors_nothing (Mail.newcomer_unborn none))
      (.synced Mail.newcomer_refreshed .rest) (.singleton _) rfl rfl⟩

def relistingTrace : Trace .none MailSync.Email :=
  ⟨0, .changes "Email" "", .error (.method ⟨"cannotCalculateChanges", none⟩), 0⟩ ::
    Mail.newcomerTrace

theorem newcomer_relisted :
    Run ((Mail.newcomerStore (some 2)).service .none) 0
      (MailSync.messagesSince {} "inbox" "" 0) relistingTrace
      (.ok (.relisted "" [Mail.newcomer])) 1 :=
  .call rfl ((Mail.newcomer_listed rfl rfl).andThen .done)

/-- A message that was delivered after the listing's state and destroyed before the next
delta stays in the folder. -/
theorem refreshes_keep_destroyed :
    Mirrors MailSync.emailData "inbox" MailSync.Summarises (Mail.newcomerStore (some 2))
      ((Mail.newcomerStore (some 2)).cut "") ∅ ∧
    (∃ episodes : List (Episode .none MailSync.Email), Rounds (Mail.newcomerStore (some 2))
      (MailSync.syncer {} "inbox" (fun replica => replica.cache.entries.length)) 0 ⟨"", ∅⟩
      (episodes ++ [⟨2, [⟨2, .changes "Email" "", .ok ⟨"xx", false, [], [], []⟩, 2⟩], 2⟩]) 2
      ⟨"xx", (∅ : BTreeMap Id MailSync.MessageSummary).insert "a" Mail.newcomer⟩) ∧
    "a" ∉ (Mail.newcomerStore (some 2)).listing "inbox" 2 := by
  refine ⟨mirrors_nothing (Mail.newcomer_unborn (some 2)),
    ⟨[⟨0, relistingTrace, 1⟩], ?_⟩, by decide⟩
  refine .synced newcomer_relisted (.wait (.synced (.call ⟨rfl, ?_⟩ .done) .rest))
  apply Store.ofLives_answersChanges <;> decide

/-! ## Saves -/

/-- Under every interleaving a save changes only the version that its patch was computed
against, a refused update changes nothing, and a save that succeeds had its update carried
out or read a version that it has nothing to change in. -/
theorem saves_noLostUpdate :
    (∀ (calcard : Ical.Calcard) (sync : CalSync) (store : Store (CalSync.events calcard).toDataType)
        (uid : String) (base : Option CalSync.Base) (event : CalendarEvent) (itip : CalSync.Itip)
        (defaultSchedule retry : Bool) (start finish : Nat)
        (trace : Trace CalSync.lookups CalendarEvent)
        (outcome : Except CalSync.SyncError CalSync.ComponentInfo),
      store.Run start
        (CalSync.writeUpdate calcard sync uid base event itip defaultSchedule retry) trace outcome
        finish →
      (CalSync.saving calcard sync uid base event itip defaultSchedule).NoLostUpdate store uid
        trace outcome) ∧
    (∀ (libraries : BookSync.Libraries) (sync : BookSync)
        (store : Store (BookSync.cards libraries).toDataType) (uid : String)
        (base : Option BookSync.Base) (card : ContactCard) (retry : Bool) (start finish : Nat)
        (trace : Trace BookSync.lookups ContactCard)
        (outcome : Except BookSync.SyncError BookSync.ContactInfo),
      store.Run start
        (BookSync.writeUpdate libraries sync uid base card retry) trace outcome finish →
      (BookSync.saving libraries sync uid base card).NoLostUpdate store uid trace outcome) := by
  constructor
  · intro calcard sync store uid base event itip defaultSchedule retry start finish trace
      outcome run
    exact ObjectKind.writeUpdate_noLostUpdate CalSync.saving_quiet run
  · intro libraries sync store uid base card retry start finish trace outcome run
    exact ObjectKind.writeUpdate_noLostUpdate BookSync.saving_quiet run

def notedCard (note : String) : ContactCard :=
  { id := some "a", notes := some (.ofList [("n", { note })]) }

def notedStore : Store (BookSync.cards plainLibraries).toDataType :=
  .ofLives _ [("a", ⟨0, none, fun moment => notedCard (if moment = 0 then "a" else "b")⟩)]
    (by simp) (by simp [BookSync.cards, notedCard]) fun _ _ _ => False

def notedPatch : Patch := .ofList [("notes/n/note", .string "b")]

def notedContact : BookSync.ContactInfo :=
  let vcard := Vcard.cardToVcard (.fixed []) .ascii .empty (notedCard "b")
  ⟨"a", revisionOf vcard, vcard⟩

def notedTrace : Trace BookSync.lookups ContactCard :=
  [⟨0, .get "ContactCard/get" ["a"], .ok ⟨"", [notedCard "a"], []⟩, 0⟩,
    ⟨1, .update "ContactCard/set" ⟨"a", notedPatch, some "", none⟩,
      .error (.method ⟨"stateMismatch", none⟩), 1⟩,
    ⟨1, .get "ContactCard/get" ["a"], .ok ⟨"x", [notedCard "b"], []⟩, 1⟩]

theorem noted_planned (note : String) (planned : Patch)
    (isDiff : BookSync.diff .ascii .empty (notedCard note) (notedCard "b") = planned) :
    notedStore.Run moment
      ((BookSync.saving plainLibraries ⟨{}, "c"⟩ "a" none (notedCard "b")).plan (notedCard note)) []
      (.ok (planned, none)) moment := by
  subst isDiff
  exact .done

theorem noted_saved :
    notedStore.Run 0
      (BookSync.writeUpdate plainLibraries ⟨{}, "c"⟩ "a" none (notedCard "b") true) notedTrace
      (.ok notedContact) 1 := by
  have diffs : BookSync.diff .ascii .empty (notedCard "a") (notedCard "b") = notedPatch := by
    decide +kernel
  have same : BookSync.diff .ascii .empty (notedCard "b") (notedCard "b") = ∅ := by
    decide +kernel
  have again : notedStore.Run 1
      ((BookSync.cards plainLibraries).writeUpdateOr
        (BookSync.saving plainLibraries ⟨{}, "c"⟩ "a" none (notedCard "b")) {} "a" none)
      [⟨1, .get "ContactCard/get" ["a"], .ok ⟨"x", [notedCard "b"], []⟩, 1⟩] (.ok notedContact) 1 :=
    (ObjectKind.fetchWithState_finds rfl).andThen
      ((noted_planned 1 "b" ∅ same).andThen .done)
  refine (ObjectKind.fetchWithState_finds rfl).andThen
    ((noted_planned 0 "a" notedPatch diffs).andThen ?_)
  dsimp only
  rw [if_neg (by decide +kernel)]
  refine Run.andThen
    (show Run _ 0 (BookSync.uploadInlinePhotos .empty notedPatch) [] _ 0 from .done) ?_
  exact .move rfl (.call (.inl rfl) again)

theorem saves_noLostUpdate_noted :
    (CalSync.saving (.fixed CalSync.meetingDocument) CalSync.meetingSync "e1" none
      CalSync.meetingEdit (.received false) false).NoLostUpdate (CalSync.meetingStore false) "e1"
      CalSync.forwardedTrace (.error (.client (.http 500))) ∧
    (BookSync.saving plainLibraries ⟨{}, "c"⟩ "a" none (notedCard "b")).NoLostUpdate notedStore "a"
      notedTrace (.ok notedContact) :=
  ⟨saves_noLostUpdate.1 _ _ _ _ _ _ _ _ _ _ _ _ _ CalSync.forwarded_run,
    saves_noLostUpdate.2 _ _ _ _ _ _ _ _ _ _ _ noted_saved⟩

/-- A save can send a patch and succeed with none carried out: the other client had made
the same edit, so nothing was left to do when the card was read again. -/
theorem saves_without_patch :
    notedStore.Run 0
      (BookSync.writeUpdate plainLibraries ⟨{}, "c"⟩ "a" none (notedCard "b") true) notedTrace
      (.ok notedContact) 1 ∧
    (∃ exchange ∈ notedTrace, exchange.request.isUpdate = true) ∧
    ∀ exchange ∈ notedTrace, exchange.after = exchange.before := by
  refine ⟨noted_saved, ⟨_, mem_of_getElem? (i := 1) rfl, rfl⟩, ?_⟩
  simp [notedTrace]

end EvolutionJmap
