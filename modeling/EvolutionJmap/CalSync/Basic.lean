import EvolutionJmap.CalSync.Patch
import EvolutionJmap.ObjectSync.Convergence
import EvolutionJmap.ObjectSync.Save

/-!
# One calendar (`jmap-cal-sync/src/lib.rs`)

The entry points of the calendar backend: listing, changes, and the save of an
edit to an event that the server holds.  A received invitation is saved under
stricter rules than the user's own edit.
-/

namespace EvolutionJmap

open Interaction

/-- Synchronises one JMAP calendar. -/
structure CalSync where
  client : Client
  calendarId : Id
  serverSchedules : Bool := false

namespace CalSync

open Ical

/-! ## Errors -/

/-- Why the server did not send the scheduling messages of a change. -/
inductive Unscheduled where
  | unreachable (addresses : List String)
  | notImplemented

inductive SyncError where
  | client (error : Error)
  | ical (error : ICalError)
  | notFound (uid : String)
  | unscheduled (reason : Unscheduled)
  | ownMeeting
  | outOfSync (uid : String)

def unreachableAddresses (event : CalendarEvent) : List String :=
  let participants := (entriesOf event.participants).filterMap fun entry =>
    (entry.2.get? "calendarAddress").bind Value.asStr
  let unreachable := (participants ++ event.organizerCalendarAddress.toList).filter fun address =>
    !eqIgnoreAsciiCase (String.ofList (address.toList.take 7)) "mailto:"
  (BTreeSet.ofElems unreachable).keys

/-- What an error of a save is reported as. If the server was asked to schedule,
some errors mean that it cannot. -/
def refused (error : Error) (schedule : Bool) (event : CalendarEvent) : SyncError :=
  if !schedule then
    .client error
  else
    match error with
    | .set setError =>
      if setError.errorType = "noSupportedScheduleMethods" then
        .unscheduled (.unreachable (unreachableAddresses event))
      else
        .client error
    | .method methodError =>
      if methodError.errorType = "invalidArguments" then
        .unscheduled .notImplemented
      else
        .client error
    | _ => .client error

/-! ## Scheduling -/

/-- Whether one change can tell the meeting guests about the change. -/
inductive Itip where
  | send
  | suppress
  /-- The change comes from a received message or an import. -/
  | received (reply : Bool)
  deriving DecidableEq, Repr

/-- Whether this account is the scheduling origin of a stored event. The server's
`isOrigin` decides when it is present. -/
def organisedHere (event : CalendarEvent) (own : List String) : Bool :=
  event.isOrigin.getD <|
    match event.organizerCalendarAddress with
    | none => true
    | some organizer => own.contains (toAsciiLowercase organizer)

def guestsPath (key : String) : Bool :=
  (splitText '/' key).any fun segment =>
    segment == "participants" || segment == "organizerCalendarAddress"

mutual
/-- Whether a patch entry changes the guests or the organizer, also in an
override. -/
def namesGuests (key : String) : Value → Bool
  | .object members => guestsPath key || namesGuestsIn members
  | _ => guestsPath key

def namesGuestsIn : List (String × Value) → Bool
  | [] => false
  | (key, value) :: rest => namesGuests key value || namesGuestsIn rest
end

/-- An address that the account's owner takes part in events with. -/
structure ParticipantIdentity where
  calendarAddress : Option String
  sendTo : Option (BTreeMap String String)

/-- The requests for data other than events. -/
inductive Request where
  | participantIdentities

def Request.Answer : Request → Type
  | .participantIdentities => List ParticipantIdentity

def lookups : Lookups := ⟨Request, Request.Answer⟩

/-- A program of the calendar backend. -/
abbrev CalM (ε α : Type) : Type := ClientM lookups CalendarEvent ε α

/-- The participant identities of the account. A server without the method has
none. -/
def participantIdentities : CalM Error (List ParticipantIdentity) := do
  let outcome ← (ClientM.send (.lookup Request.participantIdentities : Call lookups)).attempt
  match outcome with
  | .ok identities => .done identities
  | .error error => if error.isUnknownMethod then .done [] else .fail error

def addressesOf (identities : List ParticipantIdentity) : List String :=
  (identities.flatMap fun identity =>
    identity.calendarAddress.toList ++ (identity.sendTo.getD ∅).values).map toAsciiLowercase

def ownAddresses : CalM SyncError (List String) := do
  let identities ← participantIdentities.mapError .client
  .done (addressesOf identities)

/-! ## Reading -/

section
variable (calcard : Calcard) (sync : CalSync)

def events : ObjectKind CalendarEvent where
  id event := event.id
  membership event := event.calendarIds
  typeName := "CalendarEvent"
  aNoun := "an event"
  membershipName := "calendarIds"
  diff := diff calcard
  diffSinceExcept := diffSinceExcept calcard
  conflicts := conflicts calcard

theorem events_diff (current edited : CalendarEvent) :
    (events calcard).diff current edited = diff calcard current edited := by
  unfold events
  dsimp only

theorem events_diffSinceExcept (base current edited : CalendarEvent) (kept : BTreeSet String) :
    (events calcard).diffSinceExcept base current edited kept =
      diffSinceExcept calcard base current edited kept := by
  unfold events
  dsimp only

/-- One event in the form that the meta backend uses. -/
structure ComponentInfo where
  uid : String
  revision : String
  icalendar : String
  deriving DecidableEq

def render (event : CalendarEvent) : CalM SyncError ComponentInfo := do
  let uid ← .ofExcept (((events calcard).idOf event).mapError .client)
  let icalendar := eventToIcal calcard event
  .done ⟨uid, revisionOf icalendar, icalendar⟩

def listExisting : CalM SyncError (State × List ComponentInfo) :=
  (events calcard).listExisting .client sync.client sync.calendarId (render calcard)

def getChanges (since : State) : CalM SyncError (Changes ComponentInfo) :=
  (events calcard).getChanges .client sync.client sync.calendarId (render calcard) since

/-! ## Saving -/

/-- The copy of an event that a local edit started from. -/
structure Base where
  icalendar : String
  onConflict : OnConflict

def patchFor (uid : String) (base : Option Base) (event current : CalendarEvent) :
    Except SyncError Patch :=
  match base with
  | some base =>
    match (events calcard).patchSince (icalToEvent calcard base.icalendar) base.onConflict
        current event with
    | some patch => .ok patch
    | none => .error (.outOfSync uid)
  | none => .ok (diff calcard current event)

/-- The patch that may be sent, and whether the server is asked to schedule.
Received data never changes the organizer, and does not change the guests of a
meeting that this account organises. -/
def permit (itip : Itip) (defaultSchedule : Bool) (current : CalendarEvent) (patch : Patch) :
    CalM SyncError (Patch × Bool) :=
  match itip with
  | .received reply => do
      let own ← ownAddresses
      if organisedHere current own then
        if patch.entries.any fun entry => namesGuests entry.1 entry.2 then
          .fail .ownMeeting
        else
          .done (patch, false)
      else
        .done (patch.erase "organizerCalendarAddress",
          reply && sync.serverSchedules && !own.isEmpty)
  | .send | .suppress => .done (patch, defaultSchedule)

/-- The steps of saving an event. -/
def saving (uid : String) (base : Option Base) (event : CalendarEvent) (itip : Itip)
    (defaultSchedule : Bool) : Saving lookups CalendarEvent SyncError ComponentInfo where
  ofClient := .client
  notFound := .notFound
  plan current := do
    let patch ← .ofExcept (patchFor calcard uid base event current)
    let (patch, schedule) ← permit sync itip defaultSchedule current patch
    .done (patch, if schedule then some true else none)
  complete patch := .done patch
  refused error schedule := refused error (schedule == some true) event
  render := render calcard

/-- Compute and send the update for `uid`, guarded by `ifInState`. -/
def writeUpdate (uid : String) (base : Option Base) (event : CalendarEvent) (itip : Itip)
    (defaultSchedule retry : Bool) : CalM SyncError ComponentInfo :=
  (events calcard).writeUpdate (saving calcard sync uid base event itip defaultSchedule)
    sync.client uid retry

end

end CalSync

end EvolutionJmap
