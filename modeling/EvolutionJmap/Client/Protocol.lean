import EvolutionJmap.Interaction
import EvolutionJmap.Json
import EvolutionJmap.Text

/-!
# Requests, responses and errors

The part of JMAP that the synchronisation code uses for one data type of one account:
`/changes`, `/get`, `/query` and a `/set` with one update.  Requests about other data
(blobs, identities, cards looked up by uid) are `lookup` calls.  `SetRequest` and
`SetResponse` are those of any `/set` (RFC 8620 §5.3).
-/

namespace EvolutionJmap

/-- A server-assigned object id. -/
abbrev Id := String

/-- A state string (RFC 8620 §5.1). -/
abbrev State := String

/-- A synchronised data type: the id of an object and the collections it is
filed in. -/
structure DataType (Object : Type) where
  id : Object → Option Id
  membership : Object → Option (BTreeMap Id Bool)

/-- Whether the server has the object in the collection. The membership property
is a set (RFC 8620 §1.5), so its values are `true`. -/
def DataType.filed {Object : Type} (data : DataType Object) (collection : Id)
    (object : Object) : Prop :=
  (data.membership object).bind (·.get? collection) = some true

/-- A method-level error response (RFC 8620 §3.6.2). -/
structure MethodError where
  errorType : String
  description : Option String
  deriving DecidableEq, Repr

/-- A per-record `/set` failure (RFC 8620 §5.3). -/
structure SetError where
  errorType : String
  description : Option String
  properties : Option (List String)
  deriving DecidableEq, Repr

/-- The arguments of a `/set` call. -/
structure SetRequest (Object : Type) where
  accountId : Id
  ifInState : Option State := none
  create : Option (BTreeMap String Object) := none
  update : Option (BTreeMap Id Value) := none
  destroy : Option (List Id) := none

structure SetResponse (Object : Type) where
  accountId : Id
  (oldState newState : Option State := none)
  created : Option (BTreeMap String Object) := none
  updated : Option (BTreeMap Id (Option Object)) := none
  destroyed : Option (List Id) := none
  notCreated : Option (BTreeMap String SetError) := none
  (notUpdated notDestroyed : Option (BTreeMap Id SetError) := none)

/-- The client's errors. `other` stands for the variants that the modelled code
neither makes nor inspects. -/
inductive Error where
  | transport (message : String)
  | http (status : Nat)
  | method (error : MethodError)
  | set (error : SetError)
  | json (message : String)
  | protocol (message : String)
  | cancelled
  | requestTooLarge (size limit : Nat)
  | setPartiallyApplied (committed : SetResponse Value) (cause : Error)
  | rateLimited (method : Option String)
  | chunkBoundaryReferenceBroken (creationId reason : String)
  | other

structure ChangesResponse where
  newState : State
  hasMoreChanges : Bool
  created : List Id
  updated : List Id
  destroyed : List Id
  deriving DecidableEq, Repr

structure GetResponse (Object : Type) where
  state : State
  list : List Object
  notFound : List Id
  deriving Repr

structure QueryResponse where
  ids : List Id
  total : Option Nat
  limit : Option Nat
  deriving DecidableEq, Repr

/-- A `/set` that updates one object. -/
structure UpdateRequest where
  id : Id
  patch : Patch
  ifInState : Option State
  sendSchedulingMessages : Option Bool

structure UpdateResponse where
  updated : List Id
  notUpdated : List (Id × SetError)

/-- Lookups outside the synchronised data type, and the type of their answers. -/
structure Lookups where
  Request : Type
  Answer : Request → Type

/-- No other lookups. -/
abbrev Lookups.none : Lookups := ⟨Empty, Empty.elim⟩

/-- One request to the server. -/
inductive Call (lookups : Lookups) where
  | changes (typeName : String) (sinceState : State)
  | get (method : String) (ids : List Id)
  | query (method : String) (collection : Id) (position : Nat)
  | update (method : String) (request : UpdateRequest)
  | lookup (request : lookups.Request)

namespace Call

variable {lookups : Lookups}

/-- What a request is answered with when it does not fail. -/
@[reducible] def Response (Object : Type) : Call lookups → Type
  | .changes _ _ => ChangesResponse
  | .get _ _ => GetResponse Object
  | .query _ _ _ => QueryResponse
  | .update _ _ => UpdateResponse
  | .lookup request => lookups.Answer request

def isQuery : Call lookups → Bool
  | .query _ _ _ => true
  | _ => false

/-- The answer to a request: a response or an error. -/
abbrev Answer (Object : Type) (call : Call lookups) : Type :=
  Except Error (call.Response Object)

end Call

abbrev ClientM (lookups : Lookups) (Object ε α : Type) : Type :=
  Interaction.Program (Call lookups) (Call.Answer Object) ε α

/-- The calls that were made, with their answers and the moments around them. -/
abbrev Trace (lookups : Lookups) (Object : Type) : Type :=
  List (Interaction.Exchange (Call lookups) (Call.Answer Object) Nat)

namespace ClientM

variable {lookups : Lookups} {Object : Type}

/-- Send one request and go on with its response (`single_call`). -/
def send (call : Call lookups) : ClientM lookups Object Error (call.Response Object) :=
  .call call Interaction.Program.ofExcept

theorem sends_send {allowed : Call lookups → Prop} {call : Call lookups}
    (isAllowed : allowed call) :
    (send call : ClientM lookups Object Error (call.Response Object)).Sends allowed :=
  ⟨isAllowed, fun _ => Interaction.Program.sends_ofExcept _⟩

end ClientM

/-! ## What an error means -/

namespace Error

def isCannotCalculateChanges : Error → Bool
  | .method error => error.errorType == "cannotCalculateChanges"
  | _ => false

/-- `invalidArguments` for a state the server does not know. The source lowers
the description's case fully; only ASCII letters can turn into those of
`state`. -/
def isUnrecognizedChangesState : Error → Bool
  | .method error =>
    error.errorType == "invalidArguments" &&
      error.description.any fun description =>
        containsText (toAsciiLowercase description) "state"
  | _ => false

def needsFullResync (error : Error) : Bool :=
  error.isCannotCalculateChanges || error.isUnrecognizedChangesState

def isUnknownMethod : Error → Bool
  | .method error => error.errorType == "unknownMethod"
  | _ => false

def isStateMismatch : Error → Bool
  | .method error => error.errorType == "stateMismatch"
  | .setPartiallyApplied _ cause => cause.isStateMismatch
  | _ => false

end Error

/-! ## The outcome of one item of a `/set` -/

def setFailure : Option SetError → Error
  | some error => .set error
  | none => .protocol "/set response reports neither success nor failure"

def expectCreated {Object : Type} (response : SetResponse Object) (creationId : String) :
    Except Error Object :=
  match response.created.bind (·.get? creationId) with
  | some object => .ok object
  | none => .error (setFailure (response.notCreated.bind (·.get? creationId)))

end EvolutionJmap
