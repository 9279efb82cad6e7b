import EvolutionJmap.Client.Protocol

/-!
# The request and response envelope (`jmap-client`, `client.rs`)

`apiCall` sends a request envelope and checks the answer: the session state must not go
back, and the responses must have the call ids of the request.  `singleCall` is a
request with one call.  What the transport does is a stream of exchanges, without the
waiting between two attempts.
-/

namespace EvolutionJmap.Envelope

open EvolutionJmap.Text List Option

/-- One method call or response (RFC 8620 §3.2). -/
structure Invocation where
  name : String
  arguments : Value
  callId : String
  deriving DecidableEq, Repr

namespace Invocation

def isError (invocation : Invocation) : Bool := invocation.name = "error"

def methodError (invocation : Invocation) : Except Error MethodError :=
  match (invocation.arguments.get? "type").bind Value.asStr,
      invocation.arguments.get? "description" with
  | some errorType, none => .ok ⟨errorType, none⟩
  | some errorType, some .null => .ok ⟨errorType, none⟩
  | some errorType, some (.string description) => .ok ⟨errorType, some description⟩
  | _, _ => .error (.json "invalid method error")

end Invocation

/-- A request envelope (RFC 8620 §3.3). -/
structure Request where
  «using» : List String
  methodCalls : List Invocation
  createdIds : Option (BTreeMap Id Id) := none

/-- A response envelope (RFC 8620 §3.4). -/
structure Response where
  methodResponses : List Invocation
  createdIds : Option (BTreeMap Id Id) := none
  sessionState : State

def Response.responsesFor (response : Response) (callId : String) : List Invocation :=
  response.methodResponses.filter fun invocation => invocation.callId = callId

/-- What one HTTP request comes to. -/
inductive Exchange where
  | answered (response : Response)
  | http (status : Nat)
  | failed (error : Error)

/-- The settings of the client, and the length of a request on the wire. -/
structure Settings where
  maxSizeRequest : Option Nat
  maxRateLimitRetries : Nat
  size : Request → Nat

/-- The client between two requests. -/
structure Session where
  lastSessionState : Option State
  nextCallId : Nat
  /-- How many requests have been sent. -/
  sent : Nat
  deriving DecidableEq, Repr

/-- The part behind the last solidus. -/
def methodName (method : String) : String :=
  String.ofList (method.toList.reverse.takeWhile (· ≠ '/')).reverse

def isMethodIdempotent (method : String) : Bool :=
  methodName method ∈
    ["get", "query", "changes", "queryChanges", "echo", "getAvailability"]

def isRequestIdempotent (request : Request) : Bool :=
  !request.methodCalls.isEmpty &&
    request.methodCalls.all fun call => isMethodIdempotent call.name

/-- The numbers of the new and the last session state, if the new one is lower. -/
def regression (last : Option State) (state : State) : Option (Nat × Nat) :=
  match last.bind fun last => parseUnsigned 64 last.toList, parseUnsigned 64 state.toList with
  | some previous, some current => if current < previous then some (current, previous) else none
  | _, _ => none

/-- Reject a session state that goes back. Any other one is remembered. -/
def validateSessionState (session : Session) (state : State) : Except Error Session :=
  match regression session.lastSessionState state with
  | some (current, previous) =>
    .error (.protocol s!"session state regressed backwards: {current} < {previous}")
  | none => .ok { session with lastSessionState := some state }

def unexpected (request : Request) (response : Response) : Option Invocation :=
  response.methodResponses.find? fun invocation =>
    invocation.callId ∉ request.methodCalls.map Invocation.callId

/-- The first call id that comes a second time. -/
def duplicate (seen : List String) : List Invocation → Option String
  | [] => none
  | invocation :: rest =>
    if invocation.callId ∈ seen then some invocation.callId
    else duplicate (invocation.callId :: seen) rest

/-- The first call whose place another response has. -/
def misplaced (request : Request) (response : Response) : Option (Invocation × Invocation) :=
  (request.methodCalls.zip response.methodResponses).find? fun pair =>
    pair.1.callId ≠ pair.2.callId

def validateMethodResponses (request : Request) (response : Response) : Except Error Unit :=
  match unexpected request response with
  | some invocation =>
    .error (.protocol
      s!"unexpected method response call id {invocation.callId} not in request")
  | none =>
    match duplicate [] response.methodResponses with
    | some callId => .error (.protocol s!"duplicate method response call id {callId}")
    | none =>
      match misplaced request response with
      | some pair =>
        .error (.protocol ("method responses out of order: expected " ++ pair.1.callId ++
          ", got " ++ pair.2.callId))
      | none => .ok ()

/-- Check an answer. The session state is remembered before the call ids are
checked. -/
def validateResponse (session : Session) (request : Request) (response : Response) :
    Except Error Unit × Session :=
  match validateSessionState session response.sessionState with
  | .error error => (.error error, session)
  | .ok session => (validateMethodResponses request response, session)

variable (settings : Settings) (exchange : Nat → Exchange)

/-- The attempts of `api_call`, of which `left` may still follow this one. -/
def attempts (request : Request) : Nat → Session → Except Error Response × Session
  | left, session =>
    let next := { session with sent := session.sent + 1 }
    match exchange session.sent with
    | .answered response =>
      match validateResponse next request response with
      | (.ok _, after) => (.ok response, after)
      | (.error error, after) => (.error error, after)
    | .failed error => (.error error, next)
    | .http status =>
      if status = 429 then
        match left with
        | left + 1 => attempts request left next
        | 0 =>
          (.error (.rateLimited ((request.methodCalls.find? fun call =>
            !isMethodIdempotent call.name).map Invocation.name)), next)
      else (.error (.http status), next)

/-- One request to the API endpoint. -/
def apiCall (session : Session) (request : Request) : Except Error Response × Session :=
  match settings.maxSizeRequest with
  | some limit =>
    if settings.size request > limit then
      (.error (.requestTooLarge (settings.size request) limit), session)
    else
      attempts exchange request
        (if isRequestIdempotent request then settings.maxRateLimitRetries - 1 else 0) session
  | none =>
    attempts exchange request
      (if isRequestIdempotent request then settings.maxRateLimitRetries - 1 else 0) session

def callRequest (capabilities : List String) (method : String) (arguments : Value)
    (createdIds : BTreeMap Id Id) (callId : String) : Request where
  «using» := capabilities
  methodCalls := [⟨method, arguments, callId⟩]
  createdIds := if createdIds.isEmpty then none else some createdIds

/-- What a single call makes of a checked answer. `none` asks for another attempt. -/
def readAnswer (method callId : String) (retry : Bool) (response : Response) :
    Option (Except Error Value) :=
  match (response.responsesFor callId).head? with
  | none => some (.error (.protocol s!"no response for call id {callId}"))
  | some invocation =>
    if invocation.isError then
      match invocation.methodError with
      | .error error => some (.error error)
      | .ok methodError =>
        if methodError.errorType = "limit" then
          if retry then none else some (.error (.rateLimited (some method)))
        else some (.error (.method methodError))
    else if invocation.name ≠ method then
      some (.error (.protocol ("expected response to " ++ method ++ ", got " ++ invocation.name)))
    else some (.ok invocation.arguments)

/-- The attempts of `single_call_inner`, of which `left` may still follow this one. -/
def singleCallFrom (request : Request) (method callId : String) :
    Nat → Session → Except Error Value × Session
  | left, session =>
    match apiCall settings exchange session request with
    | (.error error, after) => (.error error, after)
    | (.ok response, after) =>
      match readAnswer method callId (left ≠ 0) response, left with
      | some answer, _ => (answer, after)
      | none, left + 1 => singleCallFrom request method callId left after
      | none, 0 => (.error (.rateLimited (some method)), after)

/-- `single_call_with_created_ids`. -/
def singleCall (session : Session) (capabilities : List String) (method : String)
    (arguments : Value) (createdIds : BTreeMap Id Id) : Except Error Value × Session :=
  let callId := s!"c{session.nextCallId}"
  singleCallFrom settings exchange
    (callRequest capabilities method arguments createdIds callId) method callId
    (if isMethodIdempotent method then settings.maxRateLimitRetries - 1 else 0)
    { session with nextCallId := session.nextCallId + 1 }

/-! ## Submitting a message (`mail.rs`) -/

def modifyMember (key : String) (change : Value → Value) : Value → Value
  | .object members =>
    .object (members.map fun member =>
      if member.1 = key then (member.1, change member.2) else member)
  | value => value

/-- A member, added if the object has none of the name (`entry`, `or_insert_with`). -/
def orInsertMember (key : String) (value : Value) : Value → Value
  | .object members =>
    if (Entries.get? key members).isSome then .object members
    else .object (Entries.insert key value members)
  | other => other

/-- Fill in what the server may leave out of a created submission. -/
def backfillSubmissionCreated (arguments : Value) (creationId : String)
    (identityId emailId : Id) : Value :=
  modifyMember "created" (modifyMember creationId fun object =>
    orInsertMember "emailId" (.string emailId)
      (orInsertMember "identityId" (.string identityId) object)) arguments

structure EnvelopeAddress where
  email : String
  parameters : Option Value

structure SmtpEnvelope where
  mailFrom : EnvelopeAddress
  rcptTo : List EnvelopeAddress

def EnvelopeAddress.toJson (address : EnvelopeAddress) : Value :=
  Value.ofMembers [("email", .string address.email),
    ("parameters", Value.ofOption address.parameters)]

def SmtpEnvelope.toJson (envelope : SmtpEnvelope) : Value :=
  Value.ofMembers [("mailFrom", envelope.mailFrom.toJson),
    ("rcptTo", .array (envelope.rcptTo.map EnvelopeAddress.toJson))]

/-- Refuse an address with an ASCII control character. `debug` is the debug format
of the standard library. -/
def checkEnvelope (debug : String → String) (envelope : SmtpEnvelope) : Except Error Unit :=
  let bad := (envelope.mailFrom :: envelope.rcptTo).find? fun address =>
    address.email.toList.any fun char => char.toNat < 32 || char.toNat = 127
  match bad with
  | some address => .error (.protocol
      ("envelope address " ++ debug address.email ++ " contains a control character"))
  | none => .ok ()

def submissionRequest (accountId identityId emailId : Id) (envelope : Option SmtpEnvelope)
    (onSuccessUpdate : Option Value) : Value :=
  let submission := Value.ofMembers ([("identityId", .string identityId),
    ("emailId", .string emailId)] ++
      (envelope.map fun envelope => ("envelope", envelope.toJson)).toList)
  Value.ofMembers ([("accountId", .string accountId),
    ("create", Value.ofMembers [("submission", submission)])] ++
      (onSuccessUpdate.map fun patch =>
        ("onSuccessUpdateEmail", Value.ofMembers [("#submission", patch)])).toList)

def submissionCapabilities : List String :=
  ["urn:ietf:params:jmap:core", "urn:ietf:params:jmap:mail", "urn:ietf:params:jmap:submission"]

/-- `submit_email`. `decode` reads the arguments of a `/set` response. -/
def submitEmail {Submission : Type} (debug : String → String)
    (decode : Value → Except Error (SetResponse Submission)) (session : Session)
    (accountId emailId identityId : Id) (envelope : Option SmtpEnvelope)
    (onSuccessUpdate : Option Value) : Except Error Submission × Session :=
  match envelope.mapM (checkEnvelope debug) with
  | .error error => (.error error, session)
  | .ok _ =>
    let called := singleCall settings exchange session submissionCapabilities
      "EmailSubmission/set"
      (submissionRequest accountId identityId emailId envelope onSuccessUpdate) ∅
    (called.1.bind fun arguments =>
      (decode (backfillSubmissionCreated arguments "submission" identityId emailId)).bind
        fun response => expectCreated response "submission", called.2)

/-! ## Conforming answers -/

/-- The responses are one block for each call, in call order, and every response of a
block has the id of its call (RFC 8620 §3.4). -/
def Conforming (request : Request) (response : Response) : Prop :=
  ∃ blocks : List (List Invocation), blocks.flatten = response.methodResponses ∧
    List.Forall₂ (fun call block => block ≠ [] ∧
      ∀ answer ∈ block, answer.callId = call.callId) request.methodCalls blocks

theorem callIds_of_blocks {calls : List Invocation} {blocks : List (List Invocation)}
    (answered : List.Forall₂ (fun call block => block ≠ [] ∧
      ∀ answer ∈ block, answer.callId = call.callId) calls blocks)
    (once : (blocks.flatten.map Invocation.callId).Nodup) :
    blocks.flatten.map Invocation.callId = calls.map Invocation.callId := by
  induction answered with
  | nil => rfl
  | @cons call block calls blocks isBlock _ ih =>
    rw [flatten_cons, map_append, nodup_append] at once
    rw [flatten_cons, map_append, ih once.2.1, map_cons]
    have single : block.map Invocation.callId = [call.callId] := by
      match block, isBlock, once.1 with
      | [answer], isBlock, _ => simp [isBlock.2 answer mem_cons_self]
      | first :: second :: rest, isBlock, once =>
        have same : first.callId = second.callId :=
          (isBlock.2 first mem_cons_self).trans
            (isBlock.2 second (mem_cons_of_mem _ mem_cons_self)).symm
        simp [same] at once
      | [], isBlock, _ => exact (isBlock.1 rfl).elim
    rw [single]
    rfl

theorem duplicate_eq_none {invocations : List Invocation} :
    ∀ {seen : List String}, (invocations.map Invocation.callId).Nodup →
      (∀ invocation ∈ invocations, invocation.callId ∉ seen) →
        duplicate seen invocations = none := by
  induction invocations with
  | nil => exact fun _ _ => rfl
  | cons invocation rest ih =>
    intro seen once unseen
    rw [forall_mem_cons] at unseen
    rw [map_cons, nodup_cons] at once
    rw [duplicate, if_neg unseen.1]
    refine ih once.2 fun other mem seenNow => ?_
    rcases mem_cons.mp seenNow with same | earlier
    · exact once.1 (same ▸ mem_map_of_mem mem)
    · exact unseen.2 other mem earlier

variable {request : Request} {response : Response}

theorem misplaced_eq_none
    (same : response.methodResponses.map Invocation.callId =
      request.methodCalls.map Invocation.callId) : misplaced request response = none := by
  rw [misplaced, find?_eq_none]
  intro pair mem
  obtain ⟨index, bound, rfl⟩ := mem_iff_getElem.mp mem
  rw [length_zip] at bound
  have here : (response.methodResponses.map Invocation.callId)[index]? =
      (request.methodCalls.map Invocation.callId)[index]? := by rw [same]
  have inRequest : index < request.methodCalls.length := by omega
  have inResponse : index < response.methodResponses.length := by omega
  rw [getElem?_map, getElem?_map, getElem?_eq_getElem inRequest,
    getElem?_eq_getElem inResponse, map_some, map_some, Option.some.injEq]
    at here
  simp [here]

theorem validateMethodResponses_ok (conforming : Conforming request response)
    (once : (response.methodResponses.map Invocation.callId).Nodup) :
    validateMethodResponses request response = .ok () := by
  obtain ⟨blocks, isResponses, answered⟩ := conforming
  have same : response.methodResponses.map Invocation.callId =
      request.methodCalls.map Invocation.callId := by
    rw [← isResponses] at once ⊢
    exact callIds_of_blocks answered once
  have expected : unexpected request response = none := by
    rw [unexpected, find?_eq_none]
    intro invocation mem
    simp only [decide_not, Bool.not_eq_true', decide_eq_false_iff_not, not_not, ← same]
    exact mem_map_of_mem mem
  rw [validateMethodResponses, expected]
  simp only [duplicate_eq_none once fun _ _ => not_mem_nil, misplaced_eq_none same]

def Session.after (session : Session) (response : Response) : Session :=
  { session with lastSessionState := some response.sessionState, sent := session.sent + 1 }

variable {settings} {exchange} {session : Session}

/-- The request is within the limit of the server. -/
def Settings.Fits (settings : Settings) (request : Request) : Prop :=
  ∀ limit, settings.maxSizeRequest = some limit → settings.size request ≤ limit

section

variable (conforming : Conforming request response)
  (once : (response.methodResponses.map Invocation.callId).Nodup)
  (forward : regression session.lastSessionState response.sessionState = none)
  (answered : exchange session.sent = .answered response)

include conforming once forward answered

theorem attempts_answered (left : Nat) :
    attempts exchange request left session = (.ok response, session.after response) := by
  unfold attempts
  simp only [answered, validateResponse, validateSessionState, forward,
    validateMethodResponses_ok conforming once, Session.after]

theorem apiCall_answered (fits : settings.Fits request) :
    apiCall settings exchange session request = (.ok response, session.after response) := by
  unfold apiCall
  split
  · next limit isLimit =>
    rw [if_neg (Nat.not_lt.mpr (fits limit isLimit))]
    exact attempts_answered conforming once forward answered _
  · exact attempts_answered conforming once forward answered _

end

variable {invocation : Invocation} {rest : List Invocation}

theorem readAnswer_own {method callId : String}
    (responses : response.methodResponses = invocation :: rest) (same : invocation.callId = callId)
    (own : invocation.name = method) (noError : method ≠ "error") (retry : Bool) :
    readAnswer method callId retry response = some (.ok invocation.arguments) := by
  have first : (response.responsesFor callId).head? = some invocation := by
    rw [Response.responsesFor, responses, filter_cons_of_pos (by simpa using same)]
    rfl
  have noFailure : invocation.isError = false := by
    simp [Invocation.isError, own, noError]
  unfold readAnswer
  simp only [first, noFailure, own]
  simp

theorem singleCall_answered {capabilities : List String} {method : String} {arguments : Value}
    {createdIds : BTreeMap Id Id}
    (fits : settings.Fits (callRequest capabilities method arguments createdIds
      s!"c{session.nextCallId}"))
    (conforming : Conforming (callRequest capabilities method arguments createdIds
      s!"c{session.nextCallId}") response)
    (once : (response.methodResponses.map Invocation.callId).Nodup)
    (forward : regression session.lastSessionState response.sessionState = none)
    (answered : exchange session.sent = .answered response)
    (responses : response.methodResponses = invocation :: rest) (own : invocation.name = method)
    (noError : method ≠ "error") :
    (singleCall settings exchange session capabilities method arguments createdIds).1 =
      .ok invocation.arguments := by
  have same : invocation.callId = s!"c{session.nextCallId}" := by
    obtain ⟨blocks, isResponses, blocksAnswer⟩ := conforming
    cases blocksAnswer with
    | @cons call block _ _ isBlock none =>
      cases none
      rw [flatten_cons, flatten_nil, append_nil, responses] at isResponses
      exact isBlock.2 invocation (isResponses ▸ mem_cons_self)
  have next : regression { session with nextCallId := session.nextCallId + 1 }.lastSessionState
      response.sessionState = none := forward
  unfold singleCall
  simp only
  unfold singleCallFrom
  rw [apiCall_answered conforming once next answered fits]
  simp only [readAnswer_own responses same own noError]

theorem submitEmail_answered {Submission : Type} {debug : String → String}
    {decode : Value → Except Error (SetResponse Submission)} {accountId emailId identityId : Id}
    {envelope : Option SmtpEnvelope} {onSuccessUpdate : Option Value} {arguments : Value}
    {setResponse : SetResponse Submission} {submission : Submission} {checked : Option Unit}
    (sendable : envelope.mapM (checkEnvelope debug) = .ok checked)
    (called : (singleCall settings exchange session submissionCapabilities "EmailSubmission/set"
      (submissionRequest accountId identityId emailId envelope onSuccessUpdate) ∅).1 =
        .ok arguments)
    (decoded : decode (backfillSubmissionCreated arguments "submission" identityId emailId) =
      .ok setResponse)
    (created : setResponse.created.bind (·.get? "submission") = some submission) :
    (submitEmail settings exchange debug decode session accountId emailId identityId envelope
      onSuccessUpdate).1 = .ok submission := by
  simp only [submitEmail, sendable, called, Except.bind, decoded, expectCreated, created]

/-- An answer that gives every call one response, in order, and whose session state
does not go back is accepted; a single call then gets the arguments of its method's
response, and a submission that the answer has as created is returned. -/
theorem conforming_answers_accepted (fits : settings.Fits request)
    (conforming : Conforming request response)
    (once : (response.methodResponses.map Invocation.callId).Nodup)
    (forward : regression session.lastSessionState response.sessionState = none)
    (answered : exchange session.sent = .answered response) :
    apiCall settings exchange session request = (.ok response, session.after response) ∧
    (∀ capabilities method arguments createdIds invocation rest,
      request = callRequest capabilities method arguments createdIds s!"c{session.nextCallId}" →
      response.methodResponses = invocation :: rest →
      invocation.name = method → method ≠ "error" →
      (singleCall settings exchange session capabilities method arguments createdIds).1 =
        .ok invocation.arguments) ∧
    ∀ (Submission : Type) debug (decode : Value → Except Error (SetResponse Submission))
      accountId emailId identityId envelope onSuccessUpdate checked invocation rest setResponse
      submission,
      request = callRequest submissionCapabilities "EmailSubmission/set"
        (submissionRequest accountId identityId emailId envelope onSuccessUpdate) ∅
        s!"c{session.nextCallId}" →
      envelope.mapM (checkEnvelope debug) = .ok checked →
      response.methodResponses = invocation :: rest →
      invocation.name = "EmailSubmission/set" →
      decode (backfillSubmissionCreated invocation.arguments "submission" identityId emailId) =
        .ok setResponse →
      setResponse.created.bind (·.get? "submission") = some submission →
      (submitEmail settings exchange debug decode session accountId emailId identityId envelope
        onSuccessUpdate).1 = .ok submission := by
  refine ⟨apiCall_answered conforming once forward answered fits, ?_, ?_⟩
  · intro capabilities method arguments createdIds invocation rest isRequest responses own noError
    subst isRequest
    exact singleCall_answered fits conforming once forward answered responses own noError
  · intro Submission debug decode accountId emailId identityId envelope onSuccessUpdate checked
      invocation rest setResponse submission isRequest sendable responses own decoded created
    subst isRequest
    have called := singleCall_answered fits conforming once forward answered responses own
      (by decide)
    exact submitEmail_answered sendable called decoded created

def unlimited : Settings := ⟨none, 3, fun _ => 0⟩

def echoRequest : Request := ⟨["urn:ietf:params:jmap:core"], [⟨"Core/echo", .null, "c0"⟩], none⟩

def echoResponse (state : State) : Response := ⟨[⟨"Core/echo", .null, "c0"⟩], none, state⟩

theorem echo_conforming (state : State) : Conforming echoRequest (echoResponse state) :=
  ⟨[[⟨"Core/echo", .null, "c0"⟩]], rfl, .cons (by simp) .nil⟩

theorem conforming_answers_accepted_echo :
    (apiCall unlimited (fun _ => .answered (echoResponse "10")) ⟨some "9", 0, 0⟩ echoRequest).1 =
        .ok (echoResponse "10") ∧
      (singleCall unlimited (fun _ => .answered (echoResponse "10")) ⟨some "9", 0, 0⟩
        ["urn:ietf:params:jmap:core"] "Core/echo" .null ∅).1 = .ok .null := by
  have accepted := @conforming_answers_accepted unlimited (fun _ => .answered (echoResponse "10"))
    echoRequest (echoResponse "10") ⟨some "9", 0, 0⟩ nofun (echo_conforming _) (by decide)
    (by decide) rfl
  refine ⟨congrArg Prod.fst accepted.1, ?_⟩
  exact accepted.2.1 _ "Core/echo" .null ∅ _ [] rfl rfl rfl (by decide)

/-- The response to a submission and the implicit `Email/set` behind it, under one
call id (RFC 8621 §7.5). -/
def submissionResponse : Response :=
  ⟨[⟨"EmailSubmission/set", .null, "c0"⟩, ⟨"Email/set", .null, "c0"⟩], none, "s1"⟩

/-- A session state that went back and an implicit response under the call's own id are
both turned down. -/
theorem conforming_answers_rejected :
    (Conforming echoRequest (echoResponse "9") ∧
      ∃ message, (apiCall unlimited (fun _ => .answered (echoResponse "9")) ⟨some "10", 0, 0⟩
        echoRequest).1 = .error (.protocol message)) ∧
    (Conforming (callRequest submissionCapabilities "EmailSubmission/set" .null ∅ "c0")
        submissionResponse ∧
      ∃ message, (singleCall unlimited (fun _ => .answered submissionResponse) ⟨none, 0, 0⟩
        submissionCapabilities "EmailSubmission/set" .null ∅).1 = .error (.protocol message)) := by
  refine ⟨⟨echo_conforming _, _, rfl⟩, ⟨⟨[submissionResponse.methodResponses], rfl, ?_⟩, _, rfl⟩⟩
  exact .cons (by decide) .nil

/-! ## The retries of a single call -/

/-- What an answer means for the retries: status 429, a `limit` error of the method,
or anything that ends the call. -/
inductive Reply where
  | tooMany
  | limit
  | final
  deriving DecidableEq, Repr

/-- A single call under way. -/
structure Calling where
  settings : Settings
  exchange : Nat → Exchange
  request : Request
  method : String
  callId : String

namespace Calling

variable (call : Calling)

/-- The next answer, and the client after it. -/
def reply (session : Session) : Reply × Session :=
  let next := { session with sent := session.sent + 1 }
  match call.exchange session.sent with
  | .failed _ => (.final, next)
  | .http status => (if status = 429 then .tooMany else .final, next)
  | .answered response =>
    let checked := validateResponse next call.request response
    (if checked.1.isOk && (readAnswer call.method call.callId true response).isNone then .limit
      else .final, checked.2)

/-- The next `count` answers. -/
def replies : Nat → Session → List Reply
  | 0, _ => []
  | count + 1, session => (call.reply session).1 :: replies count (call.reply session).2

/-- The further attempts of one `api_call`. -/
def full : Nat :=
  if isRequestIdempotent call.request then call.settings.maxRateLimitRetries - 1 else 0

/-- The attempts left after an answer, for `limit` errors and for status 429. `none`
ends the call. -/
def spend (left : Nat × Nat) (answer : Reply) : Option (Nat × Nat) :=
  match answer, left with
  | .tooMany, (outer, inner + 1) => some (outer, inner)
  | .limit, (outer + 1, _) => some (outer, call.full)
  | _, _ => none

/-- `single_call_inner` from inside an `api_call`. -/
def resume (left : Nat × Nat) (session : Session) : Except Error Value × Session :=
  match attempts call.exchange call.request left.2 session with
  | (.error error, after) => (.error error, after)
  | (.ok response, after) =>
    match readAnswer call.method call.callId (left.1 ≠ 0) response, left.1 with
    | some answer, _ => (answer, after)
    | none, outer + 1 =>
      singleCallFrom call.settings call.exchange call.request call.method call.callId outer after
    | none, 0 => (.error (.rateLimited (some call.method)), after)

variable {call} {left : Nat × Nat} {answers : List Reply}

theorem reply_sent : (call.reply session).2.sent = session.sent + 1 := by
  unfold reply
  cases call.exchange session.sent with
  | failed | http => rfl
  | answered response =>
    simp only [validateResponse, validateSessionState]
    cases regression session.lastSessionState response.sessionState <;> rfl

theorem readAnswer_last {method callId : String} :
    ∃ answer, readAnswer method callId false response = some answer := by
  unfold readAnswer
  split
  · exact ⟨_, rfl⟩
  · split
    · split
      · exact ⟨_, rfl⟩
      · split <;> exact ⟨_, rfl⟩
    · split <;> exact ⟨_, rfl⟩

theorem singleCallFrom_eq (fits : call.settings.Fits call.request) (outer : Nat) :
    singleCallFrom call.settings call.exchange call.request call.method call.callId outer session =
      call.resume (outer, call.full) session := by
  have sending : apiCall call.settings call.exchange session call.request =
      attempts call.exchange call.request call.full session := by
    unfold apiCall
    split
    · next limit isLimit => exact if_neg (Nat.not_lt.mpr (fits limit isLimit))
    · rfl
  rw [singleCallFrom, sending]
  rfl

/-- One answer ends the call or leaves it with fewer attempts. -/
theorem resume_sent (fits : call.settings.Fits call.request) :
    (call.resume left session).2.sent =
      ((call.spend left (call.reply session).1).map fun left =>
        (call.resume left (call.reply session).2).2.sent).getD (session.sent + 1) := by
  have sent := @reply_sent session call
  obtain ⟨outer, inner⟩ := left
  unfold reply at sent ⊢
  rw [resume]
  unfold attempts
  cases answer : call.exchange session.sent with
  | failed => cases inner <;> cases outer <;> rfl
  | http status =>
    by_cases rate : status = 429
    · simp only [rate]
      cases inner with
      | zero => cases outer <;> rfl
      | succ inner => rfl
    · simp only [rate]
      cases inner <;> cases outer <;> rfl
  | answered response =>
    simp only [answer] at sent ⊢
    generalize validateResponse _ call.request response = checked at sent ⊢
    match checked, outer with
    | (.error _, after), _ => simpa [spend, Except.isOk, Except.toBool] using sent
    | (.ok _, after), 0 =>
      obtain ⟨value, last⟩ := @readAnswer_last response call.method call.callId
      cases readAnswer call.method call.callId true response <;>
        simpa [last, spend, Except.isOk, Except.toBool] using sent
    | (.ok _, after), outer + 1 =>
      cases read : readAnswer call.method call.callId true response with
      | none => simp [read, spend, Except.isOk, Except.toBool, singleCallFrom_eq fits]
      | some value => simpa [read, spend] using sent

theorem spend_lt {next : Nat × Nat} {answer : Reply} (spent : call.spend left answer = some next) :
    Prod.Lex (· < ·) (· < ·) next left := by
  unfold spend at spent
  split at spent
  · cases spent
    exact .right _ (Nat.lt_succ_self _)
  · cases spent
    exact .left _ _ (Nat.lt_succ_self _)
  · cases spent

theorem resume_lt (fits : call.settings.Fits call.request) (left : Nat × Nat) (session : Session) :
    session.sent < (call.resume left session).2.sent := by
  rw [resume_sent fits]
  rcases spent : call.spend left _ with _ | next
  · exact Nat.lt_succ_self _
  · have later := resume_lt fits next (call.reply session).2
    rw [reply_sent] at later
    exact Nat.lt_of_succ_lt later
termination_by left
decreasing_by exact spend_lt spent

/-- A request follows the next `count` answers exactly if they leave an attempt. -/
theorem sent_iff (fits : call.settings.Fits call.request) (count : Nat) :
    session.sent + count < (call.resume left session).2.sent ↔
      ((call.replies count session).foldlM call.spend left).isSome = true := by
  induction count generalizing left session with
  | zero => exact iff_of_true (resume_lt fits left session) rfl
  | succ count ih =>
    rw [resume_sent fits, replies, foldlM_cons]
    cases call.spend left (call.reply session).1 with
    | none => simp
    | some next =>
      have later := @ih (call.reply session).2 next
      rw [reply_sent, Nat.add_assoc, Nat.add_comm 1] at later
      exact later

theorem count_replies :
    answers.count .tooMany + answers.count .limit + answers.count .final = answers.length := by
  induction answers with
  | nil => rfl
  | cons answer answers ih => cases answer <;> simp <;> omega

theorem spend_isSome {outer inner : Nat} (within : inner ≤ call.full)
    (going : answers.count .final = 0) (limits : answers.count .limit ≤ outer)
    (rates : answers.count .tooMany ≤ inner) :
    (answers.foldlM call.spend (outer, inner)).isSome = true := by
  induction answers generalizing outer inner with
  | nil => rfl
  | cons answer answers ih =>
    cases answer with
    | tooMany =>
      cases inner with
      | zero => simp at rates
      | succ inner =>
        exact ih (by omega) (by simpa using going) (by simpa using limits) (by simpa using rates)
    | limit =>
      cases outer with
      | zero => simp at limits
      | succ outer =>
        exact ih (Nat.le_refl _) (by simpa using going) (by simpa using limits)
          ((by simpa using rates : _ ≤ inner).trans within)
    | final => simp at going

theorem of_spend_isSome {outer inner : Nat}
    (alive : (answers.foldlM call.spend (outer, inner)).isSome = true) :
    answers.count .final = 0 ∧ answers.count .limit ≤ outer ∧
      (answers.count .limit = 0 → answers.count .tooMany ≤ inner) := by
  induction answers generalizing outer inner with
  | nil => simp
  | cons answer answers ih =>
    rw [foldlM_cons] at alive
    match answer, outer, inner with
    | .tooMany, outer, inner + 1 => simpa using @ih outer inner alive
    | .limit, outer + 1, inner =>
      have later := @ih outer call.full alive
      simpa using ⟨later.1, later.2.1⟩
    | .tooMany, _, 0 | .limit, 0, _ | .final, _, _ => cases alive

/-- A request follows the answers of the budget exactly if they mix the two kinds. -/
theorem spend_isSome_iff (enough : answers.length = call.full + 1) :
    (answers.foldlM call.spend (call.full, call.full)).isSome = true ↔
      .final ∉ answers ∧ .tooMany ∈ answers ∧ .limit ∈ answers := by
  have total := @count_replies answers
  rw [← count_eq_zero, ← count_pos_iff, ← count_pos_iff]
  constructor
  · intro alive
    have counts := of_spend_isSome alive
    omega
  · intro ⟨going, rates, limits⟩
    exact spend_isSome (Nat.le_refl _) going (by omega) (by omega)

theorem length_replies (count : Nat) : (call.replies count session).length = count := by
  induction count generalizing session with
  | zero => rfl
  | succ count ih => exact congrArg Nat.succ ih

end Calling

variable (settings exchange session) (capabilities : List String) (method : String)
  (arguments : Value) (createdIds : BTreeMap Id Id)

def calling : Calling :=
  ⟨settings, exchange, callRequest capabilities method arguments createdIds
    s!"c{session.nextCallId}", method, s!"c{session.nextCallId}"⟩

/-- A single call keeps to its budget exactly if the answers of the budget do not mix
status 429 and `limit` errors. A request over the limit of the server is not sent. -/
theorem retry_budget_iff :
    let call := calling settings exchange session capabilities method arguments createdIds
    let budget := max 1 settings.maxRateLimitRetries
    let answers := call.replies budget { session with nextCallId := session.nextCallId + 1 }
    let sent :=
      (singleCall settings exchange session capabilities method arguments createdIds).2.sent
    (if isMethodIdempotent method then sent ≤ session.sent + budget
      else sent = session.sent + 1) ↔
      if isMethodIdempotent method then
        settings.Fits call.request → .final ∈ answers ∨ .tooMany ∉ answers ∨ .limit ∉ answers
      else settings.Fits call.request := by
  intro call budget answers sent
  let started := { session with nextCallId := session.nextCallId + 1 }
  have isFull : call.full =
      if isMethodIdempotent method then settings.maxRateLimitRetries - 1 else 0 := by
    simp [call, calling, Calling.full, callRequest, isRequestIdempotent]
  by_cases fits : settings.Fits call.request
  · have isSent : sent = (call.resume (call.full, call.full) started).2.sent := by
      rw [← Calling.singleCallFrom_eq fits, isFull]
      rfl
    split
    · next retried =>
      have follows : session.sent + budget < sent ↔
          .final ∉ answers ∧ .tooMany ∈ answers ∧ .limit ∈ answers := by
        rw [isSent]
        refine (@Calling.sent_iff started call _ fits budget).trans
          (Calling.spend_isSome_iff ?_)
        rw [Calling.length_replies, isFull, if_pos retried]
        omega
      rw [← Nat.not_lt, follows, not_and_or, not_not, not_and_or]
      exact ⟨fun kept _ => kept, fun kept => kept fits⟩
    · next once =>
      rw [Calling.resume_sent fits, isFull, if_neg once] at isSent
      refine iff_of_true ?_ fits
      rw [isSent]
      cases (call.reply _).1 <;> rfl
  · have unsent : sent = session.sent := by
      simp only [Settings.Fits, not_forall, Nat.not_le] at fits
      obtain ⟨limit, isLimit, large⟩ := fits
      simp only [call, calling] at large
      simp only [sent, singleCall]
      unfold singleCallFrom apiCall
      simp only [isLimit, gt_iff_lt, large, if_true]
    simp [unsent, fits]

/-- Each `limit` error starts a fresh round of retries for status 429. -/
theorem retries_multiply :
    isMethodIdempotent "Core/echo" = true ∧
      (singleCall unlimited (fun number =>
        if number % 3 = 2 then
          .answered ⟨[⟨"error", .object [("type", .string "limit")], "c0"⟩], none, "s"⟩
        else .http 429) ⟨none, 0, 0⟩ [] "Core/echo" .null ∅).2.sent = 9 ∧
      9 > max 1 unlimited.maxRateLimitRetries := by
  decide

/-! ## The wait before a retry -/

/-- `1u64.checked_shl(attempt.saturating_sub(1)).unwrap_or(8)`. -/
def backoffFactor (attempt : Nat) : Nat := if attempt - 1 < 64 then 2 ^ (attempt - 1) else 8

/-- The wait in nanoseconds, or nothing if the milliseconds do not fit `u64`. -/
def computeBackoff (maxRetryAfter : Nat) (retryAfter : Option Nat) (attempt : Nat) : Option Nat :=
  match retryAfter with
  | some duration => some (min duration maxRetryAfter)
  | none =>
    let millis := 500 * backoffFactor attempt
    if millis < 2 ^ 64 then some (min (millis * 10 ^ 6) maxRetryAfter) else none

theorem backoffFactor_pos (attempt : Nat) : 1 ≤ backoffFactor attempt := by
  rw [backoffFactor]
  split
  · exact Nat.one_le_two_pow
  · decide

theorem backoffFactor_fits (attempt : Nat) :
    500 * backoffFactor attempt < 2 ^ 64 ↔ attempt ≤ 56 ∨ 65 ≤ attempt := by
  rw [backoffFactor]
  split
  · next small =>
    constructor
    · intro fits
      by_contra large
      have power := Nat.pow_le_pow_right (n := 2) (by decide) (show 56 ≤ attempt - 1 by omega)
      omega
    · intro range
      have power := Nat.pow_le_pow_right (n := 2) (by decide) (show attempt - 1 ≤ 55 by omega)
      omega
  · next large =>
    constructor
    · intro _
      omega
    · intro _
      decide

/-- The waits before the attempts grow from half a second to the limit. -/
def BackoffSound (maxRetryAfter attempt later : Nat) : Prop :=
  ∃ wait longer, computeBackoff maxRetryAfter none attempt = some wait ∧
    computeBackoff maxRetryAfter none later = some longer ∧ wait ≤ longer ∧
    ∀ waited ∈ [wait, longer], min (500 * 10 ^ 6) maxRetryAfter ≤ waited ∧ waited ≤ maxRetryAfter

theorem backoffSound_iff_factor {maxRetryAfter attempt later : Nat} :
    BackoffSound maxRetryAfter attempt later ↔
      (attempt ≤ 56 ∨ 65 ≤ attempt) ∧ (later ≤ 56 ∨ 65 ≤ later) ∧
        (backoffFactor attempt ≤ backoffFactor later ∨
          maxRetryAfter ≤ 500 * backoffFactor later * 10 ^ 6) := by
  rw [← backoffFactor_fits, ← backoffFactor_fits]
  have positive := backoffFactor_pos attempt
  have laterPositive := backoffFactor_pos later
  simp only [BackoffSound, computeBackoff, ite_none_right_eq_some, Option.some.injEq]
  constructor
  · rintro ⟨_, _, ⟨fits, rfl⟩, ⟨laterFits, rfl⟩, grows, -⟩
    exact ⟨fits, laterFits, by omega⟩
  · rintro ⟨fits, laterFits, grows⟩
    refine ⟨_, _, ⟨fits, rfl⟩, ⟨laterFits, rfl⟩, by omega, ?_⟩
    simp only [List.forall_mem_cons, List.not_mem_nil, false_implies, implies_true, and_true]
    omega

/-- The shift loses its order at attempt 65, where it falls back to 8, and the product
overflows from attempt 57 to 64. -/
theorem backoffSound_iff (maxRetryAfter attempt more : Nat) :
    BackoffSound maxRetryAfter attempt (attempt + more) ↔
      attempt + more ≤ 56 ∨ 65 ≤ attempt ∨ attempt ≤ 56 ∧ 65 ≤ attempt + more ∧
        (attempt ≤ 4 ∨ maxRetryAfter ≤ 4000 * 10 ^ 6) := by
  rw [backoffSound_iff_factor]
  have small : ∀ {attempt}, attempt ≤ 56 → backoffFactor attempt = 2 ^ (attempt - 1) :=
    fun _ => if_pos (by omega)
  have large : ∀ {attempt}, 65 ≤ attempt → backoffFactor attempt = 8 := fun _ => if_neg (by omega)
  by_cases early : attempt + more ≤ 56
  · have grows := Nat.pow_le_pow_right (n := 2) (by decide)
      (show attempt - 1 ≤ attempt + more - 1 by omega)
    rw [small early, small (show attempt ≤ 56 by omega)]
    omega
  · by_cases late : 65 ≤ attempt
    · rw [large late, large (show 65 ≤ attempt + more by omega)]
      omega
    · by_cases across : attempt ≤ 56 ∧ 65 ≤ attempt + more
      · have cut : 2 ^ (attempt - 1) ≤ 2 ^ 3 ↔ attempt ≤ 4 := by
          rw [Nat.pow_le_pow_iff_right (by decide)]
          omega
        rw [small across.1, large across.2, show 8 = 2 ^ 3 from rfl, cut]
        omega
      · omega

theorem backoff_decreases :
    ¬ BackoffSound (30 * 10 ^ 9) 57 57 ∧ computeBackoff (30 * 10 ^ 9) none 57 = none ∧
      computeBackoff (30 * 10 ^ 9) none 5 = some (8 * 10 ^ 9) ∧
      computeBackoff (30 * 10 ^ 9) none 65 = some (4 * 10 ^ 9) := by
  refine ⟨?_, by decide, by decide, by decide⟩
  rintro ⟨_, _, overflows, -⟩
  cases overflows

end EvolutionJmap.Envelope
