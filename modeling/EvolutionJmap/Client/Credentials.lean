import EvolutionJmap.Client.Url

/-!
# Where the credentials go (`jmap-client`, `client.rs`; `jmap-backend-core`, `push.rs`)

The HTTP requests of a client that knows the `Authorization` header: those that
`executeWithin` builds, and those of the event source subscriptions.  `Client` is
one client over its life; the server decides the session document.
-/

namespace EvolutionJmap.Credentials

open EvolutionJmap.Text EvolutionJmap.Url List Option

structure SessionDocument where
  apiUrl : List Char
  downloadUrl : List Char
  uploadUrl : List Char
  eventSourceUrl : List Char

structure HttpRequest where
  url : List Char
  headers : List (String × String)
  deriving DecidableEq

/-- The request has an `Authorization` header. -/
def HttpRequest.carriesCredentials (request : HttpRequest) : Bool :=
  request.headers.any fun header => eqIgnoreAsciiCase header.1 "authorization"

/-- A push subscription. It sends its headers at every connection attempt. -/
structure Subscription where
  url : List Char
  headers : List (String × String)

/-- The client and what it keeps. -/
structure Client where
  sessionUrl : List Char
  authorization : Option String
  session : Option SessionDocument
  rebaseTo : Option (List Char)
  subscriptions : List Subscription

variable {url : List Char} {other : Client}

namespace Client

variable (loopbackAddress : List Char → Bool)
  (percentEncode : (Char → Bool) → List Char → List Char) (client : Client)

def authorizationHeaders : List (String × String) :=
  (client.authorization.map fun value => ("Authorization", value)).toList

def executeWithin (url : List Char) (accept : String) (contentType : Option String) :
    HttpRequest where
  url := url
  headers :=
    [("Accept", accept)] ++ (contentType.map fun value => ("Content-Type", value)).toList ++
      if sameOrigin client.sessionUrl url && (onTls url || isLoopback loopbackAddress url) then
        client.authorizationHeaders
      else []

/-- The endpoints of a session on the configured origin. -/
def rebased (session : SessionDocument) : SessionDocument :=
  match client.rebaseTo with
  | none => session
  | some origin =>
    { apiUrl := rebaseOrigin session.apiUrl origin
      downloadUrl := rebaseOrigin session.downloadUrl origin
      uploadUrl := rebaseOrigin session.uploadUrl origin
      eventSourceUrl := rebaseOrigin session.eventSourceUrl origin }

/-- `refresh_session` with the answer of the server: where a redirect ended, and the
document. -/
def refreshSession (finalUrl : List Char) (document : SessionDocument) : Client :=
  let session := client.rebased document
  if sameOrigin client.sessionUrl finalUrl &&
      [session.apiUrl, session.downloadUrl, session.uploadUrl, session.eventSourceUrl].all
        (mayCarryCredentials loopbackAddress client.sessionUrl) then
    { client with session := some session }
  else client

def eventSourceTemplate : Option (List Char) :=
  (client.session.map fun session => trim session.eventSourceUrl).filter fun template =>
    !template.isEmpty

def subscribe (template : List Char) (types : List (List Char)) (pingSeconds : Nat) :
    Subscription :=
  ⟨expandUrl percentEncode template types false pingSeconds, client.authorizationHeaders⟩

/-- The interval that the backends ask for. -/
def pingSeconds : Nat := 120

/-- What can happen to a client. -/
inductive Step where
  /-- Any request through `execute_within`. -/
  | execute (url : List Char) (accept : String) (contentType : Option String)
  | refreshSession (finalUrl : List Char) (document : SessionDocument)
  | setCredentials (authorization : Option String)
  /-- `event_source_with_timeouts`. -/
  | eventSource (types : List (List Char))
  /-- `start_for_with`. -/
  | push (types : List (List Char))
  /-- Give a subscription the current header (`set_headers`). -/
  | renew (index : Nat)
  /-- A subscription connects again. -/
  | reconnect (index : Nat)

/-- Open a subscription. The first connection is made at once. -/
def opened (subscription : Subscription) : List HttpRequest × Client :=
  ([⟨subscription.url, subscription.headers⟩],
    { client with subscriptions := client.subscriptions ++ [subscription] })

def openAll (types : List (List Char)) (pingSeconds : Nat) : List HttpRequest × Client :=
  match client.eventSourceTemplate with
  | some template => client.opened (client.subscribe percentEncode template types pingSeconds)
  | none => ([], client)

def step : Step → List HttpRequest × Client
  | .execute url accept contentType =>
    ([client.executeWithin loopbackAddress url accept contentType], client)
  | .refreshSession finalUrl document =>
    ([client.executeWithin loopbackAddress client.sessionUrl "application/json" none],
      client.refreshSession loopbackAddress finalUrl document)
  | .setCredentials authorization => ([], { client with authorization := authorization })
  | .eventSource types => client.openAll percentEncode types 0
  | .push types => client.openAll percentEncode types pingSeconds
  | .renew index =>
    ([], { client with
      subscriptions := client.subscriptions.modify index fun subscription =>
        { subscription with headers := client.authorizationHeaders } })
  | .reconnect index =>
    ((client.subscriptions[index]?.map fun subscription =>
      (⟨subscription.url, subscription.headers⟩ : HttpRequest)).toList, client)

/-- The requests of a whole run. -/
def run (client : Client) : List Step → List HttpRequest
  | [] => []
  | step :: steps =>
    let made := client.step loopbackAddress percentEncode step
    made.1 ++ run made.2 steps

/-- The request goes to the origin of the session, over TLS or to this machine. -/
def SafeUrl (url : List Char) : Prop :=
  sameOrigin client.sessionUrl url = true ∧
    (onTls url = true ∨ isLoopback loopbackAddress url = true)

instance (url : List Char) : Decidable (client.SafeUrl loopbackAddress url) :=
  inferInstanceAs (Decidable (_ ∧ (_ ∨ _)))

/-- A template of the event source on the origin of the session: it has a host, no
variable before its path, and uses TLS or a loopback host. -/
def SafeTemplate (template : List Char) : Prop :=
  ∃ scheme rest, splitScheme template = some (scheme, rest) ∧
    (originOf scheme (authority rest)).isSome = true ∧
    (∀ char ∈ beforePath template, char ≠ '{' ∧ char ≠ '?') ∧
    client.SafeUrl loopbackAddress (beforePath template)

/-- A step opens no event source, or one with a safe template. -/
def Guarded : Step → Prop
  | .eventSource _ | .push _ => ∀ template, client.eventSourceTemplate = some template →
      client.SafeTemplate loopbackAddress template
  | _ => True

/-- Every step of a run is guarded. -/
def AllGuarded (client : Client) : List Step → Prop
  | [] => True
  | step :: steps => client.Guarded loopbackAddress step ∧
      AllGuarded (client.step loopbackAddress percentEncode step).2 steps

/-! ## Every run -/

variable {loopbackAddress} {percentEncode} {client}

theorem executeWithin_safe {accept : String} {contentType : Option String}
    (carries : (client.executeWithin loopbackAddress url accept contentType).carriesCredentials =
      true) : client.SafeUrl loopbackAddress url := by
  have accepts : eqIgnoreAsciiCase "Accept" "authorization" = false := by decide
  have typed : eqIgnoreAsciiCase "Content-Type" "authorization" = false := by decide
  have plain : ∀ value : Option String, (value.map fun value => ("Content-Type", value)).toList.any
      (fun header => eqIgnoreAsciiCase header.1 "authorization") = false := by
    intro value
    cases value <;> simp [typed]
  simp only [executeWithin, HttpRequest.carriesCredentials, any_append, plain, any_cons,
    accepts, any_nil, Bool.false_or] at carries
  split at carries
  · next safe =>
    rw [Bool.and_eq_true, Bool.or_eq_true] at safe
    exact safe
  · cases carries

theorem SafeTemplate.expandUrl {template : List Char}
    (safe : client.SafeTemplate loopbackAddress template) (types : List (List Char))
    (closeAfterState : Bool) (pingSeconds : Nat) :
    client.SafeUrl loopbackAddress
      (Url.expandUrl percentEncode template types closeAfterState pingSeconds) := by
  obtain ⟨scheme, rest, parts, hosted, plain, sameBase, secure⟩ := safe
  obtain ⟨isTemplate, again⟩ := splitScheme_eq parts
  have base : beforePath template = scheme ++ "://".toList ++ authority rest := by
    rw [beforePath, parts]
  rw [base] at plain sameBase secure
  have isWhole : template = (scheme ++ "://".toList ++ authority rest) ++
      rest.dropWhile (fun char => !endsAuthority char) := by
    rw [isTemplate, append_assoc, append_assoc, append_assoc, authority,
      takeWhile_append_dropWhile]
  have ends : ∀ char ∈ (rest.dropWhile fun char => !endsAuthority char).head?,
      endsAuthority char = true := by
    intro char isFirst
    have first := head?_dropWhile_not (fun char => !endsAuthority char) rest
    rw [mem_def.mp isFirst] at first
    simpa using first
  obtain ⟨tail, isUrl, tailEnds⟩ := expandUrl_append plain ends types closeAfterState pingSeconds
  rw [isWhole, isUrl]
  constructor
  · rw [sameOrigin, decide_eq_true_eq] at sameBase ⊢
    rw [sameBase, append_assoc _ (authority rest), origin_append again hosted tailEnds]
  · rcases secure with tls | loopback
    · exact .inl (onTls_append tls _)
    · rw [append_assoc _ (authority rest), isLoopback_append again tailEnds]
      exact .inr loopback

/-- Every subscription goes to a safe URL. -/
def Inv (client : Client) (loopbackAddress : List Char → Bool) : Prop :=
  ∀ subscription ∈ client.subscriptions, client.SafeUrl loopbackAddress subscription.url

/-- What a step has to do: its requests are safe, the session URL stays, and the
subscriptions stay safe. -/
def Keeps (client : Client) (loopbackAddress : List Char → Bool)
    (made : List HttpRequest × Client) : Prop :=
  (∀ request ∈ made.1, request.carriesCredentials = true →
    client.SafeUrl loopbackAddress request.url) ∧
  made.2.sessionUrl = client.sessionUrl ∧ made.2.Inv loopbackAddress

theorem SafeUrl.congr (safe : client.SafeUrl loopbackAddress url)
    (same : other.sessionUrl = client.sessionUrl) : other.SafeUrl loopbackAddress url := by
  rw [SafeUrl, same]
  exact safe

section

variable (inv : client.Inv loopbackAddress)

include inv

theorem Inv.congr (same : other.sessionUrl = client.sessionUrl)
    (subscriptions : ∀ subscription ∈ other.subscriptions, ∃ earlier ∈ client.subscriptions,
      earlier.url = subscription.url) : other.Inv loopbackAddress := by
  intro subscription mem
  obtain ⟨earlier, isEarlier, sameUrl⟩ := subscriptions subscription mem
  exact sameUrl ▸ (inv earlier isEarlier).congr same

theorem openAll_keeps {types : List (List Char)}
    (guarded : ∀ template, client.eventSourceTemplate = some template →
      client.SafeTemplate loopbackAddress template) (pingSeconds : Nat) :
    client.Keeps loopbackAddress (client.openAll percentEncode types pingSeconds) := by
  rw [openAll]
  split
  · next template isTemplate =>
    have safe := @SafeTemplate.expandUrl _ percentEncode _ _ (guarded template isTemplate) types
      false pingSeconds
    refine ⟨?_, rfl, ?_⟩
    · intro request mem _
      rw [mem_singleton.mp mem]
      exact safe
    · intro subscription mem
      rcases mem_append.mp mem with earlier | new
      · exact inv subscription earlier
      · rw [mem_singleton.mp new]
        exact safe
  · exact ⟨nofun, rfl, inv⟩

theorem step_keeps {step : Step} (guarded : client.Guarded loopbackAddress step) :
    client.Keeps loopbackAddress (client.step loopbackAddress percentEncode step) := by
  have same : ∀ subscription ∈ client.subscriptions, ∃ earlier ∈ client.subscriptions,
      earlier.url = subscription.url := fun subscription mem => ⟨subscription, mem, rfl⟩
  cases step with
  | execute url accept contentType =>
    refine ⟨?_, rfl, inv⟩
    intro request mem carries
    rw [mem_singleton.mp mem] at carries ⊢
    exact executeWithin_safe carries
  | refreshSession finalUrl document =>
    refine ⟨?_, ?_, ?_⟩
    · intro request mem carries
      rw [mem_singleton.mp mem] at carries ⊢
      exact executeWithin_safe carries
    · simp only [Client.step, refreshSession]
      split <;> rfl
    · simp only [Client.step, refreshSession]
      split
      · exact inv.congr rfl same
      · exact inv
  | setCredentials authorization => exact ⟨nofun, rfl, inv.congr rfl same⟩
  | eventSource types => exact openAll_keeps inv guarded 0
  | push types => exact openAll_keeps inv guarded pingSeconds
  | renew index =>
    refine ⟨nofun, rfl, inv.congr rfl ?_⟩
    intro subscription mem
    obtain ⟨position, found⟩ := mem_iff_getElem?.mp mem
    simp only [Client.step, getElem?_modify, Option.map_eq_map, Option.map_eq_some_iff]
      at found
    obtain ⟨earlier, isEarlier, rfl⟩ := found
    refine ⟨earlier, mem_of_getElem? isEarlier, ?_⟩
    split <;> rfl
  | reconnect index =>
    refine ⟨?_, rfl, inv⟩
    intro request mem _
    simp only [Client.step, mem_toList, Option.map_eq_some_iff] at mem
    obtain ⟨subscription, isOne, rfl⟩ := mem
    exact inv subscription (mem_of_getElem? isOne)

end

theorem run_safe {steps : List Step} :
    ∀ {client : Client}, client.Inv loopbackAddress →
      client.AllGuarded loopbackAddress percentEncode steps →
      ∀ request ∈ client.run loopbackAddress percentEncode steps,
        request.carriesCredentials = true →
        client.SafeUrl loopbackAddress request.url := by
  induction steps with
  | nil => exact fun _ _ => nofun
  | cons step steps ih =>
    intro client inv guarded request mem carries
    obtain ⟨safe, sameUrl, next⟩ := step_keeps inv guarded.1
    rcases mem_append.mp mem with here | later
    · exact safe request here carries
    · exact (ih next guarded.2 request later carries).congr sameUrl.symm

/-- In every run whose event sources have safe templates, a request with credentials
goes to the origin of the session, over TLS or to a loopback host. -/
theorem credentials_stay {steps : List Step} (fresh : client.subscriptions = [])
    (guarded : client.AllGuarded loopbackAddress percentEncode steps) :
    ∀ request ∈ client.run loopbackAddress percentEncode steps, request.carriesCredentials = true →
      client.SafeUrl loopbackAddress request.url := by
  refine run_safe ?_ guarded
  intro subscription mem
  rw [fresh] at mem
  cases mem

def ofServer : Client :=
  { sessionUrl := "https://mail.example.com/.well-known/jmap".toList
    authorization := some "Bearer token"
    session := none
    rebaseTo := none
    subscriptions := [] }

def documentWith (eventSourceUrl : String) : SessionDocument :=
  { apiUrl := "https://mail.example.com/api".toList
    downloadUrl := "https://mail.example.com/download".toList
    uploadUrl := "https://mail.example.com/upload".toList
    eventSourceUrl := eventSourceUrl.toList }

def listening (eventSourceUrl : String) : List Step :=
  [.refreshSession ofServer.sessionUrl (documentWith eventSourceUrl),
    .eventSource ["Email".toList], .reconnect 0]

/-- The encoding of a text in which every character is kept. -/
def keepAll (_ : Char → Bool) (text : List Char) : List Char := text

theorem credentials_stay_ownEventSource :
    (ofServer.run (fun _ => false) keepAll
        (listening "https://mail.example.com/es?types={types}")).length = 3 ∧
    ∀ request ∈ ofServer.run (fun _ => false) keepAll
        (listening "https://mail.example.com/es?types={types}"),
      request.carriesCredentials = true → ofServer.SafeUrl (fun _ => false) request.url := by
  refine ⟨by decide +kernel, credentials_stay rfl ⟨trivial, ?_, trivial, trivial⟩⟩
  intro template isTemplate
  cases isTemplate
  refine ⟨"https".toList, "mail.example.com/es?types={types}".toList, ?_, ?_, ?_, ?_⟩
  case refine_3 => exact @of_decide_eq_true _ (List.decidableBAll _ _) (by decide +kernel)
  all_goals decide +kernel

/-- An event source on another host gets the credentials of the session. -/
theorem credentials_sent_elsewhere :
    ∃ request ∈ ofServer.run (fun _ => false) keepAll
        (listening "https://elsewhere.example.net/es?types={types}"),
      request.url = "https://elsewhere.example.net/es?types=Email".toList ∧
      request.carriesCredentials = true ∧ ¬ ofServer.SafeUrl (fun _ => false) request.url := by
  refine ⟨⟨"https://elsewhere.example.net/es?types=Email".toList,
    [("Authorization", "Bearer token")]⟩, ?_, rfl, ?_, ?_⟩
  all_goals decide +kernel

end Client

end EvolutionJmap.Credentials
