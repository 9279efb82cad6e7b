import EvolutionJmap.Client.Url

/-!
# Following redirects (`jmap-client`, `transport.rs` and `url.rs`)

`execute` sends one request and follows the redirects itself, so every request that
leaves is in the log here.  The server chooses every status and every location.
-/

namespace EvolutionJmap.Transport

open Text Url List Nat

/-! ## Redirect targets -/

/-- Whether a URL uses TLS, and the rest of it. Nothing for any other scheme. -/
def splitHttpScheme (url : List Char) : Option (Bool × List Char) :=
  if onTls url then some (true, url.drop 8)
  else if sameIgnoringCase (url.take 7) "http://".toList then some (false, url.drop 7)
  else none

/-- Whether a redirect leaves TLS behind. -/
def downgrades (current next : List Char) : Bool := onTls current && !onTls next

def isSchemeChar (char : Char) : Bool :=
  char.isAlphanum || char = '+' || char = '-' || char = '.'

def beginsWithScheme (url : List Char) : Bool :=
  match splitOnce ':' (url.takeWhile fun char => char ≠ '/' && char ≠ '?' && char ≠ '#') with
  | some (first :: rest, _) => first.isAlpha && rest.all isSchemeChar
  | _ => false

/-- The URL up to the last solidus of its path, if the path has one. -/
def directoryOf (scheme url : List Char) : Option (List Char) :=
  let withoutQuery := url.takeWhile (· ≠ '?')
  let pathStart := scheme.length + 3
  if withoutQuery.length < pathStart then none
  else
    (rsplitOnce '/' (withoutQuery.drop pathStart)).map fun parts =>
      url.take pathStart ++ parts.1 ++ ['/']

def resolveRedirect (current location : List Char) : Except String (List Char) :=
  if (splitHttpScheme location).isSome then .ok location
  else if beginsWithScheme location then
    .error ("unsupported redirect scheme in " ++ String.ofList location)
  else
    match splitScheme current with
    | none => .error "current URL lacks scheme"
    | some (scheme, _) =>
      match location with
      | '/' :: '/' :: network => .ok (scheme ++ "://".toList ++ network)
      | '/' :: path => .ok (origin current ++ '/' :: path)
      | _ =>
        match directoryOf scheme current with
        | some directory => .ok (directory ++ location)
        | none => .ok (current ++ '/' :: location)

/-! ## Requests and answers -/

inductive HttpMethod where
  | get
  | post
  deriving DecidableEq, Repr

structure HttpRequest where
  method : HttpMethod
  url : List Char
  headers : List (String × String)
  body : Option (List UInt8)
  maxResponseBytes : Nat

/-- Why the HTTP library could not read a body. -/
inductive BodyError where
  | exceedsLimit
  | failed (message : String)
  deriving DecidableEq, Repr

/-- What the HTTP library returns for one request. -/
structure Answer where
  status : Nat
  location : Option (List Char) := none
  contentType : Option String := none
  read : Nat → Except BodyError (List UInt8)

structure HttpResponse where
  status : Nat
  contentType : Option String
  body : List UInt8
  finalUrl : List Char
  deriving DecidableEq

inductive TransportError where
  | cancelled
  | failed (message : String)
  | responseTooLarge (limit : Nat)
  deriving DecidableEq, Repr

/-- A request as it leaves. A `GET` has no body. -/
structure Sent where
  url : List Char
  method : HttpMethod
  headers : List (String × String)
  body : Option (List UInt8)
  deriving DecidableEq

def isAuthorization (header : String × String) : Bool := eqIgnoreAsciiCase header.1 "authorization"

def Sent.authorizes (sent : Sent) : Bool := sent.headers.any isAuthorization

/-! ## The loop -/

/-- What the loop changes from one request to the next. -/
structure Hop where
  url : List Char
  method : HttpMethod
  headers : List (String × String)
  deriving DecidableEq

def isRedirect (status : Nat) : Bool := status ∈ [301, 302, 303, 307, 308]

def keepsBody (status : Nat) : Bool := status = 307 || status = 308

def describesBody (header : String × String) : Bool :=
  eqIgnoreAsciiCase header.1 "content-type" || eqIgnoreAsciiCase header.1 "content-length"

/-- The next request of a redirect. Another origin gets neither the credentials nor
the body. -/
def redirect (hop : Hop) (status : Nat) (location : List Char) : Except TransportError Hop :=
  match resolveRedirect hop.url location with
  | .error message => .error (.failed message)
  | .ok url =>
    if downgrades hop.url url then
      .error (.failed ("refused a redirect from TLS to " ++ String.ofList (origin url)))
    else
      let same := sameOrigin hop.url url
      if !same && keepsBody status && hop.method = .post then
        .error (.failed ("refused a " ++ toString status ++ " redirect of a request body to " ++
          String.ofList (origin url)))
      else
        let headers := if same then hop.headers else hop.headers.filter (!isAuthorization ·)
        if !keepsBody status && hop.method = .post then
          .ok ⟨url, .get, headers.filter (!describesBody ·)⟩
        else .ok ⟨url, hop.method, headers⟩

variable {result : Except TransportError HttpResponse}

section

variable (request : HttpRequest) (answers : Nat → Except String Answer) (cancelled : Nat → Bool)

def Hop.sent (hop : Hop) : Sent :=
  ⟨hop.url, hop.method, hop.headers,
    if hop.method = .post then some (request.body.getD []) else none⟩

def finish (hop : Hop) (answer : Answer) : Except TransportError HttpResponse :=
  match answer.read (min (request.maxResponseBytes + 1) (2 ^ 64 - 1)) with
  | .ok body => .ok ⟨answer.status, answer.contentType, body, hop.url⟩
  | .error .exceedsLimit => .error (.responseTooLarge request.maxResponseBytes)
  | .error (.failed message) => .error (.failed message)

/-- The loop with the redirects that are left. It returns what was sent, in order. -/
def follow : (left index : Nat) → Hop → List Sent × Except TransportError HttpResponse
  | left, index, hop =>
    if cancelled index then ([], .error .cancelled)
    else
      match answers index with
      | .error message => ([hop.sent request], .error (.failed message))
      | .ok answer =>
        if isRedirect answer.status then
          match left, answer.location with
          | 0, _ => ([hop.sent request], .error (.failed "too many redirects"))
          | _ + 1, none => ([hop.sent request], finish request hop answer)
          | left + 1, some location =>
            match redirect hop answer.status location with
            | .error error => ([hop.sent request], .error error)
            | .ok next =>
              let (later, result) := follow left (index + 1) next
              (hop.sent request :: later, result)
        else ([hop.sent request], finish request hop answer)

def maxRedirects : Nat := 10

/-- Send a request and follow redirects. -/
def execute : List Sent × Except TransportError HttpResponse :=
  follow request answers cancelled maxRedirects 0 ⟨request.url, request.method, request.headers⟩

end

/-! ## One redirect -/

/-- The request to come may carry credentials. -/
def Hop.authorizes (hop : Hop) : Bool := hop.headers.any isAuthorization

/-- Credentials and body are still with the origin that the caller named. -/
def Guarded (start : List Char) (hop : Hop) : Prop :=
  hop.authorizes = true ∨ hop.method = .post → sameOrigin start hop.url = true

/-- What a redirect can do: it stays on TLS, adds no credentials and no body, and to
another origin it takes neither along. -/
structure Follows (hop next : Hop) : Prop where
  tls : onTls hop.url = true → onTls next.url = true
  credentials : next.authorizes = true → hop.authorizes = true ∧ sameOrigin hop.url next.url = true
  body : next.method = .post → hop.method = .post ∧ sameOrigin hop.url next.url = true

variable {headers : List (String × String)}

theorem any_of_any_filter {keep : String × String → Bool}
    (found : (headers.filter keep).any isAuthorization = true) :
    headers.any isAuthorization = true := by
  rw [any_eq_true] at found ⊢
  obtain ⟨header, mem, isOne⟩ := found
  exact ⟨header, (mem_filter.mp mem).1, isOne⟩

theorem same_of_any {same : Bool}
    (found : (if same then headers else headers.filter (!isAuthorization ·)).any isAuthorization =
      true) : headers.any isAuthorization = true ∧ same = true := by
  cases same with
  | true => exact ⟨found, rfl⟩
  | false =>
    rw [if_neg (by simp), any_eq_true] at found
    obtain ⟨header, mem, isOne⟩ := found
    have other := (mem_filter.mp mem).2
    simp [isOne] at other

theorem redirect_follows {hop next : Hop} {status : Nat} {location : List Char}
    (redirected : redirect hop status location = .ok next) : Follows hop next := by
  rw [redirect] at redirected
  split at redirected
  · cases redirected
  · next url resolved =>
    split at redirected
    · cases redirected
    · next secure =>
      have tls : onTls hop.url = true → onTls url = true := by
        intro onTls
        simpa [downgrades, onTls] using secure
      dsimp only at redirected
      split at redirected
      · cases redirected
      · next allowed =>
        split at redirected
        · cases redirected
          exact ⟨tls, fun found => same_of_any (any_of_any_filter found), nofun⟩
        · next keeps =>
          cases redirected
          refine ⟨tls, same_of_any, fun isPost => ⟨isPost, ?_⟩⟩
          -- the method stays, so the redirect keeps the body
          have isPost : hop.method = .post := isPost
          have keepsBody : keepsBody status = true := by simpa [isPost] using keeps
          simpa [isPost, keepsBody] using allowed

theorem Guarded.follows {start : List Char} {hop next : Hop} (guarded : Guarded start hop)
    (follows : Follows hop next) : Guarded start next := by
  have chain : sameOrigin start hop.url = true → sameOrigin hop.url next.url = true →
      sameOrigin start next.url = true := by
    intro first second
    exact decide_eq_true ((of_decide_eq_true first).trans (of_decide_eq_true second))
  rintro (authorizes | isPost)
  · have before := follows.credentials authorizes
    exact chain (guarded (.inl before.1)) before.2
  · have before := follows.body isPost
    exact chain (guarded (.inr before.1)) before.2

/-! ## The whole chain -/

section

variable {request : HttpRequest} {answers : Nat → Except String Answer} {cancelled : Nat → Bool}

/-- What holds of the requests and the result of a redirect chain. -/
structure Chain (request : HttpRequest) (answers : Nat → Except String Answer) (start : List Char)
    (left index : Nat) (hop : Hop) (log : List Sent)
    (result : Except TransportError HttpResponse) : Prop where
  /-- Credentials and body go only to the origin of the start. -/
  kept : ∀ sent ∈ log, sent.authorizes = true ∨ sent.body.isSome = true →
    sameOrigin start sent.url = true
  /-- Credentials are not sent again once the chain has left the origin. -/
  lost : log.Pairwise fun earlier later =>
    sameOrigin start earlier.url = false → later.authorizes = false
  /-- No request without TLS follows a request with TLS. -/
  secure : log.Pairwise fun earlier later => onTls earlier.url = true → onTls later.url = true
  short : log.length ≤ left + 1
  final : ∀ response, result = .ok response → ∃ last answer, log.getLast? = some last ∧
    answers (index + (log.length - 1)) = .ok answer ∧ response.finalUrl = last.url ∧
    response.status = answer.status ∧ response.contentType = answer.contentType ∧
    answer.read (min (request.maxResponseBytes + 1) (2 ^ 64 - 1)) = .ok response.body
  authorizes : ∀ sent ∈ log, sent.authorizes = true → hop.authorizes = true
  tls : onTls hop.url = true → ∀ sent ∈ log, onTls sent.url = true

theorem finish_ok {hop : Hop} {answer : Answer} {response : HttpResponse}
    (finished : finish request hop answer = .ok response) :
    response.finalUrl = hop.url ∧ response.status = answer.status ∧
      response.contentType = answer.contentType ∧
      answer.read (min (request.maxResponseBytes + 1) (2 ^ 64 - 1)) = .ok response.body := by
  rw [finish] at finished
  split at finished
  · next body isRead =>
    cases finished
    exact ⟨rfl, rfl, rfl, isRead⟩
  · cases finished
  · cases finished

theorem Chain.nil {start : List Char} {left index : Nat} {hop : Hop} {error : TransportError} :
    Chain request answers start left index hop [] (.error error) where
  kept := nofun
  lost := .nil
  secure := .nil
  short := zero_le _
  final := nofun
  authorizes := nofun
  tls _ := nofun

section

variable {start : List Char} {hop : Hop} (guarded : Guarded start hop)

include guarded

theorem Guarded.kept : (hop.sent request).authorizes = true ∨
    (hop.sent request).body.isSome = true →
    sameOrigin start (hop.sent request).url = true := by
  rintro (authorizes | hasBody)
  · exact guarded (.inl authorizes)
  · apply guarded (.inr _)
    by_contra notPost
    simp [Hop.sent, notPost] at hasBody

theorem Chain.single {left index : Nat}
    (final : ∀ response, result = .ok response → ∃ answer, answers index = .ok answer ∧
      finish request hop answer = .ok response) :
    Chain request answers start left index hop [hop.sent request] result where
  kept sent mem := by
    rw [mem_singleton.mp mem]
    exact guarded.kept
  lost := pairwise_singleton _ _
  secure := pairwise_singleton _ _
  short := by simp
  final response isResponse := by
    obtain ⟨answer, answered, finished⟩ := final response isResponse
    exact ⟨_, answer, rfl, answered, finish_ok finished⟩
  authorizes sent mem := by
    rw [mem_singleton.mp mem]
    exact id
  tls secure sent mem := by
    rw [mem_singleton.mp mem]
    exact secure

theorem Chain.cons {left index : Nat} {next : Hop} {log : List Sent} (follows : Follows hop next)
    (chain : Chain request answers start left (index + 1) next log result)
    (answered : ∀ response, result = .ok response → log ≠ []) :
    Chain request answers start (left + 1) index hop (hop.sent request :: log) result where
  kept := by
    rw [forall_mem_cons]
    exact ⟨guarded.kept, chain.kept⟩
  lost := by
    refine pairwise_cons.mpr ⟨fun later mem left => ?_, chain.lost⟩
    -- outside the origin the next request has no credentials, and they never come back
    apply Bool.eq_false_iff.mpr
    intro authorizes
    have before := (follows.credentials (chain.authorizes later mem authorizes)).1
    rw [Hop.sent, guarded (.inl before)] at left
    cases left
  secure := pairwise_cons.mpr
    ⟨fun later mem onTls => chain.tls (follows.tls onTls) later mem, chain.secure⟩
  short := succ_le_succ chain.short
  final response isResponse := by
    obtain ⟨last, answer, isLast, isAnswer, ends⟩ := chain.final response isResponse
    have nonempty := answered response isResponse
    refine ⟨last, answer, ?_, ?_, ends⟩
    · rw [getLast?_cons, isLast]
      rfl
    · have positive := length_pos_iff.mpr nonempty
      rwa [length_cons, Nat.add_sub_cancel, show index + log.length =
        index + 1 + (log.length - 1) by omega]
  authorizes := by
    rw [forall_mem_cons]
    exact ⟨id, fun later mem authorizes =>
      (follows.credentials (chain.authorizes later mem authorizes)).1⟩
  tls onTls := by
    rw [forall_mem_cons]
    exact ⟨onTls, chain.tls (follows.tls onTls)⟩

theorem follow_chain (left index : Nat) :
    Chain request answers start left index hop (follow request answers cancelled left index hop).1
      (follow request answers cancelled left index hop).2 := by
  induction left generalizing index hop with
  | zero =>
    rw [follow]
    split
    · exact .nil
    · split
      · exact .single guarded nofun
      · next answer answered =>
        split
        · exact .single guarded nofun
        · exact .single guarded fun response finished => ⟨answer, answered, finished⟩
  | succ left ih =>
    rw [follow]
    split
    · exact .nil
    · split
      · exact .single guarded nofun
      · next answer answered =>
        split
        · split
          · omega
          · exact .single guarded fun response finished => ⟨answer, answered, finished⟩
          · next fewer location same isLocation =>
            cases same
            split
            · exact .single guarded nofun
            · next next redirected =>
              have follows := redirect_follows redirected
              have chain := ih (guarded.follows follows) (index + 1)
              refine chain.cons guarded follows fun response isResponse => ?_
              obtain ⟨last, -, isLast, -⟩ := chain.final response isResponse
              intro isEmpty
              rw [isEmpty] at isLast
              cases isLast
        · exact .single guarded fun response finished => ⟨answer, answered, finished⟩

end

variable (request answers cancelled) in
/-- Redirect safety. Whatever the server answers, the credentials and the body are
sent only to the origin that the caller named, the credentials are not sent again
once the chain has left it, TLS is never given up, at most eleven requests are sent,
and the response names the URL of the request that it answers. -/
theorem execute_redirectSafe :
    (∀ sent ∈ (execute request answers cancelled).1,
      sent.authorizes = true ∨ sent.body.isSome = true →
        sameOrigin request.url sent.url = true) ∧
    ((execute request answers cancelled).1.Pairwise fun earlier later =>
      sameOrigin request.url earlier.url = false → later.authorizes = false) ∧
    ((execute request answers cancelled).1.Pairwise fun earlier later =>
      onTls earlier.url = true → onTls later.url = true) ∧
    (execute request answers cancelled).1.length ≤ 11 ∧
    ∀ response, (execute request answers cancelled).2 = .ok response →
      ∃ last answer, (execute request answers cancelled).1.getLast? = some last ∧
        answers ((execute request answers cancelled).1.length - 1) = .ok answer ∧
        response.finalUrl = last.url ∧ response.status = answer.status ∧
        response.contentType = answer.contentType ∧
        answer.read (min (request.maxResponseBytes + 1) (2 ^ 64 - 1)) = .ok response.body := by
  have guarded : Guarded request.url ⟨request.url, request.method, request.headers⟩ :=
    fun _ => decide_eq_true rfl
  have chain := @follow_chain request answers cancelled _ _ guarded maxRedirects 0
  refine ⟨chain.kept, chain.lost, chain.secure, chain.short, fun response isResponse => ?_⟩
  have final := chain.final response isResponse
  rwa [zero_add] at final

end

/-- A redirect to another host drops the credentials, also when the chain comes back. -/
example :
    ((execute ⟨.get, "https://a.example/".toList, [("Authorization", "Bearer t")], none, 100⟩
      (fun index => .ok
        { status := if index < 2 then 302 else 200
          location := [some "//b.example/x".toList, some "https://a.example/y".toList,
            none].getD index none
          read := fun _ => .ok [] })
      fun _ => false).1.map fun sent => (String.ofList sent.url, sent.authorizes)) =
    [("https://a.example/", true), ("https://b.example/x", false),
      ("https://a.example/y", false)] := by
  decide +kernel

end EvolutionJmap.Transport
