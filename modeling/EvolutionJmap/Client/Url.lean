import EvolutionJmap.Digits

/-!
# URLs and their origin (`jmap-client`, `url.rs` and `eventsource.rs`)

The origin of a URL is read from the scheme and the authority, which ends at the first
`/`, `?`, `#` or `\`.  `expandUrl` fills in the template of the event source; what it
writes behind the authority leaves the origin alone.
-/

namespace EvolutionJmap.Url

open EvolutionJmap.Text List

/-- The text before and after the first `://`. -/
def splitScheme : List Char → Option (List Char × List Char)
  | ':' :: '/' :: '/' :: rest => some ([], rest)
  | [] => none
  | char :: rest => (splitScheme rest).map fun parts => (char :: parts.1, parts.2)

def endsAuthority (char : Char) : Bool := char = '/' || char = '?' || char = '#' || char = '\\'

def authority (rest : List Char) : List Char := rest.takeWhile fun char => !endsAuthority char

/-- The text before and after the last `separator` (`rsplit_once`). -/
def rsplitOnce (separator : Char) (text : List Char) : Option (List Char × List Char) :=
  (splitOnce separator text.reverse).map fun parts => (parts.2.reverse, parts.1.reverse)

def hostPort (authority : List Char) : List Char :=
  ((rsplitOnce '@' authority).map Prod.snd).getD authority

def lowercase (text : List Char) : List Char := text.map Char.toLower

/-- Compare without ASCII case (`eq_ignore_ascii_case`). -/
def sameIgnoringCase (left right : List Char) : Bool := lowercase left = lowercase right

/-- The host with its brackets, if it has some, and the port behind it. Brackets that
are not closed give nothing. -/
def splitHost (hostPort : List Char) : Option (List Char × Option (List Char)) :=
  match hostPort with
  | '[' :: _ =>
    (splitOnce ']' hostPort).map fun parts =>
      (parts.1 ++ [']'], stripFirst (· = ':') parts.2)
  | _ =>
    match rsplitOnce ':' hostPort with
    | some (host, port) => some (host, some port)
    | none => some (hostPort, none)

def defaultPort (scheme : List Char) : Option (List Char) :=
  if sameIgnoringCase scheme "http".toList then some "80".toList
  else if sameIgnoringCase scheme "https".toList then some "443".toList
  else none

def withoutRootDot (host : List Char) : List Char :=
  match host.reverse with
  | '.' :: '.' :: _ => host
  | ['.'] => host
  | '.' :: rest => rest.reverse
  | _ => host

def hasUppercase (text : List Char) : Bool := text.any Char.isUpper

def originOf (scheme authority : List Char) : Option (List Char) :=
  match splitHost (hostPort authority) with
  | none => none
  | some (host, port) =>
    if host.isEmpty then none
    else
      let normalizedHost := withoutRootDot host
      let normalizedPort := port.filter fun port =>
        !port.isEmpty && decide (defaultPort scheme ≠ some port)
      if !hasUppercase scheme && !hasUppercase normalizedHost && normalizedHost = host &&
          port = normalizedPort && (hostPort authority).length = authority.length then
        some (scheme ++ "://".toList ++ authority)
      else
        let start := lowercase scheme ++ "://".toList ++ lowercase normalizedHost
        match normalizedPort with
        | some port => some (start ++ ':' :: port)
        | none => some start

/-- The scheme, host and port of a URL. A value that is not an absolute URL comes back
unchanged. -/
def origin (url : List Char) : List Char :=
  match splitScheme url with
  | none => url
  | some (scheme, rest) => (originOf scheme (authority rest)).getD url

def sameOrigin (left right : List Char) : Bool := origin left = origin right

def onTls (url : List Char) : Bool := sameIgnoringCase (url.take 8) "https://".toList

/-- The host for the loopback test, without brackets. -/
def plainHost (hostPort : List Char) : Option (List Char) :=
  match hostPort with
  | '[' :: bracketed => (splitOnce ']' bracketed).map Prod.fst
  | _ => some (((rsplitOnce ':' hostPort).map Prod.fst).getD hostPort)

section Loopback

/- Whether a host is the text of a loopback address (`IpAddr`). -/
variable (loopbackAddress : List Char → Bool)

def isLoopback (url : List Char) : Bool :=
  match splitScheme url with
  | none => false
  | some (_, rest) =>
    match plainHost (hostPort (authority rest)) with
    | none => false
    | some host =>
      let host := (stripLast (· = '.') host).getD host
      sameIgnoringCase host "localhost".toList ||
        sameIgnoringCase host "localhost.localdomain".toList || loopbackAddress host

def mayCarryCredentials (sessionUrl endpoint : List Char) : Bool :=
  endpoint.isEmpty || onTls endpoint || isLoopback loopbackAddress endpoint ||
    (!onTls sessionUrl && sameOrigin sessionUrl endpoint)

end Loopback

def rebaseOrigin (url origin : List Char) : List Char :=
  if url.isEmpty then []
  else
    let base := trimEnd (· = '/') origin
    match splitScheme url with
    | some (_, rest) =>
      match rest.dropWhile fun char => !endsAuthority char with
      | [] => base
      | '/' :: path => base ++ '/' :: path
      | tail => base ++ '/' :: tail
    | none =>
      match url with
      | '/' :: path => base ++ '/' :: path
      | _ => base ++ '/' :: url

/-! ## The template of the event source -/

/-- Characters that a query value keeps: the unreserved ones, `,` and `*`. -/
def keptInQuery (char : Char) : Bool :=
  char.isAlphanum || char = '-' || char = '.' || char = '_' || char = '~' || char = ',' ||
    char = '*'

/-- The text with every `pattern` replaced, from the left (`str::replace`). The first
argument counts the characters of a pattern that is already replaced. -/
def replaceFrom (pattern value : List Char) : Nat → List Char → List Char
  | _, [] => []
  | skip + 1, _ :: rest => replaceFrom pattern value skip rest
  | 0, char :: rest =>
    if pattern.isPrefixOf (char :: rest) then
      value ++ replaceFrom pattern value (pattern.length - 1) rest
    else char :: replaceFrom pattern value 0 rest

def replaceAll (pattern value text : List Char) : List Char := replaceFrom pattern value 0 text

def containsPattern (pattern text : List Char) : Bool := text.tails.any pattern.isPrefixOf

/-- Fill in one variable, and note whether any was filled in. -/
def substitute (state : List Char × Bool) (entry : List Char × List Char) : List Char × Bool :=
  if containsPattern entry.1 state.1 then (replaceAll entry.1 entry.2 state.1, true) else state

/-- Expand the template of the event source (RFC 8620 §7.3). `percentEncode` is
`utf8_percent_encode`, with the characters that it keeps. -/
def expandUrl (percentEncode : (Char → Bool) → List Char → List Char) (template : List Char)
    (types : List (List Char)) (closeAfterState : Bool)
    (pingSeconds : Nat) : List Char :=
  let names := percentEncode keptInQuery
    (if types.isEmpty then "*".toList else (types.intersperse [',']).flatten)
  let closeAfter := if closeAfterState then "state".toList else "no".toList
  let ping := (toString pingSeconds).toList
  let expanded := [("{types}".toList, names), ("{closeafter}".toList, closeAfter),
    ("{ping}".toList, ping)].foldl substitute (template, false)
  if expanded.2 then expanded.1
  else
    expanded.1 ++ (if '?' ∈ expanded.1 then '&' else '?') ::
      ("types=".toList ++ names ++ "&closeafter=".toList ++ closeAfter ++ "&ping=".toList ++ ping)

/-! ## What decides the origin -/

/-- The scheme, `://` and the authority. -/
def beforePath (url : List Char) : List Char :=
  match splitScheme url with
  | none => url
  | some (scheme, rest) => scheme ++ "://".toList ++ authority rest

theorem splitScheme_eq {url scheme rest : List Char}
    (parts : splitScheme url = some (scheme, rest)) :
    url = scheme ++ "://".toList ++ rest ∧
      ∀ other, splitScheme (scheme ++ "://".toList ++ other) = some (scheme, other) := by
  induction url using splitScheme.induct generalizing scheme with
  | case1 rest' =>
    cases parts
    exact ⟨rfl, fun _ => rfl⟩
  | case2 => cases parts
  | case3 char tail notHere ih =>
    rw [splitScheme] at parts
    · obtain ⟨⟨front, back⟩, inner, same⟩ := Option.map_eq_some_iff.mp parts
      cases same
      obtain ⟨isTail, again⟩ := ih inner
      refine ⟨by rw [isTail]; rfl, fun other => ?_⟩
      have continues : splitScheme (char :: (front ++ "://".toList ++ other)) =
          (splitScheme (front ++ "://".toList ++ other)).map fun parts =>
            (char :: parts.1, parts.2) := by
        rw [splitScheme]
        intro rest isColon starts
        rcases front with _ | ⟨first, _ | ⟨second, more⟩⟩
        · cases starts
        · simp at starts
        · rw [cons_append, cons_append, cons_append, cons_append,
            List.cons.injEq, List.cons.injEq] at starts
          apply notHere (more ++ "://".toList ++ back) isColon
          rw [isTail, starts.1, starts.2.1]
          rfl
      rw [cons_append, cons_append, continues, again]
      rfl
    · exact notHere

theorem authority_append {front tail : List Char}
    (plain : ∀ char ∈ front, endsAuthority char = false)
    (ends : ∀ char ∈ tail.head?, endsAuthority char = true) :
    authority (front ++ tail) = front := by
  rw [authority, takeWhile_append_of_pos (by simpa using plain)]
  cases tail with
  | nil => simp
  | cons char rest =>
    rw [takeWhile_cons, ends char rfl]
    simp

theorem authority_plain (rest : List Char) :
    ∀ char ∈ authority rest, endsAuthority char = false := by
  intro char mem
  simpa using all_eq_true.mp all_takeWhile char mem

theorem authority_authority (rest : List Char) : authority (authority rest) = authority rest := by
  have appended := @authority_append _ [] (authority_plain rest) nofun
  rwa [append_nil] at appended

section

variable {scheme rest tail : List Char}
  (parts : ∀ other, splitScheme (scheme ++ "://".toList ++ other) = some (scheme, other))

include parts

theorem origin_append (hosted : (originOf scheme (authority rest)).isSome = true)
    (ends : ∀ char ∈ tail.head?, endsAuthority char = true) :
    origin (scheme ++ "://".toList ++ (authority rest ++ tail)) =
      origin (scheme ++ "://".toList ++ authority rest) := by
  have same : authority (authority rest ++ tail) = authority rest :=
    authority_append (authority_plain rest) ends
  rw [origin, origin, parts, parts]
  simp only [same, authority_authority]
  obtain ⟨value, isValue⟩ := Option.isSome_iff_exists.mp hosted
  rw [isValue]
  rfl

theorem isLoopback_append {loopbackAddress : List Char → Bool}
    (ends : ∀ char ∈ tail.head?, endsAuthority char = true) :
    isLoopback loopbackAddress (scheme ++ "://".toList ++ (authority rest ++ tail)) =
      isLoopback loopbackAddress (scheme ++ "://".toList ++ authority rest) := by
  rw [isLoopback, isLoopback, parts, parts]
  simp only [authority_append (authority_plain rest) ends, authority_authority]

end

theorem onTls_append {front : List Char} (secure : onTls front = true) (tail : List Char) :
    onTls (front ++ tail) = true := by
  have long : 8 ≤ front.length := by
    have lengths := congrArg List.length (of_decide_eq_true secure)
    simp only [lowercase, length_map, length_take] at lengths
    have eight : "https://".toList.length = 8 := rfl
    omega
  rw [onTls, take_append_of_le_length long]
  exact secure

/-! ## What the expansion leaves alone -/

section Expansion

variable {pattern value front tail : List Char}

theorem replaceAll_append (starts : pattern.head? = some '{')
    (plain : ∀ char ∈ front, char ≠ '{') :
    replaceAll pattern value (front ++ tail) = front ++ replaceAll pattern value tail := by
  induction front with
  | nil => rfl
  | cons char front ih =>
    rw [forall_mem_cons] at plain
    have other : pattern.isPrefixOf (char :: (front ++ tail)) = false := by
      cases pattern with
      | nil => cases starts
      | cons first pattern =>
        cases starts
        simp [List.isPrefixOf, Ne.symm plain.1]
    rw [cons_append, replaceAll, replaceFrom, other]
    exact congrArg (char :: ·) (ih plain.2)

theorem head?_replaceAll (starts : pattern.head? = some '{')
    (ends : ∀ char ∈ tail.head?, endsAuthority char = true) :
    (replaceAll pattern value tail).head? = tail.head? := by
  cases tail with
  | nil => rfl
  | cons char rest =>
    have plain : ∀ first ∈ [char], first ≠ '{' := by
      intro first mem same
      have delimiter := ends char rfl
      rw [← mem_singleton.mp mem, same] at delimiter
      cases delimiter
    have kept := @replaceAll_append pattern value [char] rest starts plain
    rw [singleton_append] at kept
    rw [kept]
    rfl

/-- Filling in a variable changes only what is behind the authority. -/
theorem substitute_append {entry : List Char × List Char} (starts : entry.1.head? = some '{')
    (plain : ∀ char ∈ front, char ≠ '{')
    (ends : ∀ char ∈ tail.head?, endsAuthority char = true) (done : Bool) :
    ∃ rest, (substitute (front ++ tail, done) entry).1 = front ++ rest ∧
      rest.head? = tail.head? := by
  rw [substitute]
  split
  · exact ⟨_, replaceAll_append starts plain, head?_replaceAll starts ends⟩
  · exact ⟨tail, rfl, rfl⟩

theorem foldl_substitute_append {entries : List (List Char × List Char)}
    (starts : ∀ entry ∈ entries, entry.1.head? = some '{')
    (plain : ∀ char ∈ front, char ≠ '{') :
    ∀ {tail : List Char} {done : Bool}, (∀ char ∈ tail.head?, endsAuthority char = true) →
      ∃ rest, (entries.foldl substitute (front ++ tail, done)).1 = front ++ rest ∧
        rest.head? = tail.head? := by
  induction entries with
  | nil => exact fun _ => ⟨_, rfl, rfl⟩
  | cons entry entries ih =>
    intro tail done ends
    rw [forall_mem_cons] at starts
    obtain ⟨middle, isMiddle, middleHead⟩ := substitute_append starts.1 plain ends done
    have same : substitute (front ++ tail, done) entry =
        (front ++ middle, (substitute (front ++ tail, done) entry).2) := by
      rw [← isMiddle]
    rw [foldl_cons, same]
    obtain ⟨rest, isRest, restHead⟩ := ih starts.2 (middleHead ▸ ends)
    exact ⟨rest, isRest, restHead.trans middleHead⟩

theorem expandUrl_append {percentEncode : (Char → Bool) → List Char → List Char}
    (plain : ∀ char ∈ front, char ≠ '{' ∧ char ≠ '?')
    (ends : ∀ char ∈ tail.head?, endsAuthority char = true) (types : List (List Char))
    (closeAfterState : Bool) (pingSeconds : Nat) :
    ∃ rest, expandUrl percentEncode (front ++ tail) types closeAfterState pingSeconds =
      front ++ rest ∧
      ∀ char ∈ rest.head?, endsAuthority char = true := by
  simp only [expandUrl]
  generalize percentEncode keptInQuery _ = names
  generalize (if closeAfterState = true then "state".toList else "no".toList) = closeAfter
  rcases @foldl_substitute_append front [("{types}".toList, names),
    ("{closeafter}".toList, closeAfter), ("{ping}".toList, (toString pingSeconds).toList)]
    (by simp) (fun char mem => (plain char mem).1) tail false ends with
    ⟨middle, isMiddle, middleHead⟩
  have middleEnds : ∀ char ∈ middle.head?, endsAuthority char = true := middleHead ▸ ends
  split
  · exact ⟨middle, isMiddle, middleEnds⟩
  · rw [isMiddle, append_assoc]
    refine ⟨_, rfl, ?_⟩
    cases middle with
    | cons char rest => exact middleEnds
    | nil =>
      have noQuery : '?' ∉ front ++ [] := by
        rw [append_nil]
        exact fun mem => (plain '?' mem).2 rfl
      rw [if_neg noQuery]
      intro char isFirst
      cases isFirst
      rfl

end Expansion

/-! ## Canonical origins -/

def portText (port : Option (List Char)) : List Char := port.elim [] (':' :: ·)

def normalPort (scheme : List Char) (port : Option (List Char)) : Option (List Char) :=
  port.filter fun port => !port.isEmpty && decide (defaultPort scheme ≠ some port)

def effectivePort (scheme : List Char) (port : Option (List Char)) : Option (List Char) :=
  (port.filter fun port => !port.isEmpty).or (defaultPort scheme)

/-- The parts of an HTTP URL with a host. Nothing but a port stands behind the brackets of
a host, and a host with a colon has a port that its origin keeps. -/
structure Located where
  scheme : List Char
  user : List Char
  host : List Char
  port : Option (List Char)
  tail : List Char
  http : lowercase scheme = "http".toList ∨ lowercase scheme = "https".toList
  userEnds : user = [] ∨ ∃ name, user = name ++ ['@']
  named : host ≠ []
  shaped : (∃ inner, host = '[' :: inner ++ [']'] ∧ ']' ∉ inner) ∨
    host.head? ≠ some '[' ∧ (∀ text ∈ port, ':' ∉ text) ∧
      (normalPort scheme port = none → ':' ∉ host)
  noAt : '@' ∉ host ++ portText port
  plain : ∀ char ∈ user ++ (host ++ portText port), endsAuthority char = false
  ends : ∀ char ∈ tail.head?, endsAuthority char = true

def Located.url (parts : Located) : List Char :=
  parts.scheme ++ "://".toList ++
    ((parts.user ++ (parts.host ++ portText parts.port)) ++ parts.tail)

def readOrigin (url : List Char) : Option (List Char) :=
  (splitScheme url).bind fun parts => originOf parts.1 (authority parts.2)

theorem origin_eq (url : List Char) : origin url = (readOrigin url).getD url := by
  rw [origin, readOrigin]
  cases splitScheme url <;> rfl

variable {char : Char} {text : List Char}

theorem mem_lowercase (early : char.toNat < 97) (mem : char ∈ lowercase text) : char ∈ text := by
  obtain ⟨other, inText, rfl⟩ := mem_map.mp mem
  have same : other.toLower = other := by
    apply Char.toNat_inj.mp
    rw [toNat_toLower] at early ⊢
    grind
  rwa [same]

theorem lowercase_of_toLower (lower : ∀ char ∈ text, char.toLower = char) :
    lowercase text = text := by
  conv_rhs => rw [← map_id text]
  exact map_congr_left lower

theorem lowercase_lowercase (text : List Char) : lowercase (lowercase text) = lowercase text := by
  apply lowercase_of_toLower
  intro char mem
  obtain ⟨other, _, rfl⟩ := mem_map.mp mem
  apply Char.toNat_inj.mp
  rw [toNat_toLower, toNat_toLower]
  grind

theorem lowercase_of_not_hasUppercase (lower : hasUppercase text = false) :
    lowercase text = text := by
  rw [hasUppercase, any_eq_false] at lower
  apply lowercase_of_toLower
  intro char mem
  have notUpper := lower char mem
  simp only [Char.isUpper, ge_iff_le, UInt32.le_iff_toNat_le, decide_eq_true_eq] at notUpper
  apply Char.toNat_inj.mp
  rw [toNat_toLower]
  exact if_neg notUpper

theorem toLower_eq_dot (char : Char) : char.toLower = '.' ↔ char = '.' := by
  rw [← Char.toNat_inj, ← Char.toNat_inj, toNat_toLower, show '.'.toNat = 46 from rfl]
  grind

theorem withoutRootDot_cases (host : List Char) :
    (withoutRootDot host = host ∧ withoutRootDot (lowercase host) = lowercase host) ∨
      ∃ front last, last ≠ '.' ∧ host = front ++ [last, '.'] := by
  obtain ⟨chars, rfl⟩ := reverse_surjective host
  simp only [withoutRootDot, lowercase, reverse_reverse, ← map_reverse]
  match chars with
  | [] => exact .inl ⟨rfl, rfl⟩
  | [last] =>
    by_cases isDot : last = '.'
    · subst isDot
      exact .inl ⟨rfl, rfl⟩
    · simp [toLower_eq_dot, isDot]
  | last :: before :: rest =>
    by_cases isDot : last = '.'
    · subst isDot
      by_cases again : before = '.'
      · simp [again]
      · exact .inr ⟨rest.reverse, before, again, by simp⟩
    · simp [toLower_eq_dot, isDot]

section

variable {front : List Char} {last : Char} (notDot : last ≠ '.')

include notDot

theorem withoutRootDot_append : withoutRootDot (front ++ [last]) = front ++ [last] := by
  simp [withoutRootDot, notDot]

theorem withoutRootDot_dot : withoutRootDot (front ++ [last, '.']) = front ++ [last] := by
  simp [withoutRootDot, notDot]

end

theorem withoutRootDot_withoutRootDot (host : List Char) :
    withoutRootDot (withoutRootDot host) = withoutRootDot host := by
  rcases withoutRootDot_cases host with ⟨same, -⟩ | ⟨front, last, notDot, rfl⟩
  · rw [same, same]
  · rw [withoutRootDot_dot notDot, withoutRootDot_append notDot]

theorem withoutRootDot_lowercase (host : List Char) :
    withoutRootDot (lowercase host) = lowercase (withoutRootDot host) := by
  rcases withoutRootDot_cases host with ⟨same, lower⟩ | ⟨front, last, notDot, rfl⟩
  · rw [same, lower]
  · rw [withoutRootDot_dot notDot]
    simp only [lowercase, map_append, map_cons, map_nil]
    exact withoutRootDot_dot (mt (toLower_eq_dot last).mp notDot)

theorem head?_withoutRootDot (host : List Char) :
    (withoutRootDot host).head? = host.head? := by
  rcases withoutRootDot_cases host with ⟨same, -⟩ | ⟨front, last, notDot, rfl⟩
  · rw [same]
  · rw [withoutRootDot_dot notDot]
    cases front <;> rfl

variable {host : List Char}

theorem mem_of_withoutRootDot (mem : char ∈ withoutRootDot host) : char ∈ host := by
  rcases withoutRootDot_cases host with ⟨same, -⟩ | ⟨front, last, notDot, rfl⟩
  · rwa [same] at mem
  · rw [withoutRootDot_dot notDot] at mem
    grind

theorem defaultPort_lowercase (scheme : List Char) :
    defaultPort (lowercase scheme) = defaultPort scheme := by
  simp only [defaultPort, sameIgnoringCase, lowercase_lowercase, decide_eq_true_eq]

theorem normalPort_normalPort (scheme : List Char) (port : Option (List Char)) :
    normalPort (lowercase scheme) (normalPort scheme port) = normalPort scheme port := by
  simp only [normalPort, defaultPort_lowercase, Option.filter_filter, Bool.and_self]

theorem effectivePort_eq (scheme : List Char) (port : Option (List Char)) :
    effectivePort scheme port = (normalPort scheme port).or (defaultPort scheme) := by
  cases port with
  | none => rfl
  | some text =>
    simp only [effectivePort, normalPort, Option.filter_some]
    grind

variable {port : Option (List Char)}

theorem mem_of_portText_normalPort {scheme : List Char}
    (mem : char ∈ portText (normalPort scheme port)) : char ∈ portText port := by
  rcases isPort : normalPort scheme port with _ | text
  · rw [isPort] at mem
    cases mem
  · rw [isPort] at mem
    rw [(Option.filter_eq_some_iff.mp isPort).1]
    exact mem

theorem mem_of_canonical {scheme : List Char} (early : char.toNat < 97)
    (mem : char ∈ lowercase (withoutRootDot host) ++ portText (normalPort scheme port)) :
    char ∈ host ++ portText port := by
  rw [mem_append] at mem ⊢
  rcases mem with inHost | inPort
  · exact .inl (mem_of_withoutRootDot (mem_lowercase early inHost))
  · exact .inr (mem_of_portText_normalPort inPort)

theorem toNat_lt_of_endsAuthority (ends : endsAuthority char = true) : char.toNat < 97 := by
  simp only [endsAuthority, Bool.or_eq_true, decide_eq_true_eq] at ends
  rcases ends with ((rfl | rfl) | rfl) | rfl <;> decide

theorem splitScheme_append {scheme : List Char} (noColon : ':' ∉ scheme) (rest : List Char) :
    splitScheme (scheme ++ "://".toList ++ rest) = some (scheme, rest) := by
  induction scheme with
  | nil => rfl
  | cons char scheme ih =>
    rw [mem_cons, not_or] at noColon
    rw [cons_append, cons_append, splitScheme, ih noColon.2]
    · rfl
    · intro _ isColon
      exact absurd isColon.symm noColon.1

variable {separator : Char}

theorem splitOnce_eq_none (absent : separator ∉ text) : splitOnce separator text = none := by
  rw [Option.eq_none_iff_forall_ne_some]
  intro parts isParts
  rw [(of_splitOnce isParts).1] at absent
  exact absent (by simp)

theorem rsplitOnce_append {front back : List Char} (absent : separator ∉ back) :
    rsplitOnce separator (front ++ separator :: back) = some (front, back) := by
  have reversed : ∀ char ∈ back.reverse, char ≠ separator := by
    grind
  rw [rsplitOnce, reverse_append, reverse_cons, append_assoc, singleton_append,
    splitOnce_append reversed]
  simp

theorem rsplitOnce_eq_none (absent : separator ∉ text) : rsplitOnce separator text = none := by
  rw [rsplitOnce, splitOnce_eq_none (by simpa using absent)]
  rfl

namespace Located

def canonical (parts : Located) : Located where
  scheme := lowercase parts.scheme
  user := []
  host := lowercase (withoutRootDot parts.host)
  port := normalPort parts.scheme parts.port
  tail := []
  http := by
    rw [lowercase_lowercase]
    exact parts.http
  userEnds := .inl rfl
  named := by
    rw [ne_eq, lowercase, map_eq_nil_iff, ← head?_eq_none_iff, head?_withoutRootDot,
      head?_eq_none_iff]
    exact parts.named
  shaped := by
    rcases parts.shaped with ⟨inner, isHost, noBracket⟩ | ⟨unbracketed, ports, hosts⟩
    · refine .inl ⟨lowercase inner, ?_, fun member => noBracket (mem_lowercase (by decide) member)⟩
      rw [isHost, withoutRootDot_append (by decide)]
      simp [lowercase]
    · right
      refine ⟨fun bracketed => unbracketed ?_, fun text isPort => ?_, fun noPort colon => ?_⟩
      · rw [lowercase, head?_map, head?_withoutRootDot] at bracketed
        obtain ⟨first, isFirst, lower⟩ := Option.map_eq_some_iff.mp bracketed
        have same : '[' ∈ [first] := mem_lowercase (by decide) (by simp [lowercase, lower])
        rw [isFirst, mem_singleton.mp same]
      · exact ports text (Option.filter_eq_some_iff.mp isPort).1
      · rw [normalPort_normalPort] at noPort
        exact hosts noPort (mem_of_withoutRootDot (mem_lowercase (by decide) colon))
  noAt := fun member => parts.noAt (mem_of_canonical (by decide) member)
  plain := by
    intro char member
    by_contra ends
    rw [Bool.not_eq_false] at ends
    have inAuthority := mem_of_canonical (toNat_lt_of_endsAuthority ends) member
    rw [parts.plain char (mem_append_right _ inAuthority)] at ends
    cases ends
  ends := nofun

variable (parts : Located)

theorem splitScheme_url : splitScheme parts.url = some (parts.scheme,
    (parts.user ++ (parts.host ++ portText parts.port)) ++ parts.tail) := by
  apply splitScheme_append
  intro colon
  have lower : ':' ∈ lowercase parts.scheme := mem_map.mpr ⟨':', colon, rfl⟩
  rcases parts.http with isHttp | isHttps
  · rw [isHttp] at lower
    revert lower
    decide
  · rw [isHttps] at lower
    revert lower
    decide

theorem hostPort_authority :
    hostPort (parts.user ++ (parts.host ++ portText parts.port)) =
      parts.host ++ portText parts.port := by
  rcases parts.userEnds with noUser | ⟨name, isUser⟩
  · rw [noUser, nil_append, hostPort, rsplitOnce_eq_none parts.noAt]
    rfl
  · rw [isUser, append_assoc, singleton_append, hostPort,
      rsplitOnce_append parts.noAt]
    rfl

theorem splitHost_hostPort :
    splitHost (parts.host ++ portText parts.port) = some (parts.host, parts.port) := by
  rcases parts.shaped with ⟨inner, isHost, noBracket⟩ | ⟨unbracketed, ports, hosts⟩
  · have absent : ∀ char ∈ '[' :: inner, char ≠ ']' := by
      grind
    rw [isHost, append_assoc, singleton_append, cons_append, splitHost,
      ← cons_append, splitOnce_append absent]
    cases parts.port <;> rfl
  · have start : ∀ rest, parts.host ++ portText parts.port ≠ '[' :: rest := by
      intro rest same
      rcases append_eq_cons_iff.mp same with ⟨noHost, _⟩ | ⟨inner, isHost, _⟩
      · exact parts.named noHost
      · exact unbracketed (by rw [isHost]; rfl)
    rw [splitHost]
    · rcases isPort : parts.port with _ | text
      · have noColon := hosts (by rw [isPort]; rfl)
        simp only [portText, Option.elim_none, append_nil, rsplitOnce_eq_none noColon]
      · simp only [portText, Option.elim_some, rsplitOnce_append (ports text isPort)]
    · exact start

theorem readOrigin_url : readOrigin parts.url = some parts.canonical.url := by
  have isEmpty : parts.host.isEmpty = false := by
    simpa using parts.named
  rw [readOrigin, parts.splitScheme_url, Option.bind_some]
  simp only [originOf, authority_append parts.plain parts.ends, parts.hostPort_authority,
    parts.splitHost_hostPort, isEmpty, Bool.false_eq_true, if_false]
  change ite _ _ (match normalPort parts.scheme parts.port with
    | some port => _
    | none => _) = _
  split
  · next kept =>
    simp only [Bool.and_eq_true, Bool.not_eq_eq_eq_not, Bool.not_true, decide_eq_true_eq,
      length_append] at kept
    obtain ⟨⟨⟨⟨scheme, host⟩, sameHost⟩, samePort⟩, sameLength⟩ := kept
    have noUser : parts.user = [] := length_eq_zero_iff.mp (by omega)
    have isPort : normalPort parts.scheme parts.port = parts.port := samePort.symm
    rw [sameHost] at host
    simp only [url, canonical, sameHost, isPort, noUser, lowercase_of_not_hasUppercase scheme,
      lowercase_of_not_hasUppercase host, nil_append, append_nil]
  · cases isPort : normalPort parts.scheme parts.port with
    | none => simp [url, canonical, isPort, portText]
    | some port => simp [url, canonical, isPort, portText]

theorem origin_url : origin parts.url = parts.canonical.url := by
  rw [origin_eq, parts.readOrigin_url, Option.getD_some]

theorem canonical_canonical : parts.canonical.canonical = parts.canonical := by
  simp only [canonical, lowercase_lowercase, withoutRootDot_lowercase,
    withoutRootDot_withoutRootDot, normalPort_normalPort]

theorem canonical_eq {one two : Located} (same : one.canonical.url = two.canonical.url) :
    one.canonical.scheme = two.canonical.scheme ∧ one.canonical.host = two.canonical.host ∧
      one.canonical.port = two.canonical.port := by
  have schemes := one.canonical.splitScheme_url
  rw [same, two.canonical.splitScheme_url, Option.some.injEq, Prod.mk.injEq] at schemes
  have hosts := one.canonical.splitHost_hostPort
  have behind : two.canonical.host ++ portText two.canonical.port =
      one.canonical.host ++ portText one.canonical.port := by
    have rest := schemes.2
    rw [show one.canonical.tail = [] from rfl, show two.canonical.tail = [] from rfl,
      append_nil, append_nil] at rest
    exact rest
  rw [← behind, two.canonical.splitHost_hostPort, Option.some.injEq, Prod.mk.injEq] at hosts
  exact ⟨schemes.1.symm, hosts.1.symm, hosts.2.symm⟩

end Located

/-- A URL without a host is its own origin and no other's. Every other URL has the origin
of its scheme, its host and its effective port, whatever their letter case. -/
theorem origin_canonical :
    (∀ url, readOrigin url = none → origin url = url ∧ ∀ parts : Located, origin parts.url ≠ url) ∧
    ∀ one two : Located,
      origin (origin one.url) = origin one.url ∧
      (lowercase one.scheme = lowercase two.scheme → lowercase one.host = lowercase two.host →
        one.port = two.port → origin one.url = origin two.url) ∧
      (origin one.url = origin two.url →
        lowercase one.scheme = lowercase two.scheme ∧
        lowercase (withoutRootDot one.host) = lowercase (withoutRootDot two.host) ∧
        effectivePort one.scheme one.port = effectivePort two.scheme two.port) := by
  constructor
  · intro url unread
    refine ⟨by rw [origin_eq, unread, Option.getD_none], fun parts same => ?_⟩
    rw [← same, parts.origin_url, parts.canonical.readOrigin_url] at unread
    cases unread
  intro one two
  rw [one.origin_url, two.origin_url]
  refine ⟨?_, fun scheme host port => ?_, fun same => ?_⟩
  · rw [one.canonical.origin_url, one.canonical_canonical]
  · have sameDefault : defaultPort one.scheme = defaultPort two.scheme := by
      rw [← defaultPort_lowercase, scheme, defaultPort_lowercase]
    simp only [Located.url, Located.canonical, ← withoutRootDot_lowercase, scheme, host, port,
      normalPort, sameDefault]
  · obtain ⟨scheme, host, port⟩ := Located.canonical_eq same
    have sameDefault : defaultPort one.scheme = defaultPort two.scheme := by
      rw [← defaultPort_lowercase, show lowercase one.scheme = lowercase two.scheme from scheme,
        defaultPort_lowercase]
    refine ⟨scheme, host, ?_⟩
    rw [effectivePort_eq, effectivePort_eq, sameDefault]
    exact congrArg (Option.or · _) port

/-- A dropped port bares another one, and what stands behind a bracket comes and goes with
the letter case. -/
theorem origin_uncanonical :
    origin (origin "http://a:80:80".toList) ≠ origin "http://a:80:80".toList ∧
    origin "http://a:443:80".toList = origin "http://a:443".toList ∧
    origin "HTTP://[::1]x".toList ≠ origin "http://[::1]x".toList ∧
    origin "HTTP://".toList ≠ origin "http://".toList := by
  decide +kernel

end EvolutionJmap.Url
