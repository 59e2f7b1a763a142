import AgentOs.Lib.Text
import AgentOs.Lib.Url
import Mathlib.Tactic.SplitIfs

/-!
Webhook delivery (`webhooks.py`) against a network that answers as it likes.

An attempt looks the URL's host up once, checks every address of the answer, and connects
to the first by its text, so the socket's own lookup is of an address. A reply is answered
with a status; a status other than success leads to the next attempt, which looks the host
up again.

`Network` decides every answer from what happened before. `deliveries_confined` says to
what a delivery connects, given that a lookup of an address returns that address.
-/

namespace AgentOs

open AgentOs.Lib

/-! ### URLs and addresses -/

/-- `is_safe_ip`. -/
def isSafeIp (ip : IpAddress) : Bool :=
  !(ip.isLoopback || ip.isPrivate || ip.isLinkLocal || ip.isMulticast || ip.isUnspecified ||
    ip.isReserved || !ip.isGlobal)

/-- No IPv4 address is safe in the form of an IPv6 one. -/
theorem isSafeIp_of_ipv4Mapped {ip : BitVec 128} {mapped : BitVec 32}
    (scopeId : Option (List Char)) (h : IpAddress.ipv4Mapped ip = some mapped) :
    isSafeIp (.v6 ip scopeId) = false := by
  simp [isSafeIp, IpAddress.isReserved_of_ipv4Mapped scopeId h]

/-- `{h.strip().lower() for h in allowed_internal_hosts if h.strip()}`. -/
def allowedHosts (unicode : Unicode) (hosts : List String) : List String :=
  ((hosts.map Text.strip).filter (· ≠ "")).map unicode.lower

/-- `validate_webhook_url_syntax`: the reason of a refusal, or the parsed URL. -/
def validateWebhookUrlSyntax (unicode : Unicode) (url : String) (allowInsecureHttp : Bool)
    (allowedInternalHosts : List String) : Except String ParsedUrl :=
  match Url.urlparse unicode url with
  | .error e => .error ("Invalid URL structure: " ++ e)
  | .ok parsed =>
      if parsed.scheme ∉ ["http", "https"] then
        .error ("Unsupported scheme '" ++ parsed.scheme ++
          "'. Only 'http' and 'https' are allowed.")
      else if parsed.username.getD "" ≠ "" ∨ parsed.password.getD "" ≠ "" then
        .error "URLs with embedded credentials (userinfo) are not allowed."
      else if (parsed.hostname unicode).getD "" = "" then
        .error "URL is missing a valid hostname."
      else if parsed.scheme = "http" ∧ !allowInsecureHttp ∧
          unicode.lower ((parsed.hostname unicode).getD "") ∉
            allowedHosts unicode allowedInternalHosts then
        .error ("Insecure HTTP webhook URLs are disallowed by default. Use HTTPS or set " ++
          "'allow_insecure_http = true' (or add host to 'allowed_internal_hosts').")
      else .ok parsed

/-! ### The network -/

/-- The signed request, with its `Host`. -/
structure HttpRequest where
  path : String
  host : String
  headers : List (String × String)
  body : String
deriving DecidableEq, Repr

/-- A status line, and what reading the rest raises. -/
structure HttpReply where
  status : ℕ
  readError : Option String := none
deriving DecidableEq, Repr

/-- What a delivery does with the network, and what it is answered. -/
inductive NetEvent where
  | lookup (host : String) (port : ℕ) (answer : Except String (List String))
  | connect (ip : String) (port : ℕ) (failure : Option String)
  | post (ip : String) (port : ℕ) (request : HttpRequest) (reply : Except String HttpReply)

/-- The answers, which may depend on everything that happened in the delivery before. -/
structure Network where
  getaddrinfo : List NetEvent → String → ℕ → Except String (List String)
  /-- what making a connection object raises -/
  newConnection : List NetEvent → String → String → Option String
  /-- what `http.client` raises before it connects -/
  putRequest : List NetEvent → HttpRequest → Option String
  connect : List NetEvent → String → ℕ → Option String
  /-- the TLS handshake, the request and the reply -/
  exchange : List NetEvent → HttpRequest → Except String HttpReply

/-- A lookup of an address returns that address. -/
def Network.LiteralsReturned (net : Network) : Prop :=
  ∀ seen text port address answer, IpAddress.parse text.toList = some address →
    net.getaddrinfo seen text port = .ok answer →
      ∀ ip ∈ answer, IpAddress.parse ip.toList = some address

/-- `WebhookEventSink`, as its constructor leaves it. -/
structure WebhookEventSink where
  url : String
  secret : String
  allowedInternalHosts : List String := []
  allowInsecureHttp : Bool := false
  maxRetries : ℕ
  tries : 1 ≤ maxRetries

section

variable (unicode : Unicode) (net : Network) (sink : WebhookEventSink)

/-! ### One attempt -/

/-- What `_resolve_and_validate_target` returns. -/
structure Resolution where
  isSafe : Bool
  reason : String
  scheme : String
  hostname : String
  port : ℕ
  pinnedIp : String
  path : String

/-- The loop over the answer. -/
def validateIps (isAllowed : Bool) (hostname : String) : List String → Except String (List String)
  | [] => .ok []
  | ipStr :: rest =>
      match IpAddress.parse ipStr.toList with
      | none => .error ("Invalid IP address '" ++ ipStr ++ "'.")
      | some ip =>
          if !isAllowed && !isSafeIp ip then
            .error ("Blocked unsafe/internal IP destination '" ++ ipStr ++ "' for host '" ++
              hostname ++ "'.")
          else (validateIps isAllowed hostname rest).map (ipStr :: ·)

/-- `parsed.port or (443 if scheme == "https" else 80)`. -/
def portOr (scheme : String) (port : Option ℕ) : ℕ :=
  if port.getD 0 = 0 then if scheme = "https" then 443 else 80 else port.getD 0

/-- `_resolve_and_validate_target`; an invalid port raises. -/
def resolveAndValidateTarget (url : String) (allowedInternalHosts : List String)
    (allowInsecureHttp : Bool) (seen : List NetEvent) :
    Except String Resolution × List NetEvent :=
  match validateWebhookUrlSyntax unicode url allowInsecureHttp allowedInternalHosts with
  | .error reason => (.ok ⟨false, reason, "", "", 0, "", ""⟩, [])
  | .ok parsed =>
      match parsed.port unicode with
      | .error raised => (.error raised, [])
      | .ok port =>
          let scheme := parsed.scheme
          let hostname := (parsed.hostname unicode).getD ""
          let port := portOr scheme port
          let path := (if parsed.path = "" then "/" else parsed.path) ++
            (if parsed.query = "" then "" else "?" ++ parsed.query)
          let isAllowed := unicode.lower hostname ∈ allowedHosts unicode allowedInternalHosts
          let addrInfo := net.getaddrinfo seen hostname port
          let failed := fun reason : String =>
            Resolution.mk false reason scheme hostname port "" path
          let resolution := match addrInfo with
            | .error e => failed ("DNS resolution failed for '" ++ hostname ++ "': " ++ e)
            | .ok [] => failed ("No IP addresses found for '" ++ hostname ++ "'.")
            | .ok addrInfo =>
                match validateIps isAllowed hostname addrInfo with
                | .error reason => failed reason
                | .ok [] => failed ("No valid IP addresses for host '" ++ hostname ++ "'.")
                | .ok (pinnedIp :: _) => ⟨true, "", scheme, hostname, port, pinnedIp, path⟩
          (.ok resolution, [.lookup hostname port addrInfo])

/-- The loop of `socket.create_connection`: each address in turn, until one accepts. -/
def tryConnect (port : ℕ) : List NetEvent → Option String → List String →
    Except String String × List NetEvent
  | _, failed, [] => (.error (failed.getD "getaddrinfo returns an empty list"), [])
  | seen, _, ip :: ips =>
      let failure := net.connect seen ip port
      let event := NetEvent.connect ip port failure
      match failure with
      | none => (.ok ip, [event])
      | some e =>
          let (sock, events) := tryConnect port (seen ++ [event]) (some e) ips
          (sock, event :: events)

/-- `socket.create_connection((host, port))`. -/
def createConnection (seen : List NetEvent) (host : String) (port : ℕ) :
    Except String String × List NetEvent :=
  let answer := net.getaddrinfo seen host port
  let event := NetEvent.lookup host port answer
  match answer with
  | .error e => (.error e, [event])
  | .ok ips =>
      let (sock, events) := tryConnect net port (seen ++ [event]) none ips
      (sock, event :: events)

/-- Whether the delivery succeeded, its status, and the reason where it did not. -/
structure RequestOutcome where
  success : Bool
  status : ℕ
  reason : String
deriving DecidableEq, Repr

/-- What a reply amounts to: redirects are not followed. -/
def judge : Except String HttpReply → RequestOutcome
  | .error e => ⟨false, 0, e⟩
  | .ok ⟨_, some e⟩ => ⟨false, 0, e⟩
  | .ok ⟨status, none⟩ =>
      if 200 ≤ status ∧ status < 300 then ⟨true, status, ""⟩
      else if 300 ≤ status ∧ status < 400 then
        ⟨false, status, "Redirects not permitted (HTTP " ++ toString status ++ ")"⟩
      else ⟨false, status, "HTTP " ++ toString status⟩

/-- The `Host` header. -/
def hostHeader (hostname : String) (port : ℕ) : String :=
  if port ∈ [80, 443] then hostname else hostname ++ ":" ++ toString port

/-- `_send_single_request`, after `seen`. -/
def sendSingleRequest (targetUrl body : String) (headers : List (String × String))
    (seen : List NetEvent) : Except String RequestOutcome × List NetEvent :=
  let (resolved, looked) := resolveAndValidateTarget unicode net targetUrl
    sink.allowedInternalHosts sink.allowInsecureHttp seen
  match resolved with
  | .error raised => (.error raised, looked)
  | .ok target =>
      if !target.isSafe then (.ok ⟨false, 0, target.reason⟩, looked)
      else
        match net.newConnection (seen ++ looked) target.scheme target.pinnedIp with
        | some raised => (.error raised, looked)
        | none =>
            let request : HttpRequest :=
              { path := target.path, host := hostHeader target.hostname target.port, headers, body }
            match net.putRequest (seen ++ looked) request with
            | some raised => (.ok ⟨false, 0, raised⟩, looked)
            | none =>
                let (sock, opened) :=
                  createConnection net (seen ++ looked) target.pinnedIp target.port
                match sock with
                | .error raised => (.ok ⟨false, 0, raised⟩, looked ++ opened)
                | .ok ip =>
                    let reply := net.exchange (seen ++ looked ++ opened) request
                    (.ok (judge reply), looked ++ opened ++ [.post ip target.port request reply])

/-! ### Retries -/

/-- The loop of `_send_with_retry`: the result, and what each attempt did. -/
def sendLoop (body : String) (headers : List (String × String)) :
    ℕ → List NetEvent → Except String Bool × List (List NetEvent)
  | 0, _ => (.ok false, [])
  | tries + 1, seen =>
      let (result, events) := sendSingleRequest unicode net sink sink.url body headers seen
      match result with
      | .error raised => (.error raised, [events])
      | .ok delivery =>
          if delivery.success then (.ok true, [events])
          else
            let (sent, attempts) := sendLoop body headers tries (seen ++ events)
            (sent, events :: attempts)

/-- What a delivery takes from elsewhere: the event's JSON, the clock, and the signature
with a secret. -/
structure Signing (ε : Type) where
  dumps : ε → Except String String
  timestamp : String
  hmacSha256 : String → String → Except String String

/-- `_send_with_retry`. -/
def sendWithRetry {ε : Type} (signing : Signing ε) (event : ε) :
    Except String Bool × List (List NetEvent) :=
  match signing.dumps event with
  | .error raised => (.error raised, [])
  | .ok body =>
      match signing.hmacSha256 sink.secret (signing.timestamp ++ "." ++ body) with
      | .error raised => (.error raised, [])
      | .ok signature =>
          let headers := [("Content-Type", "application/json"),
            ("X-AgentOS-Timestamp", signing.timestamp),
            ("X-AgentOS-Signature", "sha256=" ++ signature),
            ("User-Agent", "AgentOS-Webhook/1.0")]
          sendLoop unicode net sink body headers sink.maxRetries []

end

/-! ### What an attempt may do -/

section

variable (unicode : Unicode) (sink : WebhookEventSink)

/-- The host is one of the allowed internal ones. -/
def AllowListed (host : String) : Prop :=
  unicode.lower host ∈ allowedHosts unicode sink.allowedInternalHosts

instance (host : String) : Decidable (AllowListed unicode sink host) :=
  inferInstanceAs (Decidable (_ ∈ _))

/-- A URL that may be delivered to. -/
structure AcceptedUrl (parsed : ParsedUrl) (host : String) : Prop where
  parses : Url.urlparse unicode sink.url = .ok parsed
  scheme : parsed.scheme = "https" ∨ parsed.scheme = "http" ∧
    (sink.allowInsecureHttp = true ∨ AllowListed unicode sink host)
  username : parsed.username.getD "" = ""
  password : parsed.password.getD "" = ""
  hostname : parsed.hostname unicode = some host
  named : host ≠ ""
  port : ∃ port, parsed.port unicode = .ok port

/-- An answer all of whose addresses may be connected to. -/
def AcceptedAnswer (host : String) (ips : List String) : Prop :=
  ∀ ip ∈ ips, ∃ address, IpAddress.parse ip.toList = some address ∧
    (AllowListed unicode sink host ∨ isSafeIp address = true)

/-- Every connection of an attempt goes to an address that the URL's own host was looked up
to in this attempt, the URL and every address of that answer being acceptable; and nothing
follows a reply. -/
structure Confined (attempt : List NetEvent) : Prop where
  pinned : ∀ ip port failure, .connect ip port failure ∈ attempt →
    ∃ parsed host ips rest, AcceptedUrl unicode sink parsed host ∧
      attempt = .lookup host port (.ok ips) :: rest ∧ AcceptedAnswer unicode sink host ips ∧
      ∃ resolved ∈ ips, IpAddress.parse ip.toList = IpAddress.parse resolved.toList
  final : ∀ before ip port request reply after,
    attempt = before ++ .post ip port request reply :: after →
      after = [] ∧ .connect ip port none ∈ before

end

section

variable {unicode : Unicode} {net : Network} {sink : WebhookEventSink} {seen : List NetEvent}

theorem validate_ok {parsed : ParsedUrl}
    (h : validateWebhookUrlSyntax unicode sink.url sink.allowInsecureHttp
      sink.allowedInternalHosts = .ok parsed)
    (port : ∃ port, parsed.port unicode = .ok port) :
    AcceptedUrl unicode sink parsed ((parsed.hostname unicode).getD "") := by
  unfold validateWebhookUrlSyntax at h
  split at h
  · cases h
  rename_i url parses
  split_ifs at h with scheme credentials missing insecure
  obtain rfl : url = parsed := Except.ok.inj h
  obtain ⟨username, password⟩ := not_or.mp credentials
  exact
    { parses
      scheme := by
        rcases List.mem_pair.mp scheme with http | https
        · refine .inr ⟨http, ?_⟩
          by_contra neither
          obtain ⟨flag, listed⟩ := not_or.mp neither
          exact insecure ⟨http, by simpa using flag, listed⟩
        · exact .inl https
      username := not_not.mp username
      password := not_not.mp password
      hostname := by
        cases host : url.hostname unicode with
        | none => simp [host] at missing
        | some host => rfl
      named := missing
      port }

theorem validateIps_ok {isAllowed : Bool} {hostname : String} {addrInfo ips : List String}
    (h : validateIps isAllowed hostname addrInfo = .ok ips) :
    ips = addrInfo ∧ ∀ ip ∈ addrInfo, ∃ address, IpAddress.parse ip.toList = some address ∧
      (isAllowed = true ∨ isSafeIp address = true) := by
  induction addrInfo generalizing ips with
  | nil =>
      cases h
      exact ⟨rfl, fun _ mem => by cases mem⟩
  | cons ipStr rest ih =>
      unfold validateIps at h
      split at h
      · cases h
      rename_i address parses
      split at h
      · cases h
      rename_i accepted
      cases more : validateIps isAllowed hostname rest with
      | error e =>
          rw [more] at h
          cases h
      | ok others =>
          rw [more] at h
          cases h
          obtain ⟨rfl, all⟩ := ih more
          refine ⟨rfl, ?_⟩
          rintro ip mem
          rcases List.mem_cons.mp mem with rfl | mem
          · refine ⟨address, parses, ?_⟩
            by_contra neither
            obtain ⟨unlisted, risky⟩ := not_or.mp neither
            exact accepted (by simp [unlisted, risky])
          · exact all ip mem

/-- How a resolution ends: it raises or refuses without a connection to make, or it pins the
first address of an acceptable answer. -/
inductive Resolves (unicode : Unicode) (sink : WebhookEventSink) :
    Except String Resolution × List NetEvent → Prop where
  | raised (e : String) : Resolves unicode sink (.error e, [])
  | refused {target : Resolution} (refused : target.isSafe = false)
      {looked : List NetEvent}
      (only : ∀ event ∈ looked, ∃ host port answer, event = .lookup host port answer) :
      Resolves unicode sink (.ok target, looked)
  | pinned {target : Resolution} {parsed : ParsedUrl} {ips : List String}
      (url : AcceptedUrl unicode sink parsed target.hostname)
      (answer : AcceptedAnswer unicode sink target.hostname (target.pinnedIp :: ips)) :
      Resolves unicode sink (.ok target,
        [.lookup target.hostname target.port (.ok (target.pinnedIp :: ips))])

theorem resolves (unicode : Unicode) (net : Network) (sink : WebhookEventSink)
    (seen : List NetEvent) :
    Resolves unicode sink (resolveAndValidateTarget unicode net sink.url
      sink.allowedInternalHosts sink.allowInsecureHttp seen) := by
  unfold resolveAndValidateTarget
  split
  · exact .refused rfl fun _ mem => by cases mem
  rename_i parsed valid
  split
  · exact .raised _
  rename_i port ports
  have accepted := validate_ok valid ⟨port, ports⟩
  have one : ∀ host port answer, ∀ event ∈ [NetEvent.lookup host port answer],
      ∃ host port answer, event = .lookup host port answer := by
    rintro host port answer event mem
    exact ⟨host, port, answer, List.mem_singleton.mp mem⟩
  generalize answered : net.getaddrinfo seen ((parsed.hostname unicode).getD "")
    (portOr parsed.scheme port) = addrInfo
  dsimp only
  rw [answered]
  cases addrInfo with
  | error e => exact .refused rfl (one _ _ _)
  | ok addrInfo =>
      cases addrInfo with
      | nil => exact .refused rfl (one _ _ _)
      | cons first rest =>
          dsimp only
          split
          · exact .refused rfl (one _ _ _)
          · exact .refused rfl (one _ _ _)
          · rename_i pinnedIp others valid
            obtain ⟨same, all⟩ := validateIps_ok valid
            obtain ⟨rfl, rfl⟩ := List.cons.inj same
            refine @Resolves.pinned unicode sink ⟨_, _, _, _, _, _, _⟩ parsed _ accepted ?_
            rintro ip mem
            obtain ⟨address, parses, fine⟩ := all ip mem
            exact ⟨address, parses, fine.imp_left fun listed => of_decide_eq_true listed⟩

/-- `create_connection` connects to what its lookup returned. -/
theorem tryConnect_events (port : ℕ) (seen : List NetEvent) (failed : Option String)
    (ips : List String) :
    (∀ event ∈ (tryConnect net port seen failed ips).2,
      ∃ ip ∈ ips, ∃ failure, event = .connect ip port failure) ∧
    ∀ ip, (tryConnect net port seen failed ips).1 = .ok ip →
      .connect ip port none ∈ (tryConnect net port seen failed ips).2 := by
  induction ips generalizing seen failed with
  | nil =>
      constructor
      · rintro event mem
        cases mem
      · rintro ip opened
        cases opened
  | cons ip ips ih =>
      unfold tryConnect
      dsimp only
      cases refused : net.connect seen ip port with
      | none =>
          constructor
          · rintro event mem
            exact ⟨ip, List.mem_cons_self .., none, List.mem_singleton.mp mem⟩
          · rintro ip' opened
            cases opened
            exact List.mem_singleton_self _
      | some e =>
          obtain ⟨events, opens⟩ := ih (seen ++ [.connect ip port (some e)]) (some e)
          constructor
          · rintro event mem
            rcases List.mem_cons.mp mem with rfl | mem
            · exact ⟨ip, List.mem_cons_self .., some e, rfl⟩
            · obtain ⟨ip', mem', failure, rfl⟩ := events event mem
              exact ⟨ip', List.mem_cons_of_mem _ mem', failure, rfl⟩
          · rintro ip' opened
            exact List.mem_cons_of_mem _ (opens ip' opened)

/-- An attempt that neither connects nor is replied to. -/
theorem confined_of_lookups {attempt : List NetEvent}
    (only : ∀ event ∈ attempt, ∃ host port answer, event = .lookup host port answer) :
    Confined unicode sink attempt where
  pinned ip port failure mem := by
    obtain ⟨_, _, _, same⟩ := only _ mem
    cases same
  final before ip port request reply after split := by
    obtain ⟨_, _, _, same⟩ := only (.post ip port request reply) (by simp [split])
    cases same

/-- A connection to an address goes to that address. -/
theorem createConnection_events (literals : net.LiteralsReturned) {pinnedIp : String}
    {address : IpAddress} (parses : IpAddress.parse pinnedIp.toList = some address) (port : ℕ)
    (seen : List NetEvent) :
    (∀ event ∈ (createConnection net seen pinnedIp port).2,
      (∃ host port answer, event = .lookup host port answer) ∨
        ∃ ip failure, event = .connect ip port failure ∧
          IpAddress.parse ip.toList = some address) ∧
    ∀ ip, (createConnection net seen pinnedIp port).1 = .ok ip →
      .connect ip port none ∈ (createConnection net seen pinnedIp port).2 := by
  unfold createConnection
  cases found : net.getaddrinfo seen pinnedIp port with
  | error e =>
      constructor
      · rintro event mem
        exact .inl ⟨_, _, _, List.mem_singleton.mp mem⟩
      · rintro ip opened
        cases opened
  | ok ips =>
      obtain ⟨events, opens⟩ := @tryConnect_events net port
        (seen ++ [.lookup pinnedIp port (.ok ips)]) none ips
      constructor
      · rintro event mem
        rcases List.mem_cons.mp mem with rfl | mem
        · exact .inl ⟨_, _, _, rfl⟩
        · obtain ⟨ip, found', failure, rfl⟩ := events event mem
          exact .inr ⟨ip, failure, rfl, literals _ _ _ _ _ parses found ip found'⟩
      · rintro ip opened
        exact List.mem_cons_of_mem _ (opens ip opened)

/-- An attempt that connects to the first address of an acceptable answer. -/
theorem confined_of_pinned {parsed : ParsedUrl} {host pinnedIp : String} {ips : List String}
    (literals : net.LiteralsReturned) (url : AcceptedUrl unicode sink parsed host)
    (answer : AcceptedAnswer unicode sink host (pinnedIp :: ips)) (port : ℕ)
    (seen : List NetEvent) {posts : List NetEvent}
    (posted : posts = [] ∨ ∃ ip request reply,
      (createConnection net seen pinnedIp port).1 = .ok ip ∧ posts = [.post ip port request reply]) :
    Confined unicode sink ([.lookup host port (.ok (pinnedIp :: ips))] ++
      (createConnection net seen pinnedIp port).2 ++ posts) := by
  obtain ⟨address, parses, -⟩ := answer pinnedIp (List.mem_cons_self ..)
  obtain ⟨events, opens⟩ := createConnection_events literals parses port seen
  generalize createConnection net seen pinnedIp port = opening at events opens posted ⊢
  constructor
  · rintro ip port' failure mem
    rcases List.mem_append.mp mem with mem | mem
    · rcases List.mem_cons.mp mem with same | mem
      · cases same
      rcases events _ mem with ⟨_, _, _, same⟩ | ⟨_, _, same, address'⟩
      · cases same
      · cases same
        exact ⟨parsed, host, _, _, url, rfl, answer, pinnedIp, List.mem_cons_self ..,
          address'.trans parses.symm⟩
    · rcases posted with rfl | ⟨_, _, _, _, rfl⟩
      · cases mem
      · cases List.mem_singleton.mp mem
  · rintro before ip port' request reply after split
    have absent : .post ip port' request reply ∉
        [NetEvent.lookup host port (.ok (pinnedIp :: ips))] ++ opening.2 := by
      intro mem
      rcases List.mem_cons.mp mem with same | mem
      · cases same
      rcases events _ mem with ⟨_, _, _, same⟩ | ⟨_, _, same, _⟩
      · cases same
      · cases same
    rcases posted with rfl | ⟨ip', request', reply', connected, rfl⟩
    · rw [List.append_nil] at split
      exact absurd (by simp [split]) absent
    · rcases List.eq_nil_or_concat after with rfl | ⟨more, last, rfl⟩
      · obtain ⟨same, final⟩ := List.append_inj' split rfl
        obtain ⟨rfl, rfl, -, -⟩ := NetEvent.post.inj (List.singleton_inj.mp final)
        refine ⟨rfl, ?_⟩
        rw [← same]
        exact List.mem_cons_of_mem _ (opens _ connected)
      · -- what is before the last event would contain a reply
        rw [List.concat_eq_append, ← List.cons_append, ← List.append_assoc] at split
        obtain ⟨same, -⟩ := List.append_inj' split rfl
        exact absurd (by simp [same]) absent

theorem sendSingleRequest_confined (literals : net.LiteralsReturned) (body : String)
    (headers : List (String × String)) (seen : List NetEvent) :
    Confined unicode sink
      (sendSingleRequest unicode net sink sink.url body headers seen).2 := by
  unfold sendSingleRequest
  have ended := resolves unicode net sink seen
  generalize resolveAndValidateTarget unicode net sink.url sink.allowedInternalHosts
    sink.allowInsecureHttp seen = resolution at ended ⊢
  cases ended with
  | raised e => exact confined_of_lookups fun _ mem => by cases mem
  | refused refused only =>
      dsimp only
      rw [if_pos (by simp [refused])]
      exact confined_of_lookups only
  | pinned url answer =>
      dsimp only
      have one : ∀ host port answer, Confined unicode sink [.lookup host port answer] :=
        fun host port answer => confined_of_lookups fun event mem =>
          ⟨host, port, answer, List.mem_singleton.mp mem⟩
      split
      · exact one ..
      split
      · exact one ..
      split
      · exact one ..
      split
      · rw [← List.append_nil (_ ++ _)]
        exact confined_of_pinned literals url answer _ _ (.inl rfl)
      · rename_i ip opened
        exact confined_of_pinned literals url answer _ _ (.inr ⟨ip, _, _, opened, rfl⟩)

/-- Each attempt of the loop is one `sendSingleRequest`. -/
theorem mem_sendLoop {body : String} {headers : List (String × String)} {tries : ℕ}
    {attempt : List NetEvent}
    (mem : attempt ∈ (sendLoop unicode net sink body headers tries seen).2) :
    ∃ earlier, attempt = (sendSingleRequest unicode net sink sink.url body headers earlier).2 := by
  induction tries generalizing seen with
  | zero => cases mem
  | succ tries ih =>
      unfold sendLoop at mem
      dsimp only at mem
      split at mem
      · exact ⟨seen, List.mem_singleton.mp mem⟩
      split at mem
      · exact ⟨seen, List.mem_singleton.mp mem⟩
      rcases List.mem_cons.mp mem with rfl | mem
      · exact ⟨seen, rfl⟩
      · exact ih mem

/-- **No delivery is rebound**: each of its attempts is confined to what the URL's host was
looked up to in that attempt, whatever the network answers. -/
theorem deliveries_confined {ε : Type} (literals : net.LiteralsReturned) (signing : Signing ε)
    (event : ε) :
    ∀ attempt ∈ (sendWithRetry unicode net sink signing event).2,
      Confined unicode sink attempt := by
  intro attempt mem
  unfold sendWithRetry at mem
  split at mem
  · cases mem
  split at mem
  · cases mem
  obtain ⟨earlier, rfl⟩ := mem_sendLoop mem
  exact sendSingleRequest_confined literals ..

end

/-! ### An answer that changes between two attempts -/

/-- Texts in ASCII. -/
def asciiTables : Unicode where
  lower := Text.lower
  nfkc := id
  repr text := "'" ++ .ofList text ++ "'"

/-- `hooks.example` is a public address at first and the loopback address afterwards; every
request is redirected. -/
def rebinding : Network where
  getaddrinfo seen host _ :=
    if (IpAddress.parse host.toList).isSome then .ok [host]
    else if seen.isEmpty then .ok ["93.184.216.34"]
    else .ok ["93.184.216.34", "127.0.0.1"]
  newConnection _ _ _ := none
  putRequest _ _ := none
  connect _ _ _ := none
  exchange _ _ := .ok { status := 302 }

def hookSink : WebhookEventSink where
  url := "https://hooks.example/agent?run=1"
  secret := "s3cret"
  maxRetries := 3
  tries := by decide

def plainSigning : Signing Unit where
  dumps _ := .ok "\x7b\x7d"
  timestamp := "1700000000"
  hmacSha256 _ payload := .ok payload

def NetEvent.connected? : NetEvent → Option (String × ℕ)
  | .connect ip port none => some (ip, port)
  | _ => none

theorem rebinding_confined :
    (sendWithRetry asciiTables rebinding hookSink plainSigning ()).2.map
        (·.filterMap NetEvent.connected?) = [[("93.184.216.34", 443)], [], []] ∧
      ∀ attempt ∈ (sendWithRetry asciiTables rebinding hookSink plainSigning ()).2,
        Confined asciiTables hookSink attempt := by
  constructor
  · decide +kernel
  · refine deliveries_confined ?_ plainSigning ()
    intro seen text port address answer parses answered ip mem
    have literal : (Except.ok [text] : Except String (List String)) = .ok answer := by
      rw [← answered]
      simp [rebinding, parses]
    cases literal
    rw [List.mem_singleton.mp mem, parses]

end AgentOs
