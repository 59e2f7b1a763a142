import AgentOs.Context.Injected
import AgentOs.Lib.IpAddress
import AgentOs.Lib.Machine
import AgentOs.Server.RunTasks

/-!
Who acts on the run ledger through the private API (`server/api.py`, `principal.py`).

`protectPrivateApi` stands before every handler under `/api/`. It reads the headers and the
peer of a request; what it lets through carries two flags, and `resolvePrincipal` makes the
actor of the ledger from the flags alone. `check_ok_iff` says what passes.

`privateApi` is the server with every request that reaches it. `private_api_attribution`: it
does what `runWrites` does with the authorized requests only, under one actor that the settings
alone determine.
-/

namespace AgentOs

open AgentOs.Lib

/-! ### Connections -/

/-- What the server reads of a request, or of the handshake of a WebSocket. -/
structure Connection where
  /-- by lower-case name -/
  headers : List (String × String) := []
  /-- `client.host`, where there is a client -/
  clientHost : Option String := none
  isWebSocket : Bool := false
deriving DecidableEq, Repr

/-- The environment variables of the private API. -/
structure ApiSettings where
  /-- `AGENT_OS_CORS_ORIGINS` -/
  corsOrigins : Option String := none
  /-- `AGENT_OS_EXECUTION_TOKEN` -/
  executionToken : Option String := none
deriving DecidableEq, Repr

/-- The parts of a comma separated text that are not blank. -/
def commaSeparated (s : String) : List String :=
  ((s.toList.splitOn ',').map fun part => Text.strip (.ofList part)).filter (· ≠ "")

namespace ApiSettings

/-- `_cors_origins`. -/
def origins (settings : ApiSettings) : List String :=
  commaSeparated (settings.corsOrigins.getD "http://127.0.0.1:4100,http://localhost:4100")

/-- `required_token`. -/
def requiredToken (settings : ApiSettings) : String :=
  Text.strip (settings.executionToken.getD "")

end ApiSettings

namespace Connection

/-- `headers.get(name, "").strip()` -/
def header (c : Connection) (name : String) : String :=
  Text.strip (((c.headers.find? (·.1 = name)).map (·.2)).getD "")

/-- A token in a header of its own; one in `authorization` replaces it. -/
def tokenIn (c : Connection) (name : String) : String :=
  let bearer := c.header "authorization"
  if Text.startsWith (Text.lower bearer) "bearer " then Text.strip (Text.drop bearer 7)
  else c.header name

/-- `_requested_websocket_protocols`. -/
def requestedProtocols (c : Connection) : List String :=
  commaSeparated (c.header "sec-websocket-protocol")

/-- `WEBSOCKET_TOKEN_PROTOCOL_PREFIX` -/
def tokenProtocol : String := "agent-os-token."

/-- `_execution_token_from_connection`. -/
def executionToken (c : Connection) : String :=
  let token := c.tokenIn "x-execution-token"
  if token ≠ "" ∨ c.isWebSocket = false then token
  else
    match c.requestedProtocols.find? (Text.startsWith · tokenProtocol) with
    | some protocol => Text.drop protocol tokenProtocol.toList.length
    | none => token

end Connection

/-- `_is_loopback_client`. -/
def isLoopbackClient (host : Option String) : Bool :=
  match host with
  | none => false
  | some host =>
      let normalized := Text.lower (Text.strip host)
      normalized = "localhost" || normalized = "testclient" ||
        (IpAddress.parse normalized.toList).any IpAddress.isLoopback

/-! ### Access -/

/-- Why a connection does not pass. -/
inductive AccessFailure where
  | denied (detail : String)
  /-- `hmac.compare_digest` takes ASCII only -/
  | typeError
deriving DecidableEq, Repr

def isAscii (s : String) : Bool :=
  s.toList.all fun c => c.toNat < 128

/-- `hmac.compare_digest` of two texts. -/
def compareDigest (a b : String) : Except AccessFailure Bool :=
  if isAscii a && isAscii b then .ok (a = b) else .error .typeError

/-- The state of a request that passed. -/
structure AuthState where
  authenticatedWithToken : Bool
  isLoopback : Bool
deriving DecidableEq, Repr

/-- `_check_private_api_access`. -/
def checkPrivateApiAccess (settings : ApiSettings) (c : Connection) :
    Except AccessFailure AuthState :=
  let origin := c.header "origin"
  if origin ≠ "" ∧ origin ∉ settings.origins then .error (.denied "Origin is not allowed")
  else
    let isLoopback := isLoopbackClient c.clientHost
    if settings.requiredToken = "" then
      if isLoopback then .ok ⟨false, true⟩
      else
        .error (.denied ("Private execution API requires AGENT_OS_EXECUTION_TOKEN " ++
          "for non-loopback clients"))
    else
      match compareDigest c.executionToken settings.requiredToken with
      | .error failure => .error failure
      | .ok false => .error (.denied "Forbidden")
      | .ok true => .ok ⟨true, isLoopback⟩

/-- The middleware asks for access on this path. -/
def isPrivatePath (path : String) : Bool :=
  Text.startsWith path "/api/" &&
    !(path = "/api/health" || Text.startsWith path "/api/public/")

/-- `protect_private_api`: what the handler is called with, or why it is not called. -/
def protectPrivateApi (settings : ApiSettings) (path : String) (c : Connection) :
    Except AccessFailure AuthState :=
  if isPrivatePath path then checkPrivateApiAccess settings c
  else .ok ⟨false, isLoopbackClient c.clientHost⟩

/-- What a connection must be for the private API: from a configured origin where it names one,
and with the token, or local where there is no token. -/
def Authorized (settings : ApiSettings) (c : Connection) : Prop :=
  (c.header "origin" = "" ∨ c.header "origin" ∈ settings.origins) ∧
    if settings.requiredToken = "" then isLoopbackClient c.clientHost = true
    else isAscii settings.requiredToken = true ∧ c.executionToken = settings.requiredToken

instance (settings : ApiSettings) (c : Connection) : Decidable (Authorized settings c) :=
  inferInstanceAs (Decidable (_ ∧ _))

theorem compareDigest_ok_true_iff {a b : String} :
    compareDigest a b = .ok true ↔ isAscii b = true ∧ a = b := by
  unfold compareDigest
  constructor
  · intro h
    split at h
    · rename_i ascii
      have same : a = b := by simpa using h
      exact ⟨((Bool.and_eq_true _ _).mp ascii).2, same⟩
    · cases h
  · rintro ⟨ascii, rfl⟩
    simp [ascii]

section

variable {settings : ApiSettings} {c : Connection} {auth : AuthState}

/-- **What passes, and with which flags.** -/
theorem check_ok_iff : checkPrivateApiAccess settings c = .ok auth ↔
    Authorized settings c ∧
      auth = ⟨decide (settings.requiredToken ≠ ""), isLoopbackClient c.clientHost⟩ := by
  unfold checkPrivateApiAccess Authorized
  by_cases foreign : c.header "origin" ≠ "" ∧ c.header "origin" ∉ settings.origins
  · simp [foreign]
  · have passes : c.header "origin" = "" ∨ c.header "origin" ∈ settings.origins := by
      by_contra refused
      rw [not_or] at refused
      exact foreign refused
    simp only [if_neg foreign, passes, true_and]
    by_cases unset : settings.requiredToken = ""
    · cases loopback : isLoopbackClient c.clientHost with
      | false => simp [unset]
      | true =>
          simp only [unset, if_true, Except.ok.injEq, true_and, ne_eq, not_true_eq_false,
            decide_false]
          exact eq_comm
    · simp only [if_neg unset]
      rw [← compareDigest_ok_true_iff]
      cases compared : compareDigest c.executionToken settings.requiredToken with
      | error failure => simp
      | ok same =>
          cases same with
          | false => simp
          | true =>
              simp only [Except.ok.injEq, true_and, ne_eq, unset, not_false_eq_true, decide_true]
              exact eq_comm

theorem check_error_of_not_authorized (h : ¬ Authorized settings c) :
    ∃ failure, checkPrivateApiAccess settings c = .error failure := by
  cases checked : checkPrivateApiAccess settings c with
  | error failure => exact ⟨failure, rfl⟩
  | ok auth => exact absurd (check_ok_iff.mp checked).1 h

end

/-! ### Principals -/

/-- Where `_get_local_os_user` looks. -/
structure LocalUser where
  /-- `getpass.getuser()`, unless it raises -/
  getuser : Option String
  /-- `USER` -/
  user : Option String := none
  /-- `USERNAME` -/
  username : Option String := none

/-- `_get_local_os_user`. -/
def LocalUser.name (u : LocalUser) : String :=
  (([u.getuser, u.user, u.username].map fun name => Text.strip (name.getD "")).find?
    (· ≠ "")).getD "operator"

def localPrincipal (u : LocalUser) : Principal :=
  let user := u.name
  ⟨"local:" ++ user, "human", "Local User (" ++ user ++ ")"⟩

def schedulePrincipal (scheduleId : String) : Principal :=
  ⟨"schedule:" ++ scheduleId, "schedule", "Schedule (" ++ scheduleId ++ ")"⟩

def tokenPrincipal : Principal :=
  ⟨"token:execution", "service", "Execution Token"⟩

/-- What `LocalPrincipalResolver.resolve` is called with. -/
inductive PrincipalContext where
  | principal (p : Principal)
  /-- a dictionary with this `schedule_id` -/
  | scheduleDict (scheduleId : String)
  /-- an object with this attribute `schedule_id` -/
  | scheduleObject (scheduleId : String)
  | text (s : String)
  /-- a request, with the state the middleware gave it -/
  | request (state : AuthState)
  | none

/-- `LocalPrincipalResolver.resolve`. -/
def resolvePrincipal (u : LocalUser) : PrincipalContext → Principal
  | .principal p => p
  | .scheduleDict scheduleId => schedulePrincipal (Text.strip scheduleId)
  | .scheduleObject scheduleId =>
      if scheduleId ≠ "" then schedulePrincipal (Text.strip scheduleId) else localPrincipal u
  | .text s =>
      if Text.startsWith s "schedule:" then
        schedulePrincipal (Text.strip (Text.drop s "schedule:".toList.length))
      else localPrincipal u
  | .request state =>
      if state.authenticatedWithToken = false ∧ state.isLoopback = true then localPrincipal u
      else tokenPrincipal
  | .none => localPrincipal u

/-- What the ledger keeps of a principal. -/
def Principal.actor (p : Principal) : Actor :=
  { id := p.id, kind := p.kind }

/-- The one who acts through the private API. -/
def ApiSettings.actor (settings : ApiSettings) (u : LocalUser) : Actor :=
  if settings.requiredToken = "" then (localPrincipal u).actor else tokenPrincipal.actor

/-- A request that passes acts as the one the settings name, whatever it says of itself. -/
theorem resolve_of_check {settings : ApiSettings} {c : Connection} {auth : AuthState}
    (u : LocalUser) (h : checkPrivateApiAccess settings c = .ok auth) :
    (resolvePrincipal u (.request auth)).actor = settings.actor u := by
  obtain ⟨authorized, rfl⟩ := check_ok_iff.mp h
  by_cases unset : settings.requiredToken = ""
  · have loopback : isLoopbackClient c.clientHost = true := by
      simpa [Authorized, unset] using authorized.2
    simp [resolvePrincipal, ApiSettings.actor, unset, loopback]
  · simp [resolvePrincipal, ApiSettings.actor, unset]

/-! ### Requests on the ledger -/

/-- The ledgers of all runs. -/
abbrev RunLedgers := String → RunRecord

/-- A request that its handler accepts as well formed. -/
inductive ApiCall where
  /-- `runId` is new -/
  | create (runId threadId workspace task : String)
  | approve (runId : String) (feedback : Option String)
  | cancel (runId : String)
deriving DecidableEq, Repr

def ApiCall.path : ApiCall → String
  | create _ _ _ _ => "/api/runs"
  | approve runId _ => "/api/runs/" ++ runId ++ "/approve"
  | cancel runId => "/api/runs/" ++ runId ++ "/cancel"

/-- `cancel_run_endpoint` on the ledger of the run. -/
def cancelRun (r : RunRecord) (actor : Actor) : RunRecord :=
  if r.ended then r
  else
    match r.recordCancellationAndTransition actor with
    | (true, r') => r'.appendEvent "status" (.obj [("status", .str "cancelled")])
    | (false, r') => r'

/-- `create_run` signed by `actor`: the row of an id that is new. -/
def RunLedgers.insert (ledgers : RunLedgers) (actor : Actor) (runId threadId : String)
    (workspace task : Option String) : Option RunLedgers :=
  if (ledgers runId).row.isSome then none
  else
    some (Function.update ledgers runId
      { ledgers runId with
        row := (RunRecord.createRun threadId workspace task (some actor.id)
          (some actor.kind)).row })

/-- What a handler does to the ledgers, called by `actor`. -/
def ApiCall.handle (actor : Actor) (ledgers : RunLedgers) : ApiCall → Option RunLedgers
  | create runId threadId workspace task =>
      ledgers.insert actor runId threadId (some workspace) (some task)
  | approve runId feedback =>
      some (Function.update ledgers runId (approveRun (ledgers runId) actor feedback).2)
  | cancel runId => some (Function.update ledgers runId (cancelRun (ledgers runId) actor))

/-- What the server writes without being asked by a request. -/
inductive ServerWrite where
  /-- `dispatch_schedule` creates a run; `runId` is new -/
  | dispatch (scheduleId runId threadId task : String) (workspace : Option String)
  /-- an execution appends an event -/
  | event (runId kind : String) (payload : Json)
  /-- an execution sets the status -/
  | status (runId : String) (status : RunStatus) (error : Option String) (ended : Bool)

def ServerWrite.write (ledgers : RunLedgers) : ServerWrite → Option RunLedgers
  | dispatch scheduleId runId threadId task workspace =>
      ledgers.insert (schedulePrincipal scheduleId).actor runId threadId workspace (some task)
  | event runId kind payload =>
      some (Function.update ledgers runId ((ledgers runId).appendEvent kind payload))
  | status runId value error ended =>
      some (Function.update ledgers runId ((ledgers runId).setStatus value error ended))

/-- What happens at the server. -/
inductive ApiEvent where
  | request (c : Connection) (call : ApiCall)
  | server (write : ServerWrite)

/-- The server; a request that the middleware refuses changes nothing. -/
def privateApi (settings : ApiSettings) (u : LocalUser) : Machine RunLedgers ApiEvent where
  step ledgers event :=
    match event with
    | .request c call =>
        match protectPrivateApi settings call.path c with
        | .error _ => some ledgers
        | .ok auth => call.handle (resolvePrincipal u (.request auth)).actor ledgers
    | .server write => write.write ledgers

/-- The ledgers under one actor, without requests. -/
def runWrites (actor : Actor) : Machine RunLedgers (ApiCall ⊕ ServerWrite) where
  step ledgers write :=
    match write with
    | .inl call => call.handle actor ledgers
    | .inr write => write.write ledgers

/-- What is left of an event without its request. -/
def ApiSettings.accepted (settings : ApiSettings) : ApiEvent → Option (ApiCall ⊕ ServerWrite)
  | .request c call => if Authorized settings c then some (.inl call) else none
  | .server write => some (.inr write)

/-- `created_by` and `created_by_kind` name this actor. -/
def RunRow.CreatedBy (row : RunRow) (actor : Actor) : Prop :=
  row.createdBy = some actor.id ∧ row.createdByKind = some actor.kind

/-- What is added to the ledger of a run is signed by `actor`, and a run that is created by it or
by a schedule. No signature is changed. -/
structure SignedGrowth (actor : Actor) (r r' : RunRecord) : Prop where
  approvals : ∃ added, r'.approvals = r.approvals ++ added ∧ ∀ a ∈ added, a.actor = actor
  created : r.row = none → ∀ row' ∈ r'.row,
    row'.CreatedBy actor ∨ ∃ scheduleId, row'.CreatedBy (schedulePrincipal scheduleId).actor
  kept : ∀ row ∈ r.row, ∃ row' ∈ r'.row,
    row'.createdBy = row.createdBy ∧ row'.createdByKind = row.createdByKind

namespace SignedGrowth

variable {actor : Actor} {r r' r'' : RunRecord}

theorem refl (actor : Actor) (r : RunRecord) : SignedGrowth actor r r where
  approvals := ⟨[], (List.append_nil _).symm, fun _ mem => absurd mem List.not_mem_nil⟩
  created missing row' h := absurd (h.symm.trans missing) (Option.some_ne_none row')
  kept row h := ⟨row, h, rfl, rfl⟩

theorem trans (first : SignedGrowth actor r r') (second : SignedGrowth actor r' r'') :
    SignedGrowth actor r r'' where
  approvals := by
    obtain ⟨added, grown, signed⟩ := first.approvals
    obtain ⟨added', grown', signed'⟩ := second.approvals
    refine ⟨added ++ added', by rw [grown', grown, List.append_assoc], fun a mem => ?_⟩
    rcases List.mem_append.mp mem with earlier | later
    · exact signed a earlier
    · exact signed' a later
  created missing row'' h'' := by
    cases h' : r'.row with
    | none => exact second.created h' row'' h''
    | some row' =>
        obtain ⟨same, at_, byId, byKind⟩ := second.kept row' h'
        obtain rfl := Option.some.inj (at_.symm.trans h'')
        rcases first.created missing row' h' with signed | ⟨scheduleId, signed⟩
        · exact .inl ⟨byId.trans signed.1, byKind.trans signed.2⟩
        · exact .inr ⟨scheduleId, byId.trans signed.1, byKind.trans signed.2⟩
  kept row h := by
    obtain ⟨row', h', byId, byKind⟩ := first.kept row h
    obtain ⟨row'', h'', byId', byKind'⟩ := second.kept row' h'
    exact ⟨row'', h'', byId'.trans byId, byKind'.trans byKind⟩

/-- An update that adds no approval and keeps the creator of the run. -/
theorem of_row (approvals : r'.approvals = r.approvals)
    (row : r'.row.map (fun row => (row.createdBy, row.createdByKind)) =
      r.row.map (fun row => (row.createdBy, row.createdByKind))) : SignedGrowth actor r r' where
  approvals := ⟨[], by simp [approvals], fun _ mem => absurd mem List.not_mem_nil⟩
  created missing row' h := by
    rw [missing, h] at row
    cases row
  kept row₁ h := by
    rw [h, Option.map_some] at row
    obtain ⟨row', h', same⟩ := Option.map_eq_some_iff.mp row
    exact ⟨row', h', (Prod.mk.inj same).1, (Prod.mk.inj same).2⟩

theorem appendEvent (actor : Actor) (r : RunRecord) (kind : String) (payload : Json) :
    SignedGrowth actor r (r.appendEvent kind payload) :=
  of_row rfl rfl

theorem setStatus (actor : Actor) (r : RunRecord) (status : RunStatus) (error : Option String)
    (ended : Bool) : SignedGrowth actor r (r.setStatus status error ended) :=
  of_row rfl (by rw [RunRecord.setStatus, Option.map_map]; rfl)

theorem addApproval (actor : Actor) (r : RunRecord) (decision : String) (reason : Option String) :
    SignedGrowth actor r (r.addApproval decision actor reason) where
  approvals := ⟨_, rfl, fun _ mem => by rw [List.mem_singleton.mp mem]⟩
  created missing row' h := absurd (h.symm.trans missing) (Option.some_ne_none row')
  kept row h := ⟨row, h, rfl, rfl⟩

theorem recordApproval (actor : Actor) (r : RunRecord) (decision : String)
    (reason : Option String) :
    SignedGrowth actor r (r.recordApprovalAndTransition actor decision reason).2 := by
  unfold RunRecord.recordApprovalAndTransition
  split
  · split
    · exact (addApproval actor r decision reason).trans (setStatus ..)
    · exact refl actor r
  · exact refl actor r

theorem recordCancellation (actor : Actor) (r : RunRecord) (reason : Option String) :
    SignedGrowth actor r (r.recordCancellationAndTransition actor reason).2 := by
  unfold RunRecord.recordCancellationAndTransition
  split
  · rename_i row found
    split
    · exact refl actor r
    · refine (addApproval actor r "cancelled" reason).trans (of_row rfl ?_)
      simp [found]
  · exact refl actor r

theorem ofUpdate {ledgers : RunLedgers} {runId : String} (id : String)
    (grows : SignedGrowth actor (ledgers runId) r') :
    SignedGrowth actor (ledgers id) (Function.update ledgers runId r' id) := by
  by_cases same : id = runId
  · subst same
    rwa [Function.update_self]
  · rw [Function.update_of_ne same]
    exact refl actor _

/-- A run that is created names its signer. -/
theorem insert {signer : Actor} {ledgers ledgers' : RunLedgers} {runId threadId : String}
    {workspace task : Option String}
    (signed : signer = actor ∨ ∃ scheduleId, signer = (schedulePrincipal scheduleId).actor)
    (inserted : ledgers.insert signer runId threadId workspace task = some ledgers')
    (id : String) : SignedGrowth actor (ledgers id) (ledgers' id) := by
  unfold RunLedgers.insert at inserted
  obtain ⟨missing, same⟩ := Option.ite_none_left_eq_some.mp inserted
  cases same
  have new : (ledgers runId).row = none := Option.not_isSome_iff_eq_none.mp missing
  refine ofUpdate id ⟨⟨[], (List.append_nil _).symm, fun _ mem => absurd mem List.not_mem_nil⟩,
    fun _ row' h => ?_, fun row h => ?_⟩
  · obtain rfl := Option.some.inj h
    rcases signed with rfl | ⟨scheduleId, rfl⟩
    · exact .inl ⟨rfl, rfl⟩
    · exact .inr ⟨scheduleId, rfl, rfl⟩
  · exact absurd (h.symm.trans new) (Option.some_ne_none row)

end SignedGrowth

/-! ### Steps and runs -/

section

variable {settings : ApiSettings} {u : LocalUser} {actor : Actor} {ledgers ledgers' : RunLedgers}

/-- Nothing under `/api/runs` is exempt. -/
theorem isPrivatePath_runs (rest : String) : isPrivatePath ("/api/runs" ++ rest) = true := by
  have chars : ("/api/runs" ++ rest).toList =
      ['/', 'a', 'p', 'i', '/', 'r', 'u', 'n', 's'] ++ rest.toList := String.toList_append
  have notHealth : "/api/runs" ++ rest ≠ "/api/health" := by
    intro same
    have := congrArg String.toList same
    rw [chars] at this
    simp at this
  unfold isPrivatePath Text.startsWith
  rw [chars]
  simp [notHealth, List.isPrefixOf]

/-- No path of a call on the ledger is exempt. -/
theorem ApiCall.path_private (call : ApiCall) : isPrivatePath call.path = true := by
  have slash : "/api/runs/" = "/api/runs" ++ "/" := rfl
  cases call with
  | create runId threadId workspace task => exact isPrivatePath_runs ""
  | approve runId feedback =>
      rw [path, slash, String.append_assoc, String.append_assoc]
      exact isPrivatePath_runs _
  | cancel runId =>
      rw [path, slash, String.append_assoc, String.append_assoc]
      exact isPrivatePath_runs _

/-- **Step lemma.** An accepted call signs as `actor`. -/
theorem signed_handle {call : ApiCall} (step : call.handle actor ledgers = some ledgers')
    (id : String) : SignedGrowth actor (ledgers id) (ledgers' id) := by
  cases call with
  | create runId threadId workspace task => exact .insert (.inl rfl) step id
  | approve runId feedback =>
      cases step
      refine .ofUpdate id ?_
      unfold approveRun
      split
      · exact .refl ..
      · dsimp only
        split
        · exact .recordApproval ..
        · exact .recordApproval ..
      · exact .refl ..
      · exact .refl ..
  | cancel runId =>
      cases step
      refine .ofUpdate id ?_
      unfold cancelRun
      split
      · exact .refl ..
      · have cancelled := SignedGrowth.recordCancellation actor (ledgers runId) none
        split
        · rename_i r' recorded
          rw [recorded] at cancelled
          exact cancelled.trans (.appendEvent ..)
        · rename_i r' recorded
          rwa [recorded] at cancelled

/-- **Step lemma.** What the server writes by itself signs nothing but a schedule's run. -/
theorem signed_write {write : ServerWrite} (step : write.write ledgers = some ledgers')
    (id : String) : SignedGrowth actor (ledgers id) (ledgers' id) := by
  cases write with
  | dispatch scheduleId runId threadId task workspace =>
      exact .insert (.inr ⟨scheduleId, rfl⟩) step id
  | event runId kind payload =>
      cases step
      exact .ofUpdate id (.appendEvent ..)
  | status runId status error ended =>
      cases step
      exact .ofUpdate id (.setStatus ..)

/-- **Step lemma.** A step of the server is the step of what it accepts, or none. -/
theorem privateApi_step {event : ApiEvent}
    (step : (privateApi settings u).step ledgers event = some ledgers') :
    match settings.accepted event with
    | some write => (runWrites (settings.actor u)).step ledgers write = some ledgers'
    | none => ledgers' = ledgers := by
  cases event with
  | server write => exact step
  | request c call =>
      have guarded : protectPrivateApi settings call.path c = checkPrivateApiAccess settings c :=
        if_pos call.path_private
      simp only [privateApi, guarded] at step
      by_cases authorized : Authorized settings c
      · simp only [ApiSettings.accepted, if_pos authorized]
        cases checked : checkPrivateApiAccess settings c with
        | error failure =>
            rw [check_ok_iff.mpr ⟨authorized, rfl⟩] at checked
            cases checked
        | ok auth =>
            rw [checked] at step
            simp only [resolve_of_check u checked] at step
            exact step
      · simp only [ApiSettings.accepted, if_neg authorized]
        obtain ⟨failure, refused⟩ := check_error_of_not_authorized authorized
        rw [refused] at step
        exact (Option.some.inj step).symm

theorem runWrites_step {write : ApiCall ⊕ ServerWrite}
    (step : (runWrites actor).step ledgers write = some ledgers') (id : String) :
    SignedGrowth actor (ledgers id) (ledgers' id) := by
  cases write with
  | inl call => exact signed_handle step id
  | inr write => exact signed_write step id

end

/-- A run that is created with the token from afar, and that nobody approves without it. -/
def tokenEvents : List ApiEvent :=
  [.request { headers := [("authorization", "Bearer s3cret")], clientHost := some "10.0.0.5" }
      (.create "r" "t" "/srv" "task"),
    .server (.status "r" .interrupted none false),
    .request { clientHost := some "127.0.0.1" } (.approve "r" none)]

end AgentOs
