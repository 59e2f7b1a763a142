import AgentOs.Graph.ToolDispatcher
import AgentOs.Policy.Engine

/-!
Gated memory writes (`memory_gate.py`, `tools/memory_write.py`).

A connector is bound to the `memory_write` skill when a registry is built.
`gatedWrite` scopes the action to the connector that executes it and asks the
policy; `memoryWrite` is the skill's handler. The other skills of a registry
stay open, except that they act on the outside only.
-/

namespace AgentOs

open AgentOs.Lib

structure MemoryWriteResult where
  ref : String
  mode : String
  bytesWritten : Option Nat
  committed : Bool
  status : ExecutionStatus := .completed
  error : Option String := none
deriving DecidableEq, Repr

/-- `WritableMemory`, over the state of the outside. -/
structure MemoryConnector (υ : Type) where
  name : String
  supportedWriteModes : List MemoryWriteMode
  describeWriteSideEffect : String → MemoryWriteMode → Except String String
  writeNote : String → String → MemoryWriteMode → υ → Except String MemoryWriteResult × υ

/-- What a runtime binds around a tool: the current policy engine, the user who
teaches rules, and the text of the error a call with unfit arguments raises. -/
structure ToolScope (σ υ : Type) where
  currentPolicy : Option (PolicyEngine σ υ) := none
  principal : String := "local"
  argumentError : Dict → String := fun _ => ""

/-- The policy of a scope; without one, a local policy with no store and no
session. -/
def ToolScope.policy {σ υ : Type} (scope : ToolScope σ υ) : PolicyEngine σ υ :=
  scope.currentPolicy.getD (LocalPolicy.engine {} υ)

section Gate

variable {σ υ : Type} (scope : ToolScope σ υ) (connector : MemoryConnector υ)

/-- The action a policy is asked about. -/
def WriteRequest.action (request : WriteRequest) : ActionProposal where
  tool := "memory.write"
  arguments := [("ref", .str request.ref), ("mode", .str request.mode.text)]
  sideEffect := .write
  connector := some request.connector

/-- `connector.write_note`. -/
def writeNote (request : WriteRequest) : Code (PolicyWorld σ υ) MemoryWriteResult :=
  fun replies w =>
    let (written, outside) :=
      connector.writeNote request.ref request.content request.mode w.outside
    let w' := { w with outside, effects := w.effects ++ [.wrote request] }
    match written with
    | .ok result => (.done result, replies, w')
    | .error e => (.raised e, replies, w')

/-- The write a proposal makes on a connector. -/
def requestOf (proposal : MemoryWriteProposal) (content : String) : WriteRequest :=
  ⟨connector.name, proposal.mode, proposal.ref, content⟩

/-- The errors of a refused write, or a text that says how it ended. -/
def refusalText (status : ExecutionStatus) (errors : List String) : String :=
  let error := Text.join "; " (errors.filter fun e => !Text.isBlank e)
  if error = "" then "Memory write " ++ status.text ++ " before it reached the connector."
  else error

/-- What `gated_write` returns once the policy is applied. -/
def writeOutcome (request : WriteRequest) : PolicyResult MemoryWriteResult → MemoryWriteResult
  | .executed writeResult => writeResult
  | .refused status errors =>
      { ref := request.ref, mode := request.mode.text, bytesWritten := none, committed := false,
        status := status, error := some (refusalText status errors) }

/-- `gated_write`. -/
def gatedWrite (proposal : MemoryWriteProposal) (content : String) :
    Code (PolicyWorld σ υ) MemoryWriteResult :=
  let request := requestOf connector proposal content
  if proposal.mode ∉ connector.supportedWriteModes then
    Pass.done
      { ref := proposal.ref, mode := proposal.mode.text, bytesWritten := none, committed := false,
        status := .failed,
        error := some ("Memory connector '" ++ connector.name ++ "' does not safely support mode '" ++
          proposal.mode.text ++ "'.") }
  else do
    let result ← applyPolicy scope.policy request.action none scope.principal
      fun _ => writeNote connector request
    return writeOutcome request result

/-- The arguments of a call of `memory_write`: a reference and a content, and
`create` unless a mode is given. -/
def memoryWriteArguments (arguments : Dict) : Except String (String × String × MemoryWriteMode) :=
  let unfit := .error (scope.argumentError arguments)
  if arguments.any fun argument => argument.1 ∉ ["ref", "content", "mode"] then unfit
  else
    match arguments.lookup "ref", arguments.lookup "content", arguments.lookup "mode" with
    | some (.str ref), some (.str content), none => .ok (ref, content, .create)
    | some (.str ref), some (.str content), some (.str mode) =>
        match MemoryWriteMode.ofText? mode with
        | some mode => .ok (ref, content, mode)
        | none => unfit
    | _, _, _ => unfit

/-- What `memory_write` returns of a write. -/
def memoryWriteResult (result : MemoryWriteResult) : ExecutionResult :=
  if result.committed then
    { status := .completed
      outputs := [("ref", .str result.ref), ("mode", .str result.mode),
        ("bytes_written", (result.bytesWritten.map fun n => Json.num (toString n)).getD .null)] }
  else
    let errors := (result.error.filter (· ≠ "")).toList
    { status := if result.status = .failed || result.status = .cancelled then result.status
        else .cancelled
      outputs := [("ref", .str result.ref), ("mode", .str result.mode)]
      errors := if errors = [] then ["Memory write was not committed"] else errors }

/-- `memory_write`. -/
def memoryWrite (arguments : Dict) : Code (PolicyWorld σ υ) ExecutionResult := do
  let (ref, content, mode) ← Pass.ofExcept (memoryWriteArguments scope arguments)
  let sideEffect ← Pass.ofExcept (connector.describeWriteSideEffect ref mode)
  let preview := Text.take content 100 ++ if 100 < content.toList.length then "..." else ""
  let proposal : MemoryWriteProposal := ⟨connector.name, ref, mode, preview, sideEffect⟩
  return memoryWriteResult (← gatedWrite scope connector proposal content)

end Gate

/-! ### Writes and the local policy -/

/-- Requests with one permission key are about one note in one mode. -/
theorem request_key_injective {r r' : WriteRequest} {key : String}
    (h : derivePermissionKey r.action = some key) (h' : derivePermissionKey r'.action = some key) :
    r.connector = r'.connector ∧ r.mode = r'.mode ∧ r.ref = r'.ref := by
  obtain ⟨connector, mode, ref⟩ := permissionKey_injective h h'
  have modes : ∀ r : WriteRequest,
      permissionMode (r.action.arguments.lookup "mode") = some r.mode :=
    fun r => MemoryWriteMode.ofText?_text r.mode
  have refs : ∀ (r : WriteRequest), derivePermissionKey r.action = some key →
      permissionRef (r.action.arguments.lookup "ref") = some r.ref := by
    intro r hr
    obtain ⟨-, -, _, _, ref, -, -, href, -⟩ := derivePermissionKey_eq_some_iff.mp hr
    change permissionRef (some (.str r.ref)) = some r.ref
    change permissionRef (some (.str r.ref)) = some ref at href
    simp only [permissionRef, Option.ite_none_left_eq_some] at href ⊢
    exact ⟨href.1, trivial⟩
  rw [modes, modes] at mode
  rw [refs r h, refs r' h'] at ref
  exact ⟨Option.some.inj connector, Option.some.inj mode, Option.some.inj ref⟩

/-- What a local policy allows a write by. -/
theorem LocalPolicy.allow_cases {σ : Type} {policy : LocalPolicy σ} {request : WriteRequest}
    {rules : σ} {sessions : List (String × String)}
    (h : (policy.evaluate request.action rules sessions).1.decision = .allow) :
    policy.mode = .off ∨ policy.sessionGrant request.action sessions = true ∨
      policy.ruleEffect request.action rules = some .alwaysApprove ∨
      (builtinGrant request.action).isSome = true := by
  rw [evaluate_decision] at h
  split at h
  · exact .inl ‹_›
  · rw [if_neg (show ¬deriveTier request.action = .high by nofun)] at h
    split at h
    · cases h
    · split at h
      · rename_i given
        have default : allowedByDefault request.action = (builtinGrant request.action).isSome := by
          simp [allowedByDefault, WriteRequest.action]
        rw [default] at given
        simp only [Bool.or_eq_true, decide_eq_true_eq] at given
        rcases given with (grant | approve) | builtin
        · exact .inr (.inl grant)
        · exact .inr (.inr (.inl approve))
        · exact .inr (.inr (.inr builtin))
      · cases h

/-- What a local policy does not deny, the store does not forbid. -/
theorem LocalPolicy.not_forbidden {σ : Type} {policy : LocalPolicy σ} {request : WriteRequest}
    {rules : σ} {sessions : List (String × String)} (enforced : policy.mode ≠ .off)
    (h : (policy.evaluate request.action rules sessions).1.decision ≠ .deny) :
    policy.ruleEffect request.action rules ≠ some .alwaysDeny := by
  intro denied
  apply h
  rw [evaluate_decision, if_neg enforced,
    if_neg (show ¬deriveTier request.action = .high by nofun), if_pos denied]

/-! ### The handlers of a registry -/

/-- A skill's handler: the memory write bound to a connector, or other code, with
the names of its parameters. -/
inductive ToolHandler (υ : Type) where
  | memoryWrite (connector : MemoryConnector υ)
  | other (parameters : List String) (call : Dict → υ → Except String RawOutput × υ)

namespace ToolHandler

variable {σ υ : Type}

def parameters : ToolHandler υ → List String
  | memoryWrite _ => ["ref", "content", "mode"]
  | other parameters _ => parameters

/-- A call of other code. -/
def callOther (call : Dict → υ → Except String RawOutput × υ) (arguments : Dict) :
    Code (PolicyWorld σ υ) RawOutput := fun replies w =>
  let (output, outside) := call arguments w.outside
  match output with
  | .ok raw => (.done raw, replies, { w with outside })
  | .error e => (.raised e, replies, { w with outside })

/-- `RegisteredSkill.invoke`. -/
def invoke (scope : ToolScope σ υ) (skill : RegisteredSkill (ToolHandler υ)) (arguments : Dict) :
    Code (PolicyWorld σ υ) RawOutput :=
  match skill.handler with
  | memoryWrite connector => do return .result (← AgentOs.memoryWrite scope connector arguments)
  | other _ call => callOther call arguments

/-- The write a call of a skill puts to the policy. -/
def request (scope : ToolScope σ υ) (skill : RegisteredSkill (ToolHandler υ)) (arguments : Dict) :
    Option WriteRequest :=
  match skill.handler with
  | memoryWrite connector =>
      match memoryWriteArguments scope arguments with
      | .error _ => none
      | .ok (ref, content, mode) =>
          match connector.describeWriteSideEffect ref mode with
          | .error _ => none
          | .ok _ =>
              if mode ∈ connector.supportedWriteModes then some ⟨connector.name, mode, ref, content⟩
              else none
  | other _ _ => none

end ToolHandler

end AgentOs
