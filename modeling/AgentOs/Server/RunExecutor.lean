import AgentOs.Graph.Inputs
import AgentOs.Runs.Ledger

/-!
What a run's pass leaves in the ledger (`server/run_executor.py`).

`execute_run` looks at the checkpoint once the graph stops: an error ends the
run, a pending interrupt suspends it, and otherwise the `tool_result` channel
decides between success and failure (`terminalToolFailure`). `recordedOutcome`
is that decision on a thread.
-/

namespace AgentOs

open AgentOs.Lib

def ToolExecutionResult.toJson (r : ToolExecutionResult) : Json :=
  .obj [("tool", .str r.tool), ("output", .str r.output), ("success", .bool r.success)]

/-- `_result_payload`: the payload of the `result` event. -/
def resultPayload (state : SimonState) : Json :=
  let toolPart := state.toolResult.toList.map fun r => ("tool_result", r.toJson)
  let selfCheckPart := match state.executorOutput with
    | some (.report r) => [("self_check", Json.obj r.selfCheck)]
    | _ => []
  .obj (toolPart ++ selfCheckPart)

/-- The `errors` of a decoded tool output that say something. -/
def listedErrors (parsed : Option Json) : List String :=
  match parsed.bind (Json.field? "errors") with
  | some (.arr items) => (items.map Json.toText).filter fun text => !Text.isBlank text
  | _ => []

/-- A decoded tool output that reports a cancellation. -/
def reportsCancelled (parsed : Option Json) : Bool :=
  match parsed.bind (Json.field? "status") with
  | some (.str status) => status = "cancelled"
  | _ => false

/-- `terminal_tool_failure`: status and diagnostic of an unsuccessful tool. -/
def terminalToolFailure (state : SimonState) : Option (RunStatus × String) :=
  match state.toolResult with
  | none => none
  | some result =>
      if result.success then none
      else
        let tool := if result.tool = "" then "tool" else result.tool
        let parsed := Json.loads result.output
        let status := if reportsCancelled parsed then RunStatus.cancelled else .error
        let listed := listedErrors parsed
        let errors :=
          if listed = [] && !Text.isBlank result.output then [result.output] else listed
        let joined := Text.join "; " errors
        some (status, if joined = "" then tool ++ " did not complete successfully" else joined)

/-- A failure is recorded exactly for a result that is not a success, and never
as completed. -/
theorem terminalToolFailure_eq_none_iff {state : SimonState} :
    terminalToolFailure state = none ↔ ∀ r, state.toolResult = some r → r.success = true := by
  unfold terminalToolFailure
  cases state.toolResult with
  | none => simp
  | some result => by_cases h : result.success <;> simp [h]

theorem terminalToolFailure_status {state : SimonState} {status : RunStatus} {message : String}
    (h : terminalToolFailure state = some (status, message)) :
    status = .cancelled ∨ status = .error := by
  unfold terminalToolFailure at h
  split at h
  · cases h
  · split at h
    · cases h
    · rw [Option.some.injEq, Prod.mk.injEq] at h
      rw [← h.1]
      split
      · exact .inl rfl
      · exact .inr rfl

theorem terminalToolFailure_congr {s s' : SimonState} (h : s.toolResult = s'.toolResult) :
    terminalToolFailure s = terminalToolFailure s' := by
  simp only [terminalToolFailure, h]

/-- What `execute_run` records of a pass. -/
inductive PassOutcome where
  | interrupted (prompt : String)
  | ended (status : RunStatus) (message : Option String)
deriving DecidableEq, Repr

/-- The outcome of the pass that brought a thread here; `none` while it runs. -/
def recordedOutcome {ω : Type} (t : AgentThread ω) : Option PassOutcome :=
  match t.failure, t.pending, t.next with
  | some message, _, _ => some (.ended .error (some message))
  | none, some prompt, _ => some (.interrupted prompt)
  | none, none, none =>
      match terminalToolFailure t.state with
      | none => some (.ended .completed none)
      | some (status, message) => some (.ended status (some message))
  | none, none, some _ => none

/-- At `END` the run is recorded as completed exactly where the tool channel
holds no failure. -/
theorem recordedOutcome_completed_iff {ω : Type} {t : AgentThread ω} (failure : t.failure = none)
    (pending : t.pending = none) (finished : t.next = none) :
    recordedOutcome t = some (.ended .completed none) ↔ terminalToolFailure t.state = none := by
  simp only [recordedOutcome, failure, pending, finished]
  cases h : terminalToolFailure t.state with
  | none => simp
  | some p =>
      obtain ⟨status, message⟩ := p
      rcases terminalToolFailure_status h with rfl | rfl <;> simp

end AgentOs
