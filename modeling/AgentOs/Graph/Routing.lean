import AgentOs.Graph.State
import AgentOs.Lib.Text

/-!
Routing decisions (`routing.py`).

`routeFromState` is a priority list over five channels. The lemmas below give
each route as the condition under which it is taken; later proofs read them and
never unfold the list.
-/

namespace AgentOs

open AgentOs.Lib

inductive Node where
  | planner
  | supervisor
  | architect
  | humanGate
  | executor
  | toolDispatcher
deriving DecidableEq, Repr

/-- Where an edge leads: a node, or `END`. -/
inductive Target where
  | node (n : Node)
  | finish
deriving DecidableEq, Repr

inductive Route where
  | architect
  | executor
  | tool
  | finish
deriving DecidableEq, Repr

/-- `ROUTE_TO_NODE`. -/
def routeToNode : Route → Target
  | .architect => .node .architect
  | .executor => .node .executor
  | .tool => .node .toolDispatcher
  | .finish => .finish

/-- `DEFAULT_RECURSION_LIMIT`: the supersteps one invocation of the graph may
take, the final one included. -/
def defaultRecursionLimit : Nat := 7

inductive RouterMode where
  | cascade
  | directEscalation
deriving DecidableEq, Repr

/-- `get_router_mode` on the value of `ROUTER_MODE`. -/
def getRouterMode (value : Option String) : Except String RouterMode :=
  let v := Text.lower (Text.strip (value.getD "cascade"))
  if v = "cascade" then .ok .cascade
  else if v = "direct-escalation" then .ok .directEscalation
  else .error ("Invalid ROUTER_MODE value '" ++ v ++
    "'. Expected 'cascade' or 'direct-escalation'.")

/-- `build_runtime_config`: the thread id a run is configured with. -/
def buildRuntimeConfig (threadId : String) : Except String String :=
  let normalized := Text.strip threadId
  if normalized = "" then .error "thread_id must not be empty" else .ok normalized

/-- Feedback that begins with `"rejected:"`. -/
def isRejection (feedback : Option String) : Bool :=
  match feedback with
  | none => false
  | some f => Text.startsWith f "rejected:"

/-- `route_from_state`. -/
def routeFromState (state : SimonState) : Route :=
  if state.executorCompleted then .finish
  else if state.humanFeedback = some "approved" then .executor
  else if isRejection state.humanFeedback then .architect
  else if state.executorText then .finish
  -- a plan without a decision
  else if state.planArtifact?.isSome then .finish
  else if state.routerEscalated = some true then .architect
  else .tool

section Routes

variable {s : SimonState}

theorem route_of_completed (h : s.executorCompleted = true) : routeFromState s = .finish := by
  simp only [routeFromState, h, if_true]

/-- The executor is chosen exactly on an approval that no completed execution
has used up. -/
theorem route_executor_iff :
    routeFromState s = .executor ↔
      s.executorCompleted = false ∧ s.humanFeedback = some "approved" := by
  unfold routeFromState
  grind

/-- The architect is chosen on a rejection, or on an escalated task that has
neither a plan nor an output. -/
theorem route_architect_iff :
    routeFromState s = .architect ↔
      s.executorCompleted = false ∧ s.humanFeedback ≠ some "approved" ∧
        (isRejection s.humanFeedback = true ∨
          isRejection s.humanFeedback = false ∧ s.executorText = false ∧
            s.planArtifact? = none ∧ s.routerEscalated = some true) := by
  unfold routeFromState
  simp only [← Option.not_isSome_iff_eq_none]
  grind

/-- The run ends on a completed execution, or on an output or a plan that nobody
has decided about. -/
theorem route_finish_iff :
    routeFromState s = .finish ↔
      s.executorCompleted = true ∨ s.humanFeedback ≠ some "approved" ∧
        isRejection s.humanFeedback = false ∧
          (s.executorText = true ∨ s.planArtifact?.isSome = true) := by
  unfold routeFromState
  grind

/-- The dispatcher is chosen for a task nothing is known about. -/
theorem route_tool_iff :
    routeFromState s = .tool ↔
      s.executorCompleted = false ∧ s.humanFeedback ≠ some "approved" ∧
        isRejection s.humanFeedback = false ∧ s.executorText = false ∧
          s.planArtifact? = none ∧ s.routerEscalated ≠ some true := by
  unfold routeFromState
  simp only [← Option.not_isSome_iff_eq_none]
  grind

end Routes

end AgentOs
