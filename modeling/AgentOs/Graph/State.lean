import AgentOs.Schemas

/-!
The state of the agent graph and its updates (`state.py`).

Each field of `SimonState` is a channel of the checkpoint. A node returns a
`StateUpdate`, which names the channels it writes; `SimonState.apply` writes
them and keeps the rest. A channel nobody has written is indistinguishable from
one holding `None`: every reader uses `state.get`.
-/

namespace AgentOs

/-- Who said a message. -/
inductive Speaker where
  | human
  | ai
  | tool
deriving DecidableEq, Repr

structure Message where
  speaker : Speaker
  content : String
deriving DecidableEq, Repr

/-- The `plan` channel: the planner's text or the architect's artifact. -/
inductive PlanField where
  | text (s : String)
  | artifact (p : PlanArtifact)
deriving Repr

/-- The `executor_output` channel. -/
inductive ResultField where
  | text (s : String)
  | report (r : ExecutionResult)
deriving Repr

structure StrategyHint where
  strategyId : String
  version : Nat
  taskKind : String
  selectionReason : String
  directive : String
deriving DecidableEq, Repr

/-- The backends a workflow was started with. -/
structure BackendBinding where
  router : Option String
  architect : Option String
  executor : Option String
  profileName : Option String
  sandboxRoot : String
deriving DecidableEq, Repr

structure SimonState where
  messages : List Message := []
  task : String := ""
  runId : Option String := none
  plan : Option PlanField := none
  executorOutput : Option ResultField := none
  humanFeedback : Option String := none
  hotContext : Option String := none
  observationContext : Option String := none
  strategyHint : Option StrategyHint := none
  conversationSummary : Option String := none
  toolResult : Option ToolExecutionResult := none
  routerEscalated : Option Bool := none
  backendBinding : Option BackendBinding := none
deriving Repr

/-- A partial state: `none` leaves a channel alone. `messages` are appended,
after the oldest `removed` of the channel are dropped. -/
structure StateUpdate where
  messages : List Message := []
  removed : Nat := 0
  task : Option String := none
  runId : Option (Option String) := none
  plan : Option (Option PlanField) := none
  executorOutput : Option (Option ResultField) := none
  humanFeedback : Option (Option String) := none
  hotContext : Option (Option String) := none
  observationContext : Option (Option String) := none
  strategyHint : Option (Option StrategyHint) := none
  conversationSummary : Option (Option String) := none
  toolResult : Option (Option ToolExecutionResult) := none
  routerEscalated : Option Bool := none
  backendBinding : Option (Option BackendBinding) := none
deriving Repr

namespace SimonState

/-- Write the channels an update names. -/
def apply (s : SimonState) (u : StateUpdate) : SimonState where
  messages := s.messages.drop u.removed ++ u.messages
  task := u.task.getD s.task
  runId := u.runId.getD s.runId
  plan := u.plan.getD s.plan
  executorOutput := u.executorOutput.getD s.executorOutput
  humanFeedback := u.humanFeedback.getD s.humanFeedback
  hotContext := u.hotContext.getD s.hotContext
  observationContext := u.observationContext.getD s.observationContext
  strategyHint := u.strategyHint.getD s.strategyHint
  conversationSummary := u.conversationSummary.getD s.conversationSummary
  toolResult := u.toolResult.getD s.toolResult
  routerEscalated := u.routerEscalated <|> s.routerEscalated
  backendBinding := u.backendBinding.getD s.backendBinding

variable (s : SimonState) (u : StateUpdate)

@[simp] theorem apply_task : (s.apply u).task = u.task.getD s.task := rfl

@[simp] theorem apply_plan : (s.apply u).plan = u.plan.getD s.plan := rfl

@[simp] theorem apply_executorOutput :
    (s.apply u).executorOutput = u.executorOutput.getD s.executorOutput := rfl

@[simp] theorem apply_humanFeedback :
    (s.apply u).humanFeedback = u.humanFeedback.getD s.humanFeedback := rfl

@[simp] theorem apply_toolResult :
    (s.apply u).toolResult = u.toolResult.getD s.toolResult := rfl

@[simp] theorem apply_routerEscalated :
    (s.apply u).routerEscalated = (u.routerEscalated <|> s.routerEscalated) := rfl

/-- `isinstance(state.get("plan"), (PlanArtifact, ArchitectBrief))`. -/
def planArtifact? : Option PlanArtifact :=
  match s.plan with
  | some (.artifact p) => some p
  | _ => none

/-- A completed `ExecutionResult` in `executor_output`. -/
def executorCompleted : Bool :=
  match s.executorOutput with
  | some (.report r) => r.success
  | _ => false

/-- A text in `executor_output`, from before reports existed. -/
def executorText : Bool :=
  match s.executorOutput with
  | some (.text _) => true
  | _ => false

variable {s}

theorem planArtifact?_eq_some_iff {p : PlanArtifact} :
    s.planArtifact? = some p ↔ s.plan = some (.artifact p) := by
  unfold planArtifact?
  split <;> simp_all

theorem executorCompleted_iff :
    s.executorCompleted = true ↔ ∃ r, s.executorOutput = some (.report r) ∧ r.success = true := by
  unfold executorCompleted
  split <;> simp_all

theorem executorCompleted_of_none (h : s.executorOutput = none) : s.executorCompleted = false := by
  simp only [executorCompleted, h]

theorem executorText_of_none (h : s.executorOutput = none) : s.executorText = false := by
  simp only [executorText, h]

end SimonState

end AgentOs
