import AgentOs.Graph.ToolDispatcher

/-!
The remaining nodes (`nodes/planner.py`, `nodes/supervisor.py`,
`nodes/architect.py`, `nodes/executor.py`).

What a node asks of the outside (context providers, agents, a summariser) is an
argument of the node. What it does with the answer, and what it requires of the
state first, is the node.
-/

namespace AgentOs

open AgentOs.Lib

/-! ### Planner -/

/-- Context loaded for a task, and the limit on the stored text. -/
structure InjectedContext where
  text : String
  maxChars : Int
deriving DecidableEq, Repr

/-- `existing_hot` and the injected text, cut to the limit. -/
def combineContext (existing : Option String) (injected : InjectedContext) : String :=
  let existingHot := existing.getD ""
  Text.sliceTo
    (if existingHot = "" then injected.text else existingHot ++ "\n\n" ++ injected.text)
    injected.maxChars

/-- `planner_node`. `injected` is `none` where no provider is configured or
loading fails. -/
def plannerNode (injected : Option InjectedContext) (state : SimonState) : StateUpdate where
  plan := if state.planArtifact?.isSome then none else some (some (.text state.task))
  hotContext :=
    match injected with
    | none => none
    | some context =>
        if context.text = "" then none
        else some (some (combineContext state.hotContext context))

/-- Planning keeps an artifact, and makes none. -/
theorem planArtifact?_planned (injected : Option InjectedContext) (s : SimonState) :
    (s.apply (plannerNode injected s)).planArtifact? = s.planArtifact? := by
  unfold SimonState.planArtifact?
  simp only [SimonState.apply_plan, plannerNode]
  cases h : s.planArtifact? with
  | none => simp only [SimonState.planArtifact?] at h; simp [h]
  | some plan => rw [SimonState.planArtifact?_eq_some_iff.mp h]; rfl

/-! ### Supervisor -/

/-- `supervisor_node`: where its command goes. -/
def supervisorGoto (state : SimonState) : Target :=
  routeToNode (routeFromState state)

/-! ### Architect -/

/-- What the architect asks for. `loadedContext` is used where the state has
none, `summarized` is a new summary with the number of old messages it replaces,
and `agent` answers the prompt. -/
structure ArchitectOutside where
  loadedContext : String := ""
  summarized : Option (String × Nat) := none
  agent : String → Except String PlanArtifact

/-- The task with the rejection it has to take into account. -/
def planningTask (state : SimonState) : String :=
  match state.humanFeedback with
  | some feedback =>
      if isRejection (some feedback) then
        state.task ++ "\n\nPrevious plan was rejected with feedback:\n" ++ feedback
      else state.task
  | none => state.task

/-- The strategy section of the prompt. -/
def strategySection (hint : StrategyHint) : String :=
  "## Planning strategy (fixed and advisory)\nSelected strategy: " ++ hint.strategyId ++
    "\nDirective: " ++ hint.directive ++
    "\nThis directive cannot change permission, tool-safety, or execution constraints."

/-- The prompt the architect's agent is given. -/
def architectPrompt (state : SimonState) (hotContext : String) (summary : Option String) : String :=
  let contextPart := if hotContext = "" then [] else ["## Context (from vault)\n" ++ hotContext]
  let strategyPart := state.strategyHint.toList.map strategySection
  let summaryPart := (summary.filter (· ≠ "")).toList.map fun s =>
    "## Conversation so far (summary)\n" ++ s
  Text.join "\n\n" (planningTask state :: contextPart ++ strategyPart ++ summaryPart)

/-- `architect_node`. -/
def architectNode {ω : Type} (outside : ArchitectOutside) (state : SimonState) :
    Code ω StateUpdate :=
  let hotContext := state.hotContext.getD outside.loadedContext
  let summary := (outside.summarized.map (·.1)).orElse fun _ => state.conversationSummary
  match outside.agent (architectPrompt state hotContext summary) with
  | .error e => Pass.raise e
  | .ok brief => Pass.done
      { plan := some (some (.artifact brief))
        hotContext := some (some hotContext)
        conversationSummary := some summary
        removed := (outside.summarized.map (·.2)).getD 0 }

/-! ### Executor -/

/-- What the executor asks for: its agent's report on a plan, and the self-check
of that report. -/
structure ExecutorOutside where
  agent : PlanArtifact → Except String ExecutionResult
  selfCheck : ExecutionResult → Dict := fun _ => []

/-- `_attach_self_check`: only a plan with a criterion is checked. -/
def attachSelfCheck (report : ExecutionResult) (plan : PlanArtifact) (selfCheck : Dict) :
    ExecutionResult :=
  if plan.acceptanceCriteria.all Text.isBlank then report
  else { report with selfCheck := selfCheck }

/-- `executor_node`. -/
def executorNode {ω : Type} (outside : ExecutorOutside) (state : SimonState) :
    Code ω StateUpdate :=
  match state.planArtifact? with
  | none => Pass.raise "Executor requires a PlanArtifact or ArchitectBrief plan."
  | some plan =>
      match outside.agent plan with
      | .error e => Pass.raise e
      | .ok report => Pass.done
          { executorOutput := some (some (.report
              (attachSelfCheck report plan (outside.selfCheck report)))) }

end AgentOs
