import AgentOs.Graph.Inputs

/-!
Two runs that see the same channels.

`Alike` relates states that agree on every channel a node reads. No node reads
`tool_result`, and of `router_escalated` and `plan` only a test is read
(`runNode_congr`), so alike threads given the same calls visit the same nodes
and end each visit alike (`parallel_run`).
-/

namespace AgentOs

open AgentOs.Lib

/-- States that no node tells apart. -/
structure SimonState.Alike (s s' : SimonState) : Prop where
  task : s.task = s'.task
  artifact : s.planArtifact? = s'.planArtifact?
  output : s.executorOutput = s'.executorOutput
  feedback : s.humanFeedback = s'.humanFeedback
  hotContext : s.hotContext = s'.hotContext
  strategy : s.strategyHint = s'.strategyHint
  summary : s.conversationSummary = s'.conversationSummary
  escalated : s.routerEscalated = some true ↔ s'.routerEscalated = some true

section States

variable {s s' : SimonState}

theorem SimonState.Alike.symm (h : s.Alike s') : s'.Alike s :=
  ⟨h.task.symm, h.artifact.symm, h.output.symm, h.feedback.symm, h.hotContext.symm,
    h.strategy.symm, h.summary.symm, h.escalated.symm⟩

/-- The same update keeps states alike. -/
theorem SimonState.Alike.apply (h : s.Alike s') (u : StateUpdate) :
    (s.apply u).Alike (s'.apply u) where
  task := congrArg u.task.getD h.task
  artifact := by
    have artifact := h.artifact
    cases hu : u.plan with
    | none => simpa [SimonState.planArtifact?, hu] using artifact
    | some plan => simp [SimonState.planArtifact?, hu]
  output := congrArg u.executorOutput.getD h.output
  feedback := congrArg u.humanFeedback.getD h.feedback
  hotContext := congrArg u.hotContext.getD h.hotContext
  strategy := congrArg u.strategyHint.getD h.strategy
  summary := congrArg u.conversationSummary.getD h.summary
  escalated := by
    cases hu : u.routerEscalated with
    | none => simpa [hu] using h.escalated
    | some b => simp [hu]

theorem SimonState.Alike.route (h : s.Alike s') : routeFromState s = routeFromState s' := by
  have completed : s.executorCompleted = s'.executorCompleted := by
    simp only [SimonState.executorCompleted, h.output]
  have text : s.executorText = s'.executorText := by
    simp only [SimonState.executorText, h.output]
  by_cases escalated : s'.routerEscalated = some true
  · simp only [routeFromState, completed, text, h.artifact, h.feedback, h.escalated.mpr escalated,
      escalated]
  · simp only [routeFromState, completed, text, h.artifact, h.feedback,
      mt h.escalated.mp escalated, escalated]

variable {H ω : Type} {tools : Toolbox H}

/-- No node tells alike states apart. -/
theorem runNode_congr (h : s.Alike s') (n : Node) (o : Outside H ω) :
    runNode tools n s o = runNode tools n s' o := by
  have planning : planningTask s = planningTask s' := by
    simp only [planningTask, h.task, h.feedback]
  cases n with
  | planner => simp only [runNode, plannerNode, h.artifact, h.task, h.hotContext]
  | supervisor => simp only [runNode, supervisorGoto, h.route]
  | architect =>
      simp only [runNode, architectNode, architectPrompt, planning, h.hotContext, h.strategy,
        h.summary]
  | humanGate => simp only [runNode, humanGateNode, h.artifact]
  | executor => simp only [runNode, executorNode, h.artifact]
  | toolDispatcher => simp only [runNode, dispatch_congr h.task]

theorem nextNode_congr (h : s.Alike s') (n : Node) (result : NodeResult) :
    nextNode n s result = nextNode n s' result := by
  cases n <;> simp only [nextNode, destinations, conditionalEdges, h.route]

end States

/-- Threads at the same place in alike states, after visits of the same nodes. -/
structure Parallel {ω : Type} (a b : AgentThread ω) : Prop extends Workflow.Abreast a b where
  state : a.state.Alike b.state
  world : a.world = b.world
  nodes : a.trail.map (·.node) = b.trail.map (·.node)

section Threads

variable {H ω : Type} {tools : Toolbox H} {a b : AgentThread ω}

theorem Parallel.symm (h : Parallel a b) : Parallel b a :=
  ⟨⟨h.next.symm, h.pending.symm, h.replies.symm, h.failure.symm⟩, h.state.symm, h.world.symm,
    h.nodes.symm⟩

variable (tools) in
/-- How a visit of `n` closes on two parallel threads: with one and the same
exit. -/
theorem parallel_close (h : Parallel a b) (n : Node) (replies : List String) (o : Outside H ω) :
    ∃ exit w, (agentGraph ω tools).visit a n replies o =
        (agentGraph ω tools).close a ⟨n, a.state, replies, exit⟩ w ∧
      (agentGraph ω tools).visit b n replies o =
        (agentGraph ω tools).close b ⟨n, b.state, replies, exit⟩ w := by
  refine ⟨_, _, rfl, ?_⟩
  simp only [Workflow.visit, Workflow.visitOf]
  rw [show (agentGraph ω tools).node n b.state o = (agentGraph ω tools).node n a.state o from
    (runNode_congr h.state n o).symm, h.world]

/-- **Step lemma.** A visit keeps threads parallel. -/
theorem parallel_visit (h : Parallel a b) (n : Node) (replies : List String) (o : Outside H ω) :
    Parallel ((agentGraph ω tools).visit a n replies o)
      ((agentGraph ω tools).visit b n replies o) := by
  obtain ⟨exit, w, closedA, closedB⟩ := parallel_close tools h n replies o
  rw [closedA, closedB]
  have nodes : ∀ v v' : AgentVisit, v.node = v'.node →
      (a.trail ++ [v]).map (·.node) = (b.trail ++ [v']).map (·.node) := by
    intro v v' same
    simp [h.nodes, same]
  cases exit with
  | done result =>
      exact ⟨⟨nextNode_congr (h.state.apply result.update) n result, rfl, rfl, rfl⟩,
        h.state.apply result.update, rfl, nodes _ _ rfl⟩
  | paused prompt => exact ⟨⟨h.next, rfl, rfl, rfl⟩, h.state, rfl, nodes _ _ rfl⟩
  | raised e => exact ⟨⟨h.next, h.pending, h.replies, rfl⟩, h.state, rfl, nodes _ _ rfl⟩

/-- Parallel threads make the same runs. -/
theorem parallel_run (h : Parallel a b) {calls : List (Call (Outside H ω) String String)}
    {t : AgentThread ω} (run : Machine.Path (agentMachine ω tools) Machine.Free a calls t) :
    ∃ t', Machine.Path (agentMachine ω tools) Machine.Free b calls t' ∧ Parallel t t' :=
  Workflow.lockstep (R := Parallel) (fun h => h.toAbreast)
    (fun h _ _ => parallel_visit h _ _ _)
    (fun h => ⟨⟨h.next, h.pending, h.replies, rfl⟩, h.state, h.world, h.nodes⟩) run h

end Threads

end AgentOs
