import AgentOs.Graph.Nodes
import AgentOs.Lib.Workflow

/-!
The agent graph (`graph.py`) as a checkpointed workflow.

`destinations` collects every edge that leaves a node: declared edges,
conditional edges, and the goto of a command. A supervisor has both of the last
two; `destinations_agree` shows that no node ever leads to two places, so the
graph runs one node at a time.

`NodeExit` lists how a visit of each node can end and what it then writes, and
`nextNode_…` where the run goes from there. The proofs about runs use these and
none of the node functions.
-/

namespace AgentOs

open AgentOs.Lib

/-- What a node returns: a state update, with a goto where it is a command. -/
structure NodeResult where
  update : StateUpdate
  goto : Option Target := none
deriving Repr

/-- What the outside answers during one visit: loaded context, the router mode of
the environment, the router model, the skills, the architect and the executor. -/
structure Outside (H ω : Type) where
  injected : Option InjectedContext := none
  routerMode : Option String := none
  answer : Except String RouterDecision := .ok .undecided
  invoke : RegisteredSkill H → Dict → Code ω RawOutput := fun _ _ => Pass.raise ""
  architect : ArchitectOutside := { agent := fun _ => .error "" }
  executor : ExecutorOutside := { agent := fun _ => .error "" }

/-- What a graph is built with: its tools. -/
structure Toolbox (H : Type) where
  registry : SkillRegistry H
  parameters : H → List String

section Nodes

variable {H ω : Type} (tools : Toolbox H)

/-- The node functions of `build_graph`. -/
def runNode (n : Node) (state : SimonState) (outside : Outside H ω) : Code ω NodeResult :=
  match n with
  | .planner => return { update := plannerNode outside.injected state }
  | .supervisor => return { update := {}, goto := some (supervisorGoto state) }
  | .architect => do return { update := ← architectNode outside.architect state }
  | .humanGate => do return { update := ← humanGateNode state }
  | .executor => do return { update := ← executorNode outside.executor state }
  | .toolDispatcher => do
      let command ← dispatch tools.registry tools.parameters outside.routerMode outside.answer
        outside.invoke state
      return { update := command.update, goto := some command.goto }

end Nodes

/-! ### Edges -/

/-- `add_edge`. -/
def declaredEdges : Node → List Target
  | .planner => [.node .supervisor]
  | .architect => [.node .humanGate]
  | .humanGate => [.node .supervisor]
  | .executor => [.node .supervisor]
  | .supervisor => []
  | .toolDispatcher => []

/-- `add_conditional_edges`, in the state after the node. -/
def conditionalEdges (n : Node) (state : SimonState) : List Target :=
  match n with
  | .supervisor => [routeToNode (routeFromState state)]
  | _ => []

/-- Every place the graph goes after a node. -/
def destinations (n : Node) (state : SimonState) (result : NodeResult) : List Target :=
  declaredEdges n ++ conditionalEdges n state ++ result.goto.toList

/-- The node behind a target. -/
def Target.node? : Target → Option Node
  | .node n => some n
  | .finish => none

/-- The next node of a run; without one the run is at `END`. -/
def nextNode (n : Node) (state : SimonState) (result : NodeResult) : Option Node :=
  (destinations n state result).findSome? Target.node?

/-- The agent graph. -/
def agentGraph {H : Type} (ω : Type) (tools : Toolbox H) :
    Workflow Node SimonState NodeResult (Outside H ω) ω String String String where
  entry := .planner
  node := runNode tools
  commit state result := state.apply result.update
  next n state result := nextNode n state result

/-- A thread of the agent graph. -/
abbrev AgentThread (ω : Type) := Thread Node SimonState NodeResult ω String String String

/-- A visit of one of its nodes. -/
abbrev AgentVisit := Visit Node SimonState NodeResult String String String

/-! ### How a visit ends -/

@[simp] theorem SimonState.apply_empty (s : SimonState) : s.apply {} = s := by
  cases s with
  | mk messages _ _ _ _ _ _ _ _ _ _ escalated _ =>
      cases escalated <;> simp [SimonState.apply]

/-- The exits of each node in state `s`, with what it writes. -/
inductive NodeExit (s : SimonState) : Node → List String → Exit String String NodeResult → Prop where
  | planned {replies} (injected : Option InjectedContext) :
      NodeExit s .planner replies (.done { update := plannerNode injected s })
  | routed {replies} :
      NodeExit s .supervisor replies (.done { update := {}, goto := some (supervisorGoto s) })
  | drafted {replies} (plan : PlanArtifact) (hot : Option (Option String))
      (summary : Option (Option String)) (removed : Nat) :
      NodeExit s .architect replies (.done { update :=
        { plan := some (some (.artifact plan)), hotContext := hot,
          conversationSummary := summary, removed := removed } })
  | asked {plan} : s.plan = some (.artifact plan) →
      NodeExit s .humanGate [] (.paused (humanGatePrompt plan))
  | answered {plan value rest normalized} : s.plan = some (.artifact plan) →
      normalizeHumanFeedback value = .ok normalized →
      NodeExit s .humanGate (value :: rest)
        (.done { update := { humanFeedback := some (some normalized) } })
  | misread {plan value rest e} : s.plan = some (.artifact plan) →
      normalizeHumanFeedback value = .error e →
      NodeExit s .humanGate (value :: rest) (.raised e)
  | executed {replies plan} (report : ExecutionResult) : s.plan = some (.artifact plan) →
      NodeExit s .executor replies
        (.done { update := { executorOutput := some (some (.report report)) } })
  | escalated {replies} (tool error : Option String) :
      NodeExit s .toolDispatcher replies
        (.done { update := (escalate tool error).update, goto := some (.node .supervisor) })
  | reported {replies} (tool : String) (raw : RawOutput) :
      NodeExit s .toolDispatcher replies
        (.done { update := (reportTool tool raw).update, goto := some .finish })
  | waiting {replies} (prompt : String) : NodeExit s .toolDispatcher replies (.paused prompt)
  | failed {n replies} (e : String) : n ≠ .planner → n ≠ .supervisor →
      NodeExit s n replies (.raised e)

section Exits

variable {H ω : Type} {tools : Toolbox H} {outside : Outside H ω} {s : SimonState}
  {replies : List String} {w : ω}

/-- Returning a node's update does not change how the node ended. -/
private theorem returned_exit {p : Code ω StateUpdate} (f : StateUpdate → NodeResult) :
    ((do return f (← p) : Code ω NodeResult) replies w).1 =
      match (p replies w).1 with
      | .done u => .done (f u)
      | .paused prompt => .paused prompt
      | .raised e => .raised e := by
  rcases h : p replies w with ⟨u | prompt | e, rest, w'⟩
  · rw [Pass.bind_of_done h]
    rfl
  · rw [Pass.bind_of_paused h]
  · rw [Pass.bind_of_raised h]

theorem architect_exit : NodeExit s .architect replies
    (runNode tools .architect s outside replies w).1 := by
  simp only [runNode]
  rw [returned_exit]
  simp only [architectNode]
  cases outside.architect.agent _ with
  | error e => exact .failed e (by decide) (by decide)
  | ok brief => exact .drafted brief _ _ _

theorem humanGate_exit : NodeExit s .humanGate replies
    (runNode tools .humanGate s outside replies w).1 := by
  simp only [runNode]
  rw [returned_exit]
  cases h : s.planArtifact? with
  | none =>
      rw [humanGateNode_without_plan h]
      exact .failed _ (by decide) (by decide)
  | some plan =>
      have hplan := SimonState.planArtifact?_eq_some_iff.mp h
      cases replies with
      | nil =>
          rw [humanGateNode_asks h]
          exact .asked hplan
      | cons value rest =>
          rw [humanGateNode_answers h]
          cases hv : normalizeHumanFeedback value with
          | ok normalized => exact .answered hplan hv
          | error e => exact .misread hplan hv

theorem executor_exit : NodeExit s .executor replies
    (runNode tools .executor s outside replies w).1 := by
  simp only [runNode]
  rw [returned_exit]
  simp only [executorNode]
  cases h : s.planArtifact? with
  | none => exact .failed _ (by decide) (by decide)
  | some plan =>
      simp only
      cases outside.executor.agent plan with
      | error e => exact .failed e (by decide) (by decide)
      | ok report => exact .executed _ (SimonState.planArtifact?_eq_some_iff.mp h)

theorem toolDispatcher_exit : NodeExit s .toolDispatcher replies
    (runNode tools .toolDispatcher s outside replies w).1 := by
  have exits := dispatch_exit tools.registry tools.parameters outside.routerMode outside.answer
    outside.invoke s replies w
  simp only [runNode]
  rcases h : dispatch tools.registry tools.parameters outside.routerMode outside.answer
    outside.invoke s replies w with ⟨command | prompt | e, rest, w'⟩
  · rw [Pass.bind_of_done h]
    rw [h] at exits
    cases exits with
    | escalated tool error => exact .escalated tool error
    | reported tool raw => exact .reported tool raw
  · rw [Pass.bind_of_paused h]
    exact .waiting prompt
  · rw [Pass.bind_of_raised h]
    exact .failed e (by decide) (by decide)

/-- **Node exits.** What each node can do, whatever the outside answers. -/
theorem node_exit (n : Node) : NodeExit s n replies (runNode tools n s outside replies w).1 := by
  cases n with
  | planner => exact .planned _
  | supervisor => exact .routed
  | architect => exact architect_exit
  | humanGate => exact humanGate_exit
  | executor => exact executor_exit
  | toolDispatcher => exact toolDispatcher_exit

variable (tools) in
/-- **Visit inversion.** A visit closes with one of the exits of its node. -/
theorem agent_visit (t : AgentThread ω) (n : Node) (replies : List String)
    (o : Outside H ω) : ∃ exit w', NodeExit t.state n replies exit ∧
      (agentGraph ω tools).visit t n replies o =
        (agentGraph ω tools).close t ⟨n, t.state, replies, exit⟩ w' :=
  ⟨_, _, node_exit n, rfl⟩

/-- No visit leads to two places. -/
theorem destinations_agree {n : Node} {result : NodeResult}
    (h : NodeExit s n replies (.done result)) :
    ∀ d ∈ destinations n (s.apply result.update) result,
      ∀ d' ∈ destinations n (s.apply result.update) result, d = d' := by
  cases h <;> simp [destinations, declaredEdges, conditionalEdges, supervisorGoto]

end Exits

/-! ### Where a visit leads -/

section Next

variable {s : SimonState}

theorem nextNode_supervisor :
    nextNode .supervisor s { update := {}, goto := some (supervisorGoto s) } =
      (routeToNode (routeFromState s)).node? := by
  cases h : routeToNode (routeFromState s) <;>
    simp [nextNode, destinations, declaredEdges, conditionalEdges, supervisorGoto, h,
      Target.node?, List.findSome?]

/-- A visit of the supervisor changes no channel and follows the route. -/
theorem close_routed {H ω : Type} {tools : Toolbox H} (t : AgentThread ω) (replies : List String)
    (w : ω) :
    (agentGraph ω tools).close t ⟨.supervisor, t.state, replies,
        .done { update := {}, goto := some (supervisorGoto t.state) }⟩ w =
      { state := t.state, next := (routeToNode (routeFromState t.state)).node?, world := w,
        trail := t.trail ++ [⟨.supervisor, t.state, replies,
          .done { update := {}, goto := some (supervisorGoto t.state) }⟩] } := by
  simp only [Workflow.close, agentGraph, SimonState.apply_empty, nextNode_supervisor]

end Next

end AgentOs
