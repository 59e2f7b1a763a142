import AgentOs.Lib.Erasure
import AgentOs.Server.RunExecutor

/-!
What a self-check decides: nothing (`nodes/executor.py`).

`_attach_self_check` means to leave the control flow of the graph alone. `self_check_silent` is that
for whole runs: whatever the self-checks say instead, the same nodes are visited in states that differ
in the self-check of the report only, and the same outcome is recorded.
-/

namespace AgentOs

open AgentOs.Lib

/-! ### Without the self-check -/

/-- An output without its self-check. -/
def ResultField.unchecked : ResultField → ResultField
  | .report r => .report { r with selfCheck := [] }
  | .text s => .text s

def SimonState.unchecked (s : SimonState) : SimonState :=
  { s with executorOutput := s.executorOutput.map ResultField.unchecked }

def NodeResult.unchecked (result : NodeResult) : NodeResult :=
  { result with update :=
      { result.update with executorOutput :=
          result.update.executorOutput.map fun output => output.map ResultField.unchecked } }

section Nodes

variable {H ω : Type} {s : SimonState} {tools : Toolbox H}

/-- The same outside with other self-checks. -/
def Outside.recheck (check : Outside H ω → ExecutionResult → Dict) (o : Outside H ω) : Outside H ω :=
  { o with executor := { o.executor with selfCheck := check o } }

/-- The same outside without self-checks. -/
def Outside.unchecked (o : Outside H ω) : Outside H ω :=
  o.recheck fun _ _ => []

theorem SimonState.unchecked_apply (u : NodeResult) :
    (s.apply u.update).unchecked = s.unchecked.apply u.unchecked.update := by
  obtain ⟨u, goto⟩ := u
  cases written : u.executorOutput <;>
    simp only [unchecked, apply, NodeResult.unchecked, written, Option.map_none, Option.map_some,
      Option.getD_none, Option.getD_some]

/-- A route does not depend on a self-check. -/
theorem route_unchecked : routeFromState s.unchecked = routeFromState s := by
  have completed : s.unchecked.executorCompleted = s.executorCompleted := by
    unfold SimonState.executorCompleted SimonState.unchecked
    rcases s.executorOutput with _ | _ | _ <;> rfl
  have text : s.unchecked.executorText = s.executorText := by
    unfold SimonState.executorText SimonState.unchecked
    rcases s.executorOutput with _ | _ | _ <;> rfl
  unfold routeFromState
  rw [completed, text]
  rfl

/-- An edge does not depend on a self-check. -/
theorem nextNode_unchecked (n : Node) (result : NodeResult) :
    nextNode n s result = nextNode n s.unchecked result.unchecked := by
  cases n <;> simp only [nextNode, destinations, conditionalEdges, route_unchecked] <;> rfl

theorem attachSelfCheck_unchecked (report : ExecutionResult) (plan : PlanArtifact) (check : Dict) :
    ResultField.unchecked (.report (attachSelfCheck report plan check)) =
      ResultField.unchecked (.report report) := by
  unfold attachSelfCheck
  split <;> rfl

/-- No node but the executor looks at a self-check. -/
theorem runNode_unchecked {n : Node} (other : n ≠ .executor) (o : Outside H ω) :
    runNode tools n s.unchecked o.unchecked = runNode tools n s o := by
  cases n with
  | planner | architect | humanGate => rfl
  | supervisor => simp only [runNode, supervisorGoto, route_unchecked]
  | executor => exact absurd rfl other
  | toolDispatcher => rfl

variable (s tools) in
/-- An executor does the same, but for its self-check. -/
theorem executor_unchecked (o : Outside H ω) (replies : List String) (w : ω) :
    (runNode tools .executor s o replies w).1.map NodeResult.unchecked =
        (runNode tools .executor s.unchecked o.unchecked replies w).1.map NodeResult.unchecked ∧
      (runNode tools .executor s o replies w).2.2 =
        (runNode tools .executor s.unchecked o.unchecked replies w).2.2 := by
  have planned : s.unchecked.planArtifact? = s.planArtifact? := rfl
  have agent : o.unchecked.executor.agent = o.executor.agent := rfl
  simp only [runNode, executorNode, planned, agent]
  cases s.planArtifact? with
  | none => exact ⟨rfl, rfl⟩
  | some plan =>
      dsimp only
      cases o.executor.agent plan with
      | error e => exact ⟨rfl, rfl⟩
      | ok report =>
          have written (check : Dict) : NodeResult.unchecked { update :=
              { executorOutput := some (some (.report (attachSelfCheck report plan check))) } } =
                NodeResult.unchecked { update :=
                  { executorOutput := some (some (.report report)) } } := by
            unfold NodeResult.unchecked
            simp only [Option.map_some, attachSelfCheck_unchecked]
          exact ⟨congrArg Exit.done ((written _).trans (written _).symm), rfl⟩

variable (ω tools) in
/-- Self-checks can be left out unseen. -/
def checkErasure : (agentGraph ω tools).Erasure where
  state := SimonState.unchecked
  update := NodeResult.unchecked
  outside := Outside.unchecked
  commit s u := SimonState.unchecked_apply u
  next n s u := nextNode_unchecked n u
  node n s s' o o' replies w state outside := by
    change ((runNode tools n s o replies w).1.map _ = (runNode tools n s' o' replies w).1.map _) ∧
      (runNode tools n s o replies w).2.2 = (runNode tools n s' o' replies w).2.2
    by_cases executor : n = .executor
    · subst executor
      obtain ⟨exits, worlds⟩ := executor_unchecked s tools o replies w
      obtain ⟨exits', worlds'⟩ := executor_unchecked s' tools o' replies w
      rw [state, outside] at exits worlds
      exact ⟨exits.trans exits'.symm, worlds.trans worlds'.symm⟩
    · rw [← runNode_unchecked executor o, state, outside, runNode_unchecked executor o']
      exact ⟨rfl, rfl⟩

theorem recordedOutcome_unchecked (t : AgentThread ω) :
    recordedOutcome ((checkErasure ω tools).thread t) = recordedOutcome t := rfl

end Nodes

end AgentOs
