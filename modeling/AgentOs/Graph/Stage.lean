import AgentOs.Graph.Inputs

/-!
Where a run stands.

`Gated` says what the routing channels can hold: feedback, output and an
artifact exist only on an escalated task, and only such a task gets past the
dispatcher. Every visit keeps it (`gated_visit`), and so does every new input.

`Stage` adds what holds of a single run that starts unescalated. It leaves
planning and review only through a completed execution (`Stage.ended`).
-/

namespace AgentOs

open AgentOs.Lib

structure Gated {ω : Type} (t : AgentThread ω) : Prop where
  /-- no text is ever written to the output -/
  noText : t.state.executorText = false
  /-- an unescalated task has no feedback, no output and no artifact -/
  untouched : t.state.routerEscalated ≠ some true →
    t.state.humanFeedback = none ∧ t.state.executorOutput = none ∧ t.state.planArtifact? = none
  /-- architect, gate and executor act on an escalated task -/
  review : ∀ n, t.next = some n → n = .architect ∨ n = .humanGate ∨ n = .executor →
    t.state.routerEscalated = some true
  /-- the dispatcher acts on an unescalated one -/
  dispatch : t.next = some .toolDispatcher → t.state.routerEscalated ≠ some true

structure Stage {ω : Type} (t : AgentThread ω) : Prop extends Gated t where
  planner : t.next = some .planner → t.state.routerEscalated ≠ some true
  /-- a plan that comes before the supervisor is decided about -/
  supervisor : t.next = some .supervisor → t.state.planArtifact?.isSome = true →
    t.state.humanFeedback = some "approved" ∨ isRejection t.state.humanFeedback = true
  executor : t.next = some .executor → t.state.humanFeedback = some "approved"
  ended : t.next = none →
    t.state.routerEscalated = some false ∨
      t.state.routerEscalated = some true ∧ t.state.executorCompleted = true

theorem isRejection_rejected (reason : String) :
    isRejection (some ("rejected: " ++ reason)) = true := by
  simp only [isRejection, Text.startsWith, String.toList_append]
  rfl

/-- A normalised answer is an approval or a rejection. -/
theorem answer_decides {value normalized : String}
    (h : normalizeHumanFeedback value = .ok normalized) :
    normalized = "approved" ∨ isRejection (some normalized) = true := by
  have answer := normalizeHumanFeedback_cases value
  rw [h] at answer
  cases answer with
  | approved => exact .inl rfl
  | rejected reason => exact .inr (isRejection_rejected reason)

/-- A task without feedback, output and artifact that is not escalated goes to
the dispatcher. -/
theorem route_of_untouched {s : SimonState} (feedback : s.humanFeedback = none)
    (output : s.executorOutput = none) (plan : s.planArtifact? = none)
    (escalated : s.routerEscalated ≠ some true) : routeFromState s = .tool := by
  refine route_tool_iff.mpr ⟨SimonState.executorCompleted_of_none output, ?_, ?_,
    SimonState.executorText_of_none output, plan, escalated⟩ <;> simp [feedback, isRejection]

section Steps

variable {H ω : Type} {tools : Toolbox H} {t : AgentThread ω}

/-- The channels decide, not the history. -/
theorem Gated.congr {t' : AgentThread ω} (gated : Gated t) (next : t'.next = t.next)
    (state : t'.state = t.state) : Gated t' where
  noText := state ▸ gated.noText
  untouched := state ▸ gated.untouched
  review := fun n hn place => state ▸ gated.review n (next ▸ hn) place
  dispatch := fun hn => state ▸ gated.dispatch (next ▸ hn)

/-- The supervisor sends an unescalated task to the dispatcher. -/
theorem Gated.route (gated : Gated t) (escalated : t.state.routerEscalated ≠ some true) :
    routeFromState t.state = .tool := by
  obtain ⟨feedback, output, plan⟩ := gated.untouched escalated
  exact route_of_untouched feedback output plan escalated

variable (tools) in
/-- **Step lemma.** Every visit keeps the gate. -/
theorem gated_visit (gated : Gated t) {n : Node} (hn : t.next = some n) (replies : List String)
    (o : Outside H ω) : Gated ((agentGraph ω tools).visit t n replies o) := by
  obtain ⟨exit, w', exits, closed⟩ := agent_visit tools t n replies o
  rw [closed]
  cases exits with
  | planned injected =>
      have kept := planArtifact?_planned injected t.state
      refine ⟨gated.noText, fun fresh => ?_, ?_, nofun⟩
      · obtain ⟨feedback, output, plan⟩ := gated.untouched fresh
        exact ⟨feedback, output, kept.trans plan⟩
      · rintro n next (rfl | rfl | rfl) <;> cases next
  | routed =>
      rw [close_routed]
      refine ⟨gated.noText, gated.untouched, fun n next place => ?_, fun next => ?_⟩
      · by_contra fresh
        rw [gated.route fresh] at next
        cases next
        rcases place with h | h | h <;> cases h
      · cases hr : routeFromState t.state <;> rw [hr] at next <;> cases next
        exact (route_tool_iff.mp hr).2.2.2.2.2
  | drafted plan hot summary removed =>
      have escalated := gated.review _ hn (.inl rfl)
      exact ⟨gated.noText, fun fresh => absurd escalated fresh, fun _ _ _ => escalated, nofun⟩
  | asked hplan => exact gated.congr rfl rfl
  | answered hplan hv =>
      have escalated := gated.review _ hn (.inr (.inl rfl))
      exact ⟨gated.noText, fun fresh => absurd escalated fresh, fun _ _ _ => escalated, nofun⟩
  | misread hplan hv => exact gated.congr rfl rfl
  | executed report hplan =>
      have escalated := gated.review _ hn (.inr (.inr rfl))
      exact ⟨rfl, fun fresh => absurd escalated fresh, fun _ _ _ => escalated, nofun⟩
  | escalated tool error =>
      exact ⟨gated.noText, fun fresh => absurd rfl fresh, fun _ _ _ => rfl, nofun⟩
  | reported tool raw =>
      exact ⟨gated.noText, fun _ => gated.untouched (gated.dispatch hn), nofun, nofun⟩
  | waiting prompt => exact gated.congr rfl rfl
  | failed e planner supervisor => exact gated.congr rfl rfl

theorem gated_step (gated : Gated t) {call : Call (Outside H ω) String String}
    {t' : AgentThread ω} (step : (agentMachine ω tools).step t call = some t') : Gated t' := by
  cases Workflow.step_iff.mp step with
  | execute hn _ => exact gated_visit _ gated hn _ _
  | resume hn _ => exact gated_visit _ gated hn _ _
  | fail _ => exact gated.congr rfl rfl

/-- The channels decide, not the history. -/
theorem Stage.congr {t' : AgentThread ω} (stage : Stage t) (next : t'.next = t.next)
    (state : t'.state = t.state) : Stage t' where
  toGated := stage.toGated.congr next state
  planner := fun hn => state ▸ stage.planner (next ▸ hn)
  supervisor := fun hn => state ▸ stage.supervisor (next ▸ hn)
  executor := fun hn => state ▸ stage.executor (next ▸ hn)
  ended := fun hn => state ▸ stage.ended (next ▸ hn)

/-- A supervisor ends the run only on a completed execution. -/
theorem Stage.completed_of_finish (stage : Stage t) (hn : t.next = some .supervisor)
    (finish : routeFromState t.state = .finish) :
    t.state.routerEscalated = some true ∧ t.state.executorCompleted = true := by
  have escalated : t.state.routerEscalated = some true := by
    by_contra fresh
    rw [stage.route fresh] at finish
    cases finish
  refine ⟨escalated, ?_⟩
  -- an undecided plan or a text cannot end the run here
  rcases route_finish_iff.mp finish with completed | ⟨notApproved, notRejected, text | drafted⟩
  · exact completed
  · exact nomatch stage.noText.symm.trans text
  · rcases stage.supervisor hn drafted with approved | rejected
    · exact absurd approved notApproved
    · exact nomatch notRejected.symm.trans rejected

/-- **Step lemma.** Every visit leads to a stage. -/
theorem stage_visit (stage : Stage t) {n : Node} (hn : t.next = some n) (replies : List String)
    (o : Outside H ω) : Stage ((agentGraph ω tools).visit t n replies o) := by
  have gated := gated_visit tools stage.toGated hn replies o
  obtain ⟨exit, w', exits, closed⟩ := agent_visit tools t n replies o
  rw [closed] at gated ⊢
  cases exits with
  | planned injected =>
      refine ⟨gated, nofun, fun _ drafted => ?_, nofun, nofun⟩
      have plan := (stage.untouched (stage.planner hn)).2.2
      exact nomatch (congrArg Option.isSome ((planArtifact?_planned injected _).trans plan)).symm.trans
        drafted
  | routed =>
      rw [close_routed] at gated ⊢
      refine ⟨gated, ?_, ?_, ?_, ?_⟩ <;> intro next <;>
        cases hr : routeFromState t.state <;> rw [hr] at next <;> cases next
      · exact (route_executor_iff.mp hr).2
      · exact .inr (stage.completed_of_finish hn hr)
  | drafted plan hot summary removed => exact ⟨gated, nofun, nofun, nofun, nofun⟩
  | asked hplan => exact stage.congr rfl rfl
  | answered hplan hv =>
      exact ⟨gated, nofun, fun _ _ => (answer_decides hv).imp (congrArg some) id, nofun, nofun⟩
  | misread hplan hv => exact stage.congr rfl rfl
  | executed report hplan =>
      exact ⟨gated, nofun, fun _ _ => .inl (stage.executor hn), nofun, nofun⟩
  | escalated tool error =>
      refine ⟨gated, nofun, fun _ drafted => ?_, nofun, nofun⟩
      have plan := (stage.untouched (stage.dispatch hn)).2.2
      have undrafted : (t.state.apply (escalate tool error).update).planArtifact? = none := plan
      exact nomatch (congrArg Option.isSome undrafted).symm.trans drafted
  | reported tool raw => exact ⟨gated, nofun, nofun, nofun, fun _ => .inl rfl⟩
  | waiting prompt => exact stage.congr rfl rfl
  | failed e planner supervisor => exact stage.congr rfl rfl

theorem stage_step (stage : Stage t) {call : Call (Outside H ω) String String}
    {t' : AgentThread ω} (step : (agentMachine ω tools).step t call = some t') : Stage t' := by
  cases Workflow.step_iff.mp step with
  | execute hn _ => exact stage_visit stage hn _ _
  | resume hn _ => exact stage_visit stage hn _ _
  | fail _ => exact stage.congr rfl rfl

/-- A server task starts a stage, unless its thread is escalated. -/
theorem stage_start (setup : RunSetup) (task : String) (runId : Option String)
    (escalated : t.state.routerEscalated ≠ some true) :
    Stage (startRun tools t setup task runId) where
  noText := rfl
  untouched := fun _ => ⟨rfl, rfl, rfl⟩
  review := by rintro n next (rfl | rfl | rfl) <;> cases next
  dispatch := nofun
  planner := fun _ => escalated
  supervisor := nofun
  executor := nofun
  ended := nofun

end Steps

end AgentOs
