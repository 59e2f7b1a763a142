import AgentOs.Graph.Inputs
import AgentOs.Lib.Desk

/-!
No execution without approval of that plan.

`Reviewed` is the invariant of a run: while the feedback channel says
`"approved"`, the run is past the gate, the plan is the one the last answered
prompt showed, and nothing that writes the plan can be reached. `reviewed_visit`
is its step lemma, one case for each exit of a node, and
`executor_runs_approved_plan` reads the result off the history of a whole run.

`agent_refines_desk` says what the graph is for in abstract terms: its runs are
runs of an approval desk on which the architect lays plans, the gate grants or
refuses them and the executor performs them.
-/

namespace AgentOs

open AgentOs.Lib

/-! ### Reading the history -/

/-- A visit that gave the gate a reply. -/
def isAnswer (v : AgentVisit) : Bool :=
  v.node = .humanGate && !v.replies.isEmpty

/-- The most recent visit that gave the gate a reply. -/
def lastAnswer : List AgentVisit → Option AgentVisit :=
  latest fun v => if isAnswer v then some v else none

/-- The prompt a visit of the gate stopped at. -/
def askedPrompt (v : AgentVisit) : Option String :=
  match v.node, v.exit with
  | .humanGate, .paused prompt => some prompt
  | _, _ => none

/-- The prompt the gate showed most recently. -/
def lastAsked : List AgentVisit → Option String :=
  latest askedPrompt

/-- After `before`, the plan is approved: the gate's last answer was an approval
of this plan, given to a prompt that showed it. -/
def Approved (before : List AgentVisit) (plan : PlanArtifact) : Prop :=
  ∃ gate value, lastAnswer before = some gate ∧ gate.replies = [value] ∧
    normalizeHumanFeedback value = .ok "approved" ∧
    gate.state.plan = some (.artifact plan) ∧ lastAsked before = some (humanGatePrompt plan)

/-- An executor visit that runs a plan approved before it. -/
def RunsApprovedPlan (before : List AgentVisit) (v : AgentVisit) : Prop :=
  v.node = .executor → ∃ plan, v.state.plan = some (.artifact plan) ∧ Approved before plan

section History

variable {trail : List AgentVisit} {v : AgentVisit} {plan : PlanArtifact}

theorem lastAnswer_concat :
    lastAnswer (trail ++ [v]) = if isAnswer v then some v else lastAnswer trail := by
  unfold lastAnswer
  rw [latest_concat]
  split <;> rfl

theorem lastAsked_concat :
    lastAsked (trail ++ [v]) = (askedPrompt v).or (lastAsked trail) :=
  latest_concat

theorem isAnswer_of_node (h : v.node ≠ .humanGate) : isAnswer v = false := by
  simp [isAnswer, h]

theorem askedPrompt_of_node (h : v.node ≠ .humanGate) : askedPrompt v = none := by
  unfold askedPrompt
  split
  · contradiction
  · rfl

/-- A visit of another node leaves an approval standing. -/
theorem Approved.concat (h : Approved trail plan) (other : v.node ≠ .humanGate) :
    Approved (trail ++ [v]) plan := by
  obtain ⟨gate, value, answer, replies, approved, shown, asked⟩ := h
  refine ⟨gate, value, ?_, replies, approved, shown, ?_⟩
  · rw [lastAnswer_concat, isAnswer_of_node other, if_neg Bool.false_ne_true, answer]
  · rw [lastAsked_concat, askedPrompt_of_node other, Option.none_or, asked]

end History

/-! ### The invariant -/

variable {H ω : Type} {tools : Toolbox H}

/-- What holds of a run from `initial_state`, between any two calls. -/
structure Reviewed (t : AgentThread ω) : Prop where
  /-- every executor visit so far ran an approved plan -/
  history : EachVisit RunsApprovedPlan t.trail
  /-- an approval stands only past the gate, for the plan in the state -/
  standing : t.state.humanFeedback = some "approved" →
    (t.next = some .supervisor ∨ t.next = some .executor ∨ t.next = none) ∧
      ∃ plan, t.state.plan = some (.artifact plan) ∧ Approved t.trail plan
  /-- the executor is next only on an approval -/
  entry : t.next = some .executor → t.state.humanFeedback = some "approved"
  /-- at the gate no reply has been used, and a pending prompt shows the plan -/
  gate : t.next = some .humanGate → t.replies = [] ∧
    ∀ prompt, t.pending = some prompt →
      ∃ plan, t.state.plan = some (.artifact plan) ∧ prompt = humanGatePrompt plan ∧
        lastAsked t.trail = some prompt

section Steps

variable {t : AgentThread ω}

/-- The history after a visit of a node other than the executor. -/
private theorem history_concat {v : AgentVisit} (h : EachVisit RunsApprovedPlan t.trail)
    (other : v.node ≠ .executor) : EachVisit RunsApprovedPlan (t.trail ++ [v]) :=
  eachVisit_concat.mpr ⟨h, fun isExecutor => absurd isExecutor other⟩

/-- The history after an executor visit. -/
private theorem history_execute {v : AgentVisit} (inv : Reviewed t)
    (hn : t.next = some .executor) (state : v.state = t.state) :
    EachVisit RunsApprovedPlan (t.trail ++ [v]) := by
  refine eachVisit_concat.mpr ⟨inv.history, fun _ => ?_⟩
  obtain ⟨plan, hplan, approved⟩ := (inv.standing (inv.entry hn)).2
  exact ⟨plan, state ▸ hplan, approved⟩

/-- No approval stands where the planner, the architect, the gate or the
dispatcher is next. -/
theorem Reviewed.no_approval (inv : Reviewed t) {n : Node} (hn : t.next = some n)
    (supervisor : n ≠ .supervisor) (executor : n ≠ .executor) :
    t.state.humanFeedback ≠ some "approved" := by
  intro approved
  have := (inv.standing approved).1
  simp [hn, supervisor, executor] at this

/-- A visit that raises, or that fails outside any node, changes no checkpoint. -/
private theorem reviewed_raised (inv : Reviewed t) {n : Node} (hn : t.next = some n)
    {replies : List String} {e : String} {w : ω} (feedback : t.state.humanFeedback ≠
      some "approved" ∨ n ≠ .humanGate) :
    Reviewed { t with failure := some e, world := w,
                      trail := t.trail ++ [⟨n, t.state, replies, .raised e⟩] } where
  history := by
    by_cases h : n = .executor
    · exact history_execute inv (h ▸ hn) rfl
    · exact history_concat inv.history h
  standing approved := by
    obtain ⟨place, plan, hplan, before⟩ := inv.standing approved
    have other : n ≠ .humanGate := feedback.resolve_left (not_not.mpr approved)
    exact ⟨place, plan, hplan, before.concat other⟩
  entry := inv.entry
  gate atGate := by
    obtain ⟨unused, shown⟩ := inv.gate atGate
    refine ⟨unused, fun prompt hp => ?_⟩
    obtain ⟨plan, hplan, rfl, asked⟩ := shown prompt hp
    refine ⟨plan, hplan, rfl, ?_⟩
    rw [lastAsked_concat, asked]
    have : askedPrompt ⟨n, t.state, replies, .raised e⟩ = none := by
      cases n <;> rfl
    rw [this, Option.none_or]

/-- The replies a visit is made with: none, or the pending interrupt's and one
more. -/
def Answering (t : AgentThread ω) (replies : List String) : Prop :=
  t.pending = none ∧ replies = [] ∨
    ∃ prompt value, t.pending = some prompt ∧ replies = t.replies ++ [value]

/-- **Step lemma.** Every visit keeps the invariant. -/
theorem reviewed_visit (inv : Reviewed t) {n : Node} (hn : t.next = some n)
    {replies : List String} (asked : Answering t replies) (o : Outside H ω) :
    Reviewed ((agentGraph ω tools).visit t n replies o) := by
  obtain ⟨exit, w', exits, closed⟩ := agent_visit tools t n replies o
  rw [closed]
  cases exits with
  | planned injected =>
      have none := inv.no_approval hn (by decide) (by decide)
      exact
        { history := history_concat inv.history fun same => by cases same
          standing := fun approved => absurd approved none
          entry := fun next => by cases next
          gate := fun next => by cases next }
  | routed =>
      rw [close_routed]
      refine
        { history := history_concat inv.history fun same => by cases same
          standing := ?_, entry := ?_, gate := ?_ }
      · intro approved
        obtain ⟨-, plan, hplan, before⟩ := inv.standing approved
        refine ⟨?_, plan, hplan, before.concat fun same => by cases same⟩
        have chosen := route_executor_iff (s := t.state)
        cases hc : t.state.executorCompleted with
        | true => simp [route_of_completed hc, routeToNode, Target.node?]
        | false => simp [chosen.mpr ⟨hc, approved⟩, routeToNode, Target.node?]
      · intro next
        cases hr : routeFromState t.state <;> rw [hr] at next <;> cases next
        exact (route_executor_iff.mp hr).2
      · intro next
        cases hr : routeFromState t.state <;> rw [hr] at next <;> cases next
  | drafted plan hot summary removed =>
      have none := inv.no_approval hn (by decide) (by decide)
      exact
        { history := history_concat inv.history fun same => by cases same
          standing := fun approved => absurd approved none
          entry := fun next => by cases next
          gate := fun _ => ⟨rfl, fun _ pending => by cases pending⟩ }
  | asked hplan =>
      have none := inv.no_approval hn (by decide) (by decide)
      refine
        { history := history_concat inv.history fun same => by cases same
          standing := fun approved => absurd approved none
          entry := inv.entry
          gate := fun _ => ⟨rfl, fun prompt pending => ?_⟩ }
      cases pending
      exact ⟨_, hplan, rfl, lastAsked_concat⟩
  | answered hplan hv =>
      rename_i plan value rest normalized
      refine
        { history := history_concat inv.history fun same => by cases same
          standing := ?_
          entry := fun next => by cases next
          gate := fun next => by cases next }
      intro approved
      refine ⟨.inl rfl, plan, hplan, ?_⟩
      -- the only reply is the one given to the pending prompt
      obtain ⟨-, nil⟩ | ⟨prompt, value', pending, used⟩ := asked
      · cases nil
      obtain ⟨unused, shown⟩ := inv.gate hn
      rw [unused, List.nil_append] at used
      cases used
      obtain ⟨plan', hplan', rfl, lastShown⟩ := shown prompt pending
      rw [hplan] at hplan'
      cases hplan'
      have normal : normalized = "approved" := Option.some.inj approved
      let gate : AgentVisit :=
        ⟨.humanGate, t.state, [value], .done { update := { humanFeedback := some normalized } }⟩
      have asked : lastAsked (t.trail ++ [gate]) = some (humanGatePrompt plan) := by
        rw [lastAsked_concat, lastShown]
        rfl
      exact ⟨gate, value, lastAnswer_concat, rfl, normal ▸ hv, hplan, asked⟩
  | misread hplan hv =>
      exact reviewed_raised inv hn (.inl (inv.no_approval hn (by decide) (by decide)))
  | executed report hplan =>
      refine
        { history := history_execute inv hn rfl
          standing := fun _ => ?_
          entry := fun next => by cases next
          gate := fun next => by cases next }
      obtain ⟨-, plan, hplan', before⟩ := inv.standing (inv.entry hn)
      exact ⟨.inl rfl, plan, hplan', before.concat fun same => by cases same⟩
  | escalated tool error =>
      have none := inv.no_approval hn (by decide) (by decide)
      exact
        { history := history_concat inv.history fun same => by cases same
          standing := fun approved => absurd approved none
          entry := fun next => by cases next
          gate := fun next => by cases next }
  | reported tool raw =>
      have none := inv.no_approval hn (by decide) (by decide)
      exact
        { history := history_concat inv.history fun same => by cases same
          standing := fun approved => absurd approved none
          entry := fun next => by cases next
          gate := fun next => by cases next }
  | waiting prompt =>
      have none := inv.no_approval hn (by decide) (by decide)
      exact
        { history := history_concat inv.history fun same => by cases same
          standing := fun approved => absurd approved none
          entry := inv.entry
          gate := fun next => by cases hn.symm.trans next }
  | failed e planner supervisor =>
      refine reviewed_raised inv hn ?_
      by_cases atGate : n = .humanGate
      · exact .inl (inv.no_approval (atGate ▸ hn) (by decide) (by decide))
      · exact .inr atGate

theorem reviewed_step (inv : Reviewed t) {call : Call (Outside H ω) String String}
    {t' : AgentThread ω} (step : (agentMachine ω tools).step t call = some t') : Reviewed t' := by
  cases Workflow.step_iff.mp step with
  | execute hn hp => exact reviewed_visit inv hn (.inl ⟨hp, rfl⟩) _
  | resume hn hp => exact reviewed_visit inv hn (.inr ⟨_, _, hp, rfl⟩) _
  | fail hn => exact ⟨inv.history, inv.standing, inv.entry, inv.gate⟩

/-- A run starts reviewed if its input leaves no approval. -/
theorem reviewed_of_start {input : NodeResult}
    (none : (t.state.apply input.update).humanFeedback ≠ some "approved") :
    Reviewed ((agentGraph ω tools).start t input) where
  history := eachVisit_nil
  standing approved := absurd approved none
  entry next := by cases next
  gate next := by cases next

/-- A run starts reviewed, whatever its thread holds. -/
theorem reviewed_start (setup : RunSetup) (task : String) (runId : Option String) :
    Reviewed (startRun tools t setup task runId) :=
  reviewed_of_start nofun

end Steps

/-- **No execution without approval of that plan.** In every run from
`initial_state` on a fresh thread, whatever the outside answers and whatever is
replied to the prompts, each executor visit runs a plan whose approval was the
gate's most recent answer, given to the prompt that showed this plan. -/
theorem executor_runs_approved_plan (tools : Toolbox H) (setup : RunSetup) (task : String)
    (runId : Option String) (w : ω) {calls : List (Call (Outside H ω) String String)}
    {t : AgentThread ω}
    (run : Machine.Path (agentMachine ω tools) Machine.Free
      (startRun tools (freshThread w) setup task runId) calls t) :
    EachVisit RunsApprovedPlan t.trail :=
  (run.invariant (I := Reviewed) (fun _ _ _ _ inv step => reviewed_step inv step)
    (reviewed_start setup task runId)).history

/-- In the sample run the executor is visited once, after the approval. -/
theorem executor_runs_approved_plan_sample :
    ∃ t, (agentMachine Unit emptyToolbox).run
        (startRun emptyToolbox (freshThread ()) {} "task" none) approvedCalls = some t ∧
      t.trail.map (·.node) = [.planner, .supervisor, .toolDispatcher, .supervisor, .architect,
        .humanGate, .humanGate, .supervisor, .executor, .supervisor] ∧
      EachVisit RunsApprovedPlan t.trail := by
  have reached : ∃ t, (agentMachine Unit emptyToolbox).run
      (startRun emptyToolbox (freshThread ()) {} "task" none) approvedCalls = some t ∧
      t.trail.map (·.node) = [.planner, .supervisor, .toolDispatcher, .supervisor, .architect,
        .humanGate, .humanGate, .supervisor, .executor, .supervisor] := ⟨_, rfl, rfl⟩
  obtain ⟨t, run, nodes⟩ := reached
  exact ⟨t, run, nodes, executor_runs_approved_plan emptyToolbox {} "task" none ()
    (Machine.run_eq_some_iff.mp run)⟩

/-! ### The graph as an approval desk -/

/-- The plan a visit of the gate approved. -/
def grantedPlan (v : AgentVisit) : Option PlanArtifact :=
  match v.node, v.exit with
  | .humanGate, .done result =>
      if result.update.humanFeedback = some (some "approved") then v.state.planArtifact? else none
  | _, _ => none

/-- The plan a visit of the executor ran. -/
def performedPlan (v : AgentVisit) : Option PlanArtifact :=
  match v.node with
  | .executor => v.state.planArtifact?
  | _ => none

/-- The desk a thread implements. -/
def deskOf (t : AgentThread ω) : Desk PlanArtifact where
  table := t.state.planArtifact?
  granted := t.state.humanFeedback = some "approved"
  grants := t.trail.filterMap grantedPlan
  performed := t.trail.filterMap performedPlan

section Refinement

variable {t : AgentThread ω}

/-- A visit that keeps the plan and the feedback and is neither a grant nor an
execution does not touch the desk. -/
private theorem deskOf_stutter {t' : AgentThread ω} {v : AgentVisit}
    (plan : t'.state.planArtifact? = t.state.planArtifact?)
    (feedback : t'.state.humanFeedback = t.state.humanFeedback)
    (trail : t'.trail = t.trail ++ [v]) (noGrant : grantedPlan v = none)
    (notPerformed : performedPlan v = none) : deskOf t' = deskOf t := by
  simp [deskOf, plan, feedback, trail, noGrant, notPerformed]

/-- Each visit is an act on the desk, or does not touch it. -/
theorem desk_visit (inv : Reviewed t) {n : Node} (hn : t.next = some n) (replies : List String)
    (o : Outside H ω) :
    (∃ act, (Desk.machine PlanArtifact).step (deskOf t) act =
        some (deskOf ((agentGraph ω tools).visit t n replies o))) ∨
      deskOf ((agentGraph ω tools).visit t n replies o) = deskOf t := by
  obtain ⟨exit, w', exits, closed⟩ := agent_visit tools t n replies o
  rw [closed]
  cases exits with
  | planned injected =>
      exact .inr (deskOf_stutter (planArtifact?_planned injected t.state) rfl rfl rfl rfl)
  | routed =>
      rw [close_routed]
      exact .inr (deskOf_stutter rfl rfl rfl rfl rfl)
  | drafted plan hot summary removed =>
      have none := inv.no_approval hn (by decide) (by decide)
      refine .inl ⟨.lay plan, ?_⟩
      simp [Desk.machine, deskOf, Workflow.close, agentGraph, none, SimonState.planArtifact?,
        List.filterMap_append, grantedPlan, performedPlan]
  | asked hplan => exact .inr (deskOf_stutter rfl rfl rfl rfl rfl)
  | answered hplan hv =>
      rename_i plan value rest normalized
      have hplan' := SimonState.planArtifact?_eq_some_iff.mpr hplan
      have kept : (t.state.apply { humanFeedback := some (some normalized) }).planArtifact? =
          t.state.planArtifact? := rfl
      by_cases approved : normalized = "approved"
      · subst approved
        refine .inl ⟨.grant, ?_⟩
        simp [Desk.machine, deskOf, Workflow.close, agentGraph, hplan', kept,
          List.filterMap_append, grantedPlan, performedPlan]
      · refine .inl ⟨.refuse, ?_⟩
        simp [Desk.machine, deskOf, Workflow.close, agentGraph, kept, approved,
          List.filterMap_append, grantedPlan, performedPlan]
  | misread hplan hv => exact .inr (deskOf_stutter rfl rfl rfl rfl rfl)
  | executed report hplan =>
      have approved := inv.entry hn
      have hplan' := SimonState.planArtifact?_eq_some_iff.mpr hplan
      have kept : (t.state.apply { executorOutput := some (some (.report report)) }).planArtifact? =
          t.state.planArtifact? := rfl
      refine .inl ⟨.perform, ?_⟩
      simp [Desk.machine, deskOf, Workflow.close, agentGraph, hplan', kept, approved,
        List.filterMap_append, grantedPlan, performedPlan]
  | escalated tool error => exact .inr (deskOf_stutter rfl rfl rfl rfl rfl)
  | reported tool raw => exact .inr (deskOf_stutter rfl rfl rfl rfl rfl)
  | waiting prompt => exact .inr (deskOf_stutter rfl rfl rfl rfl rfl)
  | failed e planner supervisor =>
      by_cases isExecutor : n = .executor
      · subst isExecutor
        have approved := inv.entry hn
        obtain ⟨-, plan, hplan, -⟩ := inv.standing approved
        have hplan' := SimonState.planArtifact?_eq_some_iff.mpr hplan
        refine .inl ⟨.perform, ?_⟩
        simp [Desk.machine, deskOf, Workflow.close, hplan', approved, List.filterMap_append,
          grantedPlan, performedPlan]
      · refine .inr (deskOf_stutter rfl rfl rfl ?_ ?_)
        · cases n <;> rfl
        · cases n <;> first | rfl | contradiction

/-- **Refinement.** Every run from `initial_state` is a run of an approval desk
that starts empty. -/
theorem agent_refines_desk (tools : Toolbox H) (setup : RunSetup) (task : String)
    (runId : Option String) (thread : AgentThread ω)
    {calls : List (Call (Outside H ω) String String)} {t : AgentThread ω}
    (run : Machine.Path (agentMachine ω tools) Machine.Free
      (startRun tools thread setup task runId) calls t) :
    ∃ acts, Machine.Path (Desk.machine PlanArtifact) Machine.Free {} acts (deskOf t) := by
  have start : deskOf (startRun tools thread setup task runId) = {} := rfl
  rw [← start]
  refine run.refine deskOf (I := Reviewed) ?_ (reviewed_start setup task runId)
  intro a call b _ inv step
  refine ⟨reviewed_step inv step, ?_⟩
  cases Workflow.step_iff.mp step with
  | execute hn _ => exact desk_visit inv hn _ _
  | resume hn _ => exact desk_visit inv hn _ _
  | fail _ => exact .inr rfl

/-- The executor performs only plans the gate granted in the same run. -/
theorem performed_plans_granted (tools : Toolbox H) (setup : RunSetup) (task : String)
    (runId : Option String) (thread : AgentThread ω)
    {calls : List (Call (Outside H ω) String String)} {t : AgentThread ω}
    (run : Machine.Path (agentMachine ω tools) Machine.Free
      (startRun tools thread setup task runId) calls t) :
    ∀ plan ∈ t.trail.filterMap performedPlan, plan ∈ t.trail.filterMap grantedPlan := by
  obtain ⟨acts, path⟩ := agent_refines_desk tools setup task runId thread run
  exact Desk.performed_of_run path

end Refinement

end AgentOs
