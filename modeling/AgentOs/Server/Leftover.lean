import AgentOs.Graph.Parallel
import AgentOs.Server.RunExecutor

/-!
What a new task sees of the thread it runs on.

`initial_state` does not write `tool_result` and `router_escalated`, so both can
reach a new task from an earlier one. `independent_iff` says which leftover
states a task cannot tell apart: exactly those that agree on whether the router
had escalated and on the failure their tool result stands for.

One direction is a lockstep of two runs (`Parallel`), which keeps the failure.
The other runs the same task on both threads: a third visit that differs
(`third_visit`), or a recorded outcome that does (`resolved_run`).
-/

namespace AgentOs

open AgentOs.Lib

/-- What can be seen of a run: the nodes visited, and the outcome recorded. -/
def observe {ω : Type} (t : AgentThread ω) : List Node × Option PassOutcome :=
  (t.trail.map (·.node), recordedOutcome t)

/-- A finished thread holding a state. -/
def holding {ω : Type} (s : SimonState) (w : ω) : AgentThread ω := { state := s, world := w }

section Leftover

variable {H ω : Type} (tools : Toolbox H) (w : ω)

/-- No task and no answers of the outside tell the two leftover states apart. -/
def Independent (s s' : SimonState) : Prop :=
  ∀ (setup : RunSetup) (task : String) (runId : Option String)
    (calls : List (Call (Outside H ω) String String)),
    ((agentMachine ω tools).run (startRun tools (holding s w) setup task runId) calls).map observe =
      ((agentMachine ω tools).run (startRun tools (holding s' w) setup task runId) calls).map
        observe

variable {tools w}

/-! ### Agreeing leftovers -/

/-- Parallel threads whose tool results stand for the same failure. -/
def SameOutcome (a b : AgentThread ω) : Prop :=
  Parallel a b ∧ terminalToolFailure a.state = terminalToolFailure b.state

theorem SameOutcome.observe {a b : AgentThread ω} (h : SameOutcome a b) :
    AgentOs.observe a = AgentOs.observe b := by
  simp only [AgentOs.observe, recordedOutcome, h.1.nodes, h.1.next, h.1.pending, h.1.failure, h.2]

theorem terminalToolFailure_apply {s s' : SimonState}
    (h : terminalToolFailure s = terminalToolFailure s') (u : StateUpdate) :
    terminalToolFailure (s.apply u) = terminalToolFailure (s'.apply u) := by
  cases hu : u.toolResult with
  | none => simpa [terminalToolFailure, hu] using h
  | some result => simp [terminalToolFailure, hu]

theorem sameOutcome_visit {a b : AgentThread ω} (h : SameOutcome a b) (n : Node)
    (replies : List String) (o : Outside H ω) :
    SameOutcome ((agentGraph ω tools).visit a n replies o)
      ((agentGraph ω tools).visit b n replies o) := by
  refine ⟨parallel_visit h.1 n replies o, ?_⟩
  obtain ⟨exit, w', closedA, closedB⟩ := parallel_close tools h.1 n replies o
  rw [closedA, closedB]
  cases exit with
  | done result => exact terminalToolFailure_apply h.2 result.update
  | paused _ => exact h.2
  | raised _ => exact h.2

theorem sameOutcome_run {a b t : AgentThread ω} (h : SameOutcome a b)
    {calls : List (Call (Outside H ω) String String)}
    (run : Machine.Path (agentMachine ω tools) Machine.Free a calls t) :
    ∃ t', Machine.Path (agentMachine ω tools) Machine.Free b calls t' ∧ SameOutcome t t' :=
  Workflow.lockstep (R := SameOutcome) (fun h => h.1.toAbreast)
    (fun h _ _ => sameOutcome_visit h _ _ _)
    (fun h => ⟨⟨⟨h.1.next, h.1.pending, h.1.replies, rfl⟩, h.1.state, h.1.world, h.1.nodes⟩, h.2⟩)
    run h

variable (tools) in
theorem sameOutcome_start {s s' : SimonState}
    (escalated : s.routerEscalated = some true ↔ s'.routerEscalated = some true)
    (failure : terminalToolFailure s = terminalToolFailure s') (setup : RunSetup) (task : String)
    (runId : Option String) :
    SameOutcome (startRun tools (holding s w) setup task runId)
      (startRun tools (holding s' w) setup task runId) := by
  refine ⟨⟨⟨rfl, rfl, rfl, rfl⟩, ⟨rfl, rfl, rfl, rfl, rfl, rfl, rfl, ?_⟩, rfl, rfl⟩, ?_⟩
  · exact escalated
  · exact terminalToolFailure_apply failure (initialState setup task runId)

theorem independent_of_agree {s s' : SimonState}
    (escalated : s.routerEscalated = some true ↔ s'.routerEscalated = some true)
    (failure : terminalToolFailure s = terminalToolFailure s') : Independent tools w s s' := by
  intro setup task runId calls
  have start := sameOutcome_start tools (w := w) escalated failure setup task runId
  have back := sameOutcome_start tools (w := w) escalated.symm failure.symm setup task
    runId
  cases ha : (agentMachine ω tools).run (startRun tools (holding s w) setup task runId) calls with
  | some t =>
      obtain ⟨t', run', same⟩ := sameOutcome_run start (Machine.run_eq_some_iff.mp ha)
      rw [Machine.run_eq_some_iff.mpr run', Option.map_some, Option.map_some, same.observe]
  | none =>
      cases hb : (agentMachine ω tools).run (startRun tools (holding s' w) setup task runId)
          calls with
      | none => rfl
      | some t' =>
          obtain ⟨t, run, -⟩ := sameOutcome_run back (Machine.run_eq_some_iff.mp hb)
          rw [Machine.run_eq_some_iff.mpr run] at ha
          cases ha

/-! ### Telling leftovers apart -/

/-- An outside that escalates every task, plans and completes. -/
def escalatingOutside : Outside H ω where
  routerMode := some "direct-escalation"
  architect := { agent := fun _ => .ok {} }
  executor := { agent := fun _ => .ok { status := .completed } }

/-- The blank task is no command of any registry: it is escalated without an
error. -/
theorem dispatch_blank {s : SimonState} (blank : s.task = "") (answer : Except String RouterDecision)
    (invoke : RegisteredSkill H → Dict → Code ω RawOutput) :
    dispatch tools.registry tools.parameters (some "direct-escalation") answer invoke s =
      Pass.done (escalate none none) := by
  have noMatch : tools.registry.deterministicMatch "" = none := by
    rw [SkillRegistry.deterministicMatch, List.find?_eq_none]
    intro skill _
    simp [RegisteredSkill.matchesCommand, show Text.words (Text.lower (Text.strip "")) = [] from rfl]
  have mode : getRouterMode (some "direct-escalation") = .ok .directEscalation := rfl
  simp only [dispatch, chooseTool, blank, parseTier1Request_of_no_match _ noMatch, mode]
  rfl

/-- The state in which the supervisor first sees the blank task. -/
def probed (s : SimonState) : SimonState :=
  (s.apply (initialState {} "" none)).apply (plannerNode none (s.apply (initialState {} "" none)))

theorem route_probed (s : SimonState) :
    routeFromState (probed s) =
      if s.routerEscalated = some true then .architect else .tool := by
  have escalated : (probed s).routerEscalated = s.routerEscalated := rfl
  split
  · rename_i yes
    exact route_architect_iff.mpr
      ⟨rfl, (fun same => by cases same), .inr ⟨rfl, rfl, rfl, escalated.trans yes⟩⟩
  · rename_i no
    exact route_tool_iff.mpr ⟨rfl, nofun, rfl, rfl, rfl, fun yes => no (escalated.symm.trans yes)⟩

variable (tools) in
/-- After two calls the blank task stands where its route says. -/
theorem second_visit (s : SimonState) {n : Node}
    (route : (routeToNode (routeFromState (probed s))).node? = some n) :
    ∃ trail : List AgentVisit, trail.map (·.node) = [.planner, .supervisor] ∧
      Machine.Path (agentMachine ω tools) Machine.Free
        (startRun tools (holding s w) {} "" none) [.execute escalatingOutside,
          .execute escalatingOutside]
        { state := probed s, next := some n, world := w, trail := trail } := by
  let planned : AgentVisit := ⟨.planner, s.apply (initialState {} "" none), [],
    .done { update := plannerNode none (s.apply (initialState {} "" none)) }⟩
  let atSupervisor : AgentThread ω :=
    { state := probed s, next := some .supervisor, world := w, trail := [planned] }
  have first : (agentMachine ω tools).step (startRun tools (holding s w) {} "" none)
      (.execute escalatingOutside) = some atSupervisor := rfl
  have second : (agentMachine ω tools).step atSupervisor (.execute escalatingOutside) =
      some ((agentGraph ω tools).visit atSupervisor .supervisor [] escalatingOutside) :=
    Workflow.step_iff.mpr (.execute rfl rfl)
  have routed : (agentGraph ω tools).visit atSupervisor .supervisor [] escalatingOutside =
      { state := probed s, next := some n, world := w,
        trail := [planned, ⟨.supervisor, probed s, [],
          .done { update := {}, goto := some (supervisorGoto (probed s)) }⟩] } :=
    (close_routed atSupervisor [] w).trans (by rw [← route]; rfl)
  rw [routed] at second
  exact ⟨_, rfl, .cons trivial first (.single trivial second)⟩

variable (tools) in
theorem third_visit (s : SimonState) :
    ((agentMachine ω tools).run (startRun tools (holding s w) {} "" none)
      (List.replicate 3 (.execute escalatingOutside))).map (fun t => t.trail.map (·.node)) =
      some [.planner, .supervisor,
        if s.routerEscalated = some true then .architect else .toolDispatcher] := by
  have route : (routeToNode (routeFromState (probed s))).node? =
      some (if s.routerEscalated = some true then .architect else .toolDispatcher) := by
    rw [route_probed]
    split <;> rfl
  obtain ⟨trail, nodes, path⟩ := second_visit tools (w := w) s route
  have third := path.append (.single trivial (Workflow.step_iff.mpr
    (.execute (o := escalatingOutside) rfl rfl)))
  have run := Machine.run_eq_some_iff.mpr third
  simp only [List.cons_append, List.nil_append] at run
  rw [show (List.replicate 3 (Call.execute escalatingOutside) :
    List (Call (Outside H ω) String String)) = [.execute escalatingOutside,
      .execute escalatingOutside, .execute escalatingOutside] from rfl, run, Option.map_some,
    Workflow.visit, Workflow.close_trail]
  simp [nodes, Workflow.visitOf]

/-- The calls that bring a run from the architect to its end. -/
def reviewCalls : List (Call (Outside H ω) String String) :=
  [.execute escalatingOutside, .execute escalatingOutside, .resume "y" escalatingOutside,
    .execute escalatingOutside, .execute escalatingOutside, .execute escalatingOutside]

variable (tools) in
/-- From the architect on, an approved plan is executed and nothing touches the
tool result. -/
theorem review_run (s : SimonState) (output : s.executorOutput = none) (trail : List AgentVisit) :
    ∃ t, (agentMachine ω tools).run
        { state := s, next := some .architect, world := w, trail := trail } reviewCalls = some t ∧
      recordedOutcome t = match terminalToolFailure s with
        | none => some (.ended .completed none)
        | some (status, message) => some (.ended status (some message)) := by
  cases s
  cases output
  exact ⟨_, rfl, rfl⟩

/-- The calls that bring the blank task to the architect. -/
def architectCalls (escalated : Bool) : List (Call (Outside H ω) String String) :=
  if escalated then [.execute escalatingOutside, .execute escalatingOutside]
  else [.execute escalatingOutside, .execute escalatingOutside, .execute escalatingOutside,
    .execute escalatingOutside]

variable (tools) in
/-- The blank task reaches the architect with the tool result it found. -/
theorem reach_architect (s : SimonState) :
    ∃ (s' : SimonState) (trail : List AgentVisit), s'.executorOutput = none ∧
      s'.toolResult = s.toolResult ∧
      Machine.Path (agentMachine ω tools) Machine.Free
        (startRun tools (holding s w) {} "" none) (architectCalls (s.routerEscalated = some true))
        { state := s', next := some .architect, world := w, trail := trail } := by
  by_cases escalated : s.routerEscalated = some true
  · obtain ⟨trail, -, path⟩ := second_visit tools (w := w) s (n := .architect)
      (by rw [route_probed, if_pos escalated]; rfl)
    refine ⟨probed s, trail, rfl, rfl, ?_⟩
    simpa only [architectCalls, escalated, decide_true, if_true] using path
  · obtain ⟨trail, -, path⟩ := second_visit tools (w := w) s (n := .toolDispatcher)
      (by rw [route_probed, if_neg escalated]; rfl)
    -- the dispatcher escalates without an error, and the supervisor sends it on
    let s' := (probed s).apply (escalate none none).update
    let dispatched : AgentVisit := ⟨.toolDispatcher, probed s, [],
      .done { update := (escalate none none).update, goto := some (.node .supervisor) }⟩
    let atSupervisor : AgentThread ω :=
      { state := s', next := some .supervisor, world := w, trail := trail ++ [dispatched] }
    have node : runNode tools .toolDispatcher (probed s) (escalatingOutside (ω := ω)) =
        Pass.done { update := (escalate none none).update, goto := some (.node .supervisor) } := by
      simp only [runNode, escalatingOutside]
      rw [dispatch_blank rfl]
      rfl
    have third : (agentMachine ω tools).step
        { state := probed s, next := some .toolDispatcher, world := w, trail := trail }
        (.execute escalatingOutside) = some atSupervisor := by
      rw [Workflow.step_iff.mpr (.execute (o := escalatingOutside) rfl rfl)]
      simp only [Workflow.visit, Workflow.visitOf]
      rw [show (agentGraph ω tools).node = runNode tools from rfl, node]
      rfl
    have route : routeFromState s' = .architect :=
      route_architect_iff.mpr ⟨rfl, (fun same => by cases same), .inr ⟨rfl, rfl, rfl, rfl⟩⟩
    have fourth : (agentMachine ω tools).step atSupervisor (.execute escalatingOutside) =
        some { state := s', next := some .architect, world := w,
               trail := trail ++ [dispatched] ++ [⟨.supervisor, s', [],
                 .done { update := {}, goto := some (supervisorGoto s') }⟩] } := by
      rw [Workflow.step_iff.mpr (.execute (o := escalatingOutside) rfl rfl)]
      refine congrArg some ((close_routed atSupervisor [] w).trans ?_)
      simp only [atSupervisor, route]
      rfl
    have whole := (path.append (.single trivial third)).append (.single trivial fourth)
    have calls : (architectCalls (decide (s.routerEscalated = some true)) :
        List (Call (Outside H ω) String String)) =
          [.execute escalatingOutside, .execute escalatingOutside] ++
            [.execute escalatingOutside] ++ [.execute escalatingOutside] := by
      simp [architectCalls, escalated]
    rw [calls]
    exact ⟨s', _, rfl, rfl, whole⟩

variable (tools) in
/-- The blank task, escalated, planned, approved and executed, is recorded by
the tool result it found. -/
theorem resolved_run (s : SimonState) :
    ∃ t, (agentMachine ω tools).run (startRun tools (holding s w) {} "" none)
        (architectCalls (s.routerEscalated = some true) ++ reviewCalls) = some t ∧
      recordedOutcome t = match terminalToolFailure s with
        | none => some (.ended .completed none)
        | some (status, message) => some (.ended status (some message)) := by
  obtain ⟨s', trail, output, result, path⟩ := reach_architect tools (w := w) s
  obtain ⟨t, run, outcome⟩ := review_run tools (w := w) s' output trail
  refine ⟨t, Machine.run_eq_some_iff.mpr (path.append (Machine.run_eq_some_iff.mp run)), ?_⟩
  rw [outcome, terminalToolFailure_congr result]

/-- **What a new task sees of its thread.** Two leftover states are
indistinguishable to every new task exactly where they agree on whether the
router had escalated and on the failure their tool result stands for. -/
theorem independent_iff (tools : Toolbox H) (w : ω) (s s' : SimonState) :
    Independent tools w s s' ↔
      (s.routerEscalated = some true ↔ s'.routerEscalated = some true) ∧
        terminalToolFailure s = terminalToolFailure s' := by
  constructor
  · intro same
    have escalated : s.routerEscalated = some true ↔ s'.routerEscalated = some true := by
      have visits := congrArg (Option.map Prod.fst)
        (same {} "" none (List.replicate 3 (.execute escalatingOutside)))
      simp only [Option.map_map] at visits
      have third := third_visit tools (w := w) s
      have third' := third_visit tools (w := w) s'
      rw [show (Prod.fst ∘ observe) = fun t : AgentThread ω => t.trail.map (·.node) from rfl,
        third, third'] at visits
      by_cases h : s.routerEscalated = some true <;> by_cases h' : s'.routerEscalated = some true <;>
        simp [h, h'] at visits ⊢
    refine ⟨escalated, ?_⟩
    obtain ⟨t, run, outcome⟩ := resolved_run tools (w := w) s
    obtain ⟨t', run', outcome'⟩ := resolved_run tools (w := w) s'
    have seen := same {} "" none (architectCalls (s.routerEscalated = some true) ++ reviewCalls)
    rw [run, show decide (s.routerEscalated = some true) =
      decide (s'.routerEscalated = some true) from decide_eq_decide.mpr escalated, run'] at seen
    have recorded : recordedOutcome t = recordedOutcome t' :=
      congrArg Prod.snd (Option.some.inj seen)
    rw [outcome, outcome'] at recorded
    cases hs : terminalToolFailure s with
    | none =>
        cases hs' : terminalToolFailure s' with
        | none => rfl
        | some p => simp [hs, hs'] at recorded
    | some p =>
        cases hs' : terminalToolFailure s' with
        | none => simp [hs, hs'] at recorded
        | some p' =>
            simp only [hs, hs', Option.some.injEq, PassOutcome.ended.injEq] at recorded
            rw [Option.some.injEq]
            exact Prod.ext recorded.1 recorded.2
  · rintro ⟨escalated, failure⟩
    exact independent_of_agree escalated failure

end Leftover

/-- The tool result of an earlier task that failed. -/
def failedState : SimonState :=
  { toolResult := some { tool := "bash", output := "command not found", success := false } }

/-- The sample task completes on a fresh thread. After a failed tool it makes
the same visits and is recorded with the earlier tool's error. -/
theorem not_independent_of_failed_tool :
    ¬ Independent emptyToolbox () {} failedState := by
  intro same
  have differ : ¬ ((agentMachine Unit emptyToolbox).run
      (startRun emptyToolbox (holding {} ()) {} "task" none) approvedCalls).map observe =
    ((agentMachine Unit emptyToolbox).run
      (startRun emptyToolbox (holding failedState ()) {} "task" none) approvedCalls).map observe := by
    decide +kernel
  exact differ (same {} "task" none approvedCalls)

end AgentOs
