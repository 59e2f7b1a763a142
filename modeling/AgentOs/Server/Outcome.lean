import AgentOs.Graph.Stage
import AgentOs.Server.RunExecutor

/-!
The recorded outcome and the step that ended the run.

`execute_run` records a finished run by its `tool_result` channel. The
dispatcher also writes that channel when it escalates with an error, and nothing
clears it on the way through the architect, the gate and the executor.

`Accounts` is the invariant that ties the channel to the path taken: until the
dispatcher acts it is empty, after a tool run it is that tool's result, and
after an escalation it is the error that caused it, if any. From it,
`recorded_outcome_iff` gives exactly the runs whose recorded outcome is the
outcome of their last step.
-/

namespace AgentOs

open AgentOs.Lib

/-! ### Reading the history -/

/-- Whether an acting step succeeded: a tool that ended the run by its result, an
executor by its report. -/
def stepSuccess (v : AgentVisit) : Option Bool :=
  match v.node, v.exit with
  | .toolDispatcher, .done result =>
      if result.goto = some .finish then result.update.toolResult.join.map (·.success) else none
  | .executor, .done result =>
      match result.update.executorOutput.join with
      | some (.report r) => some r.success
      | _ => none
  | _, _ => none

/-- Whether the last acting step succeeded. -/
def lastStepSuccess : List AgentVisit → Option Bool :=
  latest stepSuccess

/-- A visit in which the dispatcher escalated because of an error. -/
def escalatedOnError (v : AgentVisit) : Bool :=
  match v.node, v.exit with
  | .toolDispatcher, .done result =>
      result.goto = some (.node .supervisor) && result.update.toolResult.join.isSome
  | _, _ => false

/-- A visit in which the executor reported. -/
def executorReported (v : AgentVisit) : Bool :=
  match v.node, v.exit with
  | .executor, .done _ => true
  | _, _ => false

/-! ### The invariant -/

/-- The success of the report in the state. -/
def reportSuccess (s : SimonState) : Option Bool :=
  match s.executorOutput with
  | some (.report r) => some r.success
  | _ => none

/-- What `tool_result` holds in a run from `initial_state` on a fresh thread. -/
inductive Accounts {ω : Type} (t : AgentThread ω) : Prop where
  /-- the dispatcher has not acted -/
  | opening (escalated : t.state.routerEscalated = none) (result : t.state.toolResult = none)
      (steps : lastStepSuccess t.trail = none) (errors : t.trail.any escalatedOnError = false)
      (reports : t.trail.any executorReported = false)
  /-- a tool ended the run -/
  | tool (result : ToolExecutionResult) (place : t.next = none)
      (escalated : t.state.routerEscalated = some false)
      (channel : t.state.toolResult = some result)
      (steps : lastStepSuccess t.trail = some result.success)
      (reports : t.trail.any executorReported = false)
  /-- the dispatcher escalated -/
  | reviewing (escalated : t.state.routerEscalated = some true)
      (carried : t.state.toolResult.isSome = t.trail.any escalatedOnError)
      (failed : ∀ r, t.state.toolResult = some r → r.success = false)
      (steps : lastStepSuccess t.trail = reportSuccess t.state)
      (reports : t.trail.any executorReported = (reportSuccess t.state).isSome)

/-- The stage of a run and its accounts. -/
structure Progress {ω : Type} (t : AgentThread ω) : Prop where
  stage : Stage t
  accounts : Accounts t

section Steps

variable {H ω : Type} {tools : Toolbox H} {t : AgentThread ω}

/-- A visit that neither acts, escalates nor reports. -/
structure Idle (v : AgentVisit) : Prop where
  step : stepSuccess v = none
  error : escalatedOnError v = false
  report : executorReported v = false

namespace Idle

variable {v : AgentVisit} {trail : List AgentVisit}

theorem lastStepSuccess (h : Idle v) :
    AgentOs.lastStepSuccess (trail ++ [v]) = AgentOs.lastStepSuccess trail := by
  unfold AgentOs.lastStepSuccess
  rw [latest_concat, h.step, Option.none_or]

theorem errors (h : Idle v) : (trail ++ [v]).any escalatedOnError = trail.any escalatedOnError := by
  simp [h.error]

theorem reports (h : Idle v) : (trail ++ [v]).any executorReported = trail.any executorReported := by
  simp [h.report]

end Idle

theorem idle_raised {n : Node} {s : SimonState} {replies : List String} {e : String} :
    Idle ⟨n, s, replies, .raised e⟩ := by
  cases n <;> exact ⟨rfl, rfl, rfl⟩

theorem idle_paused {n : Node} {s : SimonState} {replies : List String} {prompt : String} :
    Idle ⟨n, s, replies, .paused prompt⟩ := by
  cases n <;> exact ⟨rfl, rfl, rfl⟩

/-- An idle visit that keeps the three channels keeps the accounts. -/
private theorem Accounts.idle {t' : AgentThread ω} (inv : Accounts t) {n : Node}
    (hn : t.next = some n) {v : AgentVisit} (idle : Idle v)
    (escalated : t'.state.routerEscalated = t.state.routerEscalated)
    (result : t'.state.toolResult = t.state.toolResult)
    (output : t'.state.executorOutput = t.state.executorOutput)
    (trail : t'.trail = t.trail ++ [v]) : Accounts t' := by
  have report : reportSuccess t'.state = reportSuccess t.state := by
    unfold reportSuccess
    rw [output]
  cases inv with
  | opening re channel steps errors reports =>
      exact .opening (escalated.trans re) (result.trans channel)
        (by rw [trail, idle.lastStepSuccess, steps]) (by rw [trail, idle.errors, errors])
        (by rw [trail, idle.reports, reports])
  | tool _ place => simp [place] at hn
  | reviewing re carried failed steps reports =>
      exact .reviewing (escalated.trans re) (by rw [trail, idle.errors, result, carried])
        (fun r h => failed r (result.symm.trans h))
        (by rw [trail, idle.lastStepSuccess, report, steps])
        (by rw [trail, idle.reports, report, reports])

/-- What the dispatcher finds before it acts. -/
theorem Progress.at_dispatcher (inv : Progress t) (hn : t.next = some .toolDispatcher) :
    t.state.toolResult = none ∧ t.state.executorOutput = none ∧
      lastStepSuccess t.trail = none ∧ t.trail.any escalatedOnError = false ∧
      t.trail.any executorReported = false := by
  have fresh := inv.stage.dispatch hn
  obtain ⟨-, output, -⟩ := inv.stage.untouched fresh
  cases inv.accounts with
  | opening _ result steps errors reports => exact ⟨result, output, steps, errors, reports⟩
  | tool _ place => simp [place] at hn
  | reviewing escalated => exact absurd escalated fresh

/-- **Step lemma.** Every visit keeps the accounts. -/
theorem accounts_visit (inv : Progress t) {n : Node} (hn : t.next = some n)
    (replies : List String) (o : Outside H ω) :
    Accounts ((agentGraph ω tools).visit t n replies o) := by
  obtain ⟨exit, w', exits, closed⟩ := agent_visit tools t n replies o
  rw [closed]
  cases exits with
  | planned injected => exact inv.accounts.idle hn ⟨rfl, rfl, rfl⟩ rfl rfl rfl rfl
  | routed =>
      rw [close_routed]
      exact inv.accounts.idle hn (v := ⟨.supervisor, t.state, replies,
        .done { update := {}, goto := some (supervisorGoto t.state) }⟩) ⟨rfl, rfl, rfl⟩
        rfl rfl rfl rfl
  | drafted plan hot summary removed =>
      exact inv.accounts.idle hn ⟨rfl, rfl, rfl⟩ rfl rfl rfl rfl
  | asked hplan => exact inv.accounts.idle hn idle_paused rfl rfl rfl rfl
  | answered hplan hv => exact inv.accounts.idle hn ⟨rfl, rfl, rfl⟩ rfl rfl rfl rfl
  | misread hplan hv => exact inv.accounts.idle hn idle_raised rfl rfl rfl rfl
  | executed report hplan =>
      have escalated := inv.stage.review _ hn (.inr (.inr rfl))
      cases inv.accounts with
      | opening fresh => exact nomatch fresh.symm.trans escalated
      | tool _ place => simp [place] at hn
      | reviewing escalated carried failed steps reports =>
          refine .reviewing escalated ?_ failed latest_concat ?_
          · exact carried.trans (by simp [Workflow.close, escalatedOnError])
          · simp [Workflow.close, agentGraph, executorReported, reportSuccess]
  | escalated tool error =>
      obtain ⟨result, output, steps, errors, reports⟩ := inv.at_dispatcher hn
      have noReport : reportSuccess (t.state.apply (escalate tool error).update) = none := by
        simp only [reportSuccess, SimonState.apply_executorOutput, escalate, output]
        rfl
      refine .reviewing rfl ?_ ?_ ?_ ?_
      · cases error <;> simp [Workflow.close, agentGraph, escalate, escalatedOnError, errors,
          result]
      · intro r hr
        cases error with
        | none => simp [Workflow.close, agentGraph, escalate, result] at hr
        | some message =>
            simp [Workflow.close, agentGraph, escalate] at hr
            rw [← hr]
      · refine latest_concat.trans (Eq.trans ?_ noReport.symm)
        exact steps
      · simp [Workflow.close, agentGraph, executorReported, reports, noReport]
  | reported tool raw =>
      obtain ⟨-, -, -, -, reports⟩ := inv.at_dispatcher hn
      exact .tool _ rfl rfl rfl latest_concat (by simp [Workflow.close, executorReported, reports])
  | waiting prompt => exact inv.accounts.idle hn idle_paused rfl rfl rfl rfl
  | failed e planner supervisor => exact inv.accounts.idle hn idle_raised rfl rfl rfl rfl

theorem progress_step (inv : Progress t) {call : Call (Outside H ω) String String}
    {t' : AgentThread ω} (step : (agentMachine ω tools).step t call = some t') : Progress t' := by
  refine ⟨stage_step inv.stage step, ?_⟩
  cases Workflow.step_iff.mp step with
  | execute hn _ => exact accounts_visit inv hn _ _
  | resume hn _ => exact accounts_visit inv hn _ _
  | fail _ =>
      cases inv.accounts with
      | opening escalated result steps errors reports =>
          exact .opening escalated result steps errors reports
      | tool result place escalated channel steps reports =>
          exact .tool result place escalated channel steps reports
      | reviewing escalated carried failed steps reports =>
          exact .reviewing escalated carried failed steps reports

theorem progress_start (setup : RunSetup) (task : String) (runId : Option String) (w : ω) :
    Progress (startRun tools (freshThread w) setup task runId) :=
  ⟨stage_start setup task runId nofun, .opening rfl rfl rfl rfl rfl⟩

end Steps

/-! ### The recorded outcome -/

variable {H ω : Type}

/-- **The recorded outcome is the outcome of the last step, unless the run ended
after the executor and the dispatcher had escalated on an error.** For every run
from `initial_state` on a fresh thread that reaches `END`. -/
theorem recorded_outcome_iff (tools : Toolbox H) (setup : RunSetup) (task : String)
    (runId : Option String) (w : ω) {calls : List (Call (Outside H ω) String String)}
    {t : AgentThread ω}
    (run : Machine.Path (agentMachine ω tools) Machine.Free
      (startRun tools (freshThread w) setup task runId) calls t) (finished : t.next = none) :
    (recordedOutcome t = some (.ended .completed none) ↔ lastStepSuccess t.trail = some true) ↔
      ¬ (t.trail.any executorReported = true ∧ t.trail.any escalatedOnError = true) := by
  obtain ⟨pending, failure⟩ := Workflow.quiet_of_run run finished
  rw [recordedOutcome_completed_iff failure pending finished, terminalToolFailure_eq_none_iff]
  have inv : Progress t := run.invariant (fun _ _ _ _ inv step => progress_step inv step)
    (progress_start setup task runId w)
  have ended := inv.stage.ended finished
  cases inv.accounts with
  | opening escalated =>
      simp [escalated] at ended
  | tool result _ _ channel steps reports =>
      simp [channel, steps, reports]
  | reviewing escalated carried failed steps reports =>
      obtain ⟨r, output, success⟩ := SimonState.executorCompleted_iff.mp
        (ended.resolve_left fun h => nomatch escalated.symm.trans h).2
      have report : reportSuccess t.state = some true := by
        simp only [reportSuccess, output, success]
      rw [steps, reports, report, ← carried]
      cases channel : t.state.toolResult with
      | none => simp
      | some r => simp [failed r channel]

/-- The sample run is recorded as its executor reports it. -/
theorem recorded_outcome_iff_sample :
    ∃ t, (agentMachine Unit emptyToolbox).run
        (startRun emptyToolbox (freshThread ()) {} "task" none) approvedCalls = some t ∧
      t.next = none ∧ t.trail.any executorReported = true ∧
      (recordedOutcome t = some (.ended .completed none) ↔
        lastStepSuccess t.trail = some true) := by
  have reached : ∃ t, (agentMachine Unit emptyToolbox).run
      (startRun emptyToolbox (freshThread ()) {} "task" none) approvedCalls = some t ∧
      t.next = none ∧ t.trail.any executorReported = true ∧
      t.trail.any escalatedOnError = false := ⟨_, rfl, rfl, rfl, rfl⟩
  obtain ⟨t, run, finished, reported, noError⟩ := reached
  refine ⟨t, run, finished, reported, ?_⟩
  exact (recorded_outcome_iff emptyToolbox {} "task" none () (Machine.run_eq_some_iff.mp run)
    finished).mpr (by simp [noError])

/-- The task `bash` has no arguments, so the dispatcher escalates with that
error. The plan is approved, the executor completes it, and the run is recorded
as failed with the dispatcher's error. -/
theorem recorded_outcome_of_resolved_escalation :
    ∃ t, (agentMachine Unit bashToolbox).run
        (startRun bashToolbox (freshThread ()) {} "bash" none) approvedCalls = some t ∧
      t.next = none ∧ lastStepSuccess t.trail = some true ∧
      recordedOutcome t =
        some (.ended .error (some "Missing arguments for command 'bash'")) :=
  ⟨_, rfl, rfl, rfl, by decide +kernel⟩

end AgentOs
