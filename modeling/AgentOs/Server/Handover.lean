import AgentOs.Server.RunTasks

/-!
From an accepted approval to the execution that carries it.

`execute_run` sets the status interrupted before its contexts are closed, and
`_start_run_task` starts nothing while the registered task is unfinished: an
approval accepted in between is recorded, and nobody executes the run
(`approval_lost`). `approvals_served` says that in every run in which approvals
are accepted only after that, the resumed executions of a run are its approvals,
one each and in order, and none is applied twice.
-/

namespace AgentOs

open AgentOs.Lib

/-- The feedback an approval was given with. -/
def RunApproval.feedback (a : RunApproval) : String :=
  a.reason.getD ""

/-- The feedback an execution of a run resumes with. -/
def RunExecution.resumes (run : String) (t : RunExecution) : Option String :=
  match t.input with
  | .resume feedback => if t.runId = run then some feedback else none
  | .fresh _ => none

/-- An approval is accepted only when the run's task is done. -/
def Unhurried (s : Server) : ServerStep → Prop
  | .approve runId _ _ =>
      (s.records runId).status? = some .interrupted → s.activeTask runId = none
  | _ => True

/-- Every approval has its execution, and every run that is running has one. -/
structure ApprovalsServed (s : Server) : Prop where
  /-- the resumed executions of a run carry the feedback of its approvals -/
  started : ∀ run, s.tasks.filterMap (RunExecution.resumes run) =
    (s.records run).approvals.map RunApproval.feedback
  executing : ∀ run, (s.records run).status? = some .running →
    ∃ t ∈ s.tasks, t.runId = run ∧ t.point ≠ .done
  applied : ∀ d ∈ s.delivered, ∃ t, s.tasks[d.task]? = some t ∧ t.runId = d.runId ∧
    t.input = .resume d.value
  /-- no execution hands its feedback over twice -/
  once : (s.delivered.map (·.task)).Nodup

/-- With what every order of steps keeps. -/
structure HandoverInv (s : Server) : Prop extends ServerInv s, ApprovalsServed s where
  left : ∀ t ∈ s.tasks, t.point = .leaving → (s.records t.runId).status? ≠ some .running
  entered : ∀ d ∈ s.delivered, ∀ t, s.tasks[d.task]? = some t →
    t.point ≠ .ready ∧ t.point ≠ .opening

section Steps

variable {s s' : Server}

/-- A new task, with a ledger that has one more approval where it resumes one. -/
theorem handoverInv_start (inv : HandoverInv s) {runId threadId : String} {input : RunInput}
    {r : RunRecord} (server : ServerInv ((s.record runId r).startRunTask runId threadId input))
    (free : s.activeTask runId = none)
    (approvals : (s.records runId).approvals.map RunApproval.feedback ++
      ((RunExecution.mk runId threadId input .ready).resumes runId).toList =
        r.approvals.map RunApproval.feedback) :
    HandoverInv ((s.record runId r).startRunTask runId threadId input) := by
  rcases startRunTask_cases (s := s.record runId r) runId threadId input with
    ⟨busy, -⟩ | ⟨-, started⟩
  · change (s.activeTask runId).isSome = true at busy
    rw [free] at busy
    cases busy
  · have mine : (s.record runId r).records runId = r := Function.update_self ..
    have others {run : String} (other : run ≠ runId) :
        (s.record runId r).records run = s.records run := Function.update_of_ne other ..
    rw [started] at server ⊢
    refine { toServerInv := server, started := ?_, executing := ?_, applied := ?_, once := inv.once,
             left := ?_, entered := ?_ }
    · intro run
      change (s.tasks ++ [RunExecution.mk runId threadId input .ready]).filterMap _ =
        ((s.record runId r).records run).approvals.map _
      rw [List.filterMap_append, inv.started run]
      by_cases same : run = runId
      · subst same
        rw [mine, ← approvals]
        simp only [List.filterMap_cons, List.filterMap_nil]
        cases (RunExecution.mk run threadId input .ready).resumes run <;> rfl
      · have notMine : (RunExecution.mk runId threadId input .ready).resumes run = none := by
          cases input <;> simp [RunExecution.resumes, Ne.symm same]
        rw [others same, List.filterMap_cons, notMine, List.filterMap_nil, List.append_nil]
    · intro run running
      by_cases same : run = runId
      · exact ⟨_, List.mem_append_right _ (List.mem_singleton_self _), same.symm, nofun⟩
      · obtain ⟨t, mem, mineT, unfinished⟩ := inv.executing run (others same ▸ running)
        exact ⟨t, List.mem_append_left _ mem, mineT, unfinished⟩
    · intro d mem
      obtain ⟨t, here, same⟩ := inv.applied d mem
      exact ⟨t, getElem?_concat_of_getElem? here, same⟩
    · intro t mem leaving
      rcases List.mem_append.mp mem with old | new
      · have other : t.runId ≠ runId := by
          rintro rfl
          obtain ⟨j, atJ⟩ := List.mem_iff_getElem?.mp old
          rw [Server.activeTask_of_unfinished inv.toServerInv atJ (by simp [leaving])] at free
          cases free
        rw [show (s.record runId r).records t.runId = s.records t.runId from others other]
        exact inv.left t old leaving
      · rw [List.mem_singleton.mp new] at leaving
        cases leaving
    · intro d mem t here
      obtain ⟨t', here', -⟩ := inv.applied d mem
      cases (getElem?_concat_of_getElem? here').symm.trans here
      exact inv.entered d mem t here'

theorem handoverInv_create (inv : HandoverInv s) {runId threadId workspace task : String}
    {principal : Actor} (new : (s.records runId).row.isSome = false) :
    HandoverInv (s.createRun runId threadId workspace task principal) := by
  have noTask (t : RunExecution) (mem : t ∈ s.tasks) : t.runId ≠ runId := by
    rintro rfl
    have row := congrArg Option.isSome (inv.rows t mem)
    simp [RunRecord.threadId?, new] at row
  have noResume : s.tasks.filterMap (RunExecution.resumes runId) = [] := by
    refine List.filterMap_eq_nil_iff.mpr fun t mem => ?_
    unfold RunExecution.resumes
    split
    · exact if_neg (noTask t mem)
    · rfl
  refine handoverInv_start inv (serverInv_create inv.toServerInv new) ?_ ?_
  · refine Option.filter_eq_none_iff.mpr fun i active => ?_
    obtain ⟨t, here, mine⟩ := inv.registry runId i active
    exact absurd mine (noTask t (List.mem_of_getElem? here))
  · rw [← inv.started runId, noResume]
    rfl

theorem handoverInv_approve (inv : HandoverInv s) {runId : String} {actor : Actor}
    {feedback : Option String} (ok : Unhurried s (.approve runId actor feedback)) :
    HandoverInv (s.approve runId actor feedback) := by
  have server := serverInv_approve inv.toServerInv runId actor feedback
  rcases approve_cases (s := s) runId actor feedback with same |
    ⟨threadId, r, interrupted, -, -, -, ⟨approval, approvals, given⟩, started⟩
  · rw [same]
    exact inv
  · rw [started] at server ⊢
    refine handoverInv_start inv server (ok interrupted) ?_
    rw [approvals, List.map_append]
    simp [RunExecution.resumes, RunApproval.feedback, given]

theorem handoverInv_advance (inv : HandoverInv s) {i : Nat} {t : RunExecution} {m : ExecutionMove}
    {seg : Segment} (here : s.tasks[i]? = some t)
    (moved : t.segment (s.records t.runId) (s.threads t.threadKey) m = some seg) :
    HandoverInv (s.advance i t seg) := by
  have member : t ∈ s.tasks := List.mem_of_getElem? here
  have unfinished := RunExecution.not_done_of_segment moved
  have thread : (s.records t.runId).threadId? = some t.threadId := inv.rows t member
  have hereAfter : (s.advance i t seg).tasks[i]? = some { t with point := seg.point } :=
    getElem?_set_self_of_getElem? here
  have mine : (s.advance i t seg).records t.runId = seg.record := Function.update_self ..
  have others {run : String} (other : run ≠ t.runId) :
      (s.advance i t seg).records run = s.records run := Function.update_of_ne other ..
  have after {j : Nat} {b : RunExecution} (hb : s.tasks[j]? = some b) :
      ∃ b', (s.advance i t seg).tasks[j]? = some b' ∧ b'.runId = b.runId ∧ b'.input = b.input ∧
        (j = i ∧ b' = { t with point := seg.point } ∨ j ≠ i ∧ b' = b) := by
    by_cases same : j = i
    · subst same
      cases here.symm.trans hb
      exact ⟨_, hereAfter, rfl, rfl, .inl ⟨rfl, rfl⟩⟩
    · exact ⟨b, (List.getElem?_set_ne (Ne.symm same)).trans hb, rfl, rfl, .inr ⟨same, rfl⟩⟩
  have delivered {d : Delivery} (mem : d ∈ (s.advance i t seg).delivered) :
      d ∈ s.delivered ∨ t.point = .opening ∧ seg.point = .streaming ∧
        d.task = i ∧ d.runId = t.runId ∧ t.input = .resume d.value := by
    rcases List.mem_append.mp mem with old | new
    · exact .inl old
    · obtain ⟨⟨value, interrupt⟩, answered, rfl⟩ := List.mem_map.mp new
      obtain ⟨opening, streaming, resumed, -⟩ :=
        RunExecution.answered_of_segment moved (Option.mem_toList.mp answered)
      exact .inr ⟨opening, streaming, rfl, rfl, resumed⟩
  refine { toServerInv := serverInv_advance inv.toServerInv here moved, started := ?_,
           executing := ?_, applied := ?_, once := ?_, left := ?_, entered := ?_ }
  · intro run
    have approvals : ((s.advance i t seg).records run).approvals = (s.records run).approvals := by
      by_cases same : run = t.runId
      · rw [same, mine, RunExecution.approvals_of_segment moved]
      · rw [others same]
    rw [approvals, ← inv.started run]
    exact filterMap_set_of_eq here rfl
  · intro run running
    by_cases same : run = t.runId
    · subst same
      rw [mine] at running
      refine ⟨_, List.mem_of_getElem? hereAfter, rfl, fun done => ?_⟩
      obtain ⟨before, leaving | blank⟩ := RunExecution.running_of_done moved done running
      · exact inv.left t member leaving before
      · exact inv.named t.runId .running t.threadId before (by decide) thread blank
    · rw [others same] at running
      obtain ⟨b, mem, isRun, open_⟩ := inv.executing run running
      obtain ⟨j, hb⟩ := List.mem_iff_getElem?.mp mem
      obtain ⟨b', hb', sameRun, -, which⟩ := after hb
      refine ⟨b', List.mem_of_getElem? hb', sameRun.trans isRun, ?_⟩
      rcases which with ⟨rfl, -⟩ | ⟨-, rfl⟩
      · cases here.symm.trans hb
        exact absurd isRun.symm same
      · exact open_
  · intro d mem
    rcases delivered mem with old | ⟨-, -, place, run, input⟩
    · obtain ⟨b, hb, run, input⟩ := inv.applied d old
      obtain ⟨b', hb', sameRun, sameInput, -⟩ := after hb
      exact ⟨b', hb', sameRun.trans run, sameInput.trans input⟩
    · rw [place]
      exact ⟨_, hereAfter, run.symm, input⟩
  · change ((s.delivered ++ _).map (·.task)).Nodup
    cases answered : seg.answered with
    | none => simpa using inv.once
    | some a =>
        obtain ⟨value, interrupt⟩ := a
        have opening := (RunExecution.answered_of_segment moved answered).1
        rw [List.map_append, List.nodup_append]
        refine ⟨inv.once, by simp, ?_⟩
        intro a old b new same
        obtain ⟨d, mem, rfl⟩ := List.mem_map.mp old
        have isHere : d.task = i := by simpa using same.trans (by simpa using new)
        exact (inv.entered d mem t (isHere ▸ here)).2 opening
  · intro b mem leaving
    rcases mem_advance mem with rfl | ⟨j, other, hb⟩
    · rw [mine]
      exact RunExecution.not_running_of_leaving moved leaving
    · have elsewhere : b.runId ≠ t.runId := fun same =>
        other (unfinished_unique inv.toServerInv hb here same (by simp [leaving]) unfinished)
      rw [others elsewhere]
      exact inv.left b (List.mem_of_getElem? hb) leaving
  · intro d mem b hb
    rcases delivered mem with old | ⟨-, streaming, place, -⟩
    · obtain ⟨c, hc, -⟩ := inv.applied d old
      obtain ⟨c', hc', -, -, which⟩ := after hc
      cases hc'.symm.trans hb
      rcases which with ⟨same, rfl⟩ | ⟨-, rfl⟩
      · exact RunExecution.not_opening_of_segment moved (inv.entered d old t (same ▸ here)).1
      · exact inv.entered d old _ hc
    · rw [place] at hb
      cases hereAfter.symm.trans hb
      exact ⟨by simp [streaming], by simp [streaming]⟩

/-- **Step lemma.** -/
theorem handoverInv_step {l : ServerStep} (inv : HandoverInv s) (ok : Unhurried s l)
    (step : runServer.step s l = some s') : HandoverInv s' := by
  cases l with
  | create runId threadId workspace task principal =>
      obtain ⟨new, same⟩ := Option.ite_none_left_eq_some.mp step
      cases same
      exact handoverInv_create inv (by simpa using new)
  | approve runId actor feedback =>
      cases step
      exact handoverInv_approve inv ok
  | task i m =>
      obtain ⟨t, here, step⟩ := Option.bind_eq_some_iff.mp step
      obtain ⟨seg, moved, step⟩ := Option.bind_eq_some_iff.mp step
      cases step
      exact handoverInv_advance inv here moved

end Steps

/-- **No approval is lost** where each is accepted only after the run's task is
done: every approval has its own execution with its feedback, no run is left
running without one, and none is applied twice. For every order of requests and
executions, of any number of runs. -/
theorem approvals_served {steps : List ServerStep} {s : Server}
    (run : Machine.Path runServer Unhurried {} steps s) : ApprovalsServed s := by
  have start : HandoverInv {} :=
    { toServerInv := serverInv_empty, started := fun _ => rfl, executing := nofun, applied := nofun,
      once := .nil, left := nofun, entered := nofun }
  exact (run.invariant (fun _ _ _ ok inv step => handoverInv_step inv ok step)
    start).toApprovalsServed

/-! ### Two orders -/

/-- A run that comes to an interrupt; its task still has contexts to close. -/
def interruptedSteps : List ServerStep :=
  [.create "run" "thread" "." "task" ⟨"local", "user", none⟩, .task 0 .next, .task 0 .next,
    .task 0 (.stop (some "plan")), .task 0 (.observe {})]

def approveStep : ServerStep :=
  .approve "run" ⟨"local", "user", none⟩ (some "approved")

/-- Approved after its contexts are closed, the run resumes. -/
theorem approvals_served_sample :
    ∃ s, Machine.Path runServer Unhurried {}
        (interruptedSteps ++ [.task 0 .next, approveStep]) s ∧
      s.tasks.filterMap (RunExecution.resumes "run") = ["approved"] ∧ ApprovalsServed s := by
  have run : ∃ s, Machine.Path runServer Unhurried {}
      (interruptedSteps ++ [.task 0 .next, approveStep]) s ∧
      s.tasks.filterMap (RunExecution.resumes "run") = ["approved"] :=
    ⟨_, .cons trivial rfl (.cons trivial rfl (.cons trivial rfl (.cons trivial rfl
      (.cons trivial rfl (.cons trivial rfl (.cons (fun _ => rfl) rfl (.nil _))))))), by decide +kernel⟩
  obtain ⟨s, path, resumed⟩ := run
  exact ⟨s, path, resumed, approvals_served path⟩

/-- Approved before that, the run is left running and nobody executes it. -/
theorem approval_lost :
    ∃ s, Machine.Path runServer Machine.Free {}
        (interruptedSteps ++ [approveStep, .task 0 .next]) s ∧
      (s.records "run").status? = some .running ∧
      (s.records "run").approvals.map RunApproval.feedback = ["approved"] ∧
      (∀ t ∈ s.tasks, t.point = .done) ∧ ¬ ApprovalsServed s := by
  have run : ∃ s, runServer.run {} (interruptedSteps ++ [approveStep, .task 0 .next]) = some s ∧
      (s.records "run").status? = some .running ∧
      (s.records "run").approvals.map RunApproval.feedback = ["approved"] ∧
      ∀ t ∈ s.tasks, t.point = .done := by
    exact ⟨_, rfl, by decide +kernel, by decide +kernel, by decide +kernel⟩
  obtain ⟨s, path, running, approved, done⟩ := run
  refine ⟨s, Machine.run_eq_some_iff.mp path, running, approved, done, fun served => ?_⟩
  obtain ⟨t, mem, -, unfinished⟩ := served.executing "run" running
  exact unfinished (done t mem)

end AgentOs
