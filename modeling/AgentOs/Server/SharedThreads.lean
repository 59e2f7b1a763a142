import AgentOs.Server.RunTasks

/-!
Runs that share a thread.

The ledger is kept by run, the pending interrupt by thread: `Command(resume)`
goes to the interrupt pending in the run's thread, whoever raised it
(`approval_answers_other_run`). `approval_answers_own_run` says when it was the
run itself: if no execution raises an interrupt while another run of its thread
is running or interrupted.
-/

namespace AgentOs

open AgentOs.Lib

/-- The run started and has not ended. -/
def RunRecord.underWay (r : RunRecord) : Prop :=
  r.status? = some .running ∨ r.status? = some .interrupted

/-- An execution raises an interrupt only while no other run of its thread is
running or interrupted. -/
def Exclusive (s : Server) : ServerStep → Prop
  | .task i (.stop (some _)) =>
      ∀ t ∈ s.tasks[i]?, ∀ run, run ≠ t.runId →
        (s.records run).threadId?.map Text.strip = some t.threadKey → ¬ (s.records run).underWay
  | _ => True

namespace RunExecution

/-- The execution answers what is pending in its thread, or has run the graph
there since. -/
def holds (t : RunExecution) : Bool :=
  match t.point, t.input with
  | .opening, .fresh _ => false
  | _, _ => t.opened

theorem opened_of_holds {t : RunExecution} (h : t.holds = true) : t.opened = true := by
  unfold holds at h
  split at h
  · cases h
  · exact h

variable {t : RunExecution} {r : RunRecord} {pending : Option ThreadInterrupt} {m : ExecutionMove}
  {seg : Segment}

/-- What is pending after a segment: the same, nothing, or an interrupt of this
run. -/
theorem pending_of_segment (h : t.segment r pending m = some seg) :
    seg.pending = pending ∨ seg.pending = none ∨
      ∃ prompt, m = .stop (some prompt) ∧ seg.pending = some ⟨t.runId, prompt⟩ := by
  cases segment_cases h with
  | enters | resumes => exact .inr (.inl rfl)
  | @stops prompt =>
      cases prompt with
      | none => exact .inr (.inl rfl)
      | some prompt => exact .inr (.inr ⟨prompt, rfl, rfl⟩)
  | _ => exact .inl rfl

theorem holds_of_segment (h : t.segment r pending m = some seg)
    (after : ({ t with point := seg.point } : RunExecution).holds = true) :
    t.holds = true ∨ seg.pending = none := by
  cases segment_cases h with
  | starts ready =>
      left
      cases input : t.input <;> simp_all [holds, opened]
  | enters | resumes => exact .inr rfl
  | streams streaming | stops streaming => exact .inl (by simp [holds, opened, streaming])
  | _ => simp [holds, opened] at after

theorem interrupted_of_segment (h : t.segment r pending m = some seg)
    (after : seg.record.status? = some .interrupted) :
    r.status? = some .interrupted ∨ t.holds = true ∧ seg.pending = pending := by
  cases segment_cases h with
  | missing | fails | starts => cases status : r.status? <;> simp [status] at after
  | records snapshot => exact .inr ⟨by simp [holds, opened, snapshot], rfl⟩
  | _ => exact .inl after

end RunExecution

/-- With what every order of steps keeps: the interrupt pending in a thread was
raised by the run that waits there, and by the run that executes there. -/
structure SharingInv (s : Server) : Prop extends ServerInv s where
  waiting : ∀ (run threadId : String) (p : ThreadInterrupt),
    (s.records run).status? = some .interrupted → (s.records run).threadId? = some threadId →
      s.threads (Text.strip threadId) = some p → p.owner = run
  executing : ∀ t ∈ s.tasks, t.holds = true → ∀ p, s.threads t.threadKey = some p →
    p.owner = t.runId
  delivered : ∀ d ∈ s.delivered, d.owner = d.runId

section Steps

variable {s s' : Server}

/-- A task starts on a run that is not interrupted any more, and whose thread holds
no other run's interrupt where the task will answer it. -/
theorem sharingInv_start (inv : SharingInv s) {runId threadId : String} {input : RunInput}
    {r : RunRecord} (server : ServerInv ((s.record runId r).startRunTask runId threadId input))
    (notWaiting : r.status? ≠ some .interrupted)
    (mine : ({ runId, threadId, input } : RunExecution).holds = true →
      ∀ p, s.threads (Text.strip threadId) = some p → p.owner = runId) :
    SharingInv ((s.record runId r).startRunTask runId threadId input) := by
  have waiting (run thread : String) (p : ThreadInterrupt)
      (interrupted : ((s.record runId r).records run).status? = some .interrupted)
      (isThread : ((s.record runId r).records run).threadId? = some thread)
      (isPending : s.threads (Text.strip thread) = some p) : p.owner = run := by
    by_cases same : run = runId
    · subst same
      rw [show (s.record run r).records run = r from Function.update_self ..] at interrupted
      exact absurd interrupted notWaiting
    · have unchanged : (s.record runId r).records run = s.records run :=
        Function.update_of_ne same ..
      rw [unchanged] at interrupted isThread
      exact inv.waiting run thread p interrupted isThread isPending
  rcases startRunTask_cases (s := s.record runId r) runId threadId input with
    ⟨-, same⟩ | ⟨-, started⟩
  · rw [same] at server ⊢
    exact { toServerInv := server, waiting := waiting, executing := inv.executing,
            delivered := inv.delivered }
  · rw [started] at server ⊢
    refine { toServerInv := server, waiting := waiting, executing := ?_,
             delivered := inv.delivered }
    intro t mem holds
    rcases List.mem_append.mp mem with old | new
    · exact inv.executing t old holds
    · rw [List.mem_singleton.mp new] at holds ⊢
      exact mine holds

theorem sharingInv_approve (inv : SharingInv s) (runId : String) (actor : Actor)
    (feedback : Option String) : SharingInv (s.approve runId actor feedback) := by
  have server := serverInv_approve inv.toServerInv runId actor feedback
  rcases approve_cases (s := s) runId actor feedback with same |
    ⟨threadId, r, interrupted, thread, -, running, -, started⟩
  · rw [same]
    exact inv
  · rw [started] at server ⊢
    refine sharingInv_start inv server ?_ fun _ p => inv.waiting runId threadId p interrupted thread
    rw [running]
    nofun

theorem sharingInv_advance (inv : SharingInv s) {i : Nat} {t : RunExecution} {m : ExecutionMove}
    {seg : Segment} (ok : Exclusive s (.task i m)) (here : s.tasks[i]? = some t)
    (moved : t.segment (s.records t.runId) (s.threads t.threadKey) m = some seg) :
    SharingInv (s.advance i t seg) := by
  have member : t ∈ s.tasks := List.mem_of_getElem? here
  have thread : (s.records t.runId).threadId? = some t.threadId := inv.rows t member
  -- an interrupt found in a thread was there before, or this run just raised it
  have found {key : String} {p : ThreadInterrupt}
      (isPending : (s.advance i t seg).threads key = some p) :
      s.threads key = some p ∧ (key = t.threadKey → seg.pending ≠ none) ∨
        p.owner = t.runId ∧ key = t.threadKey ∧ ∃ prompt, m = .stop (some prompt) := by
    change Function.update s.threads t.threadKey seg.pending key = some p at isPending
    by_cases same : key = t.threadKey
    · subst same
      rw [Function.update_self] at isPending
      rcases RunExecution.pending_of_segment moved with kept | none | ⟨prompt, isStop, raised⟩
      · exact .inl ⟨kept ▸ isPending, fun _ => by simp [isPending]⟩
      · cases none.symm.trans isPending
      · cases raised.symm.trans isPending
        exact .inr ⟨rfl, rfl, prompt, isStop⟩
    · rw [Function.update_of_ne same] at isPending
      exact .inl ⟨isPending, fun h => absurd h same⟩
  have alone {run threadId : String} (other : run ≠ t.runId)
      (isThread : (s.records run).threadId? = some threadId)
      (key : Text.strip threadId = t.threadKey) (stop : ∃ prompt, m = .stop (some prompt)) :
      ¬ (s.records run).underWay := by
    obtain ⟨prompt, rfl⟩ := stop
    exact ok t here run other (by rw [isThread, Option.map_some, key])
  refine { toServerInv := serverInv_advance inv.toServerInv here moved, waiting := ?_,
           executing := ?_, delivered := ?_ }
  · intro run threadId p interrupted isThread isPending
    by_cases same : run = t.runId
    · subst same
      rw [show (s.advance i t seg).records t.runId = seg.record from Function.update_self ..]
        at interrupted isThread
      cases ((RunExecution.threadId_of_segment moved).trans thread).symm.trans isThread
      rcases found isPending with ⟨before, -⟩ | ⟨raised, -, -⟩
      · rcases RunExecution.interrupted_of_segment moved interrupted with waits | ⟨holds, -⟩
        · exact inv.waiting t.runId t.threadId p waits thread before
        · exact inv.executing t member holds p before
      · exact raised
    · rw [show (s.advance i t seg).records run = s.records run from Function.update_of_ne same ..]
        at interrupted isThread
      rcases found isPending with ⟨before, -⟩ | ⟨-, key, stop⟩
      · exact inv.waiting run threadId p interrupted isThread before
      · exact absurd (.inr interrupted) (alone same isThread key stop)
  · intro b mem holds p isPending
    rcases mem_advance mem with rfl | ⟨j, other, hb⟩
    · rcases found isPending with ⟨before, kept⟩ | ⟨raised, -, -⟩
      · rcases RunExecution.holds_of_segment moved holds with held | dropped
        · exact inv.executing t member held p before
        · exact absurd dropped (kept rfl)
      · exact raised
    · have memB := List.mem_of_getElem? hb
      rcases found isPending with ⟨before, -⟩ | ⟨raised, key, stop⟩
      · exact inv.executing b memB holds p before
      · have running := inv.opened b memB (RunExecution.opened_of_holds holds)
        by_contra notMine
        refine alone (fun same => notMine (raised.trans same.symm)) (inv.rows b memB) key stop ?_
        exact .inl running
  · intro d mem
    rcases List.mem_append.mp mem with old | new
    · exact inv.delivered d old
    · obtain ⟨⟨value, interrupt⟩, answered, rfl⟩ := List.mem_map.mp new
      obtain ⟨opening, -, resumed, isPending⟩ :=
        RunExecution.answered_of_segment moved (Option.mem_toList.mp answered)
      have holds : t.holds = true := by
        simp [RunExecution.holds, RunExecution.opened, opening, resumed]
      exact inv.executing t member holds interrupt isPending

/-- **Step lemma.** -/
theorem sharingInv_step {l : ServerStep} (inv : SharingInv s) (ok : Exclusive s l)
    (step : runServer.step s l = some s') : SharingInv s' := by
  cases l with
  | create runId threadId workspace task principal =>
      have server := serverInv_step inv.toServerInv step
      obtain ⟨-, same⟩ := Option.ite_none_left_eq_some.mp step
      cases same
      exact sharingInv_start inv server nofun nofun
  | approve runId actor feedback =>
      cases step
      exact sharingInv_approve inv runId actor feedback
  | task i m =>
      obtain ⟨t, here, step⟩ := Option.bind_eq_some_iff.mp step
      obtain ⟨seg, moved, step⟩ := Option.bind_eq_some_iff.mp step
      cases step
      exact sharingInv_advance inv ok here moved

end Steps

/-- **An approval resumes only the run it was given for**, where no execution
raises an interrupt while another run of its thread is under way: for every order
of requests and executions, and every choice of threads. -/
theorem approval_answers_own_run {steps : List ServerStep} {s : Server}
    (run : Machine.Path runServer Exclusive {} steps s) : ∀ d ∈ s.delivered, d.owner = d.runId := by
  have start : SharingInv {} :=
    { toServerInv := serverInv_empty, waiting := nofun, executing := nofun, delivered := nofun }
  exact (run.invariant (fun _ _ _ ok inv step => sharingInv_step inv ok step) start).delivered

/-! ### Two runs on one thread -/

/-- The `i`-th run of a thread comes to an interrupt, and its task is done. -/
def interruptedOn (runId threadId : String) (i : Nat) : List ServerStep :=
  [.create runId threadId "." "task" ⟨"local", "user", none⟩, .task i .next, .task i .next,
    .task i (.stop (some "plan")), .task i (.observe {}), .task i .next]

/-- The run is approved, and the graph starts on the feedback. -/
def approvedOn (runId : String) (i : Nat) : List ServerStep :=
  [.approve runId ⟨"local", "user", none⟩ (some "approved"), .task i .next, .task i .next]

/-- On a thread of its own a run gets its approval. -/
theorem approval_answers_own_run_sample :
    ∃ s, Machine.Path runServer Exclusive {} (interruptedOn "a" "thread" 0 ++ approvedOn "a" 1) s ∧
      s.delivered = [⟨1, "a", "approved", "a"⟩] ∧ ∀ d ∈ s.delivered, d.owner = d.runId := by
  have run : ∃ s, Machine.Path runServer Exclusive {}
      (interruptedOn "a" "thread" 0 ++ approvedOn "a" 1) s ∧
      s.delivered = [⟨1, "a", "approved", "a"⟩] := by
    refine ⟨_, .cons trivial rfl (.cons trivial rfl (.cons trivial rfl (.cons ?_ rfl
      (.cons trivial rfl (.cons trivial rfl (.cons trivial rfl (.cons trivial rfl
        (.cons trivial rfl (.nil _))))))))), by decide +kernel⟩
    rintro t ⟨⟩ run other - underWay
    replace other : run ≠ "a" := other
    replace underWay : RunRecord.underWay (Function.update (Function.update (Function.update
      (fun _ => ({} : RunRecord)) "a" _) "a" _) "a" _ run) := underWay
    rw [Function.update_of_ne other, Function.update_of_ne other, Function.update_of_ne other]
      at underWay
    rcases underWay with running | interrupted
    · cases running
    · cases interrupted
  obtain ⟨s, path, delivered⟩ := run
  exact ⟨s, path, delivered, approval_answers_own_run path⟩

/-- The approval of run `a` answers the plan of run `b`, which came to the thread
later. -/
theorem approval_answers_other_run :
    ∃ s, Machine.Path runServer Machine.Free {}
        (interruptedOn "a" "thread" 0 ++ interruptedOn "b" "thread" 1 ++ approvedOn "a" 2) s ∧
      s.delivered = [⟨2, "a", "approved", "b"⟩] ∧ ¬ ∀ d ∈ s.delivered, d.owner = d.runId := by
  have run : ∃ s, runServer.run {}
        (interruptedOn "a" "thread" 0 ++ interruptedOn "b" "thread" 1 ++ approvedOn "a" 2) = some s ∧
      s.delivered = [⟨2, "a", "approved", "b"⟩] :=
    ⟨_, rfl, by decide +kernel⟩
  obtain ⟨s, path, delivered⟩ := run
  refine ⟨s, Machine.run_eq_some_iff.mp path, delivered, fun own => ?_⟩
  have mine := own _ (delivered ▸ List.mem_singleton_self _)
  exact absurd mine (by decide)

end AgentOs
