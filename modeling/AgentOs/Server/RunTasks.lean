import AgentOs.Lib.Machine
import AgentOs.Lib.Slots
import AgentOs.Server.RunExecutor
import Mathlib.Logic.Function.Basic

/-!
Runs, their tasks and their threads (`server/api.py`, `server/run_executor.py`),
at the granularity of the code between two awaits.

A `RunExecution` is a task of `_start_run_task`; `segment` is what it does until
its next await. The checkpoint of a thread is kept as the interrupt pending in
it, with the run that raised it: new input drops it, `Command(resume)` answers
it, and a pass of the graph leaves another or none. Whatever else the graph and
the checkpoint hold is in the steps.

The endpoints have no await: each is one step. `serverInv_step` is what every
order of steps keeps; a run has at most one unfinished task, the registered one.
-/

namespace AgentOs

open AgentOs.Lib

/-! ### The endpoint -/

/-- What `approve_run_endpoint` answers. -/
inductive ApproveReply where
  | notFound
  | conflict
  | running
  /-- accepted: the run resumes with this feedback -/
  | resumed (feedback : String)
deriving DecidableEq, Repr

/-- `approve_run_endpoint` on a run nobody else changes meanwhile. -/
def approveRun (r : RunRecord) (actor : Actor) (feedback : Option String) :
    ApproveReply × RunRecord :=
  match r.status? with
  | none => (.notFound, r)
  | some .interrupted =>
      let (accepted, r') := r.recordApprovalAndTransition actor "approved"
        (feedback.filter (· ≠ ""))
      if accepted then (.resumed (feedback.getD ""), r') else (.conflict, r')
  | some .running => (.running, r)
  | some _ => (.conflict, r)

/-- An accepted request adds one decision to the ledger, and it is
`"approved"`. -/
theorem approveRun_accepted {r : RunRecord} (h : r.status? = some .interrupted) (actor : Actor)
    (feedback : Option String) :
    (approveRun r actor feedback).1 = .resumed (feedback.getD "") ∧
      ∃ approval, (approveRun r actor feedback).2.approvals = r.approvals ++ [approval] ∧
        approval.decision = "approved" := by
  simp only [approveRun, h, RunRecord.recordApproval_accepted h, if_true]
  exact ⟨trivial, _, rfl, rfl⟩

/-! ### Executions -/

/-- The graph input of an execution. -/
inductive RunInput where
  | fresh (task : String)
  | resume (feedback : String)
deriving DecidableEq, Repr

/-- Where an execution awaits. -/
inductive ExecutionPoint where
  | ready
  /-- the checkpointer opens; the graph has not read its input -/
  | opening
  | streaming
  /-- `aget_state` -/
  | snapshot
  /-- its contexts close -/
  | leaving
  | done
deriving DecidableEq, Repr

structure RunExecution where
  runId : String
  threadId : String
  input : RunInput
  point : ExecutionPoint := .ready
deriving DecidableEq, Repr

/-- The key of a thread's checkpoint. -/
def RunExecution.threadKey (t : RunExecution) : String :=
  Text.strip t.threadId

/-- The interrupt pending in a checkpoint, and the run whose execution raised
it. -/
structure ThreadInterrupt where
  owner : String
  prompt : String
deriving DecidableEq, Repr

/-- What ends an await. -/
inductive ExecutionMove where
  | next
  /-- the graph hands out an event that is kept -/
  | event (kind : String) (payload : Json)
  /-- the graph stops, at an interrupt or at its end -/
  | stop (prompt : Option String)
  /-- the snapshot, with these values -/
  | observe (state : SimonState)
  | fail (message : String)

/-- What an execution leaves behind at its next await. -/
structure Segment where
  point : ExecutionPoint
  record : RunRecord
  pending : Option ThreadInterrupt
  /-- the resume value it handed over, and the interrupt it went to -/
  answered : Option (String × ThreadInterrupt) := none

/-- `except Exception`. -/
def recordError (r : RunRecord) (message : String) : RunRecord :=
  (r.appendEvent "error" (.obj [("message", .str message)])).setStatus .error (some message) true

/-- What `execute_run` records of a snapshot. -/
def recordSnapshot (r : RunRecord) (pending : Option ThreadInterrupt) (state : SimonState) :
    RunRecord :=
  match pending with
  | some interrupt =>
      (r.appendEvent "interrupt" (.obj [("prompt", .str interrupt.prompt)])).setStatus .interrupted
  | none =>
      let r' := r.appendEvent "result" (resultPayload state)
      match terminalToolFailure state with
      | none => r'.setStatus .completed none true
      | some (status, message) => r'.setStatus status (some message) true

/-- The code of an execution up to its next await, with the ledger of its run and
the interrupt pending in its thread. -/
def RunExecution.segment (t : RunExecution) (r : RunRecord) (pending : Option ThreadInterrupt) :
    ExecutionMove → Option Segment
  | .next =>
      match t.point with
      | .ready =>
          -- `runtime_config` refuses a blank thread id before the `try`
          if t.threadKey = "" then some ⟨.done, r, pending, none⟩
          else if r.row.isNone then
            some ⟨.done, recordError r ("Run " ++ t.runId ++ " does not exist"), pending, none⟩
          else some ⟨.opening, r.setStatus .running, pending, none⟩
      | .opening =>
          match t.input with
          | .fresh _ => some ⟨.streaming, r, none, none⟩
          | .resume feedback => some ⟨.streaming, r, none, pending.map (feedback, ·)⟩
      | .leaving => some ⟨.done, r, pending, none⟩
      | _ => none
  | .event kind payload =>
      if t.point = .streaming then some ⟨.streaming, r.appendEvent kind payload, pending, none⟩
      else none
  | .stop prompt =>
      if t.point = .streaming then
        some ⟨.snapshot, r, prompt.map fun text => ⟨t.runId, text⟩, none⟩
      else none
  | .observe state =>
      if t.point = .snapshot then some ⟨.leaving, recordSnapshot r pending state, pending, none⟩
      else none
  | .fail message =>
      if t.point = .ready ∨ t.point = .done then none
      else some ⟨.done, recordError r message, pending, none⟩

/-! ### The server -/

/-- A resume value handed to an interrupt. -/
structure Delivery where
  /-- the execution, a place in `tasks` -/
  task : Nat
  runId : String
  value : String
  owner : String
deriving DecidableEq, Repr

/-- The ledgers of the runs, the tasks started so far, `ACTIVE_RUN_TASKS`, the
threads' pending interrupts, and the resume values delivered so far. -/
structure Server where
  records : String → RunRecord := fun _ => {}
  tasks : List RunExecution := []
  active : String → Option Nat := fun _ => none
  threads : String → Option ThreadInterrupt := fun _ => none
  delivered : List Delivery := []

inductive ServerStep where
  /-- an accepted `POST /api/runs`: `runId` is new -/
  | create (runId threadId workspace task : String) (principal : Actor)
  /-- `POST /api/runs/{run_id}/approve` -/
  | approve (runId : String) (actor : Actor) (feedback : Option String)
  | task (i : Nat) (m : ExecutionMove)

namespace Server

/-- `ACTIVE_RUN_TASKS.get(run_id)`, unless that task is done. -/
def activeTask (s : Server) (runId : String) : Option Nat :=
  (s.active runId).filter fun i => ∃ t ∈ s.tasks[i]?, t.point ≠ .done

/-- The ledger of one run is replaced. -/
def record (s : Server) (runId : String) (r : RunRecord) : Server :=
  { s with records := Function.update s.records runId r }

/-- `_start_run_task`. -/
def startRunTask (s : Server) (runId threadId : String) (input : RunInput) : Server :=
  if (s.activeTask runId).isSome then s
  else
    { s with
      tasks := s.tasks ++ [{ runId, threadId, input }]
      active := Function.update s.active runId (some s.tasks.length) }

/-- `create_run_endpoint`. -/
def createRun (s : Server) (runId threadId workspace task : String) (principal : Actor) : Server :=
  (s.record runId (RunRecord.createRun threadId (some workspace) (some task) (some principal.id)
    (some principal.kind))).startRunTask runId threadId (.fresh task)

/-- `approve_run_endpoint`. -/
def approve (s : Server) (runId : String) (actor : Actor) (feedback : Option String) : Server :=
  match approveRun (s.records runId) actor feedback, (s.records runId).row with
  | (.resumed value, r), some row =>
      (s.record runId r).startRunTask runId row.threadId (.resume value)
  | (_, r), _ => s.record runId r

/-- The execution at place `i` comes to its next await. A task that is done has
left the registry. -/
def advance (s : Server) (i : Nat) (t : RunExecution) (seg : Segment) : Server where
  records := Function.update s.records t.runId seg.record
  tasks := s.tasks.set i { t with point := seg.point }
  active := if seg.point = .done then Function.update s.active t.runId none else s.active
  threads := Function.update s.threads t.threadKey seg.pending
  delivered := s.delivered ++
    seg.answered.toList.map fun (value, interrupt) => ⟨i, t.runId, value, interrupt.owner⟩

end Server

def runServer : Machine Server ServerStep where
  step s l :=
    match l with
    | .create runId threadId workspace task principal =>
        if (s.records runId).row.isSome then none
        else some (s.createRun runId threadId workspace task principal)
    | .approve runId actor feedback => some (s.approve runId actor feedback)
    | .task i m => do
        let t ← s.tasks[i]?
        let seg ← t.segment (s.records t.runId) (s.threads t.threadKey) m
        some (s.advance i t seg)

/-! ### Segments -/

@[simp] theorem recordError_status? (r : RunRecord) (message : String) :
    (recordError r message).status? = r.status?.map fun _ => .error := by
  simp [recordError]

@[simp] theorem recordSnapshot_threadId? (r : RunRecord) (pending : Option ThreadInterrupt)
    (state : SimonState) : (recordSnapshot r pending state).threadId? = r.threadId? := by
  unfold recordSnapshot
  split
  · simp
  · dsimp only
    split <;> simp

/-- A snapshot is recorded as a status that is neither queued nor running. -/
theorem recordSnapshot_status? (r : RunRecord) (pending : Option ThreadInterrupt)
    (state : SimonState) :
    ∃ status, (recordSnapshot r pending state).status? = r.status?.map (fun _ => status) ∧
      status ≠ .queued ∧ status ≠ .running := by
  unfold recordSnapshot
  split
  · exact ⟨.interrupted, by simp, by decide, by decide⟩
  · dsimp only
    split
    · exact ⟨.completed, by simp, by decide, by decide⟩
    · rename_i status message failure
      refine ⟨status, by simp, ?_⟩
      rcases terminalToolFailure_status failure with rfl | rfl <;> decide

namespace RunExecution

/-- What a segment can be. -/
inductive SegmentCase (t : RunExecution) (r : RunRecord) (pending : Option ThreadInterrupt) :
    ExecutionMove → Segment → Prop where
  | refused : t.point = .ready → t.threadKey = "" →
      SegmentCase t r pending .next ⟨.done, r, pending, none⟩
  | missing {message : String} : t.point = .ready → r.row = none →
      SegmentCase t r pending .next ⟨.done, recordError r message, pending, none⟩
  | starts : t.point = .ready → t.threadKey ≠ "" →
      SegmentCase t r pending .next ⟨.opening, r.setStatus .running, pending, none⟩
  | enters {task : String} : t.point = .opening → t.input = .fresh task →
      SegmentCase t r pending .next ⟨.streaming, r, none, none⟩
  | resumes {feedback : String} : t.point = .opening → t.input = .resume feedback →
      SegmentCase t r pending .next ⟨.streaming, r, none, pending.map (feedback, ·)⟩
  | streams {kind : String} {payload : Json} : t.point = .streaming →
      SegmentCase t r pending (.event kind payload)
        ⟨.streaming, r.appendEvent kind payload, pending, none⟩
  | stops {prompt : Option String} : t.point = .streaming →
      SegmentCase t r pending (.stop prompt)
        ⟨.snapshot, r, prompt.map fun text => ⟨t.runId, text⟩, none⟩
  | records {state : SimonState} : t.point = .snapshot →
      SegmentCase t r pending (.observe state)
        ⟨.leaving, recordSnapshot r pending state, pending, none⟩
  | fails {message : String} : t.point ≠ .ready → t.point ≠ .done →
      SegmentCase t r pending (.fail message) ⟨.done, recordError r message, pending, none⟩
  | leaves : t.point = .leaving → SegmentCase t r pending .next ⟨.done, r, pending, none⟩

variable {t : RunExecution} {r : RunRecord} {pending : Option ThreadInterrupt} {m : ExecutionMove}
  {seg : Segment}

theorem segment_cases (h : t.segment r pending m = some seg) : SegmentCase t r pending m seg := by
  cases m with
  | next =>
      simp only [segment] at h
      split at h
      · rename_i ready
        split at h
        · cases h
          exact .refused ready ‹_›
        · split at h
          · cases h
            exact .missing ready (Option.isNone_iff_eq_none.mp ‹_›)
          · cases h
            exact .starts ready ‹_›
      · rename_i opening
        split at h <;> cases h
        · exact .enters opening ‹_›
        · exact .resumes opening ‹_›
      · cases h
        exact .leaves ‹_›
      · cases h
  | event kind payload =>
      obtain ⟨streaming, same⟩ := Option.ite_none_right_eq_some.mp h
      cases same
      exact .streams streaming
  | stop prompt =>
      obtain ⟨streaming, same⟩ := Option.ite_none_right_eq_some.mp h
      cases same
      exact .stops streaming
  | observe state =>
      obtain ⟨snapshot, same⟩ := Option.ite_none_right_eq_some.mp h
      cases same
      exact .records snapshot
  | fail message =>
      obtain ⟨inside, same⟩ := Option.ite_none_left_eq_some.mp h
      cases same
      exact .fails (fun ready => inside (.inl ready)) fun done => inside (.inr done)

theorem not_done_of_segment (h : t.segment r pending m = some seg) : t.point ≠ .done := by
  intro done
  cases segment_cases h <;> simp_all

theorem threadId_of_segment (h : t.segment r pending m = some seg) :
    seg.record.threadId? = r.threadId? := by
  cases segment_cases h with
  | records => exact recordSnapshot_threadId? ..
  | _ => simp [recordError]

theorem approvals_of_segment (h : t.segment r pending m = some seg) :
    seg.record.approvals = r.approvals := by
  cases segment_cases h with
  | records => unfold recordSnapshot; split <;> [rfl; (dsimp only; split <;> rfl)]
  | _ => rfl

/-- The execution has its run's status to itself: it was resumed, or it set it to
running, and has not recorded how its pass ended. -/
def opened (t : RunExecution) : Bool :=
  match t.point, t.input with
  | .ready, .fresh _ => false
  | .ready, .resume _ | .opening, _ | .streaming, _ | .snapshot, _ => true
  | .leaving, _ | .done, _ => false

/-- While it has, the status is running. -/
theorem running_of_segment (h : t.segment r pending m = some seg) (row : r.row.isSome = true)
    (before : t.opened = true → r.status? = some .running)
    (after : ({ t with point := seg.point } : RunExecution).opened = true) :
    seg.record.status? = some .running := by
  cases segment_cases h with
  | starts ready key =>
      obtain ⟨x, present⟩ := Option.isSome_iff_exists.mp row
      simp [RunRecord.status?, RunRecord.setStatus, RunRecord.updateRow, present]
  | enters opening fresh => exact before (by simp [opened, opening])
  | resumes opening resumed => exact before (by simp [opened, opening])
  | streams streaming => exact before (by simp [opened, streaming])
  | stops streaming => exact before (by simp [opened, streaming])
  | _ => simp [opened] at after

/-- A value is handed over when the graph starts on it, to the interrupt pending
then. -/
theorem answered_of_segment (h : t.segment r pending m = some seg) {value : String}
    {interrupt : ThreadInterrupt} (answered : seg.answered = some (value, interrupt)) :
    t.point = .opening ∧ seg.point = .streaming ∧ t.input = .resume value ∧
      pending = some interrupt := by
  cases segment_cases h with
  | resumes opening resumed =>
      obtain ⟨pending', isPending, same⟩ := Option.map_eq_some_iff.mp answered
      cases same
      exact ⟨opening, rfl, resumed, isPending⟩
  | _ => cases answered

theorem not_opening_of_segment (h : t.segment r pending m = some seg) (started : t.point ≠ .ready) :
    seg.point ≠ .ready ∧ seg.point ≠ .opening := by
  cases segment_cases h with
  | refused ready | missing ready | starts ready => exact absurd ready started
  | _ => exact ⟨nofun, nofun⟩

/-- An execution that ends with the run still running was leaving, or refused its
thread id. -/
theorem running_of_done (h : t.segment r pending m = some seg) (done : seg.point = .done)
    (running : seg.record.status? = some .running) :
    r.status? = some .running ∧ (t.point = .leaving ∨ t.threadKey = "") := by
  have notError (message : String) : (recordError r message).status? ≠ some .running := by
    cases status : r.status? <;> simp [status]
  cases segment_cases h with
  | refused _ key => exact ⟨running, .inr key⟩
  | missing => exact absurd running (notError _)
  | fails => exact absurd running (notError _)
  | leaves leaving => exact ⟨running, .inl leaving⟩
  | _ => cases done

/-- An execution that leaves has recorded how its pass ended. -/
theorem not_running_of_leaving (h : t.segment r pending m = some seg)
    (leaving : seg.point = .leaving) : seg.record.status? ≠ some .running := by
  cases segment_cases h with
  | records =>
      obtain ⟨status, recorded, -, notRunning⟩ := recordSnapshot_status? r pending _
      rw [recorded]
      cases r.status? with
      | none => nofun
      | some _ => exact fun same => notRunning (Option.some.inj same)
  | _ => cases leaving

/-- A status other than queued is one the run had, or its thread id is usable. -/
theorem named_of_segment (h : t.segment r pending m = some seg) (row : r.row.isSome = true)
    (keyed : t.point ≠ .ready → t.threadKey ≠ "") :
    t.threadKey ≠ "" ∨ seg.record = r := by
  cases segment_cases h with
  | refused => exact .inr rfl
  | missing _ absent => simp [absent] at row
  | starts _ key => exact .inl key
  | enters opening | resumes opening => exact .inl (keyed (by simp [opening]))
  | streams streaming | stops streaming => exact .inl (keyed (by simp [streaming]))
  | records snapshot => exact .inl (keyed (by simp [snapshot]))
  | fails started => exact .inl (keyed started)
  | leaves => exact .inr rfl

theorem keyed_of_segment (h : t.segment r pending m = some seg)
    (keyed : t.point ≠ .ready → t.threadKey ≠ "") (unfinished : seg.point ≠ .done) :
    t.threadKey ≠ "" := by
  cases segment_cases h with
  | starts _ key => exact key
  | enters opening | resumes opening => exact keyed (by simp [opening])
  | streams streaming | stops streaming => exact keyed (by simp [streaming])
  | records snapshot => exact keyed (by simp [snapshot])
  | refused | missing | fails | leaves => exact absurd rfl unfinished

end RunExecution

/-! ### What every order of steps keeps -/

/-- A task belongs to a run on its thread; the unfinished task of a run is the
registered one, and a registered task is of that run; a task that has the status
to itself finds it running; and a run whose task started has a usable thread
id. -/
structure ServerInv (s : Server) : Prop where
  rows : ∀ t ∈ s.tasks, (s.records t.runId).threadId? = some t.threadId
  registered : ∀ (i : Nat) (t : RunExecution), s.tasks[i]? = some t → t.point ≠ .done →
    s.active t.runId = some i
  registry : ∀ run i, s.active run = some i → ∃ t, s.tasks[i]? = some t ∧ t.runId = run
  opened : ∀ t ∈ s.tasks, t.opened = true → (s.records t.runId).status? = some .running
  keyed : ∀ t ∈ s.tasks, t.point ≠ .ready → t.point ≠ .done → t.threadKey ≠ ""
  named : ∀ (run : String) (status : RunStatus) (threadId : String),
    (s.records run).status? = some status → status ≠ .queued →
      (s.records run).threadId? = some threadId → Text.strip threadId ≠ ""

section Steps

variable {s s' : Server}

theorem Server.activeTask_of_unfinished (inv : ServerInv s) {i : Nat} {t : RunExecution}
    (here : s.tasks[i]? = some t) (unfinished : t.point ≠ .done) :
    s.activeTask t.runId = some i :=
  Option.filter_eq_some_iff.mpr
    ⟨inv.registered i t here unfinished, decide_eq_true ⟨t, here, unfinished⟩⟩

/-- Two unfinished tasks of one run are the same. -/
theorem unfinished_unique (inv : ServerInv s) {i j : Nat} {a b : RunExecution}
    (ha : s.tasks[i]? = some a) (hb : s.tasks[j]? = some b) (same : a.runId = b.runId)
    (unfinishedA : a.point ≠ .done) (unfinishedB : b.point ≠ .done) : i = j := by
  have atI := inv.registered i a ha unfinishedA
  rw [same] at atI
  exact Option.some.inj (atI.symm.trans (inv.registered j b hb unfinishedB))

theorem not_done_of_opened {t : RunExecution} (h : t.opened = true) : t.point ≠ .done := by
  intro done
  simp [RunExecution.opened, done] at h

/-- `_start_run_task` starts a task unless the registered one is unfinished. -/
theorem startRunTask_cases (runId threadId : String) (input : RunInput) :
    (s.activeTask runId).isSome = true ∧ s.startRunTask runId threadId input = s ∨
      s.activeTask runId = none ∧ s.startRunTask runId threadId input =
        { s with
          tasks := s.tasks ++ [{ runId, threadId, input }]
          active := Function.update s.active runId (some s.tasks.length) } := by
  unfold Server.startRunTask
  split
  · exact .inl ⟨‹_›, rfl⟩
  · rename_i free
    exact .inr ⟨Option.not_isSome_iff_eq_none.mp free, rfl⟩

/-- Starting a task keeps the invariant, if its run is on this thread and running
where the task is a resumed one. -/
theorem serverInv_startRunTask (inv : ServerInv s) {runId threadId : String} {input : RunInput}
    (row : (s.records runId).threadId? = some threadId)
    (resumed : ({ runId, threadId, input } : RunExecution).opened = true →
      (s.records runId).status? = some .running) :
    ServerInv (s.startRunTask runId threadId input) := by
  rcases startRunTask_cases (s := s) runId threadId input with ⟨-, same⟩ | ⟨free, started⟩
  · rw [same]
    exact inv
  · rw [started]
    refine ⟨?_, ?_, ?_, ?_, ?_, inv.named⟩
    · intro t mem
      rcases List.mem_append.mp mem with old | new
      · exact inv.rows t old
      · rw [List.mem_singleton.mp new]
        exact row
    · intro i t here unfinished
      rcases getElem?_concat_cases here with old | ⟨rfl, rfl⟩
      · have other : t.runId ≠ runId := by
          rintro rfl
          rw [Server.activeTask_of_unfinished inv old unfinished] at free
          cases free
        exact (Function.update_of_ne other ..).trans (inv.registered i t old unfinished)
      · exact Function.update_self ..
    · intro run i isActive
      change Function.update s.active runId (some s.tasks.length) run = some i at isActive
      by_cases same : run = runId
      · subst same
        rw [Function.update_self] at isActive
        cases isActive
        exact ⟨_, List.getElem?_concat_length, rfl⟩
      · rw [Function.update_of_ne same] at isActive
        obtain ⟨t, here, mine⟩ := inv.registry run i isActive
        exact ⟨t, getElem?_concat_of_getElem? here, mine⟩
    · intro t mem opened
      rcases List.mem_append.mp mem with old | new
      · exact inv.opened t old opened
      · rw [List.mem_singleton.mp new] at opened ⊢
        exact resumed opened
    · intro t mem started unfinished
      rcases List.mem_append.mp mem with old | new
      · exact inv.keyed t old started unfinished
      · rw [List.mem_singleton.mp new] at started
        exact absurd rfl started

/-- Replacing the ledger of a run whose tasks do not have the status to
themselves. -/
theorem serverInv_record (inv : ServerInv s) {runId : String} {r : RunRecord}
    (rows : ∀ t ∈ s.tasks, t.runId = runId → r.threadId? = some t.threadId)
    (idle : ∀ t ∈ s.tasks, t.runId = runId → t.opened = false)
    (named : ∀ (status : RunStatus) (threadId : String), r.status? = some status →
      status ≠ .queued → r.threadId? = some threadId → Text.strip threadId ≠ "") :
    ServerInv (s.record runId r) := by
  have here : (s.record runId r).records runId = r := Function.update_self ..
  have there {run : String} (other : run ≠ runId) :
      (s.record runId r).records run = s.records run := Function.update_of_ne other ..
  refine ⟨?_, inv.registered, inv.registry, ?_, inv.keyed, ?_⟩
  · intro t mem
    by_cases same : t.runId = runId
    · rw [same, here]
      exact rows t mem same
    · rw [there same]
      exact inv.rows t mem
  · intro t mem opened
    by_cases same : t.runId = runId
    · rw [idle t mem same] at opened
      cases opened
    · rw [there same]
      exact inv.opened t mem opened
  · intro run status threadId
    by_cases same : run = runId
    · rw [same, here]
      exact named status threadId
    · rw [there same]
      exact inv.named run status threadId

/-- A new run has no tasks yet. -/
theorem serverInv_create (inv : ServerInv s) {runId threadId workspace task : String}
    {principal : Actor} (new : (s.records runId).row.isSome = false) :
    ServerInv (s.createRun runId threadId workspace task principal) := by
  have noTask (t : RunExecution) (mem : t ∈ s.tasks) : t.runId ≠ runId := by
    rintro rfl
    have row := inv.rows t mem
    simp [RunRecord.threadId?, Option.isSome_eq_false_iff.mp new |> Option.isNone_iff_eq_none.mp]
      at row
  refine serverInv_startRunTask (serverInv_record inv ?_ ?_ ?_) ?_ ?_
  · exact fun t mem same => absurd same (noTask t mem)
  · exact fun t mem same => absurd same (noTask t mem)
  · intro status id queued notQueued
    cases queued
    exact absurd rfl notQueued
  · exact (congrArg RunRecord.threadId? (Function.update_self runId _ s.records)).trans rfl
  · intro opened
    cases opened

/-- What an approval request does: it changes nothing, or it finds the run
interrupted, adds the decision and starts a task. -/
theorem approve_cases (runId : String) (actor : Actor) (feedback : Option String) :
    s.approve runId actor feedback = s ∨
      ∃ threadId r, (s.records runId).status? = some .interrupted ∧
        (s.records runId).threadId? = some threadId ∧ r.threadId? = some threadId ∧
        r.status? = some .running ∧
        (∃ approval : RunApproval, r.approvals = (s.records runId).approvals ++ [approval] ∧
          approval.reason.getD "" = feedback.getD "") ∧
        s.approve runId actor feedback =
          (s.record runId r).startRunTask runId threadId (.resume (feedback.getD "")) := by
  have unchanged : s.record runId (s.records runId) = s := by
    simp [Server.record]
  unfold Server.approve approveRun
  cases row : (s.records runId).row with
  | none =>
      left
      simp only [RunRecord.status?, row, Option.map_none]
      exact unchanged
  | some x =>
      have status : (s.records runId).status? = some x.status := by simp [RunRecord.status?, row]
      cases isStatus : x.status with
      | interrupted =>
          right
          rw [isStatus] at status
          simp only [status, RunRecord.recordApproval_accepted status, if_true]
          have thread : (s.records runId).threadId? = some x.threadId := by
            simp [RunRecord.threadId?, row]
          refine ⟨x.threadId, _, trivial, thread, ?_, ?_, ?_, rfl⟩
          · rw [RunRecord.setStatus_threadId?, RunRecord.addApproval_threadId?, thread]
          · rw [RunRecord.setStatus_status?, RunRecord.addApproval_status?, status]
            rfl
          · exact ⟨_, rfl, by cases feedback <;> simp [Option.filter]; grind⟩
      | _ =>
          left
          rw [isStatus] at status
          simp only [status]
          exact unchanged

theorem serverInv_approve (inv : ServerInv s) (runId : String) (actor : Actor)
    (feedback : Option String) : ServerInv (s.approve runId actor feedback) := by
  rcases approve_cases (s := s) runId actor feedback with same |
    ⟨threadId, r, interrupted, thread, thread', running, -, started⟩
  · rw [same]
    exact inv
  · rw [started]
    have here : (s.record runId r).records runId = r := Function.update_self ..
    refine serverInv_startRunTask (serverInv_record inv ?_ ?_ ?_) ?_ fun _ => ?_
    · rintro t mem rfl
      exact thread'.trans (thread.symm.trans (inv.rows t mem))
    · rintro t mem rfl
      by_contra opened
      cases interrupted.symm.trans (inv.opened t mem (by simpa using opened))
    · intro status other _ _ isOther
      cases thread'.symm.trans isOther
      exact inv.named runId _ threadId interrupted (by decide) thread
    · rw [here]
      exact thread'
    · rw [here]
      exact running

/-- A task after a segment is the one that advanced, or one that was there. -/
theorem mem_advance {i : Nat} {t b : RunExecution} {seg : Segment}
    (mem : b ∈ (s.advance i t seg).tasks) :
    b = { t with point := seg.point } ∨ ∃ j, j ≠ i ∧ s.tasks[j]? = some b := by
  obtain ⟨j, atJ⟩ := List.mem_iff_getElem?.mp mem
  exact (getElem?_set_cases atJ).imp And.right fun h => ⟨j, h⟩

/-- **Step lemma, tasks.** -/
theorem serverInv_advance (inv : ServerInv s) {i : Nat} {t : RunExecution} {m : ExecutionMove}
    {seg : Segment} (here : s.tasks[i]? = some t)
    (moved : t.segment (s.records t.runId) (s.threads t.threadKey) m = some seg) :
    ServerInv (s.advance i t seg) := by
  have member : t ∈ s.tasks := List.mem_of_getElem? here
  have unfinished := RunExecution.not_done_of_segment moved
  have thread : (s.records t.runId).threadId? = some t.threadId := inv.rows t member
  have thread' : seg.record.threadId? = some t.threadId :=
    (RunExecution.threadId_of_segment moved).trans thread
  have row : (s.records t.runId).row.isSome = true := by
    simpa [RunRecord.threadId?] using congrArg Option.isSome thread
  have keyed (started : t.point ≠ .ready) : t.threadKey ≠ "" :=
    inv.keyed t member started unfinished
  have mine : (s.advance i t seg).records t.runId = seg.record := Function.update_self ..
  have others {run : String} (other : run ≠ t.runId) :
      (s.advance i t seg).records run = s.records run := Function.update_of_ne other ..
  have elsewhere {j : Nat} {b : RunExecution} (other : j ≠ i) (hb : s.tasks[j]? = some b)
      (open_ : b.point ≠ .done) : b.runId ≠ t.runId := fun same =>
    other (unfinished_unique inv hb here same open_ unfinished)
  refine ⟨?_, ?_, ?_, ?_, ?_, ?_⟩
  · intro b mem
    rcases mem_advance mem with rfl | ⟨j, -, hb⟩
    · rw [mine]
      exact thread'
    · have before := inv.rows b (List.mem_of_getElem? hb)
      by_cases same : b.runId = t.runId
      · rw [same] at before ⊢
        rw [mine, thread', ← before, thread]
      · rw [others same]
        exact before
  · intro j b atJ open_
    change (if seg.point = .done then Function.update s.active t.runId none else s.active) b.runId =
      some j
    rcases getElem?_set_cases atJ with ⟨rfl, rfl⟩ | ⟨other, hb⟩
    · rw [if_neg open_]
      exact inv.registered j t here unfinished
    · have active := inv.registered j b hb open_
      split
      · rw [Function.update_of_ne (elsewhere other hb open_), active]
      · exact active
  · intro run j isActive
    change (if seg.point = .done then Function.update s.active t.runId none else s.active) run =
      some j at isActive
    have before : s.active run = some j := by
      split at isActive
      · by_cases same : run = t.runId
        · rw [same, Function.update_self] at isActive
          cases isActive
        · rwa [Function.update_of_ne same] at isActive
      · exact isActive
    obtain ⟨b, hb, mineB⟩ := inv.registry run j before
    by_cases same : i = j
    · subst same
      cases here.symm.trans hb
      exact ⟨_, getElem?_set_self_of_getElem? here, mineB⟩
    · exact ⟨b, by rw [← hb]; exact List.getElem?_set_ne same, mineB⟩
  · intro b mem opened
    rcases mem_advance mem with rfl | ⟨j, other, hb⟩
    · rw [mine]
      exact RunExecution.running_of_segment moved row (inv.opened t member) opened
    · rw [others (elsewhere other hb (not_done_of_opened opened))]
      exact inv.opened b (List.mem_of_getElem? hb) opened
  · intro b mem started open_
    rcases mem_advance mem with rfl | ⟨j, -, hb⟩
    · have key : t.threadKey ≠ "" := RunExecution.keyed_of_segment moved keyed open_
      exact key
    · exact inv.keyed b (List.mem_of_getElem? hb) started open_
  · intro run status threadId current notQueued isId
    by_cases same : run = t.runId
    · subst same
      rw [mine] at current isId
      cases thread'.symm.trans isId
      rcases RunExecution.named_of_segment moved row keyed with key | unchanged
      · exact key
      · rw [unchanged] at current
        exact inv.named t.runId status t.threadId current notQueued thread
    · rw [others same] at current isId
      exact inv.named run status threadId current notQueued isId

/-- **Step lemma.** -/
theorem serverInv_step {l : ServerStep} (inv : ServerInv s) (step : runServer.step s l = some s') :
    ServerInv s' := by
  cases l with
  | create runId threadId workspace task principal =>
      obtain ⟨new, same⟩ := Option.ite_none_left_eq_some.mp step
      cases same
      exact serverInv_create inv (by simpa using new)
  | approve runId actor feedback =>
      cases step
      exact serverInv_approve inv runId actor feedback
  | task i m =>
      obtain ⟨t, here, step⟩ := Option.bind_eq_some_iff.mp step
      obtain ⟨seg, moved, step⟩ := Option.bind_eq_some_iff.mp step
      cases step
      exact serverInv_advance inv here moved

theorem serverInv_empty : ServerInv {} where
  rows := nofun
  registered := nofun
  registry := nofun
  opened := nofun
  keyed := nofun
  named := nofun

end Steps

end AgentOs
