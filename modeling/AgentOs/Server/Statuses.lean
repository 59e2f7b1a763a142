import AgentOs.Lib.Machine
import AgentOs.Lib.Slots
import AgentOs.Server.RunExecutor

/-!
The status of one run, at the granularity of single ledger calls
(`server/api.py`, `server/run_executor.py`, `scheduler.py`).

A `RunTask` is one execution of `execute_run`, awaited by the `runner` of
`_start_run_task` (registered in `ACTIVE_RUN_TASKS`) or by `dispatch_schedule`
(not registered). `RunTask.move` is its next ledger call, or what an await ends
with: whatever the graph does is in the move, and an exception or a cancellation
may come at any point where the code lets one through. The endpoints act between
any two calls.

The guarded calls never change a terminal status (`apply_status_of_terminal`);
`set_status` does. `Undisturbed` names the steps after which a task can still
reach an unguarded `set_status` on a run that has ended, and
`terminal_absorbing` says that nothing else leaves a terminal status.
-/

namespace AgentOs

open AgentOs.Lib

/-! ### Tasks -/

/-- Who awaits `execute_run`. -/
inductive Caller where
  /-- the `runner` of `_start_run_task` -/
  | runner
  /-- `dispatch_schedule` -/
  | schedule
deriving DecidableEq, Repr

/-- Where a task stands: what it does next. `outer` says whether the handler of a
cancellation is `runner`'s (or `execute_run`'s own). -/
inductive TaskPoint where
  | ready
  /-- the row was read: `set_status` running -/
  | opening
  /-- it awaits the graph -/
  | streaming
  /-- the prompt was written: `set_status` interrupted -/
  | interrupting
  /-- the result was written: `set_status` with how it ended -/
  | ending (status : RunStatus) (error : Option String)
  /-- it awaits the exits of its contexts -/
  | leaving
  /-- `except Exception`: `append_event` -/
  | failing (message : String)
  /-- `except Exception`: `set_status` error -/
  | failed (message : String)
  /-- `except CancelledError`: `get_run` -/
  | cancelling (outer : Bool)
  /-- the row was read and had not ended: `set_status` cancelled -/
  | marking (outer : Bool)
  | noting (outer : Bool)
  /-- `dispatch_schedule`'s handler: `append_event` -/
  | shutdown
  /-- `dispatch_schedule`'s handler: `set_status` error -/
  | shutdownNoted
  | done
deriving DecidableEq, Repr

structure RunTask where
  caller : Caller
  point : TaskPoint := .ready
  /-- `Task.cancel` was called -/
  cancelRequested : Bool := false
deriving DecidableEq, Repr

/-- How a task goes on. -/
inductive TaskMove where
  /-- the next call, or the normal end of an await -/
  | next
  /-- the graph hands out an event that is kept -/
  | event (kind : String) (payload : Json)
  /-- the graph stopped at an interrupt -/
  | interrupt (prompt : String)
  /-- the graph stopped at its end, with this state -/
  | finish (state : SimonState)
  | raise (message : String)
  | cancel

namespace TaskPoint

/-- The task is at an await, or over. -/
def suspended : TaskPoint → Bool
  | ready | streaming | leaving | done => true
  | _ => false

/-- The task has not set the status its run ends or pauses with, or is in a
handler. -/
def executing : TaskPoint → Bool
  | leaving | done => false
  | _ => true

/-- The graph has not stopped, or its outcome is not recorded. -/
def working : TaskPoint → Bool
  | ready | opening | streaming | interrupting | ending .. => true
  | _ => false

/-- How the graph ended decides the status: a failure of the tool, or
completed. -/
def endingWith (state : SimonState) : TaskPoint :=
  match terminalToolFailure state with
  | none => ending .completed none
  | some (status, message) => ending status (some message)

end TaskPoint

namespace RunTask

/-- Where a cancellation goes after a handler: `execute_run` raises it again. -/
def handedOn (t : RunTask) (outer : Bool) : TaskPoint :=
  match outer, t.caller with
  | false, .runner => .cancelling true
  | false, .schedule => .shutdown
  | true, _ => .done

/-- Whether the await a task is at can end normally: not once `Task.cancel` was
called. -/
def resumable (t : RunTask) : Bool :=
  !(t.cancelRequested && t.point.suspended)

/-- A move of a task: where it stands after it, and the call it makes. -/
def move (t : RunTask) (runId : String) (r : RunRecord) (m : TaskMove) :
    Option (TaskPoint × Option LedgerCall) :=
  match t.point, m with
  | .ready, .next =>
      if !t.resumable then none
      else if r.row.isSome then some (.opening, none)
      else some (.failing ("Run " ++ runId ++ " does not exist"), none)
  -- before the `try`: an unusable thread id, or no policy
  | .ready, .raise _ => some (.done, none)
  | .ready, .cancel => if t.caller = .runner then some (.done, none) else none
  | .opening, .next => some (.streaming, some (.setStatus .running none false))
  | .streaming, .event kind payload =>
      if t.resumable then some (.streaming, some (.appendEvent kind payload)) else none
  | .streaming, .interrupt prompt =>
      if t.resumable then
        some (.interrupting, some (.appendEvent "interrupt" (.obj [("prompt", .str prompt)])))
      else none
  | .streaming, .finish state =>
      if t.resumable then
        some (.endingWith state, some (.appendEvent "result" (resultPayload state)))
      else none
  | .interrupting, .next => some (.leaving, some (.setStatus .interrupted none false))
  | .ending status error, .next => some (.leaving, some (.setStatus status error true))
  | .leaving, .next => if t.resumable then some (.done, none) else none
  | .opening, .raise message | .streaming, .raise message | .interrupting, .raise message
  | .ending .., .raise message | .leaving, .raise message => some (.failing message, none)
  | .streaming, .cancel | .leaving, .cancel => some (.cancelling false, none)
  | .failing message, .next =>
      some (.failed message, some (.appendEvent "error" (.obj [("message", .str message)])))
  | .failed message, .next => some (.done, some (.setStatus .error (some message) true))
  | .cancelling outer, .next =>
      if r.row.isSome && !r.ended then some (.marking outer, none)
      else some (t.handedOn outer, none)
  | .marking outer, .next => some (.noting outer, some (.setStatus .cancelled none true))
  | .noting outer, .next =>
      some (t.handedOn outer,
        some (.appendEvent "status" (.obj [("status", .str "cancelled")])))
  | .shutdown, .next =>
      some (.shutdownNoted,
        some (.appendEvent "error" (.obj [("message", .str "Scheduler shutdown")])))
  | .shutdownNoted, .next =>
      some (.done, some (.setStatus .error (some "Scheduler shutdown") true))
  | _, _ => none

/-- Whether the move takes the run out of the registry: the end of a `runner`
that started. -/
def unregisters (t : RunTask) (m : TaskMove) (point : TaskPoint) : Bool :=
  match t.point, m with
  | .ready, .cancel => false
  | _, _ => t.caller = .runner && point = .done

end RunTask

/-! ### The service -/

/-- Where a request that passed its first check stands. -/
inductive RequestPoint where
  /-- `cancel_run_endpoint`: `record_cancellation_and_transition` -/
  | cancel (actor : Actor)
  /-- `cancel_run_endpoint`: `append_event` -/
  | noteCancel
  /-- `approve_run_endpoint`: `record_approval_and_transition` -/
  | approve (actor : Actor) (feedback : Option String)
  | answered
deriving DecidableEq, Repr

/-- One run: its ledger, its tasks, its entry of `ACTIVE_RUN_TASKS` (a place in
`tasks`), and the requests about it. -/
structure RunService where
  runId : String
  record : RunRecord
  tasks : List RunTask
  active : Option Nat
  requests : List RequestPoint := []

inductive ServiceStep where
  | task (i : Nat) (m : TaskMove)
  | cancelRequest (actor : Actor)
  | approveRequest (actor : Actor) (feedback : Option String)
  /-- the next call of a request -/
  | answer (i : Nat)

namespace RunService

/-- The registered task, unless it is done. -/
def activeTask (s : RunService) : Option Nat :=
  s.active.filter fun i => ∃ t ∈ s.tasks[i]?, t.point ≠ .done

/-- `_start_run_task`. -/
def startRunTask (s : RunService) : RunService :=
  if s.activeTask.isSome then s
  else { s with tasks := s.tasks ++ [{ caller := .runner }], active := some s.tasks.length }

/-- `Task.cancel` on the registered task. -/
def cancelActiveTask (s : RunService) : RunService :=
  match s.activeTask with
  | some i => { s with tasks := s.tasks.modify i fun t => { t with cancelRequested := true } }
  | none => s

/-- After a move of a task. -/
def moved (s : RunService) (i : Nat) (t : RunTask) (m : TaskMove) (point : TaskPoint)
    (call : Option LedgerCall) : RunService :=
  { s with
    record := call.elim s.record s.record.apply
    tasks := s.tasks.set i { t with point }
    active := if t.unregisters m point then none else s.active }

def moveTask (s : RunService) (i : Nat) (m : TaskMove) : Option RunService := do
  let t ← s.tasks[i]?
  let (point, call) ← t.move s.runId s.record m
  some (s.moved i t m point call)

/-- The next call of a request that passed its first check. -/
def answer (s : RunService) (i : Nat) : RequestPoint → Option RunService
  | .cancel actor =>
      match s.record.recordCancellationAndTransition actor with
      | (true, record) =>
          some (cancelActiveTask { s with record, requests := s.requests.set i .noteCancel })
      | (false, _) => some { s with requests := s.requests.set i .answered }
  | .noteCancel =>
      some { s with
        record := s.record.appendEvent "status" (.obj [("status", .str "cancelled")])
        requests := s.requests.set i .answered }
  | .approve actor feedback =>
      match s.record.recordApprovalAndTransition actor "approved" (feedback.filter (· ≠ "")) with
      | (true, record) =>
          some (startRunTask { s with record, requests := s.requests.set i .answered })
      | (false, _) => some { s with requests := s.requests.set i .answered }
  | .answered => none

end RunService

/-- The service of one run. -/
def runService : Machine RunService ServiceStep where
  step s l :=
    match l with
    | .task i m => s.moveTask i m
    | .cancelRequest actor =>
        some (if s.record.row.isSome && !s.record.ended then
          { s with requests := s.requests ++ [.cancel actor] } else s)
    | .approveRequest actor feedback =>
        some (if s.record.status? = some .interrupted then
          { s with requests := s.requests ++ [.approve actor feedback] } else s)
    | .answer i => s.requests[i]?.bind (s.answer i)

/-- A run just created, by `create_run_endpoint` or by `dispatch_schedule`. -/
def createdRun (caller : Caller) (runId threadId : String)
    (workspace task createdBy createdByKind : Option String) : RunService where
  runId
  record := RunRecord.createRun threadId workspace task createdBy createdByKind
  tasks := [{ caller }]
  active := if caller = .runner then some 0 else none

/-! ### What a move does -/

/-- The status a call of a task sets. -/
def LedgerCall.written : LedgerCall → Option RunStatus
  | .setStatus status _ _ => some status
  | _ => none

/-- The move leaves an await by an exception or a cancellation. -/
def TaskMove.breaks : TaskMove → Bool
  | raise _ | cancel => true
  | _ => false

namespace RunTask

/-- The task sets no status but `status` any more, as long as the run keeps it. -/
def settled (status : RunStatus) (t : RunTask) : Bool :=
  match t.point with
  | .ready | .streaming => t.cancelRequested && t.caller = .runner
  | .opening | .interrupting | .ending .. | .marking _ => false
  | .failing _ | .failed _ => status = .error
  | _ => true

/-- The task is on its way to `dispatch_schedule`'s handler, or in it. -/
def shuttingDown (t : RunTask) : Bool :=
  match t.point with
  | .shutdown | .shutdownNoted => true
  | .cancelling _ | .marking _ | .noting _ => t.caller = .schedule
  | _ => false

variable {t : RunTask} {runId : String} {r : RunRecord} {m : TaskMove} {p : TaskPoint}
  {call : Option LedgerCall}

theorem not_working_of_idle (idle : t.point.executing = false) : t.point.working = false := by
  cases h : t.point <;> simp_all [TaskPoint.executing, TaskPoint.working]

theorem settled_of_idle (idle : t.point.executing = false) (status : RunStatus) :
    t.settled status = true := by
  cases h : t.point <;> simp_all [TaskPoint.executing, settled]

/-! After a handler the task is in the next one or done. -/

@[simp] theorem handedOn_working (outer : Bool) : (t.handedOn outer).working = false := by
  unfold handedOn
  split <;> rfl

@[simp] theorem settled_handedOn (status : RunStatus) (outer : Bool) :
    ({ t with point := t.handedOn outer } : RunTask).settled status = true := by
  unfold handedOn settled
  cases outer <;> cases t.caller <;> rfl

theorem shuttingDown_handedOn {outer : Bool}
    (h : ({ t with point := t.handedOn outer } : RunTask).shuttingDown = true) :
    t.caller = .schedule := by
  unfold handedOn shuttingDown at h
  cases caller : t.caller with
  | schedule => rfl
  | runner => cases outer <;> simp [caller] at h

@[simp] theorem shuttingDown_endingWith (state : SimonState) :
    ({ t with point := .endingWith state } : RunTask).shuttingDown = false := by
  unfold TaskPoint.endingWith
  split <;> rfl

theorem done_of_unregisters (h : t.unregisters m p = true) : t.caller = .runner ∧ p = .done := by
  unfold unregisters at h
  split at h <;> simp_all

theorem not_done_of_move (h : t.move runId r m = some (p, call)) : t.point ≠ .done := by
  intro done
  cases m <;> simp [move, done] at h

-- The lemmas below share the cases of `move`.
attribute [elab_as_elim] move.fun_cases_unfolding

/-- A task executes again only where an exception or a cancellation reaches it. -/
theorem executing_of_move (h : t.move runId r m = some (p, call)) (executing : p.executing = true) :
    t.point.executing = true ∨ t.point ≠ .ready ∧ m.breaks = true := by
  revert h
  fun_cases move t runId r m <;> rintro ⟨⟩ <;> simp_all [TaskPoint.executing, TaskMove.breaks]

/-- It never works again. -/
theorem working_of_move (h : t.move runId r m = some (p, call)) (working : p.working = true) :
    t.point.working = true := by
  revert h
  fun_cases move t runId r m <;> rintro ⟨⟩
  all_goals first
    | rw [handedOn_working] at working; cases working
    | simp_all [TaskPoint.working]

/-- A move changes the status by `set_status` only. -/
theorem status_of_move (h : t.move runId r m = some (p, call)) :
    (call.elim r r.apply).status? =
      r.status?.map fun status => (call.bind LedgerCall.written).getD status := by
  revert h
  fun_cases move t runId r m <;> rintro ⟨⟩ <;> simp [RunRecord.apply, LedgerCall.written]

theorem executing_of_written (h : t.move runId r m = some (p, call)) {status : RunStatus}
    (written : call.bind LedgerCall.written = some status) : t.point.executing = true := by
  revert h
  fun_cases move t runId r m <;> rintro ⟨⟩ <;> simp_all [LedgerCall.written, TaskPoint.executing]

theorem interrupted_of_move (h : t.move runId r m = some (p, call))
    (written : call.bind LedgerCall.written = some .interrupted) : p.working = false := by
  revert h
  fun_cases move t runId r m <;> rintro ⟨⟩ <;> simp_all [LedgerCall.written, TaskPoint.working]

/-- **On a run that has ended, a task sets no other status**, unless an exception
reaches it, or a cancellation reaches it in the scheduler. -/
theorem settled_of_move (h : t.move runId r m = some (p, call)) {status : RunStatus}
    (current : r.status? = some status) (terminal : status.terminal = true)
    (settled : t.settled status = true) (shutdown : t.shuttingDown = true → status = .error)
    (raises : ∀ message, m = .raise message → t.point ≠ .ready → status = .error)
    (cancels : m = .cancel → t.point ≠ .ready → t.caller = .schedule → status = .error) :
    ({ t with point := p } : RunTask).settled status = true ∧
      ∀ new, call.bind LedgerCall.written = some new → new = status := by
  have ended : r.ended = true := RunRecord.ended_iff.mpr ⟨status, current, terminal⟩
  revert h
  fun_cases move t runId r m <;> rintro ⟨⟩
  all_goals first
    | exact ⟨settled_handedOn .., by simp [LedgerCall.written]⟩
    | simp_all [LedgerCall.written, RunTask.settled, RunTask.shuttingDown, resumable,
        TaskPoint.suspended]

/-- The task that ends a run sets no other status after that. -/
theorem settled_of_ending (h : t.move runId r m = some (p, call)) {status : RunStatus}
    (written : call.bind LedgerCall.written = some status) (terminal : status.terminal = true) :
    ({ t with point := p } : RunTask).settled status = true := by
  revert h
  fun_cases move t runId r m <;> rintro ⟨⟩ <;>
    simp_all [LedgerCall.written, RunTask.settled]
  all_goals (subst written; cases terminal)

theorem shuttingDown_of_move (h : t.move runId r m = some (p, call))
    (shutdown : ({ t with point := p } : RunTask).shuttingDown = true) :
    t.shuttingDown = true ∨ m = .cancel ∧ t.point ≠ .ready ∧ t.caller = .schedule := by
  revert h
  fun_cases move t runId r m <;> rintro ⟨⟩
  all_goals first
    | have caller := shuttingDown_handedOn shutdown; simp_all [RunTask.shuttingDown]
    | rw [shuttingDown_endingWith] at shutdown; cases shutdown
    | simp_all [RunTask.shuttingDown]

end RunTask

/-! ### Guarded calls -/

/-- The calls that look at the status first never leave a terminal one. -/
theorem apply_status_of_terminal {r : RunRecord} {status : RunStatus}
    (current : r.status? = some status) (terminal : status.terminal = true) {call : LedgerCall}
    (guarded : call.written = none) : (r.apply call).status? = some status := by
  cases call with
  | appendEvent kind payload => exact current
  | setStatus status error ended => cases guarded
  | approve actor reason =>
      have refused : r.status? ≠ some .interrupted := by
        rintro h
        cases h.symm.trans current
        cases terminal
      rw [RunRecord.apply, RunRecord.recordApproval_refused refused]
      exact current
  | cancel actor reason =>
      have ended : r.ended = true := RunRecord.ended_iff.mpr ⟨status, current, terminal⟩
      rw [RunRecord.apply, RunRecord.recordCancellation_refused (.inr ended)]
      exact current

/-! ### Undisturbed steps -/

/-- Every task but this one has recorded how its run stands, and is in no
handler. -/
def Alone (s : RunService) (i : Nat) : Prop :=
  ∀ t ∈ s.tasks.eraseIdx i, t.point.executing = false

/-- The steps after which no task is left that sets the status of a run that has
ended.

* An exception, or a cancellation, reaches a started task only while no other
  task of the run executes. Once the run has ended an exception does not reach
  it, and `dispatch_schedule` is not cancelled: the handlers set the status
  `error` (which is no change where that is the status).
* A cancellation is accepted only while every task is at an await, and none that
  executes is `dispatch_schedule`'s: that one is not registered, and goes on.
* An approval is accepted only while every task is at an await. -/
def Undisturbed (s : RunService) : ServiceStep → Prop
  | .task i (.raise _) =>
      ∀ t ∈ s.tasks[i]?, t.point ≠ .ready →
        Alone s i ∧ (s.record.ended = true → s.record.status? = some .error)
  | .task i .cancel =>
      ∀ t ∈ s.tasks[i]?, t.point ≠ .ready →
        Alone s i ∧ (t.caller = .schedule → s.record.status? = some .error)
  | .task _ _ => True
  | .answer i =>
      match s.requests[i]? with
      | some (.cancel _) =>
          s.record.ended = false → ∀ t ∈ s.tasks, t.point.suspended = true ∧
            (t.caller = .schedule → t.point.executing = false)
      | some (.approve _ _) =>
          s.record.status? = some .interrupted → ∀ t ∈ s.tasks, t.point.suspended = true
      | _ => True
  | _ => True

/-- What holds in an undisturbed run. -/
structure ServiceInv (s : RunService) : Prop where
  /-- one task executes -/
  single : ∀ (i j : Nat) (a b : RunTask), s.tasks[i]? = some a → s.tasks[j]? = some b →
    a.point.executing = true → b.point.executing = true → i = j
  registered : ∀ (i : Nat) (t : RunTask), s.tasks[i]? = some t → t.caller = .runner →
    t.point ≠ .done → s.active = some i
  paused : s.record.status? = some .interrupted → ∀ t ∈ s.tasks, t.point.working = false
  shutdown : ∀ t ∈ s.tasks, t.shuttingDown = true → s.record.status? = some .error
  settled : ∀ status, s.record.status? = some status → status.terminal = true →
    ∀ t ∈ s.tasks, t.settled status = true

/-- A status the run ended with stays. -/
def KeepsTerminal (s s' : RunService) : Prop :=
  ∀ status, s.record.status? = some status → status.terminal = true →
    s'.record.status? = some status

/-- A task after a move is the one that moved, or one that was there. -/
theorem mem_moved {s : RunService} {i : Nat} {t b : RunTask} {m : TaskMove} {p : TaskPoint}
    {call : Option LedgerCall} (mem : b ∈ (s.moved i t m p call).tasks) :
    b = { t with point := p } ∨ ∃ j, j ≠ i ∧ s.tasks[j]? = some b := by
  obtain ⟨j, atJ⟩ := List.mem_iff_getElem?.mp mem
  exact (getElem?_set_cases atJ).imp And.right fun h => ⟨j, h⟩

section Move

variable {s : RunService} {i : Nat} {m : TaskMove} {t : RunTask} {p : TaskPoint}
  {call : Option LedgerCall}

/-- While the moving task executes, before or after the move, no other does. -/
theorem others_idle (inv : ServiceInv s) (ok : Undisturbed s (.task i m))
    (here : s.tasks[i]? = some t) (moved : t.move s.runId s.record m = some (p, call))
    (busy : t.point.executing = true ∨ p.executing = true) {j : Nat} {b : RunTask} (other : j ≠ i)
    (there : s.tasks[j]? = some b) : b.point.executing = false := by
  have alone (h : Alone s i) : b.point.executing = false :=
    h b (List.mem_eraseIdx_iff_getElem?.mpr ⟨j, other, there⟩)
  rcases busy.imp_right (RunTask.executing_of_move moved) with before | before | ⟨started, breaks⟩
  · by_contra executing
    exact other (inv.single j i b t there here (by simpa using executing) before)
  · by_contra executing
    exact other (inv.single j i b t there here (by simpa using executing) before)
  · cases m with
    | raise message => exact alone (ok t here started).1
    | cancel => exact alone (ok t here started).1
    | _ => cases breaks

/-- An undisturbed move keeps a terminal status. -/
theorem move_keeps (inv : ServiceInv s) (ok : Undisturbed s (.task i m))
    (here : s.tasks[i]? = some t) (moved : t.move s.runId s.record m = some (p, call))
    {status : RunStatus} (current : s.record.status? = some status)
    (terminal : status.terminal = true) :
    ({ t with point := p } : RunTask).settled status = true ∧
      (s.moved i t m p call).record.status? = some status := by
  have member : t ∈ s.tasks := List.mem_of_getElem? here
  have ended : s.record.ended = true := RunRecord.ended_iff.mpr ⟨status, current, terminal⟩
  have isError (h : s.record.status? = some .error) : status = .error :=
    Option.some.inj (current.symm.trans h)
  obtain ⟨settled, written⟩ := RunTask.settled_of_move moved current terminal
    (inv.settled status current terminal t member) (fun h => isError (inv.shutdown t member h))
    (fun message hm started => by subst hm; exact isError ((ok t here started).2 ended))
    (fun hm started caller => by subst hm; exact isError ((ok t here started).2 caller))
  refine ⟨settled, ?_⟩
  change (call.elim s.record s.record.apply).status? = some status
  rw [RunTask.status_of_move moved, current, Option.map_some]
  cases w : call.bind LedgerCall.written with
  | none => rfl
  | some new => exact congrArg some (written new w)

theorem moved_single (inv : ServiceInv s) (ok : Undisturbed s (.task i m))
    (here : s.tasks[i]? = some t) (moved : t.move s.runId s.record m = some (p, call))
    {j k : Nat} {a b : RunTask} (atJ : (s.moved i t m p call).tasks[j]? = some a)
    (atK : (s.moved i t m p call).tasks[k]? = some b) (busyA : a.point.executing = true)
    (busyB : b.point.executing = true) : j = k := by
  rcases getElem?_set_cases atJ with ⟨rfl, rfl⟩ | ⟨otherA, ha⟩ <;>
    rcases getElem?_set_cases atK with ⟨rfl, rfl⟩ | ⟨otherB, hb⟩
  · rfl
  · rw [others_idle inv ok here moved (.inr busyA) otherB hb] at busyB
    cases busyB
  · rw [others_idle inv ok here moved (.inr busyB) otherA ha] at busyA
    cases busyA
  · exact inv.single j k a b ha hb busyA busyB

theorem moved_registered (inv : ServiceInv s) (here : s.tasks[i]? = some t)
    (moved : t.move s.runId s.record m = some (p, call)) {j : Nat} {a : RunTask}
    (atJ : (s.moved i t m p call).tasks[j]? = some a) (runner : a.caller = .runner)
    (unfinished : a.point ≠ .done) : (s.moved i t m p call).active = some j := by
  change (if t.unregisters m p = true then none else s.active) = some j
  rcases getElem?_set_cases atJ with ⟨rfl, rfl⟩ | ⟨other, ha⟩
  · rw [if_neg fun h => unfinished (RunTask.done_of_unregisters h).2]
    exact inv.registered j t here runner (RunTask.not_done_of_move moved)
  · have active := inv.registered j a ha runner unfinished
    rw [if_neg ?_, active]
    intro unregisters
    have mine := inv.registered i t here (RunTask.done_of_unregisters unregisters).1
      (RunTask.not_done_of_move moved)
    exact other (Option.some.inj (active.symm.trans mine))

/-- The status after a move is the old one, or the one it sets. -/
theorem moved_status (moved : t.move s.runId s.record m = some (p, call)) {status : RunStatus}
    (after : (s.moved i t m p call).record.status? = some status) :
    call.bind LedgerCall.written = none ∧ s.record.status? = some status ∨
      call.bind LedgerCall.written = some status := by
  obtain ⟨before, current, stays⟩ :=
    Option.map_eq_some_iff.mp ((RunTask.status_of_move moved).symm.trans after)
  cases w : call.bind LedgerCall.written with
  | none =>
      rw [w, Option.getD_none] at stays
      exact .inl ⟨rfl, current.trans (congrArg some stays)⟩
  | some new =>
      rw [w, Option.getD_some] at stays
      exact .inr (congrArg some stays)

theorem moved_paused (inv : ServiceInv s) (ok : Undisturbed s (.task i m))
    (here : s.tasks[i]? = some t) (moved : t.move s.runId s.record m = some (p, call))
    (isPaused : (s.moved i t m p call).record.status? = some .interrupted) {b : RunTask}
    (mem : b ∈ (s.moved i t m p call).tasks) : b.point.working = false := by
  rcases moved_status moved isPaused with ⟨-, before⟩ | w
  · rcases mem_moved mem with rfl | ⟨j, -, hb⟩
    · by_contra working
      have working := RunTask.working_of_move moved (by simpa using working)
      rw [inv.paused before t (List.mem_of_getElem? here)] at working
      cases working
    · exact inv.paused before b (List.mem_of_getElem? hb)
  · rcases mem_moved mem with rfl | ⟨j, other, hb⟩
    · exact RunTask.interrupted_of_move moved w
    · exact RunTask.not_working_of_idle
        (others_idle inv ok here moved (.inl (RunTask.executing_of_written moved w)) other hb)

theorem moved_shutdown (inv : ServiceInv s) (ok : Undisturbed s (.task i m))
    (here : s.tasks[i]? = some t) (moved : t.move s.runId s.record m = some (p, call))
    {b : RunTask} (mem : b ∈ (s.moved i t m p call).tasks) (shutdown : b.shuttingDown = true) :
    (s.moved i t m p call).record.status? = some .error := by
  have before : s.record.status? = some .error := by
    rcases mem_moved mem with rfl | ⟨j, -, hb⟩
    · rcases RunTask.shuttingDown_of_move moved shutdown with before | ⟨rfl, started, caller⟩
      · exact inv.shutdown t (List.mem_of_getElem? here) before
      · exact (ok t here started).2 caller
    · exact inv.shutdown b (List.mem_of_getElem? hb) shutdown
  exact (move_keeps inv ok here moved before rfl).2

theorem moved_settled (inv : ServiceInv s) (ok : Undisturbed s (.task i m))
    (here : s.tasks[i]? = some t) (moved : t.move s.runId s.record m = some (p, call))
    {status : RunStatus} (after : (s.moved i t m p call).record.status? = some status)
    (terminal : status.terminal = true) {b : RunTask}
    (mem : b ∈ (s.moved i t m p call).tasks) : b.settled status = true := by
  rcases moved_status moved after with ⟨-, before⟩ | w
  · rcases mem_moved mem with rfl | ⟨j, -, hb⟩
    · exact (move_keeps inv ok here moved before terminal).1
    · exact inv.settled status before terminal b (List.mem_of_getElem? hb)
  · rcases mem_moved mem with rfl | ⟨j, other, hb⟩
    · exact RunTask.settled_of_ending moved w terminal
    · exact RunTask.settled_of_idle
        (others_idle inv ok here moved (.inl (RunTask.executing_of_written moved w)) other hb) _

/-- **Step lemma, tasks.** -/
theorem serviceInv_moveTask {s' : RunService} (inv : ServiceInv s) (ok : Undisturbed s (.task i m))
    (step : s.moveTask i m = some s') : ServiceInv s' ∧ KeepsTerminal s s' := by
  unfold RunService.moveTask at step
  obtain ⟨t, here, step⟩ := Option.bind_eq_some_iff.mp step
  obtain ⟨⟨p, call⟩, moved, step⟩ := Option.bind_eq_some_iff.mp step
  cases step
  constructor
  · exact {
      single := fun _ _ _ _ atJ atK => moved_single inv ok here moved atJ atK
      registered := fun _ _ atJ => moved_registered inv here moved atJ
      paused := fun isPaused _ mem => moved_paused inv ok here moved isPaused mem
      shutdown := fun _ mem => moved_shutdown inv ok here moved mem
      settled := fun _ after terminal _ mem => moved_settled inv ok here moved after terminal mem }
  · exact fun _ current terminal => (move_keeps inv ok here moved current terminal).2

end Move

section Requests

variable {s s' : RunService}

/-- The invariant sees the status, the tasks and the registry. -/
theorem ServiceInv.of_same (inv : ServiceInv s) (status : s'.record.status? = s.record.status?)
    (tasks : s'.tasks = s.tasks) (active : s'.active = s.active) : ServiceInv s' := by
  refine ⟨?_, ?_, ?_, ?_, ?_⟩
  · rw [tasks]; exact inv.single
  · rw [tasks, active]; exact inv.registered
  · rw [status, tasks]; exact inv.paused
  · rw [status, tasks]; exact inv.shutdown
  · rw [status, tasks]; exact inv.settled

theorem KeepsTerminal.of_same (status : s'.record.status? = s.record.status?) :
    KeepsTerminal s s' :=
  fun _ current _ => status.trans current

theorem RunService.activeTask_of_registered {i : Nat} {t : RunTask} (active : s.active = some i)
    (here : s.tasks[i]? = some t) (unfinished : t.point ≠ .done) : s.activeTask = some i :=
  Option.filter_eq_some_iff.mpr ⟨active, decide_eq_true ⟨t, here, unfinished⟩⟩

/-- `Task.cancel` reaches the registered task, and changes nothing else. -/
theorem cancelActiveTask_cases {j : Nat} {b : RunTask}
    (h : s.cancelActiveTask.tasks[j]? = some b) :
    ∃ a, s.tasks[j]? = some a ∧ b.point = a.point ∧ b.caller = a.caller ∧
      (s.activeTask = some j → b.cancelRequested = true) := by
  unfold RunService.cancelActiveTask at h
  cases active : s.activeTask with
  | none =>
      rw [active] at h
      exact ⟨b, h, rfl, rfl, nofun⟩
  | some i =>
      rw [active] at h
      change (s.tasks.modify i _)[j]? = some b at h
      rw [List.getElem?_modify] at h
      obtain ⟨a, there, rfl⟩ := Option.map_eq_some_iff.mp h
      refine ⟨a, there, ?_⟩
      by_cases same : i = j
      · simp [same]
      · simp [same]

theorem cancelActiveTask_record : s.cancelActiveTask.record = s.record := by
  unfold RunService.cancelActiveTask
  split <;> rfl

theorem cancelActiveTask_active : s.cancelActiveTask.active = s.active := by
  unfold RunService.cancelActiveTask
  split <;> rfl

theorem shuttingDown_of_suspended {t : RunTask} (h : t.point.suspended = true) :
    t.shuttingDown = false := by
  cases p : t.point <;> simp_all [TaskPoint.suspended, RunTask.shuttingDown]

/-- A task at an await that was asked to stop sets no status. -/
theorem settled_of_suspended {t : RunTask} (h : t.point.suspended = true)
    (stops : t.point.executing = true → t.cancelRequested = true ∧ t.caller = .runner)
    (status : RunStatus) : t.settled status = true := by
  cases p : t.point <;> simp_all [TaskPoint.suspended, TaskPoint.executing, RunTask.settled]

/-- An accepted cancellation, with every executing task at an await and
registered. -/
theorem serviceInv_cancel (inv : ServiceInv s)
    (calm : ∀ t ∈ s.tasks, t.point.suspended = true ∧
      (t.caller = .schedule → t.point.executing = false))
    {record : RunRecord} (status : record.status? = some .cancelled) {requests : List RequestPoint}
    (eq : s' = RunService.cancelActiveTask { s with record, requests }) : ServiceInv s' := by
  subst eq
  have before {j : Nat} {b : RunTask}
      (h : (RunService.cancelActiveTask { s with record, requests }).tasks[j]? = some b) :
      ∃ a, s.tasks[j]? = some a ∧ b.point = a.point ∧ b.caller = a.caller ∧
        (b.caller = .runner → b.point ≠ .done →
          s.active = some j ∧ b.cancelRequested = true) := by
    obtain ⟨a, there, point, caller, cancelled⟩ := cancelActiveTask_cases h
    refine ⟨a, there, point, caller, fun runner unfinished => ?_⟩
    have active := inv.registered j a there (caller ▸ runner) (point ▸ unfinished)
    exact ⟨active, cancelled (RunService.activeTask_of_registered active there (point ▸ unfinished))⟩
  have calmAfter {b : RunTask}
      (mem : b ∈ (RunService.cancelActiveTask { s with record, requests }).tasks) :
      b.point.suspended = true ∧
        (b.point.executing = true → b.cancelRequested = true ∧ b.caller = .runner) := by
    obtain ⟨j, atJ⟩ := List.mem_iff_getElem?.mp mem
    obtain ⟨a, there, point, caller, cancelled⟩ := before atJ
    obtain ⟨suspended, scheduled⟩ := calm a (List.mem_of_getElem? there)
    rw [← point, ← caller] at scheduled
    refine ⟨point ▸ suspended, fun executing => ?_⟩
    cases isRunner : b.caller with
    | runner =>
        exact ⟨(cancelled isRunner (by rintro h; rw [h] at executing; cases executing)).2, rfl⟩
    | schedule => rw [scheduled isRunner] at executing; cases executing
  refine ⟨?_, ?_, ?_, ?_, ?_⟩
  · intro j k a b atJ atK busyA busyB
    obtain ⟨a', thereA, pointA, -⟩ := before atJ
    obtain ⟨b', thereB, pointB, -⟩ := before atK
    exact inv.single j k a' b' thereA thereB (pointA ▸ busyA) (pointB ▸ busyB)
  · intro j b atJ runner unfinished
    obtain ⟨a, there, point, caller, cancelled⟩ := before atJ
    rw [cancelActiveTask_active]
    exact (cancelled runner unfinished).1
  · intro isPaused
    rw [cancelActiveTask_record] at isPaused
    cases status.symm.trans isPaused
  · intro b mem shutdown
    rw [shuttingDown_of_suspended (calmAfter mem).1] at shutdown
    cases shutdown
  · intro st _ _ b mem
    exact settled_of_suspended (calmAfter mem).1 (calmAfter mem).2 st

/-- An accepted approval, with every task at an await. -/
theorem serviceInv_approve (inv : ServiceInv s)
    (interrupted : s.record.status? = some .interrupted)
    (calm : ∀ t ∈ s.tasks, t.point.suspended = true) {record : RunRecord}
    (status : record.status? = some .running) {requests : List RequestPoint}
    (eq : s' = RunService.startRunTask { s with record, requests }) : ServiceInv s' := by
  have idle (t : RunTask) (mem : t ∈ s.tasks) : t.point.executing = false := by
    have suspended := calm t mem
    have notWorking := inv.paused interrupted t mem
    cases p : t.point <;> simp_all [TaskPoint.suspended, TaskPoint.working, TaskPoint.executing]
  have running {st : RunStatus} (h : record.status? = some st) : st = .running :=
    Option.some.inj (h.symm.trans status)
  unfold RunService.startRunTask at eq
  split at eq <;> subst eq
  · refine ⟨inv.single, inv.registered, fun h => (nomatch running h), ?_, ?_⟩
    · intro b mem shutdown
      rw [shuttingDown_of_suspended (calm b mem)] at shutdown
      cases shutdown
    · intro st after terminal
      cases running after
      cases terminal
  · rename_i free
    have unstarted {j : Nat} {b : RunTask} (there : s.tasks[j]? = some b)
        (runner : b.caller = .runner) : b.point = .done := by
      by_contra unfinished
      exact free (Option.isSome_iff_exists.mpr
        ⟨j, RunService.activeTask_of_registered (inv.registered j b there runner unfinished) there
          unfinished⟩)
    refine ⟨?_, ?_, fun h => (nomatch running h), ?_, ?_⟩
    · intro j k a b atJ atK busyA busyB
      rcases getElem?_concat_cases atJ with ha | ⟨rfl, rfl⟩
      · rw [idle a (List.mem_of_getElem? ha)] at busyA
        cases busyA
      · rcases getElem?_concat_cases atK with hb | ⟨rfl, rfl⟩
        · rw [idle b (List.mem_of_getElem? hb)] at busyB
          cases busyB
        · rfl
    · intro j b atJ runner unfinished
      rcases getElem?_concat_cases atJ with hb | ⟨rfl, rfl⟩
      · exact absurd (unstarted hb runner) unfinished
      · rfl
    · intro b mem shutdown
      rcases List.mem_append.mp mem with old | new
      · rw [shuttingDown_of_suspended (calm b old)] at shutdown
        cases shutdown
      · rw [List.mem_singleton.mp new] at shutdown
        cases shutdown
    · intro st after terminal
      cases running after
      cases terminal

/-- **Step lemma.** An undisturbed step keeps the invariant and a terminal
status. -/
theorem serviceInv_step {l : ServiceStep} (inv : ServiceInv s) (ok : Undisturbed s l)
    (step : runService.step s l = some s') : ServiceInv s' ∧ KeepsTerminal s s' := by
  have same (status : s'.record.status? = s.record.status?) (tasks : s'.tasks = s.tasks)
      (active : s'.active = s.active) : ServiceInv s' ∧ KeepsTerminal s s' :=
    ⟨inv.of_same status tasks active, .of_same status⟩
  cases l with
  | task i m => exact serviceInv_moveTask inv ok step
  | cancelRequest actor =>
      cases step
      apply same <;> split <;> rfl
  | approveRequest actor feedback =>
      cases step
      apply same <;> split <;> rfl
  | answer i =>
      obtain ⟨point, here, step⟩ := Option.bind_eq_some_iff.mp step
      simp only [Undisturbed, here] at ok
      cases point with
      | cancel actor =>
          cases row : s.record.row with
          | none =>
              rw [RunService.answer, RunRecord.recordCancellation_refused (.inl row)] at step
              cases step
              exact same rfl rfl rfl
          | some r =>
              cases terminal : r.status.terminal with
              | true =>
                  have ended : s.record.ended = true := by simp [RunRecord.ended, row, terminal]
                  rw [RunService.answer, RunRecord.recordCancellation_refused (.inr ended)] at step
                  cases step
                  exact same rfl rfl rfl
              | false =>
                  have open_ : s.record.ended = false := by simp [RunRecord.ended, row, terminal]
                  rw [RunService.answer, RunRecord.recordCancellation_accepted row terminal] at step
                  have eq := (Option.some.inj step).symm
                  refine ⟨serviceInv_cancel inv (ok open_) rfl eq, fun st current ended => ?_⟩
                  cases (RunRecord.ended_iff.mpr ⟨st, current, ended⟩).symm.trans open_
      | noteCancel =>
          cases step
          exact same rfl rfl rfl
      | approve actor feedback =>
          by_cases interrupted : s.record.status? = some .interrupted
          · rw [RunService.answer, RunRecord.recordApproval_accepted interrupted] at step
            have eq := (Option.some.inj step).symm
            refine ⟨serviceInv_approve inv interrupted (ok interrupted) ?_ eq, ?_⟩
            · rw [RunRecord.setStatus_status?, RunRecord.addApproval_status?, interrupted]
              rfl
            · intro st current terminal
              cases current.symm.trans interrupted
              cases terminal
          · rw [RunService.answer, RunRecord.recordApproval_refused interrupted] at step
            cases step
            exact same rfl rfl rfl
      | answered => cases step

end Requests

/-! ### Terminal statuses -/

theorem serviceInv_created (caller : Caller) (runId threadId : String)
    (workspace task createdBy createdByKind : Option String) :
    ServiceInv (createdRun caller runId threadId workspace task createdBy createdByKind) where
  single := by
    intro i j a b hi hj _ _
    obtain ⟨rfl, -⟩ := List.getElem?_singleton .. ▸ hi |> Option.ite_none_right_eq_some.mp
    obtain ⟨rfl, -⟩ := List.getElem?_singleton .. ▸ hj |> Option.ite_none_right_eq_some.mp
    rfl
  registered := by
    intro i t hi runner _
    obtain ⟨rfl, same⟩ := List.getElem?_singleton .. ▸ hi |> Option.ite_none_right_eq_some.mp
    cases same
    exact if_pos runner
  paused := nofun
  shutdown := by
    intro t mem shutdown
    rw [List.mem_singleton.mp mem] at shutdown
    cases shutdown
  settled := by
    intro status queued terminal
    cases queued
    cases terminal

/-- **Once a run has ended, no undisturbed step changes its status**: for every
interleaving of its tasks and of the requests about it, from its creation on. -/
theorem terminal_absorbing {caller : Caller} {runId threadId : String}
    {workspace task createdBy createdByKind : Option String} {before after : List ServiceStep}
    {s t : RunService} {status : RunStatus}
    (run : Machine.Path runService Undisturbed
      (createdRun caller runId threadId workspace task createdBy createdByKind) before s)
    (later : Machine.Path runService Undisturbed s after t)
    (ended : s.record.status? = some status) (terminal : status.terminal = true) :
    t.record.status? = some status := by
  have inv : ServiceInv s :=
    run.invariant (fun _ _ _ ok inv step => (serviceInv_step inv ok step).1)
      (serviceInv_created caller runId threadId workspace task createdBy createdByKind)
  have keeps : KeepsTerminal s t :=
    later.relation (fun _ _ current _ => current)
      (fun _ _ _ first second st current terminal =>
        second st (first st current terminal) terminal)
      (fun _ _ _ ok inv step => serviceInv_step inv ok step) inv
  exact keeps status ended terminal

/-! ### Cancelled while it streams -/

/-- The task starts, and `record_cancellation_and_transition` accepts a request. -/
def cancelledSteps : List ServiceStep :=
  [.task 0 .next, .task 0 .next, .cancelRequest ⟨"local", "user", none⟩, .answer 0]

/-- A registered run that is cancelled stays cancelled while its task unwinds. -/
theorem terminal_absorbing_sample :
    ∃ s t, Machine.Path runService Undisturbed
        (createdRun .runner "run" "thread" none none none none) cancelledSteps s ∧
      s.record.status? = some .cancelled ∧ RunStatus.cancelled.terminal = true ∧
      Machine.Path runService Undisturbed s
        [.task 0 .cancel, .answer 0, .task 0 .next, .task 0 .next] t ∧
      t.record.status? = some .cancelled := by
  have run : ∃ s, Machine.Path runService Undisturbed
      (createdRun .runner "run" "thread" none none none none) cancelledSteps s ∧
      s.record.status? = some .cancelled ∧
      ∃ t, Machine.Path runService Undisturbed s
        [.task 0 .cancel, .answer 0, .task 0 .next, .task 0 .next] t :=
    ⟨_, .cons trivial rfl (.cons trivial rfl (.cons trivial rfl
        (.cons (fun _ => by decide) rfl (.nil _)))), rfl,
      _, .cons (by rintro t ⟨⟩ -; exact ⟨nofun, nofun⟩) rfl (.cons trivial rfl
        (.cons trivial rfl (.cons trivial rfl (.nil _))))⟩
  obtain ⟨s, before, ended, t, later⟩ := run
  exact ⟨s, t, before, ended, rfl, later, terminal_absorbing before later ended rfl⟩

/-- A scheduled run that is cancelled completes; a completed run fails while its
contexts close; and a scheduled run that is cancelled by a shutdown fails. -/
theorem terminal_status_overwritten :
    (∃ s t, Machine.Path runService Machine.Free
        (createdRun .schedule "run" "thread" none none none none) cancelledSteps s ∧
      s.record.status? = some .cancelled ∧
      Machine.Path runService Machine.Free s [.answer 0, .task 0 (.finish {}), .task 0 .next] t ∧
      t.record.status? = some .completed) ∧
    (∃ s t, Machine.Path runService Machine.Free
        (createdRun .runner "run" "thread" none none none none)
        [.task 0 .next, .task 0 .next, .task 0 (.finish {}), .task 0 .next] s ∧
      s.record.status? = some .completed ∧
      Machine.Path runService Machine.Free s
        [.task 0 (.raise "database is locked"), .task 0 .next, .task 0 .next] t ∧
      t.record.status? = some .error) ∧
    (∃ s t, Machine.Path runService Machine.Free
        (createdRun .schedule "run" "thread" none none none none)
        [.task 0 .next, .task 0 .next, .task 0 .cancel, .task 0 .next, .task 0 .next] s ∧
      s.record.status? = some .cancelled ∧
      Machine.Path runService Machine.Free s
        [.task 0 .next, .task 0 .next, .task 0 .next] t ∧
      t.record.status? = some .error) := by
  simp only [← Machine.run_eq_some_iff]
  exact ⟨⟨_, _, rfl, rfl, rfl, rfl⟩, ⟨_, _, rfl, rfl, rfl, rfl⟩, ⟨_, _, rfl, rfl, rfl, rfl⟩⟩

end AgentOs
