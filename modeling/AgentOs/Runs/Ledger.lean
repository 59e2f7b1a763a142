import AgentOs.Lib.Json
import AgentOs.Lib.Numbering

/-!
The run ledger (`runs.py`), for one run.

A `RunRecord` is what the three tables hold under one run id; every operation of
the ledger names a run id and touches nothing else. Each operation is one
transaction. Times are not kept; `ended` says whether `ended_at` is set.

* `setStatus` is unconditional; `transitionStatus`, `recordApprovalAndTransition`
  and `recordCancellationAndTransition` are guarded, and change nothing where
  they answer `false` (`…_refused`).
* `RunRecord.Numbered`: events and approvals carry the numbers `1, 2, …`, which
  every operation keeps, so `listEvents` is a suffix of the log.
-/

namespace AgentOs

open AgentOs.Lib

inductive RunStatus where
  | queued
  | running
  | interrupted
  | completed
  | error
  | cancelled
deriving DecidableEq, Repr

/-- `TERMINAL_RUN_STATUSES`. -/
def RunStatus.terminal : RunStatus → Bool
  | completed | error | cancelled => true
  | queued | running | interrupted => false

/-- A row of `runs`. -/
structure RunRow where
  threadId : String
  workspace : Option String := none
  status : RunStatus := .queued
  task : Option String := none
  createdBy : Option String := none
  createdByKind : Option String := none
  ended : Bool := false
  error : Option String := none
deriving DecidableEq, Repr

/-- A row of `run_events`. -/
structure RunEvent where
  seq : Nat
  kind : String
  payload : Json
deriving Repr

/-- Who decided. -/
structure Actor where
  id : String
  kind : String
  onBehalfOf : Option String := none
deriving DecidableEq, Repr

/-- A row of `run_approvals`. -/
structure RunApproval where
  seq : Nat
  decision : String
  actor : Actor
  reason : Option String := none
deriving DecidableEq, Repr

/-- What the ledger holds of one run. -/
structure RunRecord where
  row : Option RunRow := none
  events : List RunEvent := []
  approvals : List RunApproval := []
deriving Repr

namespace RunRecord

/-- The run's status, where it exists. -/
def status? (r : RunRecord) : Option RunStatus :=
  r.row.map (·.status)

/-- The run's thread, where it exists. -/
def threadId? (r : RunRecord) : Option String :=
  r.row.map (·.threadId)

/-- The run exists and its status is terminal. -/
def ended (r : RunRecord) : Bool :=
  match r.row with
  | some row => row.status.terminal
  | none => false

/-! ### Operations -/

/-- `create_run`, on an id not in use. -/
def createRun (threadId : String) (workspace task createdBy createdByKind : Option String) :
    RunRecord where
  row := some { threadId, workspace, task, createdBy, createdByKind }

/-- `append_event`. -/
def appendEvent (r : RunRecord) (kind : String) (payload : Json) : RunRecord :=
  { r with events := r.events ++ [⟨nextSeq RunEvent.seq r.events, kind, payload⟩] }

/-- The columns an update of the status writes. -/
def updateRow (row : RunRow) (status : RunStatus) (error : Option String) (ended : Bool) : RunRow :=
  { row with status := status, error := error, ended := row.ended || ended }

/-- `set_status`: unconditional. -/
def setStatus (r : RunRecord) (status : RunStatus) (error : Option String := none)
    (ended : Bool := false) : RunRecord :=
  { r with row := r.row.map fun row => updateRow row status error ended }

/-- `transition_status`: only from the expected status. -/
def transitionStatus (r : RunRecord) (expected status : RunStatus)
    (error : Option String := none) (ended : Bool := false) : Bool × RunRecord :=
  match r.row with
  | some row =>
      if row.status = expected then (true, r.setStatus status error ended) else (false, r)
  | none => (false, r)

/-- A further row of `run_approvals`. -/
def addApproval (r : RunRecord) (decision : String) (actor : Actor) (reason : Option String) :
    RunRecord :=
  { r with approvals := r.approvals ++
      [⟨nextSeq RunApproval.seq r.approvals, decision, actor, reason⟩] }

/-- `record_approval`; `none` is its `KeyError`. -/
def recordApproval (r : RunRecord) (decision : String) (actor : Actor)
    (reason : Option String := none) : Option RunRecord :=
  match r.row with
  | some _ => some (r.addApproval decision actor reason)
  | none => none

/-- `record_approval_and_transition`. -/
def recordApprovalAndTransition (r : RunRecord) (actor : Actor) (decision : String := "approved")
    (reason : Option String := none) (expected : RunStatus := .interrupted)
    (status : RunStatus := .running) (error : Option String := none) (ended : Bool := false) :
    Bool × RunRecord :=
  match r.row with
  | some row =>
      if row.status = expected then
        (true, (r.addApproval decision actor reason).setStatus status error ended)
      else (false, r)
  | none => (false, r)

/-- `record_cancellation_and_transition`: from any status that is not terminal.
The `error` column is kept. -/
def recordCancellationAndTransition (r : RunRecord) (actor : Actor)
    (reason : Option String := none) : Bool × RunRecord :=
  match r.row with
  | some row =>
      if row.status.terminal then (false, r)
      else
        (true, { r.addApproval "cancelled" actor reason with
          row := some { row with status := .cancelled, ended := true } })
  | none => (false, r)

/-- `list_events`: the events after a cursor, by number. -/
def listEvents (r : RunRecord) (after : Int := 0) : List RunEvent :=
  (r.events.filter fun e => after < (e.seq : Int)).insertionSort fun a b => a.seq ≤ b.seq

/-- `list_approvals`. -/
def listApprovals (r : RunRecord) : List RunApproval :=
  r.approvals.insertionSort fun a b => a.seq ≤ b.seq

end RunRecord

/-- A call that writes to the ledger of one run; each is one transaction. -/
inductive LedgerCall where
  | appendEvent (kind : String) (payload : Json)
  | setStatus (status : RunStatus) (error : Option String) (ended : Bool)
  | approve (actor : Actor) (reason : Option String)
  | cancel (actor : Actor) (reason : Option String)

namespace RunRecord

/-- The ledger after a call. -/
def apply (r : RunRecord) : LedgerCall → RunRecord
  | .appendEvent kind payload => r.appendEvent kind payload
  | .setStatus status error ended => r.setStatus status error ended
  | .approve actor reason => (r.recordApprovalAndTransition actor "approved" reason).2
  | .cancel actor reason => (r.recordCancellationAndTransition actor reason).2

/-! ### Statuses -/

variable {r : RunRecord}

@[simp] theorem appendEvent_row (kind : String) (payload : Json) :
    (r.appendEvent kind payload).row = r.row := rfl

@[simp] theorem appendEvent_status? (kind : String) (payload : Json) :
    (r.appendEvent kind payload).status? = r.status? := rfl

@[simp] theorem addApproval_row (decision : String) (actor : Actor) (reason : Option String) :
    (r.addApproval decision actor reason).row = r.row := rfl

@[simp] theorem addApproval_status? (decision : String) (actor : Actor) (reason : Option String) :
    (r.addApproval decision actor reason).status? = r.status? := rfl

@[simp] theorem setStatus_events (status : RunStatus) (error : Option String) (ended : Bool) :
    (r.setStatus status error ended).events = r.events := rfl

@[simp] theorem setStatus_approvals (status : RunStatus) (error : Option String) (ended : Bool) :
    (r.setStatus status error ended).approvals = r.approvals := rfl

@[simp] theorem setStatus_status? (status : RunStatus) (error : Option String) (ended : Bool) :
    (r.setStatus status error ended).status? = r.status?.map fun _ => status := by
  cases h : r.row <;> simp [status?, setStatus, updateRow, h]

/-- There is nothing to set on a run that does not exist. -/
theorem setStatus_of_none {status : RunStatus} {error : Option String} {ended : Bool}
    (h : r.row = none) : r.setStatus status error ended = r := by
  unfold setStatus
  rw [h, Option.map_none, ← h]

@[simp] theorem appendEvent_threadId? (kind : String) (payload : Json) :
    (r.appendEvent kind payload).threadId? = r.threadId? := rfl

@[simp] theorem addApproval_threadId? (decision : String) (actor : Actor)
    (reason : Option String) : (r.addApproval decision actor reason).threadId? = r.threadId? := rfl

@[simp] theorem setStatus_threadId? (status : RunStatus) (error : Option String) (ended : Bool) :
    (r.setStatus status error ended).threadId? = r.threadId? := by
  cases h : r.row <;> simp [threadId?, setStatus, updateRow, h]

theorem ended_iff : r.ended = true ↔ ∃ s, r.status? = some s ∧ s.terminal = true := by
  cases h : r.row <;> simp [ended, status?, h]

/-- A refused transition changes nothing. -/
theorem transitionStatus_refused {expected status : RunStatus} {error : Option String}
    {ended : Bool} (h : r.status? ≠ some expected) :
    r.transitionStatus expected status error ended = (false, r) := by
  unfold transitionStatus
  cases hr : r.row with
  | none => rfl
  | some row =>
      have : row.status ≠ expected := by simpa [status?, hr] using h
      simp only [if_neg this]

theorem transitionStatus_accepted {expected status : RunStatus} {error : Option String}
    {ended : Bool} (h : r.status? = some expected) :
    r.transitionStatus expected status error ended = (true, r.setStatus status error ended) := by
  unfold transitionStatus
  cases hr : r.row with
  | none => simp [status?, hr] at h
  | some row =>
      have : row.status = expected := by simpa [status?, hr] using h
      simp only [if_pos this]

theorem transitionStatus_approvals (expected status : RunStatus) (error : Option String)
    (ended : Bool) :
    (r.transitionStatus expected status error ended).2.approvals = r.approvals := by
  unfold transitionStatus
  split
  · split <;> rfl
  · rfl

/-- A refused approval changes nothing. -/
theorem recordApproval_refused {actor : Actor} {decision : String} {reason error : Option String}
    {expected status : RunStatus} {ended : Bool} (h : r.status? ≠ some expected) :
    r.recordApprovalAndTransition actor decision reason expected status error ended =
      (false, r) := by
  unfold recordApprovalAndTransition
  cases hr : r.row with
  | none => rfl
  | some row =>
      have : row.status ≠ expected := by simpa [status?, hr] using h
      simp only [if_neg this]

/-- An accepted approval adds one row and sets the status, in one transaction. -/
theorem recordApproval_accepted {actor : Actor} {decision : String}
    {reason error : Option String} {expected status : RunStatus} {ended : Bool}
    (h : r.status? = some expected) :
    r.recordApprovalAndTransition actor decision reason expected status error ended =
      (true, (r.addApproval decision actor reason).setStatus status error ended) := by
  unfold recordApprovalAndTransition
  cases hr : r.row with
  | none => simp [status?, hr] at h
  | some row =>
      have : row.status = expected := by simpa [status?, hr] using h
      simp only [if_pos this]

/-- A refused cancellation changes nothing. -/
theorem recordCancellation_refused {actor : Actor} {reason : Option String}
    (h : r.row = none ∨ r.ended = true) :
    r.recordCancellationAndTransition actor reason = (false, r) := by
  unfold recordCancellationAndTransition
  cases hr : r.row with
  | none => rfl
  | some row =>
      have : row.status.terminal = true := by simpa [ended, hr] using h
      simp only [if_pos this]

/-- An accepted cancellation adds one row and ends the run. -/
theorem recordCancellation_accepted {actor : Actor} {reason : Option String} {row : RunRow}
    (hr : r.row = some row) (h : row.status.terminal = false) :
    r.recordCancellationAndTransition actor reason =
      (true, { r.addApproval "cancelled" actor reason with
        row := some { row with status := .cancelled, ended := true } }) := by
  simp [recordCancellationAndTransition, hr, h]

/-! ### Calls -/

/-- Approving leaves the events alone. -/
theorem recordApproval_events (actor : Actor) (decision : String) (reason error : Option String)
    (expected status : RunStatus) (ended : Bool) :
    (r.recordApprovalAndTransition actor decision reason expected status error ended).2.events =
      r.events := by
  unfold recordApprovalAndTransition
  split
  · split <;> rfl
  · rfl

theorem recordCancellation_events (actor : Actor) (reason : Option String) :
    (r.recordCancellationAndTransition actor reason).2.events = r.events := by
  unfold recordCancellationAndTransition
  split
  · split <;> rfl
  · rfl

/-- A call appends one event or none. -/
theorem apply_events (call : LedgerCall) :
    (r.apply call).events = r.events ∨
      ∃ e, e.seq = nextSeq RunEvent.seq r.events ∧ (r.apply call).events = r.events ++ [e] := by
  cases call with
  | appendEvent kind payload => exact .inr ⟨_, rfl, rfl⟩
  | setStatus status error ended => exact .inl rfl
  | approve actor reason => exact .inl (recordApproval_events ..)
  | cancel actor reason => exact .inl (recordCancellation_events ..)

/-! ### Numbering -/

/-- Events and approvals carry the numbers `1, 2, …`. -/
structure Numbered (r : RunRecord) : Prop where
  events : Lib.Numbered RunEvent.seq r.events
  approvals : Lib.Numbered RunApproval.seq r.approvals

theorem Numbered.appendEvent (h : Numbered r) (kind : String) (payload : Json) :
    Numbered (r.appendEvent kind payload) :=
  ⟨h.events.concat rfl, h.approvals⟩

theorem Numbered.addApproval (h : Numbered r) (decision : String) (actor : Actor)
    (reason : Option String) : Numbered (r.addApproval decision actor reason) :=
  ⟨h.events, h.approvals.concat rfl⟩

theorem Numbered.setStatus (h : Numbered r) (status : RunStatus) (error : Option String)
    (ended : Bool) : Numbered (r.setStatus status error ended) :=
  ⟨h.events, h.approvals⟩

theorem Numbered.transitionStatus (h : Numbered r) (expected status : RunStatus)
    (error : Option String) (ended : Bool) :
    Numbered (r.transitionStatus expected status error ended).2 := by
  unfold RunRecord.transitionStatus
  split
  · split
    · exact h.setStatus status error ended
    · exact h
  · exact h

theorem Numbered.recordApproval (h : Numbered r) (actor : Actor) (decision : String)
    (reason error : Option String) (expected status : RunStatus) (ended : Bool) :
    Numbered (r.recordApprovalAndTransition actor decision reason expected status error ended).2 := by
  unfold recordApprovalAndTransition
  split
  · split
    · exact (h.addApproval decision actor reason).setStatus status error ended
    · exact h
  · exact h

theorem Numbered.recordCancellation (h : Numbered r) (actor : Actor) (reason : Option String) :
    Numbered (r.recordCancellationAndTransition actor reason).2 := by
  unfold recordCancellationAndTransition
  split
  · split
    · exact h
    · exact ⟨h.events, (h.addApproval "cancelled" actor reason).approvals⟩
  · exact h

/-- Every call keeps the numbering. -/
theorem Numbered.apply (h : Numbered r) (call : LedgerCall) : Numbered (r.apply call) := by
  cases call with
  | appendEvent kind payload => exact h.appendEvent kind payload
  | setStatus status error ended => exact h.setStatus status error ended
  | approve actor reason => exact h.recordApproval ..
  | cancel actor reason => exact h.recordCancellation ..

/-- On a numbered log the events after a cursor are a suffix. -/
theorem listEvents_eq_drop (h : Numbered r) (after : Int) :
    r.listEvents after = r.events.drop after.toNat := by
  unfold listEvents
  rw [sorted_after h.events, filter_after h.events]

end RunRecord

end AgentOs
