import AgentOs.Lib.History
import AgentOs.Lib.Transaction
import AgentOs.Runs.Ledger

/-!
The run database (`runs.py`): every run, every call, any number of processes.

A call opens a connection and runs one transaction; SQLite takes transactions one
at a time, so a history is a list of calls, and the connection of each may fail
at any statement. The transactions are written out statement by statement, with
the keys SQLite checks (`RunsCall.transaction`), and do to their run what the
ledger's operations do (`transaction_perform`, `RunsCall.onRecord`).

`ledger_integrity` is about every history: numbering, what each audit row stands
for, who wins a race of approvals, and that what fails changes nothing.
-/

namespace AgentOs

open AgentOs.Lib

/-- The tables, by run id. -/
abbrev RunsDb := String → RunRecord

/-- What a call raises. -/
inductive LedgerError where
  | keyError (text : String)
  /-- `json.dumps` on a payload it cannot write. -/
  | typeError
  | integrityError
  | operationalError
deriving DecidableEq, Repr

/-- What a call returns. -/
inductive LedgerReply where
  | runId (runId : String)
  | seq (seq : Nat)
  | flag (value : Bool)
  | none
deriving DecidableEq, Repr

abbrev RunsTransaction := Transaction RunsDb LedgerError LedgerReply

namespace RunsDb

variable (db : RunsDb) (runId : String)

/-! ### Statements -/

/-- `INSERT INTO runs`; the run id is the primary key. -/
def insertRun (row : RunRow) : Except LedgerError (Nat × RunsDb) :=
  match (db runId).row with
  | some _ => .error .integrityError
  | none => .ok (1, Function.update db runId { db runId with row := some row })

/-- `INSERT INTO run_events`, with primary key `(run_id, seq)`. -/
def insertEvent (event : RunEvent) : Except LedgerError (Nat × RunsDb) :=
  if event.seq ∈ (db runId).events.map RunEvent.seq then .error .integrityError
  else .ok (1, Function.update db runId
    { db runId with events := (db runId).events ++ [event] })

/-- `INSERT INTO run_approvals`, with primary key `(run_id, seq)`. -/
def insertApproval (approval : RunApproval) : Except LedgerError (Nat × RunsDb) :=
  if approval.seq ∈ (db runId).approvals.map RunApproval.seq then .error .integrityError
  else .ok (1, Function.update db runId
    { db runId with approvals := (db runId).approvals ++ [approval] })

/-- `UPDATE runs … WHERE run_id = ?`, and `AND status = ?` where one is asked for. -/
def updateRun (where? : Option RunStatus) (set : RunRow → RunRow) :
    Except LedgerError (Nat × RunsDb) :=
  match (db runId).row with
  | some row =>
      if where?.all (row.status = ·) then
        .ok (1, Function.update db runId { db runId with row := some (set row) })
      else .ok (0, db)
  | none => .ok (0, db)

end RunsDb

/-! ### Calls -/

/-- The calls that write to the database. -/
inductive RunsCall where
  | createRun (threadId : String) (workspace task createdBy createdByKind : Option String)
  | appendEvent (kind : String) (payload : Option Json)
  | setStatus (status : RunStatus) (error : Option String) (ended : Bool)
  | transitionStatus (expected status : RunStatus) (error : Option String) (ended : Bool)
  | recordApproval (decision : String) (actor : Actor) (reason : Option String)
  | recordApprovalAndTransition (decision : String) (actor : Actor) (reason : Option String)
      (expected status : RunStatus) (error : Option String) (ended : Bool)
  | recordCancellationAndTransition (actor : Actor) (reason : Option String)

namespace RunsCall

/-- The transaction of a call on a run. A payload that is `none` is one that
`json.dumps` refuses, before the connection is opened. -/
def transaction (runId : String) : RunsCall → RunsTransaction
  | createRun threadId workspace task createdBy createdByKind =>
      .execute (·.insertRun runId { threadId, workspace, task, createdBy, createdByKind })
        fun _ => .commit (.runId runId)
  | appendEvent _ none => .abort .typeError
  | appendEvent kind (some payload) =>
      .select fun db =>
        let seq := nextSeq RunEvent.seq (db runId).events
        .execute (·.insertEvent runId ⟨seq, kind, payload⟩) fun _ => .commit (.seq seq)
  | setStatus status error ended =>
      .execute (·.updateRun runId none fun row => RunRecord.updateRow row status error ended)
        fun _ => .commit .none
  | transitionStatus expected status error ended =>
      .execute (·.updateRun runId (some expected) fun row => RunRecord.updateRow row status error ended)
        fun rowcount => .commit (.flag (rowcount = 1))
  | recordApproval decision actor reason =>
      .select fun db =>
        match (db runId).row with
        | none => .abort (.keyError s!"Run '{runId}' not found")
        | some _ =>
            .select fun db =>
              let seq := nextSeq RunApproval.seq (db runId).approvals
              .execute (·.insertApproval runId ⟨seq, decision, actor, reason⟩)
                fun _ => .commit (.seq seq)
  | recordApprovalAndTransition decision actor reason expected status error ended =>
      .select fun db =>
        match (db runId).row with
        | none => .rollback (.flag false)
        | some row =>
            if row.status ≠ expected then .rollback (.flag false)
            else
              .select fun db =>
                let seq := nextSeq RunApproval.seq (db runId).approvals
                .execute (·.insertApproval runId ⟨seq, decision, actor, reason⟩) fun _ =>
                  .execute (·.updateRun runId (some expected)
                      fun row => RunRecord.updateRow row status error ended)
                    fun _ => .commit (.flag true)
  | recordCancellationAndTransition actor reason =>
      .select fun db =>
        match (db runId).row with
        | none => .rollback (.flag false)
        | some current =>
            if current.status.terminal then .rollback (.flag false)
            else
              .select fun db =>
                let seq := nextSeq RunApproval.seq (db runId).approvals
                .execute (·.insertApproval runId ⟨seq, "cancelled", actor, reason⟩) fun _ =>
                  .execute (·.updateRun runId (some current.status)
                      fun row => { row with status := .cancelled, ended := true })
                    fun rowcount =>
                      if rowcount ≠ 1 then .rollback (.flag false) else .commit (.flag true)

/-- What a call does to its run where the connection holds. -/
def onRecord (runId : String) (r : RunRecord) :
    RunsCall → Except LedgerError (LedgerReply × RunRecord)
  | createRun threadId workspace task createdBy createdByKind =>
      match r.row with
      | some _ => .error .integrityError
      | none => .ok (.runId runId,
          { r with row := some { threadId, workspace, task, createdBy, createdByKind } })
  | appendEvent _ none => .error .typeError
  | appendEvent kind (some payload) =>
      .ok (.seq (nextSeq RunEvent.seq r.events), r.appendEvent kind payload)
  | setStatus status error ended => .ok (.none, r.setStatus status error ended)
  | transitionStatus expected status error ended =>
      let (moved, r') := r.transitionStatus expected status error ended
      .ok (.flag moved, r')
  | recordApproval decision actor reason =>
      match r.recordApproval decision actor reason with
      | some r' => .ok (.seq (nextSeq RunApproval.seq r.approvals), r')
      | none => .error (.keyError s!"Run '{runId}' not found")
  | recordApprovalAndTransition decision actor reason expected status error ended =>
      let (moved, r') :=
        r.recordApprovalAndTransition actor decision reason expected status error ended
      .ok (.flag moved, r')
  | recordCancellationAndTransition actor reason =>
      let (moved, r') := r.recordCancellationAndTransition actor reason
      .ok (.flag moved, r')

end RunsCall

/-- A call some process makes; `fault` is the statement at which its connection
fails, if one does. -/
structure RunsRequest where
  runId : String
  call : RunsCall
  fault : Option Nat := none

/-- Answer a request. -/
def RunsDb.answer (db : RunsDb) (request : RunsRequest) : Except LedgerError LedgerReply × RunsDb :=
  (request.call.transaction request.runId).perform db
    (request.fault.map fun n => (n, .operationalError))

/-! ### The transactions and the ledger's operations -/

section

variable {db : RunsDb} {runId : String}

/-- The next number is free, so the insert goes through. -/
theorem RunsDb.insertEvent_next (kind : String) (payload : Json) :
    db.insertEvent runId ⟨nextSeq RunEvent.seq (db runId).events, kind, payload⟩ =
      .ok (1, Function.update db runId ((db runId).appendEvent kind payload)) :=
  if_neg nextSeq_notMem

theorem RunsDb.insertApproval_next (decision : String) (actor : Actor) (reason : Option String) :
    db.insertApproval runId
        ⟨nextSeq RunApproval.seq (db runId).approvals, decision, actor, reason⟩ =
      .ok (1, Function.update db runId ((db runId).addApproval decision actor reason)) :=
  if_neg nextSeq_notMem

/-- An update whose condition the row meets. -/
theorem RunsDb.updateRun_met {where? : Option RunStatus} {set : RunRow → RunRow} {row : RunRow}
    (hr : (db runId).row = some row) (met : where?.all (row.status = ·) = true) :
    db.updateRun runId where? set =
      .ok (1, Function.update db runId { db runId with row := some (set row) }) := by
  simp only [updateRun, hr, met, if_true]

/-- An update that finds no row. -/
theorem RunsDb.updateRun_missed {where? : Option RunStatus} {set : RunRow → RunRow}
    (missed : ∀ row, (db runId).row = some row → where?.all (row.status = ·) = false) :
    db.updateRun runId where? set = .ok (0, db) := by
  unfold updateRun
  cases hr : (db runId).row with
  | none => rfl
  | some row => simp [missed row hr]

/-- Where the connection holds, a transaction does to its run what the ledger's
operation does, and to no other run anything. -/
theorem RunsCall.transaction_perform (call : RunsCall) :
    (call.transaction runId).perform db none =
      match call.onRecord runId (db runId) with
      | .ok (reply, r) => (.ok reply, Function.update db runId r)
      | .error error => (.error error, db) := by
  cases call with
  | createRun threadId workspace task createdBy createdByKind =>
      cases hr : (db runId).row <;>
        simp [transaction, onRecord, Transaction.perform, Transaction.attempt, RunsDb.insertRun, hr]
  | appendEvent kind payload =>
      cases payload with
      | none => rfl
      | some payload =>
          simp [transaction, onRecord, Transaction.perform, Transaction.attempt,
            RunsDb.insertEvent_next]
  | setStatus status error ended =>
      cases hr : (db runId).row with
      | none =>
          simp [transaction, onRecord, Transaction.perform, Transaction.attempt,
            RunsDb.updateRun_missed, RunRecord.setStatus_of_none, hr]
      | some row =>
          simp [transaction, onRecord, Transaction.perform, Transaction.attempt,
            RunsDb.updateRun_met hr, RunRecord.setStatus, hr]
  | transitionStatus expected status error ended =>
      cases hr : (db runId).row with
      | none =>
          simp [transaction, onRecord, Transaction.perform, Transaction.attempt,
            RunsDb.updateRun_missed, RunRecord.transitionStatus, hr]
      | some row =>
          by_cases met : row.status = expected
          · simp [transaction, onRecord, Transaction.perform, Transaction.attempt,
              RunsDb.updateRun_met hr, RunRecord.transitionStatus, RunRecord.setStatus, hr, met]
          · simp [transaction, onRecord, Transaction.perform, Transaction.attempt,
              RunsDb.updateRun_missed, RunRecord.transitionStatus, hr, met]
  | recordApproval decision actor reason =>
      cases hr : (db runId).row <;>
        simp [transaction, onRecord, Transaction.perform, Transaction.attempt,
          RunRecord.recordApproval, RunsDb.insertApproval_next, hr]
  | recordApprovalAndTransition decision actor reason expected status error ended =>
      cases hr : (db runId).row with
      | none =>
          simp [transaction, onRecord, Transaction.perform, Transaction.attempt,
            RunRecord.recordApprovalAndTransition, hr]
      | some row =>
          by_cases met : row.status = expected
          · -- The insert leaves the row, so the update meets its condition.
            have hr' : (Function.update db runId ((db runId).addApproval decision actor reason)
                runId).row = some row := by simp [hr]
            simp [transaction, onRecord, Transaction.perform, Transaction.attempt,
              RunsDb.insertApproval_next, RunsDb.updateRun_met hr',
              RunRecord.recordApprovalAndTransition, RunRecord.setStatus, hr, met]
          · simp [transaction, onRecord, Transaction.perform, Transaction.attempt,
              RunRecord.recordApprovalAndTransition, hr, met]
  | recordCancellationAndTransition actor reason =>
      cases hr : (db runId).row with
      | none =>
          simp [transaction, onRecord, Transaction.perform, Transaction.attempt,
            RunRecord.recordCancellationAndTransition, hr]
      | some row =>
          cases terminal : row.status.terminal with
          | true =>
              simp [transaction, onRecord, Transaction.perform, Transaction.attempt,
                RunRecord.recordCancellationAndTransition, hr, terminal]
          | false =>
              have hr' : (Function.update db runId ((db runId).addApproval "cancelled" actor reason)
                  runId).row = some row := by simp [hr]
              simp [transaction, onRecord, Transaction.perform, Transaction.attempt,
                RunsDb.insertApproval_next, RunsDb.updateRun_met hr',
                RunRecord.recordCancellationAndTransition, hr, terminal]

/-- What a request does: it raises and changes nothing, or it does to its run
what the call does. -/
theorem RunsDb.answer_cases (db : RunsDb) (request : RunsRequest) :
    (∃ error, db.answer request = (.error error, db)) ∨
      ∃ reply r, request.call.onRecord request.runId (db request.runId) = .ok (reply, r) ∧
        db.answer request = (.ok reply, Function.update db request.runId r) := by
  cases h : (db.answer request).1 with
  | error error => exact .inl ⟨error, Prod.ext h (Transaction.perform_raised h)⟩
  | ok reply =>
      have held : db.answer request = (request.call.transaction request.runId).perform db none :=
        Transaction.perform_answered h
      rw [held, RunsCall.transaction_perform] at h
      cases done : request.call.onRecord request.runId (db request.runId) with
      | error error =>
          rw [done] at h
          cases h
      | ok result =>
          obtain ⟨reply', r⟩ := result
          rw [held, RunsCall.transaction_perform, done]
          exact .inr ⟨reply', r, rfl, rfl⟩

end

/-! ### Audit rows -/

/-- What an audit row says. -/
structure Audit where
  decision : String
  actor : Actor
  reason : Option String
deriving DecidableEq, Repr

def RunApproval.audit (approval : RunApproval) : Audit :=
  ⟨approval.decision, approval.actor, approval.reason⟩

namespace RunsCall

/-- The audit row of a call that goes through. -/
def audit? : RunsCall → Option Audit
  | recordApproval decision actor reason => some ⟨decision, actor, reason⟩
  | recordApprovalAndTransition decision actor reason _ _ _ _ => some ⟨decision, actor, reason⟩
  | recordCancellationAndTransition actor reason => some ⟨"cancelled", actor, reason⟩
  | createRun .. | appendEvent .. | setStatus .. | transitionStatus .. => none

/-- The call writes an audit row and moves the status. -/
def tied : RunsCall → Bool
  | recordApprovalAndTransition .. | recordCancellationAndTransition .. => true
  | createRun .. | appendEvent .. | setStatus .. | transitionStatus .. | recordApproval .. => false

/-- The call's transition, from a record to a record. -/
def Moves (r r' : RunRecord) : RunsCall → Prop
  | transitionStatus expected status error ended
  | recordApprovalAndTransition _ _ _ expected status error ended =>
      ∃ row, r.row = some row ∧ row.status = expected ∧
        r'.row = some (RunRecord.updateRow row status error ended)
  | recordCancellationAndTransition _ _ =>
      ∃ row, r.row = some row ∧ row.status.terminal = false ∧
        r'.row = some { row with status := .cancelled, ended := true }
  | createRun .. | appendEvent .. | setStatus .. | recordApproval .. => False

variable {call : RunsCall} {runId : String} {r r' : RunRecord} {reply : LedgerReply}

/-- What a call that answers `True` did, and that one that answers `False` did
nothing. -/
theorem onRecord_flag {moved : Bool} (h : call.onRecord runId r = .ok (.flag moved, r')) :
    if moved then call.Moves r r' else r' = r := by
  cases call with
  | createRun => cases hr : r.row <;> simp [onRecord, hr] at h
  | appendEvent kind payload => cases payload <;> cases h
  | setStatus => cases h
  | transitionStatus expected status error ended =>
      by_cases met : r.status? = some expected
      · simp only [onRecord, RunRecord.transitionStatus_accepted met] at h
        cases h
        obtain ⟨row, hr, rfl⟩ := Option.map_eq_some_iff.mp met
        exact ⟨row, hr, rfl, by simp [RunRecord.setStatus, hr]⟩
      · simp only [onRecord, RunRecord.transitionStatus_refused met] at h
        cases h
        exact rfl
  | recordApproval decision actor reason =>
      cases hr : r.row <;> simp [onRecord, RunRecord.recordApproval, hr] at h
  | recordApprovalAndTransition decision actor reason expected status error ended =>
      by_cases met : r.status? = some expected
      · simp only [onRecord, RunRecord.recordApproval_accepted met] at h
        cases h
        obtain ⟨row, hr, rfl⟩ := Option.map_eq_some_iff.mp met
        exact ⟨row, hr, rfl, by simp [RunRecord.setStatus, hr]⟩
      · simp only [onRecord, RunRecord.recordApproval_refused met] at h
        cases h
        exact rfl
  | recordCancellationAndTransition actor reason =>
      cases hr : r.row with
      | none =>
          simp only [onRecord, RunRecord.recordCancellation_refused (.inl hr)] at h
          cases h
          exact rfl
      | some row =>
          cases decided : row.status.terminal with
          | true =>
              have : r.ended = true := by simpa [RunRecord.ended, hr] using decided
              simp only [onRecord, RunRecord.recordCancellation_refused (.inr this)] at h
              cases h
              exact rfl
          | false =>
              simp only [onRecord, RunRecord.recordCancellation_accepted hr decided] at h
              cases h
              exact ⟨row, hr, decided, rfl⟩

/-- The audit rows after a call. -/
theorem onRecord_approvals (h : call.onRecord runId r = .ok (reply, r')) :
    r'.approvals = r.approvals ++
      (if reply = .flag false then none else call.audit?).toList.map fun a =>
        ⟨nextSeq RunApproval.seq r.approvals, a.decision, a.actor, a.reason⟩ := by
  cases call with
  | createRun =>
      cases hr : r.row <;> simp only [onRecord, hr] at h <;> cases h
      simp [audit?]
  | appendEvent kind payload => cases payload <;> cases h; simp [audit?, RunRecord.appendEvent]
  | setStatus => cases h; simp [audit?]
  | transitionStatus expected status error ended =>
      simp only [onRecord, Except.ok.injEq, Prod.mk.injEq] at h
      obtain ⟨rfl, rfl⟩ := h
      simp [audit?, RunRecord.transitionStatus_approvals]
  | recordApproval decision actor reason =>
      cases hr : r.row <;> simp only [onRecord, RunRecord.recordApproval, hr] at h <;> cases h
      simp [audit?, RunRecord.addApproval]
  | recordApprovalAndTransition decision actor reason expected status error ended =>
      by_cases met : r.status? = some expected
      · simp only [onRecord, RunRecord.recordApproval_accepted met] at h
        cases h
        simp [audit?, RunRecord.addApproval]
      · simp only [onRecord, RunRecord.recordApproval_refused met] at h
        cases h
        simp
  | recordCancellationAndTransition actor reason =>
      by_cases decided : r.row = none ∨ r.ended = true
      · simp only [onRecord, RunRecord.recordCancellation_refused decided] at h
        cases h
        simp
      · obtain ⟨row, hr, going⟩ : ∃ row, r.row = some row ∧ row.status.terminal = false := by
          cases hr : r.row with
          | none => exact absurd (.inl hr) decided
          | some row => exact ⟨row, rfl, by simpa [RunRecord.ended, hr] using decided⟩
        simp only [onRecord, RunRecord.recordCancellation_accepted hr going] at h
        cases h
        simp [audit?, RunRecord.addApproval]

/-- A call that moves the status and writes an audit row answers a flag. -/
theorem onRecord_tied (h : call.onRecord runId r = .ok (reply, r')) (tied : call.tied = true) :
    ∃ moved, reply = .flag moved := by
  cases call with
  | recordApprovalAndTransition => cases h; exact ⟨_, rfl⟩
  | recordCancellationAndTransition => cases h; exact ⟨_, rfl⟩
  | createRun => cases tied
  | appendEvent => cases tied
  | setStatus => cases tied
  | transitionStatus => cases tied
  | recordApproval => cases tied

/-- A call keeps the numbering. -/
theorem onRecord_numbered (h : call.onRecord runId r = .ok (reply, r')) (hr : r.Numbered) :
    r'.Numbered := by
  cases call with
  | createRun =>
      cases hrow : r.row <;> simp only [onRecord, hrow] at h <;> cases h
      exact ⟨hr.events, hr.approvals⟩
  | appendEvent kind payload => cases payload <;> cases h; exact hr.appendEvent _ _
  | setStatus status error ended => cases h; exact hr.setStatus _ _ _
  | transitionStatus => cases h; exact hr.transitionStatus ..
  | recordApproval decision actor reason =>
      cases hrow : r.row <;> simp only [onRecord, RunRecord.recordApproval, hrow] at h <;> cases h
      exact hr.addApproval decision actor reason
  | recordApprovalAndTransition => cases h; exact hr.recordApproval ..
  | recordCancellationAndTransition => cases h; exact hr.recordCancellation ..

end RunsCall

/-! ### Histories -/

/-- A request in the journal of the database. -/
abbrev LedgerEntry := Entry RunsDb RunsRequest (Except LedgerError LedgerReply)

/-- Every request the processes make, in the order SQLite takes them. -/
def runsHistory (requests : List RunsRequest) :
    Recorded RunsDb RunsRequest (Except LedgerError LedgerReply) :=
  history RunsDb.answer (fun _ => {}) requests

namespace LedgerEntry

variable (runId : String) (expected : RunStatus) (e : LedgerEntry)

/-- The call returned `True`. -/
def Succeeded : Prop := e.answer = .ok (.flag true)

/-- The call returned `False` or raised. -/
def Failed : Prop := e.answer = .ok (.flag false) ∨ ∃ error, e.answer = .error error

/-- The call added its audit row to its run. -/
def WroteAudit : Prop :=
  ∃ approval, e.call.call.audit? = some approval.audit ∧
    (e.after e.call.runId).approvals = (e.before e.call.runId).approvals ++ [approval]

/-- The call performed its transition. -/
def Moved : Prop := e.call.call.Moves (e.before e.call.runId) (e.after e.call.runId)

/-- The audit row of a run that the entry stands for. -/
def audit? : Option Audit :=
  match e.answer with
  | .ok reply =>
      if e.call.runId = runId ∧ reply ≠ .flag false then e.call.call.audit? else none
  | .error _ => none

/-- The entry is an approval of the run that was waited for in `expected` and
went through, to another status. -/
def Resolves : Prop :=
  e.call.runId = runId ∧ Succeeded e ∧ ∃ decision actor reason status error ended,
    e.call.call = .recordApprovalAndTransition decision actor reason expected status error ended ∧
      status ≠ expected

/-- The entry brings the run to `expected` from another status. -/
def Reopens : Prop :=
  (e.before runId).status? ≠ some expected ∧ (e.after runId).status? = some expected

variable {runId expected e}

/-- What an entry of a history is. -/
def Honest (e : LedgerEntry) : Prop := e.before.answer e.call = (e.answer, e.after)

/-- An entry raised and changed nothing, or did to its run what its call does. -/
theorem Honest.cases (h : Honest e) :
    (∃ error, e.answer = .error error ∧ e.after = e.before) ∨
      ∃ reply r, e.call.call.onRecord e.call.runId (e.before e.call.runId) = .ok (reply, r) ∧
        e.answer = .ok reply ∧ e.after = Function.update e.before e.call.runId r := by
  unfold Honest at h
  rcases e.before.answer_cases e.call with ⟨error, raised⟩ | ⟨reply, r, done, returned⟩
  · rw [raised, Prod.mk.injEq] at h
    exact .inl ⟨error, h.1.symm, h.2.symm⟩
  · rw [returned, Prod.mk.injEq] at h
    exact .inr ⟨reply, r, done, h.1.symm, h.2.symm⟩

/-- An entry that did not succeed changed nothing. -/
theorem Honest.failed (h : Honest e) (failed : Failed e) : e.after = e.before := by
  rcases h.cases with ⟨error, answer, after⟩ | ⟨reply, r, done, answer, after⟩
  · exact after
  · rcases failed with refused | ⟨error, raised⟩
    · cases answer.symm.trans refused
      have : r = e.before e.call.runId := RunsCall.onRecord_flag done
      rw [after, this, Function.update_eq_self]
    · cases answer.symm.trans raised

/-- A call that returned `True` performed its transition. -/
theorem Honest.moved (h : Honest e) (succeeded : Succeeded e) : Moved e := by
  rcases h.cases with ⟨error, answer, after⟩ | ⟨reply, r, done, answer, after⟩
  · cases succeeded.symm.trans answer
  · cases answer.symm.trans succeeded
    have moves : e.call.call.Moves (e.before e.call.runId) r := RunsCall.onRecord_flag done
    unfold Moved
    rw [after, Function.update_self]
    exact moves

/-- The audit rows of a run after an entry. -/
theorem Honest.approvals (h : Honest e) (runId : String) :
    ∃ added, (e.after runId).approvals = (e.before runId).approvals ++ added ∧
      added.map RunApproval.audit = (audit? runId e).toList := by
  rcases h.cases with ⟨error, answer, after⟩ | ⟨reply, r, done, answer, after⟩
  · exact ⟨[], by rw [after, List.append_nil], by simp [audit?, answer]⟩
  · by_cases same : e.call.runId = runId
    · subst same
      refine ⟨_, by rw [after, Function.update_self, RunsCall.onRecord_approvals done], ?_⟩
      by_cases refused : reply = .flag false
      · simp [audit?, answer, refused]
      · simp [audit?, answer, refused, Function.comp_def, RunApproval.audit]
    · have other : e.after runId = e.before runId := by
        rw [after, Function.update_of_ne (Ne.symm same)]
      exact ⟨[], by rw [other, List.append_nil], by simp [audit?, answer, same]⟩

/-- An entry keeps the numbering of every run. -/
theorem Honest.numbered (h : Honest e) (before : ∀ runId, (e.before runId).Numbered)
    (runId : String) : (e.after runId).Numbered := by
  rcases h.cases with ⟨error, answer, after⟩ | ⟨reply, r, done, answer, after⟩
  · rw [after]
    exact before runId
  · rw [after]
    by_cases same : runId = e.call.runId
    · subst same
      rw [Function.update_self]
      exact RunsCall.onRecord_numbered done (before _)
    · rw [Function.update_of_ne same]
      exact before runId

/-- A call that moves the status and writes an audit row does both or neither. -/
theorem Honest.tied (h : Honest e) (tied : e.call.call.tied = true) :
    WroteAudit e ↔ Succeeded e := by
  obtain ⟨audit, named⟩ : ∃ audit, e.call.call.audit? = some audit := by
    cases hc : e.call.call <;> simp_all [RunsCall.tied, RunsCall.audit?]
  obtain ⟨added, after, rows⟩ := h.approvals e.call.runId
  constructor
  · intro ⟨approval, _, written⟩
    -- The row is there, so the call answered, and its answer is a flag.
    have : added = [approval] := List.append_cancel_left (after.symm.trans written)
    rcases h.cases with ⟨error, answer, _⟩ | ⟨reply, r, done, answer, _⟩
    · simp [audit?, answer, this] at rows
    · obtain ⟨moved, rfl⟩ := RunsCall.onRecord_tied done tied
      cases moved with
      | true => exact answer
      | false => simp [audit?, answer, this] at rows
  · intro succeeded
    have : (audit? e.call.runId e).toList = [audit] := by
      unfold Succeeded at succeeded
      simp [audit?, succeeded, named]
    rw [this] at rows
    obtain ⟨approval, rfl, said⟩ := List.map_eq_singleton_iff.mp rows
    exact ⟨approval, by rw [named, said], after⟩

/-- Two approvals that went through, with the entries between them. -/
theorem Resolves.reopened {first second : LedgerEntry} {between : List LedgerEntry}
    (chain : Chain first.after between second.before) (h₁ : Honest first) (h₂ : Honest second)
    (resolves₁ : Resolves runId expected first) (resolves₂ : Resolves runId expected second) :
    ∃ e ∈ between, Reopens runId expected e := by
  obtain ⟨rfl, succeeded₁, decision, actor, reason, status, error, ended, call₁, other⟩ := resolves₁
  obtain ⟨same, succeeded₂, _, _, _, _, _, _, call₂, _⟩ := resolves₂
  -- The first leaves another status, the second finds the expected one.
  have left : (first.after first.call.runId).status? ≠ some expected := by
    have moved := h₁.moved succeeded₁
    unfold Moved at moved
    rw [call₁] at moved
    obtain ⟨row, _, _, after⟩ := moved
    simpa [RunRecord.status?, after, RunRecord.updateRow] using other
  have found : (second.before first.call.runId).status? = some expected := by
    have moved := h₂.moved succeeded₂
    unfold Moved at moved
    rw [call₂, same] at moved
    obtain ⟨row, before, met, _⟩ := moved
    simp [RunRecord.status?, before, met]
  obtain ⟨early, e, late, rfl, before, after, _⟩ :=
    chain.since (P := fun db => (db first.call.runId).status? = some expected) left found
  exact ⟨e, by simp, before, after⟩

end LedgerEntry

/-- The audit rows of a run are those of the calls that went through, in order. -/
theorem approvals_of_chain {s t : RunsDb} {journal : List LedgerEntry} (chain : Chain s journal t)
    (honest : ∀ e ∈ journal, LedgerEntry.Honest e) (runId : String) :
    (t runId).approvals.map RunApproval.audit =
      (s runId).approvals.map RunApproval.audit ++
        journal.filterMap (LedgerEntry.audit? runId) := by
  induction journal generalizing s with
  | nil =>
      cases chain
      simp
  | cons e rest ih =>
      obtain ⟨rfl, chain⟩ := chain
      obtain ⟨added, after, rows⟩ := (honest e (List.mem_cons_self ..)).approvals runId
      rw [ih chain fun e he => honest e (List.mem_cons_of_mem _ he), after, List.map_append, rows,
        List.append_assoc]
      cases h : LedgerEntry.audit? runId e <;> simp [h]

end AgentOs
