import AgentOs.Concierge.Sessions
import AgentOs.Schedules.Store

/-!
Stored times order as time does.

SQLite compares the texts of time columns; `isoformat_le_iff` turns each such
comparison into one of times. So the rows a claim reads are the enabled ones that
are due, oldest first, up to the limit (`selectDue_isoformat`), and these are the
rows it returns, whatever the connection does (`stored_times_order`).
-/

namespace AgentOs

open AgentOs.Lib

/-- What a claim reads, by time. -/
theorem ScheduleTable.selectDue_isoformat (table : ScheduleTable) (now : UtcDateTime) (limit : ℤ) :
    table.selectDue now.isoformat limit =
      limitTo limit ((table.filter fun row => row.enabled ∧ row.nextRunAt ≤ now).insertionSort
        fun a b => a.nextRunAt ≤ b.nextRunAt) := by
  unfold selectDue
  simp only [UtcDateTime.isoformat_le_iff]

/-- The rows a claim reads, then the due ones it leaves waiting: together the enabled
rows that are due, oldest first. -/
theorem ScheduleTable.selectDue_spec (table : ScheduleTable) (now : UtcDateTime) (limit : ℤ) :
    let rows := table.selectDue now.isoformat limit
    ∃ waiting,
      (rows ++ waiting).Perm (table.filter fun row => row.enabled ∧ row.nextRunAt ≤ now) ∧
      (rows ++ waiting).Pairwise (fun a b => a.nextRunAt ≤ b.nextRunAt) ∧
      (0 ≤ limit → rows.length = min limit.toNat (rows ++ waiting).length) ∧
      (limit < 0 → waiting = []) := by
  rw [selectDue_isoformat]
  generalize (table.filter fun row => row.enabled ∧ row.nextRunAt ≤ now) = due
  have sorted : (due.insertionSort fun a b => a.nextRunAt ≤ b.nextRunAt).Pairwise
      fun a b => a.nextRunAt ≤ b.nextRunAt :=
    haveI : Std.Total fun a b : ScheduleRow => a.nextRunAt ≤ b.nextRunAt :=
      ⟨fun _ _ => le_total _ _⟩
    haveI : IsTrans ScheduleRow fun a b => a.nextRunAt ≤ b.nextRunAt :=
      ⟨fun _ _ _ => le_trans⟩
    List.pairwise_insertionSort _ due
  have same := List.perm_insertionSort (fun a b : ScheduleRow => a.nextRunAt ≤ b.nextRunAt) due
  generalize (due.insertionSort fun a b => a.nextRunAt ≤ b.nextRunAt) = ordered at sorted same ⊢
  unfold limitTo
  split
  · exact ⟨[], by simpa using same, by simpa using sorted, by omega, fun _ => rfl⟩
  · refine ⟨ordered.drop limit.toNat, ?_, ?_, ?_, by omega⟩
    · rw [List.take_append_drop]
      exact same
    · rw [List.take_append_drop]
      exact sorted
    · intro _
      rw [List.take_append_drop, List.length_take]

section

variable {platform : Platform} {now : UtcDateTime} {stored : ScheduleTable}

/-- The time a claim gives a row. -/
def nextOf (platform : Platform) (now : UtcDateTime) (row : ScheduleRow) : UtcDateTime :=
  match advanced platform now row with
  | .ok next => next
  | .error _ => row.nextRunAt

/-- The table after the rows are claimed one after another. -/
def claimAll (platform : Platform) (now : UtcDateTime) (rows : List ScheduleRow)
    (table : ScheduleTable) : ScheduleTable :=
  rows.foldl (fun table row => table.map fun r =>
    if r.scheduleId = row.scheduleId then r.claim now (nextOf platform now row) else r) table

/-- **What the claiming loop does**: it raises, or every row is advanced. -/
theorem claimRows_attempt (rows claimed : List ScheduleRow) (working : ScheduleTable)
    {reply : ScheduleReply}
    (h : ((claimRows platform now rows claimed).attempt stored working none).1 = .ok reply) :
    reply = .claimed (claimed ++ rows) ∧
      (∀ row ∈ rows, advanced platform now row = .ok (nextOf platform now row)) ∧
      ((claimRows platform now rows claimed).attempt stored working none).2 =
        claimAll platform now rows working := by
  induction rows generalizing claimed working with
  | nil =>
      cases h
      exact ⟨by rw [List.append_nil], by simp, rfl⟩
  | cons row rows ih =>
      cases moved : advanced platform now row with
      | error e =>
          rw [claimRows, moved] at h
          cases h
      | ok next =>
          have named : nextOf platform now row = next := by rw [nextOf, moved]
          have run : (claimRows platform now (row :: rows) claimed).attempt stored working none =
              (claimRows platform now rows (claimed ++ [row])).attempt stored
                (working.map fun r =>
                  if r.scheduleId = row.scheduleId then r.claim now next else r) none := by
            rw [claimRows, moved]
            exact Transaction.attempt_execute rfl
          rw [run] at h ⊢
          obtain ⟨answered, others, after⟩ := ih (claimed ++ [row]) _ h
          refine ⟨by rw [answered, List.append_assoc]; rfl, ?_, ?_⟩
          · intro r hr
            rcases List.mem_cons.mp hr with rfl | hr
            · rw [moved, named]
            · exact others r hr
          · rw [after, claimAll, claimAll, List.foldl_cons, named]

/-- A claim that answers returns the rows it read and has advanced them. -/
theorem claimDueSchedules_perform {limit : ℤ} {fault : Option (ℕ × ScheduleError)}
    {reply : ScheduleReply}
    (h : (((ScheduleCall.claimDueSchedules now limit).transaction platform).perform stored fault).1 =
      .ok reply) :
    let rows := stored.selectDue now.isoformat limit
    reply = .claimed rows ∧
      (∀ row ∈ rows, advanced platform now row = .ok (nextOf platform now row)) ∧
      (((ScheduleCall.claimDueSchedules now limit).transaction platform).perform stored fault).2 =
        claimAll platform now rows stored := by
  intro rows
  have run : ((ScheduleCall.claimDueSchedules now limit).transaction platform).perform stored fault =
      (claimRows platform now rows []).attempt stored stored none := by
    rw [Transaction.perform_answered h]
    exact Transaction.attempt_select
  rw [run] at h ⊢
  exact claimRows_attempt rows [] stored h

end

/-- **Stored times order as time does**, so a claim returns the enabled schedules
that are due, oldest first, up to the limit, and the concierge deletes the sessions
older than its cutoff. -/
theorem stored_times_order :
    (∀ a b : UtcDateTime, (TextLt a.isoformat b.isoformat ↔ a < b) ∧
      (TextLe a.isoformat b.isoformat ↔ a ≤ b)) ∧
    (∀ platform table now limit fault rows,
      ((ScheduleCall.claimDueSchedules now limit).transaction platform |>.perform table fault).1 =
        .ok (.claimed rows) →
      ∃ waiting,
        (rows ++ waiting).Perm (table.filter fun row => row.enabled ∧ row.nextRunAt ≤ now) ∧
        (rows ++ waiting).Pairwise (fun a b => a.nextRunAt ≤ b.nextRunAt) ∧
        (0 ≤ limit → rows.length = min limit.toNat (rows ++ waiting).length) ∧
        (limit < 0 → waiting = [])) ∧
    ∀ (cutoff : UtcDateTime) (sessions : List PublicSession),
      deleteExpired cutoff.isoformat sessions =
        sessions.filter fun session => cutoff ≤ session.updatedAt := by
  refine ⟨fun a b => ⟨a.isoformat_lt_iff b, a.isoformat_le_iff b⟩, ?_, deleteExpired_isoformat⟩
  intro platform table now limit fault rows answered
  obtain ⟨read, -, -⟩ := claimDueSchedules_perform answered
  cases read
  exact table.selectDue_spec now limit

end AgentOs
