import AgentOs.Lib.History
import AgentOs.Schedules.StoredTimes

/-!
Dispatched occurrences.

A history is a list of calls to the store, by any processes in any order, each with
the clock it reads and the statement at which its connection fails, if any.
`ScheduleStep` lists what a call does; between its creation and its removal a row's
next time only moves on (`Onward`), and a claim moves the rows it returns past its
own clock. So no occurrence is handed out twice (`occurrence_dispatched_once`),
whatever the clocks say.
-/

namespace AgentOs

open AgentOs.Lib

/-! ### What a claim does to each row -/

section

variable (platform : Platform) (now : UtcDateTime)

/-- What claiming `rows` does to a row. -/
def claimedRow (rows : List ScheduleRow) (r : ScheduleRow) : ScheduleRow :=
  rows.foldl (fun r row =>
    if r.scheduleId = row.scheduleId then r.claim now (nextOf platform now row) else r) r

theorem claimAll_eq_map (rows : List ScheduleRow) (table : ScheduleTable) :
    claimAll platform now rows table = table.map (claimedRow platform now rows) := by
  induction rows generalizing table with
  | nil => exact (List.map_id' table).symm
  | cons row rows ih =>
      have step : claimAll platform now (row :: rows) table =
          claimAll platform now rows (table.map fun r =>
            if r.scheduleId = row.scheduleId then r.claim now (nextOf platform now row) else r) := rfl
      rw [step, ih, List.map_map]
      rfl

theorem claimedRow_scheduleId (rows : List ScheduleRow) (r : ScheduleRow) :
    (claimedRow platform now rows r).scheduleId = r.scheduleId := by
  induction rows generalizing r with
  | nil => rfl
  | cons row rows ih =>
      rw [claimedRow, List.foldl_cons]
      refine (ih _).trans ?_
      split
      · rfl
      · rfl

/-- A row that is not claimed stays. -/
theorem claimedRow_of_notMem {rows : List ScheduleRow} {r : ScheduleRow}
    (h : r.scheduleId ∉ rows.map (·.scheduleId)) : claimedRow platform now rows r = r := by
  induction rows with
  | nil => rfl
  | cons row rows ih =>
      rw [List.map_cons, List.mem_cons, not_or] at h
      rw [claimedRow, List.foldl_cons, if_neg h.1]
      exact ih h.2

/-- A claimed row is advanced once. -/
theorem claimedRow_of_mem {rows : List ScheduleRow} (keys : (rows.map (·.scheduleId)).Nodup)
    {r : ScheduleRow} (h : r ∈ rows) :
    claimedRow platform now rows r = r.claim now (nextOf platform now r) := by
  induction rows with
  | nil => cases h
  | cons row rows ih =>
      rw [List.map_cons, List.nodup_cons] at keys
      rcases List.mem_cons.mp h with rfl | later
      · rw [claimedRow, List.foldl_cons, if_pos rfl]
        exact claimedRow_of_notMem platform now (r := r.claim now (nextOf platform now r)) keys.1
      · have other : r.scheduleId ≠ row.scheduleId := by
          intro same
          exact keys.1 (same ▸ List.mem_map_of_mem later)
        rw [claimedRow, List.foldl_cons, if_neg other]
        exact ih keys.2 later

end

/-! ### Steps -/

/-- A call, and the statement at which its connection fails. -/
structure ScheduleOp where
  call : ScheduleCall
  fault : Option (ℕ × ScheduleError) := none

section

variable (platform : Platform)

def ScheduleOp.apply (table : ScheduleTable) (op : ScheduleOp) :
    Except ScheduleError ScheduleReply × ScheduleTable :=
  (op.call.transaction platform).perform table op.fault

/-- The schedule is the same and so is its next time. -/
def SameSchedule (r r' : ScheduleRow) : Prop :=
  r'.scheduleId = r.scheduleId ∧ r'.triggerKind = r.triggerKind ∧
    r'.triggerValue = r.triggerValue ∧ r'.nextRunAt = r.nextRunAt

theorem sameSchedule_ite {scheduleId : String} {set : ScheduleRow → ScheduleRow}
    (h : ∀ row, SameSchedule row (set row)) (row : ScheduleRow) :
    SameSchedule row (if row.scheduleId = scheduleId then set row else row) := by
  split
  · exact h row
  · exact ⟨rfl, rfl, rfl, rfl⟩

/-- What a call does to the table. -/
inductive ScheduleStep (table : ScheduleTable) :
    ScheduleCall → Except ScheduleError ScheduleReply → ScheduleTable → Prop where
  | raised {call : ScheduleCall} {error : ScheduleError} :
      ScheduleStep table call (.error error) table
  | created {input : ScheduleInput} {scheduleId : String} {now : UtcDateTime} {row : ScheduleRow} :
      newRow platform input scheduleId now = .ok row →
        scheduleId ∉ table.map (·.scheduleId) →
        ScheduleStep table (.createSchedule input scheduleId now) (.ok (.scheduleId scheduleId))
          (table ++ [row])
  | claimed {now : UtcDateTime} {limit : ℤ} :
      (∀ row ∈ table.selectDue now.isoformat limit,
        advanced platform now row = .ok (nextOf platform now row)) →
        ScheduleStep table (.claimDueSchedules now limit)
          (.ok (.claimed (table.selectDue now.isoformat limit)))
          (table.map (claimedRow platform now (table.selectDue now.isoformat limit)))
  | edited {call : ScheduleCall} {reply : ScheduleReply} {edit : ScheduleRow → ScheduleRow} :
      (∀ row, SameSchedule row (edit row)) → (∀ rows, reply ≠ .claimed rows) →
        (∀ scheduleId, reply ≠ .scheduleId scheduleId) →
        ScheduleStep table call (.ok reply) (table.map edit)
  | removed {scheduleId : String} {removed : Bool} :
      ScheduleStep table (.removeSchedule scheduleId) (.ok (.flag removed))
        (table.filter (·.scheduleId ≠ scheduleId))

/-- The created row has the id that was drawn, and a next time counted from now. -/
theorem newRow_spec {input : ScheduleInput} {scheduleId : String} {now : UtcDateTime}
    {row : ScheduleRow} (h : newRow platform input scheduleId now = .ok row) :
    row.scheduleId = scheduleId ∧ row.createdAt = now ∧
      nextRunAt platform row.triggerKind row.triggerValue row.timezone now = .ok row.nextRunAt := by
  obtain ⟨valid, -, h⟩ := bind_eq_ok_iff.mp h
  obtain ⟨next, computed, h⟩ := bind_eq_ok_iff.mp h
  cases h
  exact ⟨rfl, rfl, computed⟩

/-- A statement, and then the answer. -/
theorem perform_statement {table written : ScheduleTable} {fault : Option (ℕ × ScheduleError)}
    {statement : ScheduleTable → Except ScheduleError (ℕ × ScheduleTable)}
    {answer : ℕ → ScheduleReply} {reply : ScheduleReply} {rows : ℕ}
    (through : statement table = .ok (rows, written))
    (answered : ((Transaction.execute statement fun n => .commit (answer n)).perform table fault).1 =
      .ok reply) :
    reply = answer rows ∧
      ((Transaction.execute statement fun n => .commit (answer n)).perform table fault).2 =
        written := by
  have run : (Transaction.execute statement fun n => .commit (answer n)).perform table fault =
      (.ok (answer rows), written) := by
    rw [Transaction.perform_answered answered]
    exact Transaction.attempt_execute through
  rw [run] at answered ⊢
  exact ⟨(Except.ok.inj answered).symm, rfl⟩

/-- **What each call does.** -/
theorem scheduleStep (table : ScheduleTable) (op : ScheduleOp) :
    ScheduleStep platform table op.call (op.apply platform table).1 (op.apply platform table).2 := by
  obtain ⟨call, fault⟩ := op
  unfold ScheduleOp.apply
  dsimp only
  cases answered : ((call.transaction platform).perform table fault).1 with
  | error e =>
      rw [Transaction.perform_raised answered]
      exact .raised
  | ok reply =>
      cases call with
      | createSchedule input scheduleId now =>
          rw [ScheduleCall.transaction] at answered ⊢
          cases made : newRow platform input scheduleId now with
          | error e =>
              rw [made] at answered
              rw [Transaction.perform_answered answered] at answered
              cases answered
          | ok row =>
              rw [made] at answered
              obtain ⟨named, -, -⟩ := newRow_spec platform made
              dsimp only at answered ⊢
              by_cases taken : row.scheduleId ∈ table.map (·.scheduleId)
              · have refused : table.insert row = .error .integrityError := if_pos taken
                rw [Transaction.perform_answered answered] at answered
                simp [Transaction.perform, Transaction.attempt, refused] at answered
              · obtain ⟨rfl, after⟩ := perform_statement (if_neg taken) answered
                rw [after]
                exact .created made (named ▸ taken)
      | claimDueSchedules now limit =>
          obtain ⟨rfl, moved, after⟩ := claimDueSchedules_perform answered
          rw [after, claimAll_eq_map]
          exact .claimed moved
      | setScheduleEnabled scheduleId enabled now =>
          obtain ⟨rfl, after⟩ := perform_statement rfl answered
          rw [ScheduleCall.transaction, after]
          exact .edited (sameSchedule_ite fun _ => ⟨rfl, rfl, rfl, rfl⟩) (fun _ same => by cases same)
            fun _ same => by cases same
      | removeSchedule scheduleId =>
          obtain ⟨rfl, after⟩ := perform_statement rfl answered
          rw [ScheduleCall.transaction, after]
          exact .removed
      | recordScheduleResult scheduleId status error now =>
          obtain ⟨rfl, after⟩ := perform_statement rfl answered
          rw [ScheduleCall.transaction, after]
          exact .edited (sameSchedule_ite fun _ => ⟨rfl, rfl, rfl, rfl⟩) (fun _ same => by cases same)
            fun _ same => by cases same

/-! ### Schedules moving on -/

/-- A later state of the same schedule. -/
structure Onward (r r' : ScheduleRow) : Prop where
  scheduleId : r'.scheduleId = r.scheduleId
  triggerKind : r'.triggerKind = r.triggerKind
  triggerValue : r'.triggerValue = r.triggerValue
  later : r.nextRunAt ≤ r'.nextRunAt
  /-- An interval moves on by whole intervals. -/
  whole : r.triggerKind = .interval → ∀ delta, parseInterval platform r.triggerValue = .ok delta →
    ∃ skips, r'.nextRunAt.instant = r.nextRunAt.instant + skips * delta

variable {platform}

theorem Onward.of_same {r r' : ScheduleRow} (h : SameSchedule r r') : Onward platform r r' := by
  obtain ⟨scheduleId, triggerKind, triggerValue, next⟩ := h
  refine ⟨scheduleId, triggerKind, triggerValue, le_of_eq next.symm, ?_⟩
  intro _ delta _
  exact ⟨0, by rw [next, Nat.zero_mul, Nat.add_zero]⟩

theorem Onward.trans {a b c : ScheduleRow} (h : Onward platform a b) (h' : Onward platform b c) :
    Onward platform a c := by
  refine ⟨h'.scheduleId.trans h.scheduleId, h'.triggerKind.trans h.triggerKind,
    h'.triggerValue.trans h.triggerValue, h.later.trans h'.later, ?_⟩
  intro interval delta parsed
  obtain ⟨m, hm⟩ := h.whole interval delta parsed
  obtain ⟨n, hn⟩ := h'.whole (h.triggerKind.trans interval) delta (h.triggerValue.symm ▸ parsed)
  refine ⟨m + n, ?_⟩
  rw [hn, hm, Nat.add_mul, Nat.add_assoc]

/-- A claimed row moves past the clock of its claim. -/
theorem advanced_spec (strict : platform.StrictlyAfter) {now : UtcDateTime} {r : ScheduleRow}
    (due : r.nextRunAt ≤ now) (h : advanced platform now r = .ok (nextOf platform now r)) :
    let r' := r.claim now (nextOf platform now r)
    Onward platform r r' ∧ now < r'.nextRunAt ∧
      (r.triggerKind = .interval → ∃ delta, parseInterval platform r.triggerValue = .ok delta ∧
        r'.nextRunAt.instant ≤ now.instant + delta) := by
  have coalesced : coalesceNextRun platform r.triggerKind r.triggerValue r.timezone r.nextRunAt now =
      .ok (nextOf platform now r) := by
    obtain ⟨persisted, read, h⟩ := bind_eq_ok_iff.mp h
    rw [UtcDateTime.fromisoformat_isoformat] at read
    cases read
    exact h
  generalize nextOf platform now r = next at coalesced
  have past := lt_coalesceNextRun strict coalesced
  refine ⟨⟨rfl, rfl, rfl, due.trans past.le, ?_⟩, past, ?_⟩
  · intro interval delta parsed
    rw [interval] at coalesced
    obtain ⟨delta', skips, parsed', moved, -, -⟩ := coalesceNextRun_interval due coalesced
    cases parsed.symm.trans parsed'
    exact ⟨skips, moved⟩
  · intro interval
    rw [interval] at coalesced
    obtain ⟨delta, -, parsed, -, -, near⟩ := coalesceNextRun_interval due coalesced
    exact ⟨delta, parsed, near⟩

section

variable {table after : ScheduleTable} {call : ScheduleCall}
  {answer : Except ScheduleError ScheduleReply}

/-- The rows a claim reads are rows of the table that are due, each once. -/
theorem ScheduleTable.selectDue_rows (keys : (table.map (·.scheduleId)).Nodup) (now : UtcDateTime)
    (limit : ℤ) : let rows := table.selectDue now.isoformat limit
    (rows.map (·.scheduleId)).Nodup ∧
      ∀ row ∈ rows, row ∈ table ∧ row.enabled = true ∧ row.nextRunAt ≤ now := by
  intro rows
  obtain ⟨waiting, found, -, -, -⟩ := table.selectDue_spec now limit
  constructor
  · have all : ((rows ++ waiting).map (·.scheduleId)).Nodup :=
      (found.map _).nodup_iff.mpr (keys.sublist (List.filter_sublist.map _))
    rw [List.map_append] at all
    exact all.of_append_left
  · intro row hrow
    have read := found.mem_iff.mp (List.mem_append_left _ hrow)
    obtain ⟨stored, due⟩ := List.mem_filter.mp read
    exact ⟨stored, by simpa using due⟩

/-- A change of rows that keeps their ids keeps the keys. -/
theorem map_scheduleId {edit : ScheduleRow → ScheduleRow}
    (same : ∀ r, (edit r).scheduleId = r.scheduleId) :
    (table.map edit).map (·.scheduleId) = table.map (·.scheduleId) := by
  rw [List.map_map]
  exact List.map_congr_left fun r _ => same r

/-- The keys stay unique. -/
theorem ScheduleStep.keys (h : ScheduleStep platform table call answer after)
    (keys : (table.map (·.scheduleId)).Nodup) : (after.map (·.scheduleId)).Nodup := by
  cases h with
  | raised => exact keys
  | created made fresh =>
      rw [List.map_append, List.map_singleton, (newRow_spec platform made).1]
      exact List.nodup_append.mpr ⟨keys, List.nodup_singleton _, by
        intro a ha b hb same
        exact fresh (List.mem_singleton.mp hb ▸ same ▸ ha)⟩
  | claimed moved =>
      rw [map_scheduleId (claimedRow_scheduleId platform _ _)]
      exact keys
  | edited same _ _ =>
      rw [map_scheduleId fun r => (same r).1]
      exact keys
  | removed => exact keys.sublist (List.filter_sublist.map _)

/-- Every row was created by the call, or is a later state of one from before. -/
theorem ScheduleStep.carry (strict : platform.StrictlyAfter)
    (h : ScheduleStep platform table call answer after)
    (keys : (table.map (·.scheduleId)).Nodup) {r' : ScheduleRow} (mem : r' ∈ after) :
    (∃ input scheduleId now, call = .createSchedule input scheduleId now ∧
      newRow platform input scheduleId now = .ok r' ∧ answer = .ok (.scheduleId scheduleId)) ∨
      ∃ r ∈ table, Onward platform r r' := by
  cases h with
  | raised => exact .inr ⟨r', mem, .of_same ⟨rfl, rfl, rfl, rfl⟩⟩
  | created made fresh =>
      rcases List.mem_append.mp mem with old | new
      · exact .inr ⟨r', old, .of_same ⟨rfl, rfl, rfl, rfl⟩⟩
      · cases List.mem_singleton.mp new
        exact .inl ⟨_, _, _, rfl, made, rfl⟩
  | @claimed now limit moved =>
      obtain ⟨r, hr, rfl⟩ := List.mem_map.mp mem
      refine .inr ⟨r, hr, ?_⟩
      obtain ⟨unique, due⟩ := ScheduleTable.selectDue_rows keys now limit
      by_cases claimed : r ∈ table.selectDue now.isoformat limit
      · rw [claimedRow_of_mem platform now unique claimed]
        exact (advanced_spec strict (due r claimed).2.2 (moved r claimed)).1
      · have other : r.scheduleId ∉ (table.selectDue now.isoformat limit).map (·.scheduleId) := by
          intro named
          obtain ⟨row, hrow, same⟩ := List.mem_map.mp named
          exact claimed (List.inj_on_of_nodup_map keys (due row hrow).1 hr same ▸ hrow)
        rw [claimedRow_of_notMem platform now other]
        exact .of_same ⟨rfl, rfl, rfl, rfl⟩
  | edited same _ _ =>
      obtain ⟨r, hr, rfl⟩ := List.mem_map.mp mem
      exact .inr ⟨r, hr, .of_same (same r)⟩
  | removed =>
      exact .inr ⟨r', (List.mem_filter.mp mem).1, .of_same ⟨rfl, rfl, rfl, rfl⟩⟩

end

end

/-! ### Histories -/

/-- A call to the store in a journal. -/
abbrev ScheduleEntry := Entry ScheduleTable ScheduleOp (Except ScheduleError ScheduleReply)

namespace ScheduleEntry

/-- The rows a claim hands out; none for other calls. -/
def handed (e : ScheduleEntry) : List ScheduleRow :=
  match e.answer with
  | .ok (.claimed rows) => rows
  | _ => []

/-- The entry is the creation of the row. -/
def Creates (platform : Platform) (e : ScheduleEntry) (row : ScheduleRow) : Prop :=
  ∃ input scheduleId now, e.call.call = .createSchedule input scheduleId now ∧
    newRow platform input scheduleId now = .ok row ∧ e.answer = .ok (.scheduleId scheduleId)

end ScheduleEntry

/-- Calls one after another, from an empty store. -/
def scheduleHistory (platform : Platform) (ops : List ScheduleOp) :
    Recorded ScheduleTable ScheduleOp (Except ScheduleError ScheduleReply) :=
  history (ScheduleOp.apply platform) [] ops

section

variable {platform : Platform} {ops : List ScheduleOp} {e : ScheduleEntry}

theorem scheduleStep_of_entry (h : e ∈ (scheduleHistory platform ops).journal) :
    ScheduleStep platform e.before e.call.call e.answer e.after := by
  have step := scheduleStep platform e.before e.call
  rw [history_entries _ _ ops e h] at step
  exact step

/-- The keys are unique around every call. -/
theorem keys_of_entry (h : e ∈ (scheduleHistory platform ops).journal) :
    (e.before.map (·.scheduleId)).Nodup ∧ (e.after.map (·.scheduleId)).Nodup :=
  ((history_chain (ScheduleOp.apply platform) [] ops).invariant
    (I := fun table => (table.map (·.scheduleId)).Nodup) List.nodup_nil
    fun _ he keys => (scheduleStep_of_entry he).keys keys).2 e h

theorem carry_of_entry (strict : platform.StrictlyAfter)
    (h : e ∈ (scheduleHistory platform ops).journal) {r' : ScheduleRow} (mem : r' ∈ e.after) :
    e.Creates platform r' ∨ ∃ r ∈ e.before, Onward platform r r' :=
  (scheduleStep_of_entry h).carry strict (keys_of_entry h).1 mem

/-- The id of a created row was free. -/
theorem fresh_of_creates (h : e ∈ (scheduleHistory platform ops).journal) {row : ScheduleRow}
    (created : e.Creates platform row) : row.scheduleId ∉ e.before.map (·.scheduleId) := by
  obtain ⟨input, scheduleId, now, called, made, answered⟩ := created
  have step := scheduleStep_of_entry h
  rw [called, answered] at step
  rw [(newRow_spec platform made).1]
  generalize e.before = before, e.after = after at step ⊢
  cases step with
  | created _ fresh => exact fresh
  | edited _ _ other => exact absurd rfl (other scheduleId)

/-- A created interval schedule is due one interval after its creation. -/
theorem first_of_creates {row : ScheduleRow} (created : e.Creates platform row)
    (interval : row.triggerKind = .interval) {delta : ℕ}
    (parsed : parseInterval platform row.triggerValue = .ok delta) :
    row.nextRunAt.instant = row.createdAt.instant + delta := by
  obtain ⟨input, scheduleId, now, -, made, -⟩ := created
  obtain ⟨-, at_, computed⟩ := newRow_spec platform made
  rw [interval] at computed
  obtain ⟨delta', parsed', next⟩ := nextRunAt_interval computed
  cases parsed.symm.trans parsed'
  rw [next, at_]

/-- What a claim hands out, and where it leaves the row. -/
theorem handed_of_entry (strict : platform.StrictlyAfter)
    (h : e ∈ (scheduleHistory platform ops).journal) :
    (e.handed.map (·.scheduleId)).Nodup ∧ ∀ r ∈ e.handed, r ∈ e.before ∧
      ∃ now limit, e.call.call = .claimDueSchedules now limit ∧ r.nextRunAt ≤ now ∧
        ∃ r' ∈ e.after, Onward platform r r' ∧ now < r'.nextRunAt ∧
          (r.triggerKind = .interval → ∃ delta,
            parseInterval platform r.triggerValue = .ok delta ∧
              r'.nextRunAt.instant ≤ now.instant + delta) := by
  have keys := (keys_of_entry h).1
  have step := scheduleStep_of_entry h
  obtain ⟨call, before, answer, after⟩ := e
  unfold ScheduleEntry.handed
  dsimp only at step keys ⊢
  generalize call.call = called at step ⊢
  cases step with
  | raised => exact ⟨List.nodup_nil, List.forall_mem_nil _⟩
  | created made fresh => exact ⟨List.nodup_nil, List.forall_mem_nil _⟩
  | @claimed now limit moved =>
      obtain ⟨unique, due⟩ := ScheduleTable.selectDue_rows keys now limit
      refine ⟨unique, ?_⟩
      intro r hr
      obtain ⟨stored, -, past⟩ := due r hr
      obtain ⟨onward, later, near⟩ := advanced_spec strict past (moved r hr)
      refine ⟨stored, now, limit, rfl, past, r.claim now (nextOf platform now r), ?_, onward, later,
        near⟩
      rw [← claimedRow_of_mem platform now unique hr]
      exact List.mem_map_of_mem stored
  | @edited _ reply _ _ other _ =>
      cases reply with
      | claimed rows => exact absurd rfl (other rows)
      | scheduleId | flag | none => exact ⟨List.nodup_nil, List.forall_mem_nil _⟩
  | removed => exact ⟨List.nodup_nil, List.forall_mem_nil _⟩

end

/-- **No occurrence is dispatched twice**, in any history, with any clocks. The next
times handed out for a schedule strictly increase; a claim leaves the rows it hands
out past its clock; and an interval schedule stays on the times its creation set,
at most one interval past the clock. -/
theorem occurrence_dispatched_once (platform : Platform) (strict : platform.StrictlyAfter)
    (ops : List ScheduleOp) :
    let journal := (scheduleHistory platform ops).journal
    (∀ early (e : ScheduleEntry) mid (e' : ScheduleEntry) late,
      journal = early ++ e :: (mid ++ e' :: late) →
      ∀ r ∈ e.handed, ∀ r' ∈ e'.handed, r'.scheduleId = r.scheduleId →
        (∀ c ∈ mid, ∀ row, ScheduleEntry.Creates platform c row → row.scheduleId ≠ r.scheduleId) →
          r.nextRunAt < r'.nextRunAt) ∧
    (∀ early (e : ScheduleEntry) late, journal = early ++ e :: late →
      (e.handed.map (·.scheduleId)).Nodup ∧ (e.after.map (·.scheduleId)).Nodup ∧
      ∀ r ∈ e.handed, ∃ now limit, e.call.call = .claimDueSchedules now limit ∧
        ∃ r' ∈ e.after, r'.scheduleId = r.scheduleId ∧ now < r'.nextRunAt ∧
          (r.triggerKind = .interval →
            ∃ delta, parseInterval platform r.triggerValue = .ok delta ∧
            r'.nextRunAt.instant ≤ now.instant + delta ∧
            ∃ before c between first m n, early = before ++ c :: between ∧
              ScheduleEntry.Creates platform c first ∧ first.scheduleId = r.scheduleId ∧
              (∀ c' ∈ between, ∀ row, ScheduleEntry.Creates platform c' row →
                row.scheduleId ≠ r.scheduleId) ∧
              first.nextRunAt.instant = first.createdAt.instant + delta ∧
              r.nextRunAt.instant = first.nextRunAt.instant + m * delta ∧
              r'.nextRunAt.instant = first.nextRunAt.instant + n * delta)) := by
  intro journal
  have chain := history_chain (ScheduleOp.apply platform) [] ops
  constructor
  · intro early e mid e' late split r hr r' hr' same uncreated
    have inJournal : ∀ c ∈ early ++ e :: (mid ++ e' :: late), c ∈ journal := by
      intro c hc
      rw [split]
      exact hc
    have he := inJournal e (by simp)
    have he' := inJournal e' (by simp)
    have keys := (keys_of_entry he).2
    change Chain [] journal _ at chain
    rw [split] at chain
    obtain ⟨_, -, rfl, rest⟩ := Chain.append_iff.mp chain
    obtain ⟨_, between, link, -⟩ := Chain.append_iff.mp rest
    obtain ⟨-, claims⟩ := handed_of_entry strict he
    obtain ⟨-, claims'⟩ := handed_of_entry strict he'
    obtain ⟨-, now, limit, -, due, left, hleft, onward, later, -⟩ := claims r hr
    obtain ⟨stored, -⟩ := claims' r' hr'
    -- The row handed out last comes from the one the first claim left.
    have carried : ∀ c ∈ mid, ∀ row, row ∈ c.after ∧ row.scheduleId = r.scheduleId →
        False ∨ ∃ a, (a ∈ c.before ∧ a.scheduleId = r.scheduleId) ∧ Onward platform a row := by
      rintro c hc row ⟨hrow, named⟩
      rcases carry_of_entry strict (inJournal c (by simp [hc])) hrow with created | ⟨a, ha, onto⟩
      · exact absurd named (uncreated c hc row created)
      · exact .inr ⟨a, ⟨ha, onto.scheduleId ▸ named⟩, onto⟩
    have traced := between.trace (Q := fun table row => row ∈ table ∧ row.scheduleId = r.scheduleId)
      (R := Onward platform) (fun _ => .of_same ⟨rfl, rfl, rfl, rfl⟩) (fun _ _ _ => Onward.trans)
      carried ⟨link ▸ stored, same⟩
    rcases traced with ⟨a, ⟨ha, named⟩, reached, -⟩ | ⟨_, _, _, _, -, absurdity, -⟩
    · have one : a = left := List.inj_on_of_nodup_map keys ha hleft
        (named.trans onward.scheduleId.symm)
      subst one
      exact lt_of_lt_of_le (lt_of_le_of_lt due later) reached.later
    · exact absurdity.elim
  · intro early e late split
    have inJournal : ∀ c ∈ early ++ e :: late, c ∈ journal := by
      intro c hc
      rw [split]
      exact hc
    have he := inJournal e (by simp)
    change Chain [] journal _ at chain
    rw [split] at chain
    obtain ⟨_, earlier, rfl, -⟩ := Chain.append_iff.mp chain
    obtain ⟨unique, claims⟩ := handed_of_entry strict he
    refine ⟨unique, (keys_of_entry he).2, ?_⟩
    intro r hr
    obtain ⟨stored, now, limit, called, -, r', hr', onward, later, near⟩ := claims r hr
    refine ⟨now, limit, called, r', hr', onward.scheduleId, later, ?_⟩
    intro interval
    obtain ⟨delta, parsed, bounded⟩ := near interval
    refine ⟨delta, parsed, bounded, ?_⟩
    -- The row goes back to the entry that created it.
    have carried : ∀ c ∈ early, ∀ row, row ∈ c.after →
        ScheduleEntry.Creates platform c row ∨ ∃ a, a ∈ c.before ∧ Onward platform a row :=
      fun c hc row hrow => carry_of_entry strict (inJournal c (by simp [hc])) hrow
    have traced := earlier.trace (Q := fun table row => row ∈ table) (R := Onward platform)
      (fun _ => .of_same ⟨rfl, rfl, rfl, rfl⟩) (fun _ _ _ => Onward.trans) carried stored
    rcases traced with ⟨a, ha, -⟩ | ⟨before, c, between, first, rfl, created, reached, kept⟩
    · cases ha
    · have firstInterval := reached.triggerKind.symm.trans interval
      have firstParsed := reached.triggerValue ▸ parsed
      obtain ⟨m, hm⟩ := reached.whole firstInterval delta firstParsed
      obtain ⟨n, hn⟩ := (reached.trans onward).whole firstInterval delta firstParsed
      refine ⟨before, c, between, first, m, n, rfl, created, reached.scheduleId.symm, ?_,
        first_of_creates created firstInterval firstParsed, hm, hn⟩
      intro c' hc' row createdAgain named
      obtain ⟨x, hx, onto⟩ := kept c' hc'
      apply fresh_of_creates (inJournal c' (by simp [hc'])) createdAgain
      rw [named, reached.scheduleId, ← onto.scheduleId]
      exact List.mem_map_of_mem hx

/-- The package and the tables, for a schedule of every minute. -/
def everyMinute : Platform where
  zoneInfo _ := .ok ()
  croniter _ := .ok ()
  getNext _ _ base := plus base (60000000 - base.instant % 60000000 : ℕ)
  decimalDigit c := if c.isDigit then some (c.toNat - 48) else none
  urlsplit _ := none

theorem everyMinute_strictlyAfter : everyMinute.StrictlyAfter := by
  intro _ _ base next h
  unfold everyMinute at h
  dsimp only at h
  have moved := plus_eq_ok_iff.mp h
  rw [UtcDateTime.lt_iff_instant]
  omega

/-- Midnight and some seconds into the year 2026. -/
def newYear (minute second : ℕ) (valid : minute < 60 ∧ second < 60 := by decide) : UtcDateTime where
  year := 2026
  month := 1
  day := 1
  hour := 0
  minute
  second
  microsecond := 0
  validDate := by decide
  validTime := ⟨by decide, valid.1, valid.2, by decide⟩

/-- Two claims of a schedule, the second after missed fires, and one whose clock is behind. -/
theorem occurrences_of_every_minute :
    let ops : List ScheduleOp :=
      [⟨.createSchedule
          { name := "digest", kind := "brief", triggerKind := "cron", triggerValue := "* * * * *" }
          "s-1" (newYear 0 30), none⟩,
        ⟨.claimDueSchedules (newYear 1 0) 10, none⟩,
        ⟨.claimDueSchedules (newYear 0 59) 10, none⟩,
        ⟨.claimDueSchedules (newYear 7 30) 10, none⟩]
    let journal := (scheduleHistory everyMinute ops).journal
    (journal.map fun e => ScheduleEntry.handed e |>.map fun r => r.nextRunAt.isoformat) =
        [[], ["2026-01-01T00:01:00+00:00"], [], ["2026-01-01T00:02:00+00:00"]] ∧
      ∀ early (e : ScheduleEntry) mid (e' : ScheduleEntry) late,
        journal = early ++ e :: (mid ++ e' :: late) →
        ∀ r ∈ e.handed, ∀ r' ∈ e'.handed, r'.scheduleId = r.scheduleId →
          (∀ c ∈ mid, ∀ row, ScheduleEntry.Creates everyMinute c row →
            row.scheduleId ≠ r.scheduleId) → r.nextRunAt < r'.nextRunAt := by
  intro ops journal
  exact ⟨by decide +kernel, (occurrence_dispatched_once everyMinute everyMinute_strictlyAfter ops).1⟩

end AgentOs
