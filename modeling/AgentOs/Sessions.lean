import AgentOs.Lib.Machine
import AgentOs.Lib.Slots
import Mathlib.Data.Int.Cast.Lemmas
import Mathlib.Data.List.Induction
import Mathlib.Data.List.Nodup
import Mathlib.Data.List.Perm.Basic

/-!
Turns of a session, counted by several processes (`sessions.py`).

`upsert_session` selects the row of its thread, computes a new one, writes it and commits.
No lock is held from the first statement to the second, so another call may commit between
them. `upsertAtOnce` is what a call would do in one step.

`session_turns_counted`: in a run in which every write finds what its call selected, the
table is what the committed calls make of it one after another, so every turn counts and
nothing set is taken back. `turn_lost` and `insert_raises` are two runs in which a write
finds something else.
-/

namespace AgentOs

open AgentOs.Lib Machine

/-! ### The table -/

structure SessionRow where
  threadId : String
  createdAt : String
  lastTurnAt : String
  turnCount : ℤ
  title : Option String
  workspaceId : Option String
  createdBy : Option String
deriving DecidableEq, Repr

/-- A call of `upsert_session`, and what its clock says. -/
structure UpsertCall where
  threadId : String
  now : String
  title : Option String := none
  workspaceId : Option String := none
  createdBy : Option String := none
deriving DecidableEq, Repr

namespace UpsertCall

/-- What `UPDATE` makes of a row, from the row that was selected. -/
def update (call : UpsertCall) (selected row : SessionRow) : SessionRow :=
  { row with
    lastTurnAt := call.now
    turnCount := selected.turnCount + 1
    title := call.title.or selected.title
    workspaceId := call.workspaceId.or selected.workspaceId
    createdBy := call.createdBy.or selected.createdBy }

/-- The row of `INSERT`. -/
def insert (call : UpsertCall) : SessionRow where
  threadId := call.threadId
  createdAt := call.now
  lastTurnAt := call.now
  turnCount := 1
  -- `title or "New Session"`
  title := some (if call.title.getD "" = "" then "New Session" else call.title.getD "")
  workspaceId := call.workspaceId
  createdBy := call.createdBy

end UpsertCall

/-- `SELECT … WHERE thread_id = ?`. -/
def selectSession (threadId : String) (rows : List SessionRow) : Option SessionRow :=
  rows.find? (·.threadId = threadId)

/-- `UPDATE … WHERE thread_id = ?`. -/
def updateSession (call : UpsertCall) (selected : SessionRow) (rows : List SessionRow) :
    List SessionRow :=
  rows.map fun row => if row.threadId = call.threadId then call.update selected row else row

/-! ### Processes -/

inductive UpsertStage where
  /-- before `_init_db`, which leaves the rows -/
  | starting
  | selecting
  | updating (selected : SessionRow)
  | inserting
  | committing
  | closed
  | raised (error : String)
deriving DecidableEq, Repr

structure UpsertProcess where
  call : UpsertCall
  stage : UpsertStage := .starting
deriving DecidableEq, Repr

/-- The database with the calls on it. -/
structure SessionsDb where
  rows : List SessionRow
  /-- the place of the call that has written and not committed, and the rows as it has them -/
  writing : Option (ℕ × List SessionRow) := none
  calls : List UpsertProcess := []
  /-- the calls that have committed, in turn -/
  committed : List UpsertCall := []
deriving DecidableEq, Repr

inductive SessionsStep where
  | call (call : UpsertCall)
  /-- the call at place `i` takes its next statement -/
  | advance (i : ℕ)
deriving DecidableEq, Repr

/-- The next statement of a call. A write waits while another is not committed. -/
def SessionsDb.advance (db : SessionsDb) (i : ℕ) (process : UpsertProcess) : Option SessionsDb :=
  let move (stage : UpsertStage) := db.calls.set i { process with stage }
  match process.stage with
  | .starting => some { db with calls := move .selecting }
  | .selecting =>
      match selectSession process.call.threadId db.rows with
      | some row => some { db with calls := move (.updating row) }
      | none => some { db with calls := move .inserting }
  | .updating selected =>
      if db.writing.isSome then none
      else some { db with
        writing := some (i, updateSession process.call selected db.rows)
        calls := move .committing }
  | .inserting =>
      if db.writing.isSome then none
      else if (selectSession process.call.threadId db.rows).isSome then
        some { db with calls := move (.raised "UNIQUE constraint failed: sessions.thread_id") }
      else some { db with
        writing := some (i, db.rows ++ [process.call.insert])
        calls := move .committing }
  | .committing =>
      match db.writing with
      | some (place, written) =>
          if place = i then
            some { rows := written, writing := none, calls := move .closed,
                   committed := db.committed ++ [process.call] }
          else none
      | none => none
  | .closed | .raised _ => none

def sessionsMachine : Machine SessionsDb SessionsStep where
  step db
    | .call call => some { db with calls := db.calls ++ [{ call }] }
    | .advance i => db.calls[i]?.bind fun process => db.advance i process

/-- A write finds the row that its call selected, or none where it selected none. -/
def UpsertProcess.FindsSelected (rows : List SessionRow) (process : UpsertProcess) : Prop :=
  match process.stage with
  | .updating selected => selectSession process.call.threadId rows = some selected
  | .inserting => selectSession process.call.threadId rows = none
  | _ => True

def FindsSelected (db : SessionsDb) : SessionsStep → Prop
  | .call _ => True
  | .advance i => ∀ process ∈ db.calls[i]?, process.FindsSelected db.rows

instance (rows : List SessionRow) : DecidablePred (UpsertProcess.FindsSelected rows)
  | ⟨_, .updating _⟩ => inferInstanceAs (Decidable (_ = some _))
  | ⟨_, .inserting⟩ => inferInstanceAs (Decidable (_ = none))
  | ⟨_, .starting⟩ | ⟨_, .selecting⟩ | ⟨_, .committing⟩ | ⟨_, .closed⟩ | ⟨_, .raised _⟩ =>
    isTrue trivial

instance (db : SessionsDb) : (label : SessionsStep) → Decidable (FindsSelected db label)
  | .call _ => isTrue trivial
  | .advance i => inferInstanceAs (Decidable (∀ process ∈ db.calls[i]?, _))

/-! ### A call in one step -/

/-- What a call makes of the row of its thread. -/
def UpsertCall.applied (call : UpsertCall) : Option SessionRow → SessionRow
  | some row => call.update row row
  | none => call.insert

/-- A call without another between its statements. -/
def upsertAtOnce (rows : List SessionRow) (call : UpsertCall) : List SessionRow :=
  match selectSession call.threadId rows with
  | some row => updateSession call row rows
  | none => rows ++ [call.insert]

@[simp] theorem UpsertCall.update_threadId (call : UpsertCall) (selected row : SessionRow) :
    (call.update selected row).threadId = row.threadId := rfl

theorem threadIds_update (call : UpsertCall) (selected : SessionRow) (rows : List SessionRow) :
    (updateSession call selected rows).map (·.threadId) = rows.map (·.threadId) := by
  rw [updateSession, List.map_map]
  refine List.map_congr_left fun row _ => ?_
  rw [Function.comp_apply]
  split <;> rfl

/-- An update changes the row of its thread. -/
theorem select_update (call : UpsertCall) (selected : SessionRow) (rows : List SessionRow)
    (threadId : String) : selectSession threadId (updateSession call selected rows) =
      if call.threadId = threadId then (selectSession threadId rows).map (call.update selected)
      else selectSession threadId rows := by
  induction rows with
  | nil => simp [selectSession, updateSession]
  | cons row rows ih =>
      unfold selectSession updateSession at ih ⊢
      rw [List.map_cons, List.find?_cons, List.find?_cons]
      by_cases here : row.threadId = threadId
      · by_cases mine : call.threadId = threadId
        · simp [here, mine]
        · have other : ¬threadId = call.threadId := fun same => mine same.symm
          simp [here, mine, other]
      · by_cases mine : row.threadId = call.threadId
        · simp only [mine, if_true, UpsertCall.update_threadId]
          rw [← mine]
          simp only [here, decide_false]
          simpa [← mine, here] using ih
        · simp only [mine, if_false, here, decide_false]
          exact ih

/-- A call in one step does to the row of its thread what it does to a row. -/
theorem select_upsertAtOnce (rows : List SessionRow) (call : UpsertCall) (threadId : String) :
    selectSession threadId (upsertAtOnce rows call) =
      if call.threadId = threadId then some (call.applied (selectSession threadId rows))
      else selectSession threadId rows := by
  unfold upsertAtOnce
  cases found : selectSession call.threadId rows with
  | some row =>
      dsimp only
      rw [select_update]
      split
      · rename_i same
        rw [← same, found]
        rfl
      · rfl
  | none =>
      dsimp only
      rw [selectSession, List.find?_append]
      split
      · rename_i same
        subst same
        have absent : rows.find? (·.threadId = call.threadId) = none := found
        have added : [call.insert].find? (·.threadId = call.threadId) = some call.insert := by
          simp [UpsertCall.insert]
        rw [absent, added, Option.none_or, selectSession, absent]
        rfl
      · rename_i other
        have nothing : [call.insert].find? (·.threadId = threadId) = none := by
          simp [UpsertCall.insert, other]
        rw [nothing, Option.or_none]
        rfl

/-- A call in one step keeps the rows unique. -/
theorem nodup_upsertAtOnce {rows : List SessionRow} (call : UpsertCall)
    (unique : (rows.map (·.threadId)).Nodup) :
    ((upsertAtOnce rows call).map (·.threadId)).Nodup := by
  unfold upsertAtOnce
  cases found : selectSession call.threadId rows with
  | some row =>
      dsimp only
      rwa [threadIds_update]
  | none =>
      dsimp only
      rw [List.map_append]
      refine List.Nodup.append unique (List.nodup_singleton _) ?_
      intro threadId mem same
      obtain ⟨row, there, rfl⟩ := List.mem_map.mp mem
      have other := List.find?_eq_none.mp found row there
      rw [List.map_singleton, List.mem_singleton] at same
      exact other (decide_eq_true same)

/-- The row of a thread, after calls one after another. -/
theorem select_serial (start : List SessionRow) (calls : List UpsertCall) (threadId : String) :
    selectSession threadId (calls.foldl upsertAtOnce start) =
      (calls.filter (·.threadId = threadId)).foldl (fun row call => some (call.applied row))
        (selectSession threadId start) := by
  induction calls using List.reverseRecOn with
  | nil => rfl
  | append_singleton calls call ih =>
      rw [List.foldl_append, List.foldl_cons, List.foldl_nil, select_upsertAtOnce, ih,
        List.filter_append]
      by_cases here : call.threadId = threadId
      · rw [if_pos here, List.filter_cons_of_pos (by simpa using here), List.filter_nil,
          List.foldl_append]
        rfl
      · rw [if_neg here, List.filter_cons_of_neg (by simpa using here), List.filter_nil,
          List.append_nil]

theorem nodup_serial {start : List SessionRow} (unique : (start.map (·.threadId)).Nodup)
    (calls : List UpsertCall) : ((calls.foldl upsertAtOnce start).map (·.threadId)).Nodup := by
  induction calls using List.reverseRecOn with
  | nil => exact unique
  | append_singleton calls call ih =>
      rw [List.foldl_append]
      exact nodup_upsertAtOnce call ih

/-! ### What a run keeps -/

/-- The call of a process that is through. -/
def UpsertProcess.closedCall (process : UpsertProcess) : Option UpsertCall :=
  if process.stage = .closed then some process.call else none

/-- The table is what the committed calls make of it one after another. -/
structure SessionsInv (start : List SessionRow) (db : SessionsDb) : Prop where
  serial : db.rows = db.committed.foldl upsertAtOnce start
  /-- what is written and not committed is what its call makes of the table -/
  writing : ∀ place written, db.writing = some (place, written) → ∃ process,
    db.calls[place]? = some process ∧ process.stage = .committing ∧
      written = upsertAtOnce db.rows process.call
  quiet : ∀ process ∈ db.calls, ∀ error, process.stage ≠ .raised error
  counted : db.committed.Perm (db.calls.filterMap UpsertProcess.closedCall)

namespace SessionsInv

variable {start : List SessionRow} {db db' : SessionsDb} {i : ℕ} {process : UpsertProcess}
  {stage : UpsertStage}

theorem initial (start : List SessionRow) : SessionsInv start { rows := start } where
  serial := rfl
  writing := by intro _ _ none; cases none
  quiet := by intro _ mem; cases mem
  counted := .nil

/-- A call starts. -/
theorem call (inv : SessionsInv start db) (call : UpsertCall) :
    SessionsInv start { db with calls := db.calls ++ [{ call }] } where
  serial := inv.serial
  writing := by
    intro place written holds
    obtain ⟨process, here, rest⟩ := inv.writing place written holds
    exact ⟨process, getElem?_concat_of_getElem? here, rest⟩
  quiet := by
    intro process mem error
    rcases List.mem_append.mp mem with old | new
    · exact inv.quiet process old error
    · rw [List.mem_singleton.mp new]
      exact UpsertStage.noConfusion
  counted := by
    rw [List.filterMap_append]
    simpa [UpsertProcess.closedCall] using inv.counted

/-- Moving a call neither raises nor closes it. -/
theorem quiet_set (inv : SessionsInv start db) (calm : ∀ error, stage ≠ .raised error) :
    ∀ other ∈ db.calls.set i { process with stage }, ∀ error, other.stage ≠ .raised error := by
  intro other mem error
  rcases List.mem_or_eq_of_mem_set mem with old | rfl
  · exact inv.quiet other old error
  · exact calm error

/-- A call moves on, and the table stays. -/
theorem move (inv : SessionsInv start db) (here : db.calls[i]? = some process)
    (before : process.stage ≠ .committing) (opened : process.stage ≠ .closed)
    (calm : ∀ error, stage ≠ .raised error) (open_ : stage ≠ .closed) :
    SessionsInv start { db with calls := db.calls.set i { process with stage } } where
  serial := inv.serial
  writing := by
    intro place written holds
    obtain ⟨writer, there, committing, same⟩ := inv.writing place written holds
    refine ⟨writer, ?_, committing, same⟩
    have other : i ≠ place := by
      rintro rfl
      rw [here] at there
      exact before (Option.some.inj there ▸ committing)
    rw [List.getElem?_set_ne other]
    exact there
  quiet := inv.quiet_set calm
  counted := by
    have same : UpsertProcess.closedCall { process with stage } = process.closedCall := by
      simp [UpsertProcess.closedCall, opened, open_]
    show db.committed.Perm ((db.calls.set i { process with stage }).filterMap _)
    rw [filterMap_set_of_eq here same]
    exact inv.counted

/-- A call writes what it makes of the table. -/
theorem write (inv : SessionsInv start db) (here : db.calls[i]? = some process)
    (before : process.stage ≠ .committing) (opened : process.stage ≠ .closed) :
    SessionsInv start { db with
      writing := some (i, upsertAtOnce db.rows process.call)
      calls := db.calls.set i { process with stage := .committing } } where
  serial := inv.serial
  writing := by
    intro place written holds
    cases holds
    exact ⟨_, getElem?_set_self_of_getElem? here, rfl, rfl⟩
  quiet := inv.quiet_set fun _ => UpsertStage.noConfusion
  counted := (inv.move here before opened (fun _ => UpsertStage.noConfusion)
    UpsertStage.noConfusion).counted

/-- A call commits. -/
theorem commit (inv : SessionsInv start db) (here : db.calls[i]? = some process)
    (committing : process.stage = .committing) {written : List SessionRow}
    (holds : db.writing = some (i, written)) :
    SessionsInv start
      { rows := written, writing := none
        calls := db.calls.set i { process with stage := .closed }
        committed := db.committed ++ [process.call] } where
  serial := by
    obtain ⟨writer, there, -, rfl⟩ := inv.writing i written holds
    rw [here] at there
    rw [List.foldl_append, ← inv.serial, Option.some.inj there]
    rfl
  writing := by intro _ _ none; cases none
  quiet := inv.quiet_set fun _ => UpsertStage.noConfusion
  counted := by
    have closed : UpsertProcess.closedCall { process with stage := .closed } = some process.call :=
      if_pos rfl
    have open_ : process.closedCall = none := by simp [UpsertProcess.closedCall, committing]
    exact (inv.counted.append_right _).trans (filterMap_set_perm here open_ closed).symm

/-- **What a step keeps.** -/
theorem step {label : SessionsStep} (inv : SessionsInv start db) (finds : FindsSelected db label)
    (h : sessionsMachine.step db label = some db') : SessionsInv start db' := by
  cases label with
  | call call =>
      cases h
      exact inv.call call
  | advance i =>
      obtain ⟨process, here, h⟩ := Option.bind_eq_some_iff.mp h
      have found : process.FindsSelected db.rows := finds process here
      unfold UpsertProcess.FindsSelected at found
      unfold SessionsDb.advance at h
      cases stage : process.stage with
      | starting =>
          simp only [stage] at h
          cases h
          exact inv.move here (by simp [stage]) (by simp [stage])
            (fun _ => UpsertStage.noConfusion) UpsertStage.noConfusion
      | selecting =>
          simp only [stage] at h
          split at h
          · cases h
            exact inv.move here (by simp [stage]) (by simp [stage])
              (fun _ => UpsertStage.noConfusion) UpsertStage.noConfusion
          · cases h
            exact inv.move here (by simp [stage]) (by simp [stage])
              (fun _ => UpsertStage.noConfusion) UpsertStage.noConfusion
      | updating selected =>
          simp only [stage] at h found
          split at h
          · cases h
          · cases h
            have made : updateSession process.call selected db.rows =
                upsertAtOnce db.rows process.call := by
              simp only [upsertAtOnce, found]
            rw [made]
            exact inv.write here (by simp [stage]) (by simp [stage])
      | inserting =>
          simp only [stage] at h found
          split at h
          · cases h
          · rw [found] at h
            cases h
            have made : db.rows ++ [process.call.insert] = upsertAtOnce db.rows process.call := by
              simp only [upsertAtOnce, found]
            rw [made]
            exact inv.write here (by simp [stage]) (by simp [stage])
      | committing =>
          simp only [stage] at h
          split at h
          · rename_i place written holds
            split at h
            · rename_i same
              cases h
              exact inv.commit here stage (same ▸ holds)
            · cases h
          · cases h
      | closed =>
          simp only [stage] at h
          cases h
      | raised error =>
          simp only [stage] at h
          cases h

end SessionsInv

/-! ### Turns of a thread -/

/-- The calls for a thread that are through. -/
def closedCalls (threadId : String) (db : SessionsDb) : List UpsertCall :=
  (db.calls.filterMap UpsertProcess.closedCall).filter (·.threadId = threadId)

/-- The count of a thread, 0 before its first turn. -/
def turnCount (threadId : String) (rows : List SessionRow) : ℤ :=
  ((selectSession threadId rows).map (·.turnCount)).getD 0

/-- What the table says of a thread, when each of its calls counts. -/
structure TurnsCounted (start : List SessionRow) (threadId : String) (db : SessionsDb) : Prop where
  quiet : ∀ process ∈ db.calls, process.call.threadId = threadId →
    ∀ error, process.stage ≠ .raised error
  counted : turnCount threadId db.rows = turnCount threadId start + (closedCalls threadId db).length
  unique : (db.rows.filter (·.threadId = threadId)).length ≤ 1
  /-- the calls that are through have an order, in which the last one to set a field has set it -/
  kept : ∃ turns, turns.Perm (closedCalls threadId db) ∧
    ∀ before call after, turns = before ++ call :: after →
      ∃ row, selectSession threadId db.rows = some row ∧
        (∀ title, call.title = some title → (∀ later ∈ after, later.title = none) →
          row.title = some title ∨ title = "" ∧ row.title = some "New Session") ∧
        (∀ workspaceId, call.workspaceId = some workspaceId →
          (∀ later ∈ after, later.workspaceId = none) → row.workspaceId = some workspaceId) ∧
        (∀ createdBy, call.createdBy = some createdBy →
          (∀ later ∈ after, later.createdBy = none) → row.createdBy = some createdBy)

/-- The row of a thread after its turns. -/
def takeTurns (row : Option SessionRow) (turns : List UpsertCall) : Option SessionRow :=
  turns.foldl (fun row call => some (call.applied row)) row

theorem takeTurns_turnCount (turns : List UpsertCall) (row : Option SessionRow) :
    ((takeTurns row turns).map (·.turnCount)).getD 0 =
      (row.map (·.turnCount)).getD 0 + turns.length := by
  induction turns generalizing row with
  | nil => simp [takeTurns]
  | cons call turns ih =>
      have one : (call.applied row).turnCount = (row.map (·.turnCount)).getD 0 + 1 := by
        cases row <;> rfl
      have rest := ih (some (call.applied row))
      rw [Option.map_some, Option.getD_some, one] at rest
      rw [List.length_cons, Nat.cast_add, Nat.cast_one, add_comm (turns.length : ℤ), ← add_assoc]
      exact rest

theorem takeTurns_some (turns : List UpsertCall) (row : SessionRow) :
    ∃ last, takeTurns (some row) turns = some last := by
  induction turns generalizing row with
  | nil => exact ⟨row, rfl⟩
  | cons call turns ih => exact ih _

/-- A field that no later turn sets stays. -/
theorem takeTurns_unset (given : UpsertCall → Option String) (field : SessionRow → Option String)
    (updates : ∀ call row, field (UpsertCall.update call row row) = (given call).or (field row))
    {turns : List UpsertCall} (unset : ∀ later ∈ turns, given later = none) {row last : SessionRow}
    (ends : takeTurns (some row) turns = some last) : field last = field row := by
  induction turns generalizing row with
  | nil => rw [Option.some.inj ends]
  | cons later turns ih =>
      have stays : field (later.update row row) = field row := by
        rw [updates, unset later List.mem_cons_self, Option.none_or]
      exact (ih (fun other mem => unset other (List.mem_cons_of_mem _ mem)) ends).trans stays

theorem UpsertCall.applied_title {call : UpsertCall} {title : String}
    (set : call.title = some title) (row : Option SessionRow) :
    (call.applied row).title = some title ∨
      title = "" ∧ (call.applied row).title = some "New Session" := by
  cases row with
  | some row => exact .inl (by simp [applied, update, set])
  | none =>
      by_cases empty : title = ""
      · exact .inr ⟨empty, by simp [applied, insert, set, empty]⟩
      · exact .inl (by simp [applied, insert, set, empty])

theorem UpsertCall.applied_workspaceId {call : UpsertCall} {workspaceId : String}
    (set : call.workspaceId = some workspaceId) (row : Option SessionRow) :
    (call.applied row).workspaceId = some workspaceId := by
  cases row <;> simp [applied, update, insert, set]

theorem UpsertCall.applied_createdBy {call : UpsertCall} {createdBy : String}
    (set : call.createdBy = some createdBy) (row : Option SessionRow) :
    (call.applied row).createdBy = some createdBy := by
  cases row <;> simp [applied, update, insert, set]

/-- A table whose threads differ has a row of each at most. -/
theorem length_filter_threadId_le_one {rows : List SessionRow}
    (unique : (rows.map (·.threadId)).Nodup) (threadId : String) :
    (rows.filter (·.threadId = threadId)).length ≤ 1 := by
  have counted := List.nodup_iff_count_le_one.mp unique threadId
  rwa [List.count, List.countP_map, List.countP_eq_length_filter] at counted

/-- **Turns are counted.** In a run in which every write finds what its call selected, no call
raises, each call that is through counts, and the last value set of a field stays. -/
theorem session_turns_counted {start : List SessionRow} {steps : List SessionsStep}
    {db : SessionsDb} (unique : (start.map (·.threadId)).Nodup)
    (run : Path sessionsMachine FindsSelected { rows := start } steps db) (threadId : String) :
    TurnsCounted start threadId db := by
  have inv : SessionsInv start db :=
    run.invariant (fun _ _ _ finds inv step => inv.step finds step) (.initial start)
  have row : selectSession threadId db.rows = takeTurns (selectSession threadId start)
      (db.committed.filter (·.threadId = threadId)) := by
    rw [inv.serial, select_serial]
    rfl
  have turns : (db.committed.filter (·.threadId = threadId)).Perm (closedCalls threadId db) :=
    inv.counted.filter _
  have distinct : (db.rows.map (·.threadId)).Nodup := by
    rw [inv.serial]
    exact nodup_serial unique _
  refine ⟨fun process mem _ => inv.quiet process mem, ?_,
    length_filter_threadId_le_one distinct threadId, _, turns, ?_⟩
  · rw [turnCount, row, takeTurns_turnCount, turns.length_eq]
    rfl
  · intro before call after split
    have reached : takeTurns (selectSession threadId start) (before ++ call :: after) =
        takeTurns (some (call.applied (takeTurns (selectSession threadId start) before)))
          after := by
      rw [takeTurns, List.foldl_append]
      rfl
    obtain ⟨last, ends⟩ := takeTurns_some after
      (call.applied (takeTurns (selectSession threadId start) before))
    rw [split, reached] at row
    refine ⟨last, row.trans ends, ?_, ?_, ?_⟩
    · intro title set unset
      rw [takeTurns_unset UpsertCall.title SessionRow.title (fun _ _ => rfl) unset ends]
      exact UpsertCall.applied_title set _
    · intro workspaceId set unset
      rw [takeTurns_unset UpsertCall.workspaceId SessionRow.workspaceId (fun _ _ => rfl) unset ends]
      exact UpsertCall.applied_workspaceId set _
    · intro createdBy set unset
      rw [takeTurns_unset UpsertCall.createdBy SessionRow.createdBy (fun _ _ => rfl) unset ends]
      exact UpsertCall.applied_createdBy set _

section Runs

def firstTurn : UpsertCall where
  threadId := "t"
  now := "1"
  title := some ""
  createdBy := some "a"

def secondTurn : UpsertCall where
  threadId := "t"
  now := "2"
  title := some "Plan"

/-- One call after the other. -/
def oneByOne : List SessionsStep :=
  [.call firstTurn, .advance 0, .advance 0, .advance 0, .advance 0,
    .call secondTurn, .advance 1, .advance 1, .advance 1, .advance 1]

/-- Both select, and then each writes and commits. -/
def bothSelect : List SessionsStep :=
  [.call firstTurn, .call secondTurn, .advance 0, .advance 1, .advance 0, .advance 1,
    .advance 0, .advance 0, .advance 1, .advance 1]

/-- One after the other, two turns make two. -/
theorem session_turns_counted_oneByOne : ∃ db,
    Path sessionsMachine FindsSelected { rows := [] } oneByOne db ∧
      (closedCalls "t" db).length = 2 ∧ TurnsCounted [] "t" db := by
  have ends : ((sessionsMachine.restrict FindsSelected).run { rows := [] } oneByOne).map
      (fun db => (closedCalls "t" db).length) = some 2 := by decide
  obtain ⟨db, found, both⟩ := Option.map_eq_some_iff.mp ends
  have run := run_restrict_iff.mp found
  have unique : (([] : List SessionRow).map (·.threadId)).Nodup := List.nodup_nil
  exact ⟨db, run, both, session_turns_counted unique run "t"⟩

/-- The row a thread has after three turns. -/
def thirdTurn : SessionRow where
  threadId := "t"
  createdAt := "0"
  lastTurnAt := "0"
  turnCount := 3
  title := some "New Session"
  workspaceId := none
  createdBy := none

/-- Both select the row with three turns: both calls are through, and one counts. -/
theorem turn_lost : ∃ db, Path sessionsMachine Free { rows := [thirdTurn] } bothSelect db ∧
    (closedCalls "t" db).length = 2 ∧ turnCount "t" db.rows = 4 ∧
      ¬TurnsCounted [thirdTurn] "t" db := by
  have ends : (sessionsMachine.run { rows := [thirdTurn] } bothSelect).map
      (fun db => ((closedCalls "t" db).length, turnCount "t" db.rows)) = some (2, 4) := by decide
  obtain ⟨db, found, both⟩ := Option.map_eq_some_iff.mp ends
  obtain ⟨closed, turns⟩ := Prod.mk.inj both
  refine ⟨db, run_eq_some_iff.mp found, closed, turns, fun exactly => ?_⟩
  have counted := exactly.counted
  rw [closed, turns] at counted
  exact absurd counted (by decide)

/-- Both select no row: the second call raises. -/
theorem insert_raises : ∃ db, Path sessionsMachine Free { rows := [] } (bothSelect.take 9) db ∧
    db.calls.map (·.stage) =
      [.closed, .raised "UNIQUE constraint failed: sessions.thread_id"] := by
  have ends : (sessionsMachine.run { rows := [] } (bothSelect.take 9)).map
      (fun db => db.calls.map (·.stage)) =
        some [.closed, .raised "UNIQUE constraint failed: sessions.thread_id"] := by decide
  obtain ⟨db, found, stages⟩ := Option.map_eq_some_iff.mp ends
  exact ⟨db, run_eq_some_iff.mp found, stages⟩

end Runs

end AgentOs
