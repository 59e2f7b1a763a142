import AgentOs.Lib.History
import AgentOs.Lib.Transaction
import AgentOs.Observations.Store

/-!
Balanced exploration (`observations.py`).

`assign_balanced_exploration` counts the assignments of a workspace and a task kind in the
transaction it inserts in, and picks among the strategies that were assigned least. Calls of any
number of processes are serialised by `BEGIN IMMEDIATE`, so a run of the store is a `history` of
calls; the connection may fail at any statement of any of them.

`exploration_balanced`: the counts never differ by more than one, a run keeps the strategy that it
was first assigned, and asking again changes nothing.
-/

namespace AgentOs

open AgentOs.Lib

/-! ### Counts that differ by one at most -/

section

variable {α : Type} {S : List α} {count count' : α → ℕ} {chosen : α}

/-- No count exceeds another by more than one. -/
def BalancedOn (S : List α) (count : α → ℕ) : Prop :=
  ∀ a ∈ S, ∀ b ∈ S, count a ≤ count b + 1

theorem balancedOn_const (n : ℕ) : BalancedOn S fun _ => n :=
  fun _ _ _ _ => Nat.le_succ n

/-- Adding one to a least count keeps the balance. -/
theorem BalancedOn.add_least (balanced : BalancedOn S count) (least : ∀ b ∈ S, count chosen ≤ count b)
    (added : count' chosen = count chosen + 1) (others : ∀ b, b ≠ chosen → count' b = count b) :
    BalancedOn S count' := by
  intro a memA b memB
  have grows : count b ≤ count' b := by
    by_cases same : b = chosen
    · rw [same, added]
      exact Nat.le_succ _
    · rw [others b same]
  by_cases same : a = chosen
  · subst same
    rw [added]
    exact Nat.succ_le_succ ((least b memB).trans grows)
  · rw [others a same]
    exact (balanced a memA b memB).trans (Nat.succ_le_succ grows)

end

/-! ### Calls -/

/-- What `assign_balanced_exploration` is given, with the time at which it inserts. -/
structure ExplorationCall where
  workspaceId : String
  taskKind : String
  runId : String
  strategyIds : List String
  strategyVersions : List (String × ℤ)
  selectorVersion : String := "v1.0"
  now : String

namespace ExplorationCall

variable (call : ExplorationCall) (digest : String → ℕ)

/-- Some strategy has no positive version. -/
def lacksVersion : Bool :=
  call.strategyIds.any fun strategyId =>
    match call.strategyVersions.lookup strategyId with
    | none => true
    | some version => version < 1

/-- The strategy that is picked. -/
def selected (rows : List StrategyAssignment) : String :=
  let tied := leastAssigned call.workspaceId call.taskKind call.strategyIds rows
  let place := digest (call.workspaceId ++ "\x00" ++ call.taskKind ++ "\x00" ++ call.runId)
  tied[place % tied.length]?.getD ""

/-- The row that is inserted. -/
def row (rows : List StrategyAssignment) : StrategyAssignment where
  runId := call.runId
  workspaceId := call.workspaceId
  taskKind := call.taskKind
  strategyId := call.selected digest rows
  strategyVersion := .ok ((call.strategyVersions.lookup (call.selected digest rows)).getD 0)
  selectionReason := "exploration"
  selectorVersion := call.selectorVersion
  evidenceSummary := .ok none
  selectedAt := call.now

end ExplorationCall

/-- The calls that write assignments. -/
inductive AssignmentCall where
  | assignStrategy (row : StrategyAssignment)
  | assignBalancedExploration (call : ExplorationCall)

def AssignmentCall.runId : AssignmentCall → String
  | assignStrategy row => row.runId
  | assignBalancedExploration call => call.runId

/-- The row a call inserts where its run has none. -/
def AssignmentCall.row (digest : String → ℕ) (rows : List StrategyAssignment) :
    AssignmentCall → StrategyAssignment
  | assignStrategy row => row
  | assignBalancedExploration call => call.row digest rows

/-- A version that SQLite can hold. -/
def fitsInteger (version : ℤ) : Prop :=
  -9223372036854775808 ≤ version ∧ version ≤ 9223372036854775807

instance (version : ℤ) : Decidable (fitsInteger version) := inferInstanceAs (Decidable (_ ∧ _))

/-- `INSERT`; the run id is the primary key. -/
def insertAssignment (row : StrategyAssignment) (rows : List StrategyAssignment) :
    Except String (ℕ × List StrategyAssignment) :=
  if (assignmentOf row.runId rows).isSome then
    .error "UNIQUE constraint failed: strategy_assignments.run_id"
  else if row.strategyVersion.toOption.all (fitsInteger ·) then .ok (1, rows ++ [row])
  else .error "Python int too large to convert to SQLite INTEGER"

abbrev AssignmentTransaction := Transaction (List StrategyAssignment) String String

/-- The transaction of a call. -/
def AssignmentCall.transaction (digest : String → ℕ) : AssignmentCall → AssignmentTransaction
  | assignStrategy row =>
      .select fun rows =>
        match assignmentOf row.runId rows with
        | some existing => .commit existing.strategyId
        | none => .execute (insertAssignment row) fun _ => .commit row.strategyId
  | assignBalancedExploration call =>
      if call.strategyIds = [] then .abort "strategy_ids must not be empty"
      else if call.lacksVersion then
        .abort "strategy_versions must provide a positive integer for every strategy"
      else
        .select fun rows =>
          match assignmentOf call.runId rows with
          | some existing => .commit existing.strategyId
          | none =>
              .select fun rows =>
                .execute (insertAssignment (call.row digest rows)) fun _ =>
                  .commit (call.selected digest rows)

/-- A call, and the statement at which its connection fails. -/
structure AssignmentOp where
  call : AssignmentCall
  fault : Option (ℕ × String) := none

/-- What an operation answers, and the rows it leaves. -/
def performAssignment (digest : String → ℕ) (rows : List StrategyAssignment) (op : AssignmentOp) :
    Except String String × List StrategyAssignment :=
  (op.call.transaction digest).perform rows op.fault

/-- Nothing is wrong with the arguments. -/
def AssignmentCall.IsValid : AssignmentCall → Prop
  | assignStrategy row => row.strategyVersion.toOption.all (fitsInteger ·) = true
  | assignBalancedExploration call =>
      call.strategyIds ≠ [] ∧ ∀ strategyId ∈ call.strategyIds, ∃ version,
        call.strategyVersions.lookup strategyId = some version ∧ 1 ≤ version ∧ fitsInteger version

/-- The call assigns in one workspace and task kind by exploring one set of strategies. -/
def AssignmentCall.Explores (workspaceId taskKind : String) (strategyIds : List String) :
    AssignmentCall → Prop
  | assignStrategy row => row.workspaceId ≠ workspaceId ∨ row.taskKind ≠ taskKind
  | assignBalancedExploration call =>
      call.workspaceId = workspaceId → call.taskKind = taskKind →
        ∀ strategyId, strategyId ∈ call.strategyIds ↔ strategyId ∈ strategyIds

/-! ### What a call does -/

section

variable {digest : String → ℕ} {rows : List StrategyAssignment} {op : AssignmentOp}

theorem insertAssignment_ok {row : StrategyAssignment} {n : ℕ} {written : List StrategyAssignment}
    (inserted : insertAssignment row rows = .ok (n, written)) : written = rows ++ [row] := by
  unfold insertAssignment at inserted
  split_ifs at inserted
  cases inserted
  rfl

/-- A call without a fault raises, or answers with the row its run has, or inserts one. -/
theorem performAssignment_faultless (call : AssignmentCall) :
    (∃ e, performAssignment digest rows ⟨call, none⟩ = (.error e, rows)) ∨
      (∃ existing, assignmentOf call.runId rows = some existing ∧
        performAssignment digest rows ⟨call, none⟩ = (.ok existing.strategyId, rows)) ∨
      assignmentOf call.runId rows = none ∧
        (∀ c, call = .assignBalancedExploration c → c.strategyIds ≠ []) ∧
        performAssignment digest rows ⟨call, none⟩ =
          (.ok (call.row digest rows).strategyId, rows ++ [call.row digest rows]) := by
  have inserts : ∀ row : StrategyAssignment,
      (∃ e, (Transaction.execute (insertAssignment row) fun _ =>
        .commit row.strategyId : AssignmentTransaction).attempt rows rows none = (.error e, rows)) ∨
      (Transaction.execute (insertAssignment row) fun _ =>
        .commit row.strategyId : AssignmentTransaction).attempt rows rows none =
          (.ok row.strategyId, rows ++ [row]) := by
    intro row
    cases inserted : insertAssignment row rows with
    | error e => exact .inl ⟨e, by simp only [Transaction.attempt, inserted]⟩
    | ok written =>
        obtain ⟨n, written⟩ := written
        have same := insertAssignment_ok inserted
        subst same
        rw [Transaction.attempt_execute inserted]
        exact .inr rfl
  unfold performAssignment Transaction.perform
  cases call with
  | assignStrategy row =>
      rw [AssignmentCall.transaction, Transaction.attempt_select]
      dsimp only [AssignmentCall.runId]
      cases found : assignmentOf row.runId rows with
      | some existing => exact .inr (.inl ⟨existing, rfl, rfl⟩)
      | none =>
          rcases inserts row with raised | inserted
          · exact .inl raised
          · refine .inr (.inr ⟨rfl, ?_, inserted⟩)
            intro c same
            cases same
  | assignBalancedExploration call =>
      rw [AssignmentCall.transaction]
      dsimp only [AssignmentCall.runId]
      split_ifs with none lacks
      · exact .inl ⟨_, rfl⟩
      · exact .inl ⟨_, rfl⟩
      · rw [Transaction.attempt_select]
        cases found : assignmentOf call.runId rows with
        | some existing => exact .inr (.inl ⟨existing, rfl, rfl⟩)
        | none =>
            dsimp only
            rw [Transaction.attempt_select]
            rcases inserts (call.row digest rows) with raised | inserted
            · exact .inl raised
            · refine .inr (.inr ⟨rfl, ?_, inserted⟩)
              intro c same
              cases same
              exact none

/-- **What a call does**, whatever fails. -/
theorem performAssignment_cases :
    (∃ e, performAssignment digest rows op = (.error e, rows)) ∨
      (∃ existing, assignmentOf op.call.runId rows = some existing ∧
        performAssignment digest rows op = (.ok existing.strategyId, rows)) ∨
      assignmentOf op.call.runId rows = none ∧
        (∀ c, op.call = .assignBalancedExploration c → c.strategyIds ≠ []) ∧
        performAssignment digest rows op =
          (.ok (op.call.row digest rows).strategyId, rows ++ [op.call.row digest rows]) := by
  obtain ⟨call, fault⟩ := op
  cases fault with
  | none => exact performAssignment_faultless call
  | some fault =>
      obtain ⟨n, error⟩ := fault
      rcases (call.transaction digest).attempt_fault rows n error with same | lost
      · have same : performAssignment digest rows ⟨call, some (n, error)⟩ =
          performAssignment digest rows ⟨call, none⟩ := same
        rw [same]
        exact performAssignment_faultless call
      · exact .inl ⟨error, lost⟩

theorem row_runId (call : AssignmentCall) : (call.row digest rows).runId = call.runId := by
  cases call <;> rfl

/-- The strategy that is picked was assigned least. -/
theorem selected_least (call : ExplorationCall) (some_id : call.strategyIds ≠ []) :
    call.selected digest rows ∈ call.strategyIds ∧ ∀ b ∈ call.strategyIds,
      assignedCount call.workspaceId call.taskKind (call.selected digest rows) rows ≤
        assignedCount call.workspaceId call.taskKind b rows := by
  have nonempty := leastAssigned_ne_nil call.workspaceId call.taskKind rows some_id
  have place := Nat.mod_lt (digest (call.workspaceId ++ "\x00" ++ call.taskKind ++ "\x00" ++
    call.runId)) (List.length_pos_iff.mpr nonempty)
  have picked : call.selected digest rows ∈
      leastAssigned call.workspaceId call.taskKind call.strategyIds rows := by
    unfold ExplorationCall.selected
    dsimp only
    rw [List.getElem?_eq_getElem place, Option.getD_some]
    exact List.getElem_mem place
  unfold leastAssigned at picked
  obtain ⟨mem, least⟩ := List.mem_filter.mp ((List.mem_insertionSort _).mp picked)
  refine ⟨mem, fun b memB => ?_⟩
  have minimal := of_decide_eq_true least
  dsimp only at minimal
  rw [minimal]
  obtain ⟨minimum, found⟩ := Option.isSome_iff_exists.mp (List.isSome_min?_of_mem
    (List.mem_map_of_mem (f := fun id => assignedCount call.workspaceId call.taskKind id rows) memB))
  rw [found, Option.getD_some]
  exact (List.min?_eq_some_iff.mp found).2 _ (List.mem_map_of_mem memB)

/-- A valid call is answered. -/
theorem performAssignment_answers {call : AssignmentCall} (valid : call.IsValid) :
    ∃ answer, (performAssignment digest rows ⟨call, none⟩).1 = .ok answer := by
  have inserts : ∀ row : StrategyAssignment, assignmentOf row.runId rows = none →
      row.strategyVersion.toOption.all (fitsInteger ·) = true →
      insertAssignment row rows = .ok (1, rows ++ [row]) := by
    intro row none fits
    rw [insertAssignment, none, Option.isSome_none, if_neg Bool.false_ne_true, if_pos fits]
  unfold performAssignment Transaction.perform
  cases call with
  | assignStrategy row =>
      rw [AssignmentCall.transaction, Transaction.attempt_select]
      cases found : assignmentOf row.runId rows with
      | some existing => exact ⟨_, rfl⟩
      | none =>
          dsimp only
          rw [Transaction.attempt_execute (inserts row found valid)]
          exact ⟨_, rfl⟩
  | assignBalancedExploration call =>
      obtain ⟨some_id, versions⟩ := valid
      have complete : call.lacksVersion = false := by
        rw [ExplorationCall.lacksVersion, List.any_eq_false]
        intro strategyId mem
        obtain ⟨version, found, positive, _⟩ := versions strategyId mem
        rw [found]
        simpa using positive
      rw [AssignmentCall.transaction, if_neg some_id, complete, if_neg Bool.false_ne_true,
        Transaction.attempt_select]
      cases found : assignmentOf call.runId rows with
      | some existing => exact ⟨_, rfl⟩
      | none =>
          have fits : (call.row digest rows).strategyVersion.toOption.all (fitsInteger ·) = true := by
            obtain ⟨version, has, _, fits⟩ :=
              versions _ (@selected_least digest rows call some_id).1
            rw [ExplorationCall.row, has]
            exact decide_eq_true fits
          dsimp only
          rw [Transaction.attempt_select,
            Transaction.attempt_execute (inserts (call.row digest rows) found fits)]
          exact ⟨_, rfl⟩

/-- **The function of the rows** that the selection uses is the call without a fault. -/
theorem performAssignment_eq (call : ExplorationCall)
    (keys : call.strategyIds = call.strategyVersions.map Prod.fst)
    (unique : (call.strategyVersions.map Prod.fst).Nodup)
    (fits : ∀ item ∈ call.strategyVersions, fitsInteger item.2) :
    performAssignment digest rows ⟨.assignBalancedExploration call, none⟩ =
      match assignBalancedExploration digest call.workspaceId call.taskKind call.runId
        call.strategyVersions call.selectorVersion call.now rows with
      | .error e => (.error e, rows)
      | .ok (answer, written) => (.ok answer, written) := by
  have found : ∀ item ∈ call.strategyVersions,
      call.strategyVersions.lookup item.1 = some item.2 := by
    intro item mem
    obtain ⟨before, after, split⟩ := List.append_of_mem mem
    refine List.lookup_eq_some_iff.mpr ⟨before, after, split, fun earlier inBefore => ?_⟩
    rw [split, List.map_append, List.map_cons, List.nodup_append] at unique
    exact bne_iff_ne.mpr fun same => unique.2.2 earlier.1 (List.mem_map_of_mem inBefore) item.1
      List.mem_cons_self same.symm
  have lacks : call.lacksVersion = call.strategyVersions.any fun item => item.2 < 1 := by
    rw [ExplorationCall.lacksVersion, keys, List.any_map, Bool.eq_iff_iff, List.any_eq_true,
      List.any_eq_true]
    refine exists_congr fun item => and_congr_right fun mem => ?_
    dsimp only [Function.comp_apply]
    rw [found item mem]
  have same : explorationRow digest call.workspaceId call.taskKind call.runId call.strategyVersions
      call.selectorVersion call.now rows = call.row digest rows := by
    rw [ExplorationCall.row, ExplorationCall.selected, keys]
    rfl
  unfold assignBalancedExploration
  rw [same, ← lacks]
  by_cases none : call.strategyVersions = []
  · have noId : call.strategyIds = [] := by rw [keys, none, List.map_nil]
    rw [if_pos none, performAssignment, AssignmentCall.transaction, if_pos noId]
    rfl
  · have some_id : call.strategyIds ≠ [] := by
      rw [keys]
      exact fun empty => none (List.map_eq_nil_iff.mp empty)
    rw [if_neg none]
    cases lacking : call.lacksVersion with
    | true =>
        rw [if_pos rfl, performAssignment, AssignmentCall.transaction, if_neg some_id, lacking,
          if_pos rfl]
        rfl
    | false =>
        have versions : ∀ strategyId ∈ call.strategyIds, ∃ version,
            call.strategyVersions.lookup strategyId = some version ∧ 1 ≤ version ∧
              fitsInteger version := by
          intro strategyId mem
          rw [keys] at mem
          obtain ⟨item, inVersions, rfl⟩ := List.mem_map.mp mem
          refine ⟨item.2, found item inVersions, ?_, fits item inVersions⟩
          rw [lacks, List.any_eq_false] at lacking
          simpa using lacking item inVersions
        have answered := @performAssignment_answers digest rows
          (.assignBalancedExploration call) ⟨some_id, versions⟩
        rw [if_neg Bool.false_ne_true]
        unfold assignStrategy
        rcases @performAssignment_faultless digest rows (.assignBalancedExploration call) with
          ⟨e, raised⟩ | ⟨existing, has, does⟩ | ⟨has, _, does⟩
        · obtain ⟨answer, answered⟩ := answered
          rw [raised] at answered
          cases answered
        · have has : assignmentOf (call.row digest rows).runId rows = some existing := has
          rw [does, has]
        · have has : assignmentOf (call.row digest rows).runId rows = Option.none := has
          rw [does, has]
          rfl

end

/-! ### Runs -/

section

variable {digest : String → ℕ} {workspaceId taskKind : String} {strategyIds : List String}
  {rows : List StrategyAssignment} {op : AssignmentOp}

/-- What holds of the rows after any calls. -/
structure Explored (workspaceId taskKind : String) (strategyIds : List String)
    (rows : List StrategyAssignment) : Prop where
  once : (rows.map StrategyAssignment.runId).Nodup
  balanced : BalancedOn strategyIds fun id => assignedCount workspaceId taskKind id rows

theorem assignedCount_append (strategyId : String) (row : StrategyAssignment) :
    assignedCount workspaceId taskKind strategyId (rows ++ [row]) =
      assignedCount workspaceId taskKind strategyId rows +
        if row.workspaceId = workspaceId ∧ row.taskKind = taskKind ∧ row.strategyId = strategyId
        then 1 else 0 := by
  rw [assignedCount, List.countP_append, List.countP_singleton]
  simp only [decide_eq_true_eq]
  rfl

/-- A run without a row gets its first. -/
theorem nodup_append_row {row : StrategyAssignment}
    (once : (rows.map StrategyAssignment.runId).Nodup) (none : assignmentOf row.runId rows = none) :
    ((rows ++ [row]).map StrategyAssignment.runId).Nodup := by
  rw [List.map_append, List.map_singleton, List.nodup_append]
  refine ⟨once, List.nodup_singleton _, ?_⟩
  rintro runId mem _ mem' rfl
  obtain ⟨existing, inRows, same⟩ := List.mem_map.mp mem
  have other := List.find?_eq_none.mp none existing inRows
  rw [List.mem_singleton.mp mem'] at same
  exact other (decide_eq_true same)

/-- **One call keeps the balance.** -/
theorem Explored.step (explored : Explored workspaceId taskKind strategyIds rows)
    (explores : op.call.Explores workspaceId taskKind strategyIds) :
    Explored workspaceId taskKind strategyIds (performAssignment digest rows op).2 := by
  rcases @performAssignment_cases digest rows op with
    ⟨_, does⟩ | ⟨_, _, does⟩ | ⟨none, some_id, does⟩
  · rw [does]
    exact explored
  · rw [does]
    exact explored
  · rw [does]
    refine ⟨nodup_append_row explored.once (by rwa [row_runId]), ?_⟩
    by_cases here : (op.call.row digest rows).workspaceId = workspaceId ∧
        (op.call.row digest rows).taskKind = taskKind
    · have added : ∀ strategyId, assignedCount workspaceId taskKind strategyId
          (rows ++ [op.call.row digest rows]) = assignedCount workspaceId taskKind strategyId rows +
            if (op.call.row digest rows).strategyId = strategyId then 1 else 0 := by
        intro strategyId
        rw [assignedCount_append, here.1, here.2]
        simp only [true_and]
      cases called : op.call with
      | assignStrategy row =>
          rw [called] at explores here
          exact absurd here (not_and_or.mpr explores)
      | assignBalancedExploration call =>
          rw [called] at explores here added
          have same := explores here.1 here.2
          obtain ⟨_, least⟩ := @selected_least digest rows call (some_id call called)
          have here' : call.workspaceId = workspaceId ∧ call.taskKind = taskKind := here
          rw [here'.1, here'.2] at least
          have added : ∀ strategyId, assignedCount workspaceId taskKind strategyId
              (rows ++ [call.row digest rows]) =
                assignedCount workspaceId taskKind strategyId rows +
                  if call.selected digest rows = strategyId then 1 else 0 := added
          refine explored.balanced.add_least (fun b mem => least b ((same b).mpr mem)) ?_ ?_
          · exact (added _).trans (by rw [if_pos rfl])
          · exact fun b other => (added b).trans (by rw [if_neg other.symm, Nat.add_zero])
    · have unchanged : ∀ strategyId, assignedCount workspaceId taskKind strategyId
          (rows ++ [op.call.row digest rows]) =
            assignedCount workspaceId taskKind strategyId rows := by
        intro strategyId
        rw [assignedCount_append, if_neg fun all => here ⟨all.1, all.2.1⟩, Nat.add_zero]
      simp only [unchanged]
      exact explored.balanced

/-- A row stays the row of its run. -/
theorem assignmentOf_performAssignment {runId : String} {row : StrategyAssignment}
    (found : assignmentOf runId rows = some row) :
    assignmentOf runId (performAssignment digest rows op).2 = some row := by
  rcases @performAssignment_cases digest rows op with
    ⟨_, does⟩ | ⟨_, _, does⟩ | ⟨_, _, does⟩
  · rwa [does]
  · rwa [does]
  · rw [does]
    exact assignmentOf_append _ found

/-- What is answered is the strategy of the run's row. -/
theorem assignmentOf_of_answer {answer : String}
    (answered : (performAssignment digest rows op).1 = .ok answer) :
    ∃ row, assignmentOf op.call.runId (performAssignment digest rows op).2 = some row ∧
      row.strategyId = answer := by
  rcases @performAssignment_cases digest rows op with
    ⟨_, does⟩ | ⟨existing, found, does⟩ | ⟨none, _, does⟩
  · rw [does] at answered
    cases answered
  · rw [does] at answered ⊢
    cases answered
    exact ⟨existing, found, rfl⟩
  · rw [does] at answered ⊢
    cases answered
    refine ⟨_, ?_, rfl⟩
    unfold assignmentOf at none ⊢
    dsimp only
    rw [List.find?_append, none, Option.none_or, List.find?_singleton,
      if_pos (decide_eq_true (row_runId op.call))]

/-- Where no run has two rows, the row of a run is its only one. -/
theorem filter_runId_eq {runId : String} {row : StrategyAssignment}
    (once : (rows.map StrategyAssignment.runId).Nodup)
    (found : assignmentOf runId rows = some row) :
    rows.filter (fun r => decide (r.runId = runId)) = [row] := by
  obtain ⟨named, before, after, split, others⟩ := List.find?_eq_some_iff_append.mp found
  have named := of_decide_eq_true named
  rw [split, List.map_append, List.map_cons, List.nodup_append, List.nodup_cons] at once
  have left : before.filter (fun r => decide (r.runId = runId)) = [] := by
    refine List.filter_eq_nil_iff.mpr fun r mem => ?_
    simpa using others r mem
  have right : after.filter (fun r => decide (r.runId = runId)) = [] := by
    refine List.filter_eq_nil_iff.mpr fun r mem same => once.2.1.1 ?_
    rw [named, ← of_decide_eq_true same]
    exact List.mem_map_of_mem mem
  have own : (row :: after).filter (fun r => decide (r.runId = runId)) =
      row :: after.filter (fun r => decide (r.runId = runId)) :=
    List.filter_cons_of_pos (decide_eq_true named)
  rw [split, List.filter_append, left, own, right, List.nil_append]

end

/-- The rows of a run. -/
def rowsOf (runId : String) (rows : List StrategyAssignment) : List StrategyAssignment :=
  rows.filter fun row => row.runId = runId

/-- **Exploration stays balanced.** After every call the counts of any two strategies differ by one
at most; a valid call whose connection holds is answered; a run that was answered has one row from
then on, with the strategy of that answer; and a call for it changes nothing and gives that answer
again, or raises. -/
theorem exploration_balanced (digest : String → ℕ) (workspaceId taskKind : String)
    (strategyIds : List String) (start : List StrategyAssignment)
    (once : (start.map StrategyAssignment.runId).Nodup)
    (fresh : ∀ row ∈ start, row.workspaceId ≠ workspaceId ∨ row.taskKind ≠ taskKind)
    (ops : List AssignmentOp)
    (explore : ∀ op ∈ ops, op.call.Explores workspaceId taskKind strategyIds) :
    let journal := (history (performAssignment digest) start ops).journal
    (∀ e ∈ journal,
      (∀ a ∈ strategyIds, ∀ b ∈ strategyIds,
        assignedCount workspaceId taskKind a e.after ≤
          assignedCount workspaceId taskKind b e.after + 1) ∧
      (e.call.fault = none → e.call.call.IsValid → ∃ answer, e.answer = .ok answer)) ∧
    ∀ early e late answer, journal = early ++ e :: late → e.answer = .ok answer →
      (∀ e' ∈ e :: late, ∃ row, rowsOf e.call.call.runId e'.after = [row] ∧
        row.strategyId = answer) ∧
      ∀ e' ∈ late, e'.call.call.runId = e.call.call.runId →
        e'.after = e'.before ∧ (e'.answer = .ok answer ∨ ∃ error, e'.answer = .error error) := by
  intro journal
  have chain := history_chain (performAssignment digest) start ops
  have does := history_entries (performAssignment digest) start ops
  have called : ∀ e ∈ journal, e.call ∈ ops := by
    intro e mem
    rw [← history_calls (performAssignment digest) start ops]
    exact List.mem_map_of_mem mem
  have begins : Explored workspaceId taskKind strategyIds start := by
    refine ⟨once, ?_⟩
    have none : ∀ id, assignedCount workspaceId taskKind id start = 0 := by
      intro id
      refine List.countP_eq_zero.mpr fun row mem same => ?_
      have same := of_decide_eq_true same
      exact (fresh row mem).elim (absurd same.1) (absurd same.2.1)
    simp only [none]
    exact balancedOn_const 0
  have kept := chain.invariant begins fun e mem before => by
    have after := @Explored.step digest _ _ _ _ _ before (explore _ (called e mem))
    rwa [does e mem] at after
  refine ⟨fun e mem => ⟨(kept.2 e mem).2.balanced, fun holds valid => ?_⟩, ?_⟩
  · obtain ⟨answer, answered⟩ := @performAssignment_answers digest e.before _ valid
    have op : e.call = ⟨e.call.call, none⟩ := by rw [← holds]
    rw [← op, does e mem] at answered
    exact ⟨answer, answered⟩
  · intro early e late answer split answered
    have inJournal : ∀ e' ∈ e :: late, e' ∈ journal := fun e' mem => by
      rw [split]
      exact List.mem_append_right _ mem
    have own := does e (inJournal e List.mem_cons_self)
    have gave : (performAssignment digest e.before e.call).1 = .ok answer := by rw [own, answered]
    obtain ⟨row, found, strategy⟩ := assignmentOf_of_answer gave
    rw [own] at found
    have found : assignmentOf e.call.call.runId e.after = some row := found
    have chain : Chain start (early ++ e :: late)
      (history (performAssignment digest) start ops).state := split ▸ chain
    obtain ⟨_, _, _, rest⟩ := Chain.append_iff.mp chain
    -- from here on the run has this row
    have stays := rest.invariant (I := fun rows => assignmentOf e.call.call.runId rows = some row)
      found fun e' mem before => by
        have after := @assignmentOf_performAssignment digest _ e'.call _ _ before
        rwa [does e' (inJournal e' (List.mem_cons_of_mem _ mem))] at after
    refine ⟨fun e' mem => ⟨row, ?_, strategy⟩, fun e' mem same => ?_⟩
    · have has : assignmentOf e.call.call.runId e'.after = some row :=
        (List.mem_cons.mp mem).elim (fun same => same ▸ found) fun later => (stays.2 e' later).2
      exact filter_runId_eq (kept.2 e' (inJournal e' mem)).2.once has
    · have again := does e' (inJournal e' (List.mem_cons_of_mem _ mem))
      have has := (stays.2 e' mem).1
      rw [← same] at has
      rcases @performAssignment_cases digest e'.before e'.call with
        ⟨error, does⟩ | ⟨existing, found', does⟩ | ⟨none, _, _⟩
      · obtain ⟨raised, left⟩ := Prod.mk.inj (again.symm.trans does)
        exact ⟨left, .inr ⟨error, raised⟩⟩
      · obtain ⟨gave, left⟩ := Prod.mk.inj (again.symm.trans does)
        cases has.symm.trans found'
        exact ⟨left, .inl (gave.trans (congrArg _ strategy))⟩
      · cases has.symm.trans none

/-- Exploration of two strategies. -/
def exploreTwo (runId : String) : AssignmentOp where
  call := .assignBalancedExploration
    { workspaceId := "w", taskKind := "k", runId, strategyIds := ["a", "b"]
      strategyVersions := [("a", 1), ("b", 2)], now := "now" }

theorem exploration_balanced_two :
    let ops := [exploreTwo "r", exploreTwo "s", exploreTwo "r"]
    let journal := (history (performAssignment fun _ => 1) [] ops).journal
    journal.map (·.answer) = [.ok "b", .ok "a", .ok "b"] ∧
      ∀ e ∈ journal, ∀ x ∈ ["a", "b"], ∀ y ∈ ["a", "b"],
        assignedCount "w" "k" x e.after ≤ assignedCount "w" "k" y e.after + 1 := by
  intro ops journal
  have explore : ∀ op ∈ ops, op.call.Explores "w" "k" ["a", "b"] := by
    intro op mem
    simp only [ops, List.mem_cons, List.not_mem_nil, or_false] at mem
    rcases mem with rfl | rfl | rfl <;> exact fun _ _ _ => Iff.rfl
  have balanced := (exploration_balanced (fun _ => 1) "w" "k" ["a", "b"] [] List.nodup_nil
    (fun _ mem => absurd mem List.not_mem_nil) ops explore).1
  exact ⟨by decide +kernel, fun e mem => (balanced e mem).1⟩

end AgentOs
