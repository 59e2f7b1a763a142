import AgentOs.Lib.Json
import Mathlib.Data.List.Sort

/-!
The observation store (`observations.py`): labels of outcomes, and the strategy each run
was assigned.

`aggregate_patterns` counts the labels of each strategy. An assignment is written once:
`assign_strategy` and `assign_balanced_exploration` insert where a run has none, and answer
with the one it has otherwise. Scores are floating-point numbers; their arithmetic is the
parameter `Scoring`. What a column holds is kept as what reading it gives.
-/

namespace AgentOs

open AgentOs.Lib

/-! ### Labels -/

inductive OutcomeSignal where
  | accepted
  | rejected
  | edited
  | unknown
deriving DecidableEq, Repr

/-- What the aggregation reads of an observation. -/
structure LabelledOutcome where
  workspaceId : String
  taskKind : String
  approach : String
  outcomeSignal : OutcomeSignal
deriving DecidableEq, Repr

/-- The arithmetic of scores. -/
structure Scoring (S : Type) where
  /-- `(accepted + 0.5 * edited) / labelled` -/
  score : ℕ → ℕ → ℕ → S
  /-- `0.0` -/
  zero : S
  /-- `-a < -b` -/
  above : S → S → Bool
  /-- `a < MIN_ACTIONABLE_SCORE` -/
  low : S → Bool
  /-- `a - b < MIN_ACTIONABLE_LEAD` -/
  close : S → S → Bool
  /-- the JSON of `round(a, 4)` -/
  rounded : S → String
  /-- the JSON of `round(a - b, 4)` -/
  margin : S → S → String

/-- `OutcomePattern`. -/
structure OutcomePattern (S : Type) where
  strategyId : String
  acceptedCount : ℕ
  rejectedCount : ℕ
  editedCount : ℕ
  unknownCount : ℕ
  labelledCount : ℕ
  outcomeScore : S
deriving DecidableEq, Repr

section

variable {S : Type} (scoring : Scoring S)

/-- `aggregate_patterns`: one pattern for each strategy, in their order. -/
def aggregatePatterns (workspaceId taskKind : String) (strategyIds : List String)
    (observations : List LabelledOutcome) : List (OutcomePattern S) :=
  strategyIds.map fun strategyId =>
    let count := fun signal : OutcomeSignal =>
      observations.countP fun o => o.workspaceId = workspaceId ∧ o.taskKind = taskKind ∧
        o.approach = strategyId ∧ o.outcomeSignal = signal
    let labelled := count .accepted + count .rejected + count .edited
    { strategyId
      acceptedCount := count .accepted
      rejectedCount := count .rejected
      editedCount := count .edited
      unknownCount := count .unknown
      labelledCount := labelled
      outcomeScore := if labelled = 0 then scoring.zero
        else scoring.score (count .accepted) (count .edited) labelled }

end

/-! ### Assignments -/

/-- A row of `strategy_assignments`. -/
structure StrategyAssignment where
  runId : String
  workspaceId : String
  taskKind : String
  strategyId : String
  /-- `int` of the stored value -/
  strategyVersion : Except String ℤ
  selectionReason : String
  selectorVersion : String
  /-- `json.loads` of the stored text, where there is one -/
  evidenceSummary : Except String (Option Json)
  selectedAt : String

/-- The row of a run. -/
def assignmentOf (runId : String) (rows : List StrategyAssignment) : Option StrategyAssignment :=
  rows.find? (·.runId = runId)

/-- Reading the row as a record does not raise. -/
def StrategyAssignment.Decodes (row : StrategyAssignment) : Prop :=
  row.strategyVersion.isOk = true ∧ row.evidenceSummary.isOk = true

instance (row : StrategyAssignment) : Decidable row.Decodes := inferInstanceAs (Decidable (_ ∧ _))

/-- `get_strategy_assignment`. -/
def getStrategyAssignment (runId : String) (rows : List StrategyAssignment) :
    Except String (Option StrategyAssignment) :=
  match assignmentOf runId rows with
  | none => .ok none
  | some row =>
      match row.evidenceSummary, row.strategyVersion with
      | .error e, _ => .error e
      | .ok _, .error e => .error e
      | .ok _, .ok _ => .ok (some row)

/-- `assign_strategy`, of the row it would insert. -/
def assignStrategy (row : StrategyAssignment) (rows : List StrategyAssignment) :
    String × List StrategyAssignment :=
  match assignmentOf row.runId rows with
  | none => (row.strategyId, rows ++ [row])
  | some existing => (existing.strategyId, rows)

/-- The runs of a workspace and a task kind that were assigned a strategy. -/
def assignedCount (workspaceId taskKind strategyId : String) (rows : List StrategyAssignment) :
    ℕ :=
  rows.countP fun row =>
    row.workspaceId = workspaceId ∧ row.taskKind = taskKind ∧ row.strategyId = strategyId

/-- The strategies that were assigned least, in their order as texts. -/
def leastAssigned (workspaceId taskKind : String) (strategyIds : List String)
    (rows : List StrategyAssignment) : List String :=
  let count := fun strategyId => assignedCount workspaceId taskKind strategyId rows
  let minimum := (strategyIds.map count).min?.getD 0
  (strategyIds.filter (count · = minimum)).insertionSort (· ≤ ·)

/-- The row that `assign_balanced_exploration` inserts; `digest` is the number that SHA-256
gives of a text. -/
def explorationRow (digest : String → ℕ) (workspaceId taskKind runId : String)
    (strategyVersions : List (String × ℤ)) (selectorVersion now : String)
    (rows : List StrategyAssignment) : StrategyAssignment :=
  let tied := leastAssigned workspaceId taskKind (strategyVersions.map Prod.fst) rows
  let place := digest (workspaceId ++ "\x00" ++ taskKind ++ "\x00" ++ runId) % tied.length
  let selected := tied[place]?.getD ""
  { runId, workspaceId, taskKind
    strategyId := selected
    strategyVersion := .ok ((strategyVersions.lookup selected).getD 0)
    selectionReason := "exploration"
    selectorVersion
    evidenceSummary := .ok none
    selectedAt := now }

/-- `assign_balanced_exploration`; the keys of `strategyVersions` are its `strategy_ids`. -/
def assignBalancedExploration (digest : String → ℕ) (workspaceId taskKind runId : String)
    (strategyVersions : List (String × ℤ)) (selectorVersion now : String)
    (rows : List StrategyAssignment) : Except String (String × List StrategyAssignment) :=
  if strategyVersions = [] then .error "strategy_ids must not be empty"
  else if strategyVersions.any fun item => item.2 < 1 then
    .error "strategy_versions must provide a positive integer for every strategy"
  else
    .ok (assignStrategy (explorationRow digest workspaceId taskKind runId strategyVersions
      selectorVersion now rows) rows)

/-! ### What the store keeps -/

section

variable {runId : String} {rows : List StrategyAssignment} {row : StrategyAssignment}

theorem getStrategyAssignment_eq (decodes : ∀ row, assignmentOf runId rows = some row →
    row.Decodes) : getStrategyAssignment runId rows = .ok (assignmentOf runId rows) := by
  unfold getStrategyAssignment
  cases found : assignmentOf runId rows with
  | none => rfl
  | some row =>
      obtain ⟨version, evidence⟩ := decodes row found
      cases readVersion : row.strategyVersion with
      | error e => simp [readVersion, Except.isOk, Except.toBool] at version
      | ok version =>
          cases readEvidence : row.evidenceSummary with
          | error e => simp [readEvidence, Except.isOk, Except.toBool] at evidence
          | ok evidence => simp [readVersion, readEvidence]

theorem getStrategyAssignment_raises (found : assignmentOf runId rows = some row)
    (broken : ¬row.Decodes) : ∃ e, getStrategyAssignment runId rows = .error e := by
  unfold getStrategyAssignment
  rw [found]
  cases readEvidence : row.evidenceSummary with
  | error e => exact ⟨e, by simp [readEvidence]⟩
  | ok evidence =>
      cases readVersion : row.strategyVersion with
      | error e => exact ⟨e, by simp [readEvidence, readVersion]⟩
      | ok version =>
          exact absurd ⟨by rw [readVersion]; rfl, by rw [readEvidence]; rfl⟩ broken

/-- A row stays the row of its run. -/
theorem assignmentOf_append (more : List StrategyAssignment)
    (found : assignmentOf runId rows = some row) :
    assignmentOf runId (rows ++ more) = some row := by
  unfold assignmentOf at *
  rw [List.find?_append, found, Option.some_or]

theorem assignmentOf_concat_of_ne (ne : row.runId ≠ runId) :
    assignmentOf runId (rows ++ [row]) = assignmentOf runId rows := by
  unfold assignmentOf
  rw [List.find?_append]
  simp [ne]

/-- Afterwards the run has the strategy that is answered. -/
theorem assignmentOf_assignStrategy (row : StrategyAssignment) (rows : List StrategyAssignment) :
    ∃ after, assignmentOf row.runId (assignStrategy row rows).2 = some after ∧
      after = (assignmentOf row.runId rows).getD row ∧
      (assignStrategy row rows).1 = after.strategyId := by
  unfold assignStrategy
  cases found : assignmentOf row.runId rows with
  | none =>
      refine ⟨row, ?_, rfl, rfl⟩
      unfold assignmentOf at found ⊢
      simp only
      rw [List.find?_append, found]
      simp
  | some existing => exact ⟨existing, found, rfl, rfl⟩

theorem mem_leastAssigned {workspaceId taskKind strategyId : String} {strategyIds : List String}
    (mem : strategyId ∈ leastAssigned workspaceId taskKind strategyIds rows) :
    strategyId ∈ strategyIds :=
  (List.mem_filter.mp ((List.mem_insertionSort _).mp mem)).1

/-- Some strategy is assigned least. -/
theorem leastAssigned_ne_nil (workspaceId taskKind : String) (rows : List StrategyAssignment)
    {strategyIds : List String} (some_id : strategyIds ≠ []) :
    leastAssigned workspaceId taskKind strategyIds rows ≠ [] := by
  unfold leastAssigned
  dsimp only
  obtain ⟨least, found⟩ := Option.isSome_iff_exists.mp (List.isSome_min?_of_ne_nil
    (l := strategyIds.map fun id => assignedCount workspaceId taskKind id rows) (by simpa))
  obtain ⟨strategyId, mem, same⟩ := List.mem_map.mp (List.min?_mem found)
  refine List.ne_nil_of_mem ((List.mem_insertionSort _).mpr (List.mem_filter.mpr ⟨mem, ?_⟩))
  simp [found, same]

end

end AgentOs
