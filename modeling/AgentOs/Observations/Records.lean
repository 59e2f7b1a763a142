import AgentOs.Lib.Transaction
import AgentOs.Observations.Store

/-!
The rows of the observation store (`observations.py`, `server/api.py`).

`create` takes texts of any shape, folds their white space and refuses what is too long, and
`record_outcome` writes a label over a row. A store may be shared by workspaces
(`AGENT_OS_OBSERVATIONS_DB`): the endpoints look at the workspace of a row before they touch it.
-/

namespace AgentOs

open AgentOs.Lib

/-- A row of `observations`. -/
structure StoredObservation where
  observationId : String
  workspaceId : String
  runId : Option String
  threadId : Option String
  taskKind : String
  taskSignature : Option String
  approach : String
  artifactRefs : List String
  outcomeSignal : OutcomeSignal
  outcomeEvidence : Option String
  source : String
  createdAt : String
  updatedAt : String
deriving DecidableEq

/-! ### Validation -/

/-- `_bounded_text` -/
def boundedText (value : Json) (field : String) (limit : ℕ) (required : Bool) :
    Except String (Option String) :=
  match value with
  | .null => if required then .error (field ++ " is required") else .ok none
  | .str text =>
      let normalized := Text.join " " (Text.words text)
      if normalized = "" then
        if required then .error (field ++ " is required") else .ok none
      else if limit < normalized.length then
        .error (field ++ " exceeds " ++ toString limit ++ " characters")
      else .ok (some normalized)
  | _ => .error (field ++ " must be a string")

/-- `_bounded_text` of a field that is required. -/
def requiredText (value : Json) (field : String) (limit : ℕ) : Except String String :=
  match boundedText value field limit true with
  | .ok (some text) => .ok text
  | .ok none => .error (field ++ " is required")
  | .error e => .error e

/-- `MAX_ARTIFACT_REFS` -/
def maxArtifactRefs : ℕ := 8

/-- `_validate_artifact_refs` -/
def validateArtifactRefs : Json → Except String (List String)
  | .null => .ok []
  | .arr items =>
      if maxArtifactRefs < items.length then
        .error ("artifact_refs exceeds " ++ toString maxArtifactRefs ++ " entries")
      else items.mapM fun item => requiredText item "artifact_refs entry" 160
  | _ => .error "artifact_refs must be a list of strings"

/-- `[0-9a-f]` -/
def isHexDigit (c : Char) : Bool := c.isDigit || ('a' ≤ c && c ≤ 'f')

/-- `_TASK_SIGNATURE_RE` -/
def isTaskSignature (text : String) : Bool :=
  Text.startsWith text "sha256:v1:" &&
    (let digest := text.toList.drop 10
     digest.length = 64 && digest.all isHexDigit)

/-- `_validate_task_signature` -/
def validateTaskSignature : Json → Except String (Option String)
  | .null => .ok none
  | .str text =>
      if isTaskSignature text then .ok (some text)
      else .error "task_signature must be a sha256:v1 digest"
  | _ => .error "task_signature must be a sha256:v1 digest"

def OutcomeSignal.ofText (text : String) : Option OutcomeSignal :=
  if text = "accepted" then some .accepted
  else if text = "rejected" then some .rejected
  else if text = "edited" then some .edited
  else if text = "unknown" then some .unknown
  else none

/-! ### The store -/

/-- What `create` is given. -/
structure NewObservation where
  workspaceId : Json
  runId : Json
  threadId : Json
  taskKind : Json
  taskSignature : Json := .null
  approach : Json
  artifactRefs : Json := .null
  outcomeSignal : String := "unknown"
  outcomeEvidence : Json := .null
  source : Json

/-- The row that `create` builds with a new id. -/
def NewObservation.row (given : NewObservation) (observationId now : String) :
    Except String StoredObservation := do
  let workspace ← requiredText given.workspaceId "workspace_id" 400
  let task ← requiredText given.taskKind "task_kind" 80
  let strategy ← requiredText given.approach "approach" 120
  let origin ← requiredText given.source "source" 80
  let evidence ← boundedText given.outcomeEvidence "outcome_evidence" 500 false
  let safeRunId ← boundedText given.runId "run_id" 100 false
  let safeThreadId ← boundedText given.threadId "thread_id" 160 false
  let safeSignature ← validateTaskSignature given.taskSignature
  let refs ← validateArtifactRefs given.artifactRefs
  match OutcomeSignal.ofText given.outcomeSignal with
  | none => .error "outcome_signal must be accepted, rejected, edited, or unknown"
  | some signal =>
      .ok
        { observationId
          workspaceId := workspace
          runId := safeRunId
          threadId := safeThreadId
          taskKind := task
          taskSignature := safeSignature
          approach := strategy
          artifactRefs := refs
          outcomeSignal := signal
          outcomeEvidence := evidence
          source := origin
          createdAt := now
          updatedAt := now }

namespace ObservationStore

/-- `SqliteObservationStore.get` -/
def get (observationId : String) (rows : List StoredObservation) : Option StoredObservation :=
  rows.find? (·.observationId = observationId)

/-- `SqliteObservationStore.create`; the id is the primary key. -/
def create (given : NewObservation) (observationId now : String) (rows : List StoredObservation) :
    Except String StoredObservation × List StoredObservation :=
  match given.row observationId now with
  | .error e => (.error e, rows)
  | .ok row =>
      if (get observationId rows).isSome then
        (.error "UNIQUE constraint failed: observations.observation_id", rows)
      else (.ok row, rows ++ [row])

/-- `SqliteObservationStore.list`; rows that were created at one time stay in their order. -/
def list (workspaceId taskKind : Option String) (limit : ℤ) (rows : List StoredObservation) :
    List StoredObservation :=
  let safeLimit := max 1 (min limit 100)
  let chosen := rows.filter fun row =>
    workspaceId.all (row.workspaceId = ·) && taskKind.all (row.taskKind = ·)
  (chosen.insertionSort fun a b => b.createdAt ≤ a.createdAt).take safeLimit.toNat

/-- What `record_outcome` makes of its arguments. -/
def checkOutcome (signal : String) (evidence : Json) :
    Except String (OutcomeSignal × Option String) :=
  match OutcomeSignal.ofText signal with
  | none | some .unknown => .error "signal must be accepted, rejected, or edited"
  | some label => do
      let safeEvidence ← boundedText evidence "evidence" 500 false
      .ok (label, safeEvidence)

/-- The row of an id with a new outcome; the other rows stay. -/
def relabel (observationId now : String) (outcome : OutcomeSignal × Option String)
    (row : StoredObservation) : StoredObservation :=
  if row.observationId = observationId then
    { row with
      outcomeSignal := outcome.1
      outcomeEvidence := outcome.2
      updatedAt := now }
  else row

/-- `SqliteObservationStore.record_outcome` -/
def recordOutcome (observationId signal : String) (evidence : Json) (now : String)
    (rows : List StoredObservation) :
    Except String (Option StoredObservation) × List StoredObservation :=
  match checkOutcome signal evidence with
  | .error e => (.error e, rows)
  | .ok outcome =>
      let updated := rows.map (relabel observationId now outcome)
      let rowcount := rows.countP (·.observationId = observationId)
      (.ok (if rowcount ≠ 1 then none else get observationId updated), updated)

/-- `record_observation_outcome_endpoint` -/
def recordObservationOutcomeEndpoint (workspaceId observationId signal : String) (evidence : Json)
    (now : String) (rows : List StoredObservation) :
    Except (ℕ × String) StoredObservation × List StoredObservation :=
  let missing := (404, "Observation not found")
  match get observationId rows with
  | none => (.error missing, rows)
  | some observation =>
      if observation.workspaceId ≠ workspaceId then (.error missing, rows)
      else
        match recordOutcome observationId signal evidence now rows with
        | (.error e, rows) => (.error (422, e), rows)
        | (.ok none, rows) => (.error missing, rows)
        | (.ok (some updated), rows) => (.ok updated, rows)

end ObservationStore

/-! ### What the store keeps -/

section

variable {value : Json} {field text folded observationId now : String} {limit : ℕ} {required : Bool}
  {rows : List StoredObservation} {row : StoredObservation} {given : NewObservation}

/-- A text that passed is neither empty nor too long. -/
theorem boundedText_ok (passed : boundedText value field limit required = .ok (some text)) :
    text ≠ "" ∧ text.length ≤ limit := by
  unfold boundedText at passed
  cases value with
  | str given =>
      dsimp only at passed
      split at passed
      · split at passed <;> cases passed
      · rename_i some_text
        split at passed
        · cases passed
        · rename_i short
          cases passed
          exact ⟨some_text, Nat.le_of_not_lt short⟩
  | null =>
      dsimp only at passed
      split at passed <;> cases passed
  | bool | num | arr | obj => cases passed

theorem requiredText_ok (passed : requiredText value field limit = .ok text) :
    text ≠ "" ∧ text.length ≤ limit := by
  unfold requiredText at passed
  split at passed
  · rename_i bounded
    cases passed
    exact boundedText_ok bounded
  · cases passed
  · cases passed

/-- A digest is the prefix and 64 digits. -/
theorem isTaskSignature_iff : isTaskSignature text = true ↔
    ∃ digest : List Char, digest.length = 64 ∧ (∀ c ∈ digest, isHexDigit c = true) ∧
      text.toList = "sha256:v1:".toList ++ digest := by
  unfold isTaskSignature Text.startsWith
  simp only [Bool.and_eq_true, List.isPrefixOf_iff_prefix, decide_eq_true_eq, List.all_eq_true]
  constructor
  · rintro ⟨⟨digest, split⟩, long, hex⟩
    rw [← split, List.drop_left' (by rfl)] at long hex
    exact ⟨digest, long, hex, split.symm⟩
  · rintro ⟨digest, long, hex, split⟩
    rw [split, List.drop_left' (by rfl)]
    exact ⟨⟨digest, rfl⟩, long, hex⟩

/-- The bounds that a row keeps. -/
structure StoredObservation.Bounded (row : StoredObservation) : Prop where
  taskKind : row.taskKind ≠ "" ∧ row.taskKind.length ≤ 80
  taskSignature : ∀ signature, row.taskSignature = some signature →
    isTaskSignature signature = true
  runId : ∀ runId, row.runId = some runId → runId ≠ "" ∧ runId.length ≤ 100

/-- A text that passed has its white space folded. -/
theorem requiredText_folds (passed : requiredText (.str text) field limit = .ok folded) :
    Text.join " " (Text.words text) = folded := by
  unfold requiredText boundedText at passed
  dsimp only at passed
  split_ifs at passed
  cases passed
  rfl

/-- A new row keeps the bounds, under the ids it was given. -/
theorem NewObservation.row_ok (built : given.row observationId now = .ok row) :
    row.observationId = observationId ∧ row.Bounded ∧
      requiredText given.workspaceId "workspace_id" 400 = .ok row.workspaceId := by
  obtain ⟨workspace, workspaceOk, built⟩ := bind_eq_ok_iff.mp built
  obtain ⟨task, taskOk, built⟩ := bind_eq_ok_iff.mp built
  obtain ⟨strategy, _, built⟩ := bind_eq_ok_iff.mp built
  obtain ⟨origin, _, built⟩ := bind_eq_ok_iff.mp built
  obtain ⟨evidence, _, built⟩ := bind_eq_ok_iff.mp built
  obtain ⟨runId, runOk, built⟩ := bind_eq_ok_iff.mp built
  obtain ⟨threadId, _, built⟩ := bind_eq_ok_iff.mp built
  obtain ⟨signature, signatureOk, built⟩ := bind_eq_ok_iff.mp built
  obtain ⟨refs, _, built⟩ := bind_eq_ok_iff.mp built
  split at built
  · cases built
  · cases built
    refine ⟨rfl, ⟨requiredText_ok taskOk, ?_, ?_⟩, workspaceOk⟩
    · intro text same
      dsimp only at same
      subst same
      unfold validateTaskSignature at signatureOk
      split at signatureOk
      · cases signatureOk
      · split at signatureOk
        · rename_i valid
          cases signatureOk
          exact valid
        · cases signatureOk
      · cases signatureOk
    · intro text same
      dsimp only at same
      subst same
      exact boundedText_ok runOk

end

end AgentOs
