import AgentOs.Lib.Json
import Mathlib.Algebra.Order.Field.Rat

/-!
The records that cross component boundaries (`schemas.py`).

A Python `dict` is a list of members; a `Literal` is an enumeration with its
text; a bounded number carries its bounds (`RouterDecision`). Where a class and
its subclass share a field of the state, the subclass's own fields are an
optional part: `PlanArtifact` with a `CodingPart` is a `CodingPlan`, and
`ExecutionResult` with a `CodingOutput` is an `ExecutorReport`.
-/

namespace AgentOs

open AgentOs.Lib

/-- `dict[str, object]`. -/
abbrev Dict := List (String × Json)

/-! ### Memory writes -/

inductive MemoryWriteMode where
  | create
  | append
  | overwrite
deriving DecidableEq, Repr

namespace MemoryWriteMode

def text : MemoryWriteMode → String
  | create => "create"
  | append => "append"
  | overwrite => "overwrite"

/-- The mode a text names: membership in `MEMORY_WRITE_MODES`. -/
def ofText? (s : String) : Option MemoryWriteMode :=
  if s = "create" then some create
  else if s = "append" then some append
  else if s = "overwrite" then some overwrite
  else none

@[simp] theorem ofText?_text (m : MemoryWriteMode) : ofText? m.text = some m := by
  cases m <;> decide

theorem text_of_ofText? {s : String} {m : MemoryWriteMode} (h : ofText? s = some m) :
    m.text = s := by
  unfold ofText? at h
  split at h
  · cases h
    simp_all [text]
  · split at h
    · cases h
      simp_all [text]
    · split at h
      · cases h
        simp_all [text]
      · cases h

end MemoryWriteMode

/-- What a memory write would do, as shown to the user. -/
structure MemoryWriteProposal where
  connector : String
  ref : String
  mode : MemoryWriteMode
  contentPreview : String
  sideEffect : String
deriving DecidableEq, Repr

/-! ### Actions and decisions -/

inductive SideEffect where
  | none
  | read
  | write
  | network
  | payment
  | communication
  | privileged
deriving DecidableEq, Repr

def SideEffect.text : SideEffect → String
  | none => "none"
  | read => "read"
  | write => "write"
  | network => "network"
  | payment => "payment"
  | communication => "communication"
  | privileged => "privileged"

structure ActionProposal where
  tool : String
  arguments : Dict := []
  reason : String := ""
  sideEffect : SideEffect := .none
  connector : Option String := none
deriving Repr

inductive Decision where
  | allow
  | deny
  | requireApproval
deriving DecidableEq, Repr

structure PolicyDecision where
  decision : Decision
  policyId : String
  reason : String := ""
deriving DecidableEq, Repr

/-- The router's classification of a task. -/
structure RouterDecision where
  tool : Option String
  confidence : ℚ
  confidence_ge : 0 ≤ confidence
  confidence_le : confidence ≤ 1
  arguments : Dict := []

/-- A decision made with certainty, as the tier-1 parser makes them. -/
def RouterDecision.certain (tool : String) (arguments : Dict) : RouterDecision where
  tool := some tool
  confidence := 1
  confidence_ge := zero_le_one
  confidence_le := le_refl 1
  arguments := arguments

/-- No tool, with confidence 0. -/
def RouterDecision.undecided : RouterDecision where
  tool := none
  confidence := 0
  confidence_ge := le_refl 0
  confidence_le := zero_le_one

/-! ### Plans -/

/-- The fields `CodingPlan` adds to a plan. -/
structure CodingPart where
  files : List String
  changes : List String
  verifyCmd : String
deriving DecidableEq, Repr

/-- A plan; with a coding part it is an `ArchitectBrief`. -/
structure PlanArtifact where
  summary : String := ""
  steps : List String := []
  proposedActions : List ActionProposal := []
  acceptanceCriteria : List String := []
  metadata : Dict := []
  coding : Option CodingPart := none
deriving Repr

def texts (items : List String) : Json :=
  .arr (items.map .str)

def ActionProposal.toJson (a : ActionProposal) : Json :=
  .obj [("tool", .str a.tool), ("arguments", .obj a.arguments), ("reason", .str a.reason),
    ("side_effect", .str a.sideEffect.text), ("connector", (a.connector.map Json.str).getD .null)]

def PlanArtifact.toJson (p : PlanArtifact) : Json :=
  .obj ([("summary", .str p.summary), ("steps", texts p.steps),
    ("proposed_actions", .arr (p.proposedActions.map ActionProposal.toJson)),
    ("acceptance_criteria", texts p.acceptanceCriteria), ("metadata", .obj p.metadata)] ++
    match p.coding with
    | none => []
    | some c => [("files", texts c.files), ("changes", texts c.changes),
        ("verify_cmd", .str c.verifyCmd)])

/-! ### Results -/

inductive ExecutionStatus where
  | completed
  | failed
  | cancelled
  | waiting
deriving DecidableEq, Repr

def ExecutionStatus.text : ExecutionStatus → String
  | completed => "completed"
  | failed => "failed"
  | cancelled => "cancelled"
  | waiting => "waiting"

/-- The fields `CodingResult` adds to a result. -/
structure CodingOutput where
  diff : String := ""
  verifyOutput : String := ""
deriving DecidableEq, Repr

/-- The result of an execution; with a coding output it is an `ExecutorReport`. -/
structure ExecutionResult where
  status : ExecutionStatus
  outputs : Dict := []
  artifacts : List String := []
  errors : List String := []
  usage : Dict := []
  selfCheck : Dict := []
  coding : Option CodingOutput := none
deriving Repr

/-- `ExecutionResult.success`. -/
def ExecutionResult.success (r : ExecutionResult) : Bool :=
  r.status = .completed

def ExecutionResult.toJson (r : ExecutionResult) : Json :=
  .obj ([("status", .str r.status.text), ("outputs", .obj r.outputs),
    ("artifacts", texts r.artifacts), ("errors", texts r.errors), ("usage", .obj r.usage),
    ("self_check", .obj r.selfCheck)] ++
    match r.coding with
    | none => []
    | some c => [("diff", .str c.diff), ("verify_output", .str c.verifyOutput)])

/-- The result of a shell command. -/
structure BashResult where
  args : List String
  returncode : Option Int
  stdout : String
  stderr : String
  timedOut : Bool
  truncated : Bool := false
deriving DecidableEq, Repr

def BashResult.toJson (r : BashResult) : Json :=
  .obj [("args", texts r.args),
    ("returncode", (r.returncode.map fun n => Json.num (toString n)).getD .null),
    ("stdout", .str r.stdout), ("stderr", .str r.stderr), ("timed_out", .bool r.timedOut),
    ("truncated", .bool r.truncated)]

/-- What the dispatcher reports of a tool. -/
structure ToolExecutionResult where
  tool : String
  output : String
  success : Bool
deriving DecidableEq, Repr

end AgentOs
