import AgentOs.Graph.State
import AgentOs.Lib.Pass

/-!
The plan-review gate (`nodes/human_gate.py`).

`normalizeHumanFeedback` reads a reply; `humanGateNode` shows the plan and
records the normalised reply. `normalizeHumanFeedback_cases` says what the
reader can return: `"approved"`, a text that starts with `"rejected: "`, or an
error naming the value.
-/

namespace AgentOs

open AgentOs.Lib

/-- Interruptible code of this program: prompts, replies and errors are texts. -/
abbrev Code (ω α : Type) := Pass ω String String String α

/-- `normalize_human_feedback` on a text. -/
def normalizeHumanFeedback (value : String) : Except String String :=
  let v := Text.lower (Text.strip value)
  if v = "" then .error "Feedback cannot be empty"
  else if v = "approved" || v = "y" || v = "yes" then .ok "approved"
  else if Text.startsWith v "rejected:" then
    let reason := Text.strip (Text.drop (Text.strip value) 9)
    .ok ("rejected: " ++ if reason = "" then "no reason provided" else reason)
  else if v = "rejected" || v = "n" || v = "no" then .ok "rejected: no reason provided"
  else .error ("Unsupported feedback value: " ++ value)

/-- The prompt of the gate. -/
def humanGatePrompt (plan : PlanArtifact) : String :=
  "Review the proposed implementation plan.\n\nArchitectBrief JSON:\n" ++ plan.toJson.pretty ++
    "\n\nReply with 'approved' (or 'y') to proceed, or " ++
    "'rejected: <reason>' to send back for rework."

/-- `human_gate_node`. -/
def humanGateNode {ω : Type} (state : SimonState) : Code ω StateUpdate :=
  match state.planArtifact? with
  | none => Pass.raise
      "human_gate_node requires a PlanArtifact or ArchitectBrief in state['plan']"
  | some plan => do
      let resumedValue ← Pass.interrupt (humanGatePrompt plan)
      let normalized ← Pass.ofExcept (normalizeHumanFeedback resumedValue)
      return { humanFeedback := some (some normalized) }

/-- What the reader makes of a reply. -/
inductive HumanAnswer (value : String) : Except String String → Prop where
  | approved : HumanAnswer value (.ok "approved")
  | rejected (reason : String) : HumanAnswer value (.ok ("rejected: " ++ reason))
  | empty : HumanAnswer value (.error "Feedback cannot be empty")
  | unsupported : HumanAnswer value (.error ("Unsupported feedback value: " ++ value))

theorem normalizeHumanFeedback_cases (value : String) :
    HumanAnswer value (normalizeHumanFeedback value) := by
  unfold normalizeHumanFeedback
  dsimp only
  split
  · exact .empty
  · split
    · exact .approved
    · split
      · exact .rejected _
      · split
        · exact .rejected "no reason provided"
        · exact .unsupported

/-! ### One visit of the gate -/

section Visit

variable {ω : Type} {state : SimonState} {plan : PlanArtifact}

theorem humanGateNode_without_plan (h : state.planArtifact? = none) (replies : List String)
    (w : ω) : humanGateNode state replies w =
      (.raised "human_gate_node requires a PlanArtifact or ArchitectBrief in state['plan']",
        replies, w) := by
  simp only [humanGateNode, h, Pass.raise_apply]

/-- Without a reply the gate stops at its prompt. -/
theorem humanGateNode_asks (h : state.planArtifact? = some plan) (w : ω) :
    humanGateNode state [] w = (.paused (humanGatePrompt plan), [], w) := by
  simp only [humanGateNode, h]
  exact Pass.bind_of_paused (Pass.interrupt_nil _ _)

/-- With a reply the gate records what the reader makes of it. -/
theorem humanGateNode_answers (h : state.planArtifact? = some plan) (value : String)
    (rest : List String) (w : ω) :
    humanGateNode state (value :: rest) w =
      match normalizeHumanFeedback value with
      | .ok normalized => (.done { humanFeedback := some (some normalized) }, rest, w)
      | .error e => (.raised e, rest, w) := by
  simp only [humanGateNode, h]
  rw [Pass.bind_of_done (Pass.interrupt_cons _ _ _ _)]
  cases normalizeHumanFeedback value <;> rfl

end Visit

end AgentOs
