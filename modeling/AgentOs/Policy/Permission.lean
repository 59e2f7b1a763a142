import AgentOs.Graph.HumanGate
import AgentOs.Schemas

/-!
Permission keys, policy prompts and the answers to them (`policy.py`).

Only a memory write has a permission key, and the key spells out connector, mode
and reference (`derivePermissionKey_eq_some_iff`), so two writes share a key
only where they share all three (`permissionKey_injective`). What a policy
prompt accepts is wider than what the plan gate does:
`normalizePolicyFeedback_cases` lists it.
-/

namespace AgentOs

open AgentOs.Lib

/-! ### Tiers -/

inductive Tier where
  | trivial
  | low
  | medium
  | high
deriving DecidableEq, Repr

/-- `derive_tier`: `_SIDE_EFFECT_TIER` of the proposal's side effect. -/
def deriveTier (proposal : ActionProposal) : Tier :=
  match proposal.sideEffect with
  | .read | .none => .trivial
  | .write => .low
  | .network | .communication => .medium
  | .payment | .privileged => .high

/-! ### Permission keys -/

/-- A character of `_SAFE_CONNECTOR_NAME`. -/
def isConnectorChar (c : Char) : Bool :=
  ('a' ≤ c && c ≤ 'z') || ('0' ≤ c && c ≤ '9') || c == '_'

/-- `_permission_connector`. -/
def permissionConnector (value : Option String) : Option String :=
  value.filter fun name => name ≠ "" && name.toList.all isConnectorChar

/-- `_permission_ref`. -/
def permissionRef (value : Option Json) : Option String :=
  match value with
  | some (.str ref) =>
      if ref = "" || ref.toList.contains ':' || ref.toList.any Text.isSpace then none else some ref
  | _ => none

/-- The mode an argument names. -/
def permissionMode (value : Option Json) : Option MemoryWriteMode :=
  match value with
  | some (.str mode) => MemoryWriteMode.ofText? mode
  | _ => none

/-- `derive_permission_key`. -/
def derivePermissionKey (proposal : ActionProposal) : Option String :=
  if proposal.tool ≠ "memory.write" || proposal.sideEffect ≠ .write then none
  else
    match permissionConnector proposal.connector, permissionMode (proposal.arguments.lookup "mode"),
        permissionRef (proposal.arguments.lookup "ref") with
    | some connector, some mode, some ref =>
        some ("memory_write:write:" ++ connector ++ ":" ++ mode.text ++ ":" ++ ref)
    | _, _, _ => none

/-- The parts of a permission key. -/
theorem derivePermissionKey_eq_some_iff {proposal : ActionProposal} {key : String} :
    derivePermissionKey proposal = some key ↔
      proposal.tool = "memory.write" ∧ proposal.sideEffect = .write ∧
        ∃ connector mode ref, permissionConnector proposal.connector = some connector ∧
          permissionMode (proposal.arguments.lookup "mode") = some mode ∧
          permissionRef (proposal.arguments.lookup "ref") = some ref ∧
          key = "memory_write:write:" ++ connector ++ ":" ++ mode.text ++ ":" ++ ref := by
  unfold derivePermissionKey
  by_cases h : proposal.tool = "memory.write" ∧ proposal.sideEffect = .write
  · rw [if_neg (by simp [h.1, h.2])]
    cases permissionConnector proposal.connector <;>
      cases permissionMode (proposal.arguments.lookup "mode") <;>
        cases permissionRef (proposal.arguments.lookup "ref") <;> simp [h.1, h.2, eq_comm]
  · rw [if_pos (by simpa using not_and_or.mp h)]
    constructor
    · nofun
    · rintro ⟨tool, effect, -⟩
      exact absurd ⟨tool, effect⟩ h

theorem permissionConnector_no_colon {value : Option String} {name : String}
    (h : permissionConnector value = some name) : ':' ∉ name.toList := by
  intro mem
  obtain ⟨-, safe⟩ := Option.filter_eq_some_iff.mp h
  have all := (Bool.and_eq_true_iff.mp safe).2
  exact absurd (List.all_eq_true.mp all ':' mem) (by decide)

/-- **Permission keys do not collide.** Proposals with one key have the same
connector, mode and reference. -/
theorem permissionKey_injective {p q : ActionProposal} {key : String}
    (hp : derivePermissionKey p = some key) (hq : derivePermissionKey q = some key) :
    p.connector = q.connector ∧
      permissionMode (p.arguments.lookup "mode") = permissionMode (q.arguments.lookup "mode") ∧
      permissionRef (p.arguments.lookup "ref") = permissionRef (q.arguments.lookup "ref") := by
  obtain ⟨-, -, c, m, r, hc, hm, hr, rfl⟩ := derivePermissionKey_eq_some_iff.mp hp
  obtain ⟨-, -, c', m', r', hc', hm', hr', same⟩ := derivePermissionKey_eq_some_iff.mp hq
  have lists := congrArg String.toList same
  simp only [String.toList_append, List.append_assoc] at lists
  have parts := List.append_cancel_left lists
  have colon : (":" : String).toList = [':'] := rfl
  rw [colon] at parts
  simp only [List.singleton_append] at parts
  obtain ⟨connector, rest⟩ := Text.append_separator_inj (permissionConnector_no_colon hc)
    (permissionConnector_no_colon hc') parts
  have noColon : ∀ mode : MemoryWriteMode, ':' ∉ mode.text.toList := by
    intro mode
    cases mode <;> decide
  obtain ⟨mode, ref⟩ := Text.append_separator_inj (noColon m) (noColon m') rest
  have sameMode : m = m' := by
    have := MemoryWriteMode.ofText?_text m
    rw [String.toList_inj.mp mode, MemoryWriteMode.ofText?_text] at this
    exact (Option.some.inj this).symm
  have sameConnector : p.connector = q.connector := by
    rw [(Option.filter_eq_some_iff.mp hc).1, (Option.filter_eq_some_iff.mp hc').1,
      String.toList_inj.mp connector]
  exact ⟨sameConnector, by rw [hm, hm', sameMode], by rw [hr, hr', String.toList_inj.mp ref]⟩

/-! ### Answers -/

/-- `normalize_policy_feedback` on a text. -/
def normalizePolicyFeedback (value : String) : Except String String :=
  let raw := Text.strip value
  if raw = "" then .error "Feedback cannot be empty"
  else
    let normalized := Text.substRuns (fun c => Text.isSpace c || c == '-') '_' (Text.lower raw)
    if normalized ∈ ["approved", "approve", "y", "yes"] then .ok "approved"
    else if normalized ∈ ["session", "approve_session", "session_approve"] then .ok "session"
    else if normalized = "always_approve" then .ok "always_approve"
    else if normalized = "always_deny" then .ok "always_deny"
    else if Text.startsWith normalized "rejected:" then
      let reason := Text.strip (((Text.cut raw ":").map (·.2)).getD "")
      .ok ("rejected: " ++ if reason = "" then "no reason provided" else reason)
    else if normalized ∈ ["rejected", "reject", "n", "no"] then
      .ok "rejected: no reason provided"
    else
      .error ("Unsupported policy feedback. Use 'approved', 'rejected: <reason>', " ++
        "'session', 'always_approve', or 'always_deny'.")

/-- What the reader makes of an answer. -/
inductive PolicyAnswer : Except String String → Prop where
  | approved : PolicyAnswer (.ok "approved")
  | session : PolicyAnswer (.ok "session")
  | alwaysApprove : PolicyAnswer (.ok "always_approve")
  | alwaysDeny : PolicyAnswer (.ok "always_deny")
  | rejected (reason : String) : PolicyAnswer (.ok ("rejected: " ++ reason))
  | invalid (error : String) : PolicyAnswer (.error error)

theorem normalizePolicyFeedback_cases (value : String) :
    PolicyAnswer (normalizePolicyFeedback value) := by
  unfold normalizePolicyFeedback
  dsimp only
  split
  · exact .invalid _
  · split
    · exact .approved
    · split
      · exact .session
      · split
        · exact .alwaysApprove
        · split
          · exact .alwaysDeny
          · split
            · exact .rejected _
            · split
              · exact .rejected "no reason provided"
              · exact .invalid _

/-! ### Prompts -/

/-- `POLICY_APPROVAL_PROMPT_PREFIX`. -/
def policyApprovalPromptPrefix : String := "Policy approval required:"

/-- What a prompt says about remembering the answer. -/
def rememberedScope (permissionKey : Option String) : String :=
  match permissionKey with
  | some key => " Remembered choices apply only to \x60" ++ key ++ "\x60."
  | none => " This action cannot safely be remembered; use one-time approval."

/-- The prompt of `apply_policy`. -/
def policyPrompt (proposal : ActionProposal) (reason : String) : String :=
  policyApprovalPromptPrefix ++ " " ++ proposal.tool ++ " with side_effect=" ++
    proposal.sideEffect.text ++ ". Reason: " ++ reason ++
    "\nReply 'approved' once, 'rejected: <reason>', 'session', " ++
    "'always_approve', or 'always_deny'." ++ rememberedScope (derivePermissionKey proposal)

example : normalizePolicyFeedback " Always-Approve\n" = .ok "always_approve" := by decide

end AgentOs
