import AgentOs.Policy.Composite

/-!
The policy of a command-line run (`_stream_pass`, `cli/app.py`) and of a server
run (`runtime_policy_for_session`, `server/runtime.py`), on one workspace.

The server binds the workspace's policy to the session. The command line does so
only where that policy is a `LocalPolicy`; on any other it binds a local policy
over the standalone store, without the workspace's plugins, mode and rules.
`cli_agrees_iff` says where the two decide alike.
-/

namespace AgentOs

open AgentOs.Lib

variable {σ : Type} (υ : Type)

/-- The session of a thread id; an empty one is none. -/
def sessionKeyOf (threadId : Option String) : Option String :=
  threadId.filter (· ≠ "")

/-- The policy `_stream_pass` binds; `standalone` is `open_permission_store()`. -/
def streamPassPolicy (workspacePolicy : WorkspacePolicy σ) (threadId : Option String)
    (standalone : Option (RuleStore σ)) : PolicyEngine σ υ :=
  match workspacePolicy with
  | .localPolicy policy => (policy.withSession (sessionKeyOf threadId)).engine υ
  | .composite _ _ =>
      LocalPolicy.engine { store := standalone, sessionKey := sessionKeyOf threadId } υ

/-- `runtime_policy_for_session`, on a composed workspace. -/
def runtimePolicyForSession (workspacePolicy : WorkspacePolicy σ) (sessionKey : Option String) :
    PolicyEngine σ υ :=
  (workspacePolicy.withSession sessionKey).engine υ

/-- Where the command line decides like the workspace. The rules are those of the
standalone store and those of the workspace's. -/
def CliAgrees (workspacePolicy : WorkspacePolicy σ) (threadId : Option String)
    (standalone : Option (RuleStore σ)) (proposal : ActionProposal) (rules : σ)
    (sessions : List (String × String)) : Prop :=
  match workspacePolicy with
  | .localPolicy _ => True
  | .composite base plugins =>
      let objected := plugins.any (Objects proposal) = true
      let enforced := base.mode ≠ .off
      let granted := (base.withSession (sessionKeyOf threadId)).sessionGrant proposal sessions = true
      let default := LocalPolicy.allowedByDefault proposal = true
      let alone := LocalPolicy.ruleEffect { store := standalone } proposal rules
      let taught := base.ruleEffect proposal rules
      nonBypassable proposal = true ∨
        (alone = some .alwaysDeny ↔ objected ∨ (enforced ∧ taught = some .alwaysDeny)) ∧
        (alone ≠ some .alwaysDeny ∧ (granted ∨ alone = some .alwaysApprove ∨ default) ↔
          ¬objected ∧ (enforced → taught ≠ some .alwaysDeny ∧
            (granted ∨ taught = some .alwaysApprove ∨ default)))

section

variable {υ} {base : LocalPolicy σ} {plugins : List PolicyPlugin} {threadId : Option String}
  {standalone : Option (RuleStore σ)} {proposal : ActionProposal} {rules : σ}
  {sessions : List (String × String)} {outside : υ}

/-- What the command line decides where the workspace has plugins. -/
theorem streamPass_decision :
    ((streamPassPolicy υ (.composite base plugins) threadId standalone).evaluate
        proposal rules sessions outside).1.map (·.decision) =
      .ok (if nonBypassable proposal then .deny
        else if LocalPolicy.ruleEffect { store := standalone } proposal rules = some .alwaysDeny then
          .deny
        else if (base.withSession (sessionKeyOf threadId)).sessionGrant proposal sessions ||
            LocalPolicy.ruleEffect { store := standalone } proposal rules = some .alwaysApprove ||
            LocalPolicy.allowedByDefault proposal then .allow
        else .requireApproval) := by
  have decision := LocalPolicy.evaluate_decision
    { store := standalone, sessionKey := sessionKeyOf threadId } proposal rules sessions
  rw [if_neg nofun] at decision
  refine congrArg Except.ok (decision.trans ?_)
  simp only [nonBypassable_iff]
  rfl

/-- What the workspace's policy decides where it has plugins. -/
theorem runtimePolicy_decision :
    ((runtimePolicyForSession υ (.composite base plugins) (sessionKeyOf threadId)).evaluate
        proposal rules sessions outside).1.map (·.decision) =
      .ok (if nonBypassable proposal then .deny
        else if plugins.any (Objects proposal) then .deny
        else if base.mode = .off then .allow
        else if base.ruleEffect proposal rules = some .alwaysDeny then .deny
        else if (base.withSession (sessionKeyOf threadId)).sessionGrant proposal sessions ||
            base.ruleEffect proposal rules = some .alwaysApprove ||
            LocalPolicy.allowedByDefault proposal then .allow
        else .requireApproval) := by
  have composite := @CompositePolicyEngine.evaluate_decision _ _ proposal
    ⟨(base.withSession (sessionKeyOf threadId)).engine υ, plugins⟩ rules sessions outside
  refine composite.trans ?_
  by_cases high : nonBypassable proposal = true
  · rw [if_pos high, if_pos high]
  · rw [if_neg high, if_neg high]
    change Except.ok (if plugins.any (Objects proposal) then Decision.deny
      else ((base.withSession (sessionKeyOf threadId)).evaluate proposal rules sessions).1.decision)
        = _
    rw [LocalPolicy.evaluate_decision, if_neg (nonBypassable_iff.not.mp high)]
    rfl

end

/-- **The command line and the workspace's policy.** They decide alike exactly
where the workspace has no plugins, where the proposal is of the high tier, or
where the standalone store happens to answer what plugins, mode and rules of the
workspace add up to. -/
theorem cli_agrees_iff (workspacePolicy : WorkspacePolicy σ) (threadId : Option String)
    (standalone : Option (RuleStore σ)) (proposal : ActionProposal) (rules : σ)
    (sessions : List (String × String)) (outside : υ) :
    ((streamPassPolicy υ workspacePolicy threadId standalone).evaluate
        proposal rules sessions outside).1.map (·.decision) =
      ((runtimePolicyForSession υ workspacePolicy (sessionKeyOf threadId)).evaluate
        proposal rules sessions outside).1.map (·.decision) ↔
    CliAgrees workspacePolicy threadId standalone proposal rules sessions := by
  cases workspacePolicy with
  | localPolicy policy => exact ⟨fun _ => trivial, fun _ => rfl⟩
  | composite base plugins =>
      rw [streamPass_decision, runtimePolicy_decision, Except.ok.injEq]
      unfold CliAgrees
      dsimp only
      by_cases high : nonBypassable proposal = true
      · simp [high]
      · simp only [if_neg high]
        -- Each side of the equation has three outcomes; the condition fixes when
        -- they deny and when they allow.
        rcases LocalPolicy.ruleEffect { store := standalone } proposal rules with - | (- | -) <;>
          rcases base.ruleEffect proposal rules with - | (- | -) <;>
            cases plugins.any (Objects proposal) <;> by_cases off : base.mode = .off <;>
              cases (base.withSession (sessionKeyOf threadId)).sessionGrant proposal sessions <;>
                cases LocalPolicy.allowedByDefault proposal <;> simp [off, high]

/-- A workspace whose plugin denies a read: the server denies it, the command line
allows it. -/
theorem cli_drops_plugins :
    let denySecrets : PolicyPlugin := fun proposal =>
      if proposal.tool = "read_file" then .ok ⟨.deny, "deny-secret-read", "Forbidden"⟩
      else .ok ⟨.allow, "pass", "Allowed"⟩
    let workspacePolicy : WorkspacePolicy Unit := buildPolicy "manual" none [denySecrets]
    let read : ActionProposal := { tool := "read_file", sideEffect := .read }
    ((runtimePolicyForSession Unit workspacePolicy (sessionKeyOf "t1")).evaluate
        read () [] ()).1.map (·.decision) = .ok .deny ∧
      ((streamPassPolicy Unit workspacePolicy "t1" none).evaluate
        read () [] ()).1.map (·.decision) = .ok .allow := by
  constructor
  · rfl
  · rfl

end AgentOs
