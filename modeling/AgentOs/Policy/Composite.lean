import AgentOs.Policy.Engine
import Mathlib.Data.List.Perm.Basic

/-!
Policy plugins (`policy.py`, `workspace.py`).

A `CompositePolicyEngine` asks its base policy and then its plugins, and a plugin
can only object. The engine stops at the first objection, so which plugin gives
the reason depends on their order; `evaluate_decision` says that the decision
does not, and `composite_only_restricts` lists what follows from it.

`buildPolicy` is what a workspace gets: a local policy, or one with plugins.
-/

namespace AgentOs

open AgentOs.Lib

/-! ### How restrictive a decision is -/

/-- From permissive to restrictive. -/
def Decision.rank : Decision → Nat
  | allow => 0
  | requireApproval => 1
  | deny => 2

instance : LE Decision where
  le d d' := d.rank ≤ d'.rank

theorem Decision.le_refl (d : Decision) : d ≤ d := Nat.le_refl d.rank

theorem Decision.le_deny (d : Decision) : d ≤ .deny := by
  change d.rank ≤ 2
  cases d <;> decide

/-! ### Plugins -/

/-- A policy plugin: it answers a proposal or raises. -/
abbrev PolicyPlugin := ActionProposal → Except String PolicyDecision

/-- What the engine returns where a plugin raises or denies. -/
def objection (proposal : ActionProposal) (plugin : PolicyPlugin) : Option PolicyDecision :=
  match plugin proposal with
  | .error exc =>
      some ⟨.deny, "policy-plugin-error", "Policy plugin evaluation failed: " ++ exc⟩
  | .ok pluginDecision =>
      if pluginDecision.decision = .deny then
        some
          { decision := .deny
            policyId := if pluginDecision.policyId = "" then "policy-plugin-denied"
              else pluginDecision.policyId
            reason := if pluginDecision.reason = "" then "Denied by policy plugin"
              else pluginDecision.reason }
      else none

/-- The plugin denies the proposal or raises on it. -/
def Objects (proposal : ActionProposal) (plugin : PolicyPlugin) : Bool :=
  (objection proposal plugin).isSome

/-- `CompositePolicyEngine`. -/
structure CompositePolicyEngine (σ υ : Type) where
  basePolicy : PolicyEngine σ υ
  plugins : List PolicyPlugin := []

/-- The effects no policy with plugins lets through. -/
def nonBypassable (proposal : ActionProposal) : Bool :=
  proposal.sideEffect = .payment || proposal.sideEffect = .privileged

theorem nonBypassable_iff {proposal : ActionProposal} :
    nonBypassable proposal = true ↔ deriveTier proposal = .high := by
  unfold nonBypassable deriveTier
  cases proposal.sideEffect <;> decide

namespace CompositePolicyEngine

variable {σ υ : Type}

/-- The loop over the plugins: the first objection, or the base decision. -/
def evaluatePlugins (proposal : ActionProposal) (baseDecision : PolicyDecision) :
    List PolicyPlugin → PolicyDecision
  | [] => baseDecision
  | plugin :: rest =>
      match objection proposal plugin with
      | some denial => denial
      | none => evaluatePlugins proposal baseDecision rest

variable (policy : CompositePolicyEngine σ υ)

/-- `CompositePolicyEngine.evaluate`. -/
def evaluate (proposal : ActionProposal) (rules : σ) (sessions : List (String × String))
    (outside : υ) : Except String PolicyDecision × σ × υ :=
  if nonBypassable proposal then
    (.ok ⟨.deny, "default", "Default taxonomy for " ++ proposal.sideEffect.text⟩, rules, outside)
  else
    match policy.basePolicy.evaluate proposal rules sessions outside with
    | (.error e, rules', outside') => (.error e, rules', outside')
    | (.ok baseDecision, rules', outside') =>
        if baseDecision.decision = .deny then (.ok baseDecision, rules', outside')
        else (.ok (evaluatePlugins proposal baseDecision policy.plugins), rules', outside')

/-- The composite as an engine; its store and its session are its base's. -/
def engine : PolicyEngine σ υ where
  evaluate := policy.evaluate
  store := policy.basePolicy.store
  sessionKey := policy.basePolicy.sessionKey

end CompositePolicyEngine

/-! ### The policy of a workspace -/

/-- What `_build_policy` returns. -/
inductive WorkspacePolicy (σ : Type) where
  | localPolicy (policy : LocalPolicy σ)
  | composite (base : LocalPolicy σ) (plugins : List PolicyPlugin)

/-- `_build_policy`, on the text of the mode and the plugins that were loaded. -/
def buildPolicy {σ : Type} (mode : String) (store : Option (RuleStore σ))
    (plugins : List PolicyPlugin) : WorkspacePolicy σ :=
  let basePolicy : LocalPolicy σ := { store, mode := .ofText mode }
  if plugins.isEmpty then .localPolicy basePolicy else .composite basePolicy plugins

/-- `LocalPolicy.with_session`. -/
def LocalPolicy.withSession {σ : Type} (policy : LocalPolicy σ) (sessionKey : Option String) :
    LocalPolicy σ :=
  { policy with sessionKey }

namespace WorkspacePolicy

variable {σ : Type}

/-- `with_session`. -/
def withSession (sessionKey : Option String) : WorkspacePolicy σ → WorkspacePolicy σ
  | localPolicy policy => localPolicy (policy.withSession sessionKey)
  | composite base plugins => composite (base.withSession sessionKey) plugins

/-- The policy as an engine. -/
def engine (υ : Type) : WorkspacePolicy σ → PolicyEngine σ υ
  | localPolicy policy => policy.engine υ
  | composite base plugins => CompositePolicyEngine.engine ⟨base.engine υ, plugins⟩

end WorkspacePolicy

/-! ### Plugins only restrict -/

namespace CompositePolicyEngine

variable {σ υ : Type} {proposal : ActionProposal} {base : PolicyDecision}

theorem objection_denies {plugin : PolicyPlugin} {denial : PolicyDecision}
    (h : objection proposal plugin = some denial) : denial.decision = .deny := by
  unfold objection at h
  split at h
  · cases h
    rfl
  · split at h
    · cases h
      rfl
    · cases h

/-- The plugins deny where one of them objects, and leave the decision alone
where none does. -/
theorem evaluatePlugins_decision (plugins : List PolicyPlugin) :
    (evaluatePlugins proposal base plugins).decision =
      if plugins.any (Objects proposal) then .deny else base.decision := by
  induction plugins with
  | nil => rfl
  | cons plugin rest ih =>
      unfold evaluatePlugins
      cases h : objection proposal plugin with
      | some denial => simp [Objects, h, objection_denies h]
      | none => simp [Objects, h, ih]

/-- **The decision of a composite policy**, whatever its order of plugins. -/
theorem evaluate_decision (policy : CompositePolicyEngine σ υ) (rules : σ)
    (sessions : List (String × String)) (outside : υ) :
    (policy.evaluate proposal rules sessions outside).1.map (·.decision) =
      if nonBypassable proposal then .ok .deny
      else (policy.basePolicy.evaluate proposal rules sessions outside).1.map fun base =>
        if policy.plugins.any (Objects proposal) then .deny else base.decision := by
  unfold evaluate
  by_cases high : nonBypassable proposal = true
  · rw [if_pos high, if_pos high]
    rfl
  · rw [if_neg high, if_neg high]
    rcases policy.basePolicy.evaluate proposal rules sessions outside with
      ⟨e | baseDecision, rules', outside'⟩
    · rfl
    · dsimp only
      by_cases denied : baseDecision.decision = .deny
      · rw [if_pos denied]
        simp [Except.map, denied]
      · rw [if_neg denied]
        simp [Except.map, evaluatePlugins_decision]

/-- Below the high tier the base's denial is final. -/
theorem evaluate_of_denied (policy : CompositePolicyEngine σ υ) {rules : σ}
    {sessions : List (String × String)} {outside : υ} (low : nonBypassable proposal = false)
    (h : (policy.basePolicy.evaluate proposal rules sessions outside).1 = .ok base)
    (denied : base.decision = .deny) :
    (policy.evaluate proposal rules sessions outside).1 = .ok base := by
  unfold evaluate
  rw [if_neg (by simp [low])]
  rcases hb : policy.basePolicy.evaluate proposal rules sessions outside with
    ⟨answer, rules', outside'⟩
  rw [hb] at h
  cases h
  simp only [if_pos denied]

/-- The high tier is denied before the base is asked. -/
theorem evaluate_of_nonBypassable (policy : CompositePolicyEngine σ υ) {rules : σ}
    {sessions : List (String × String)} {outside : υ} (high : nonBypassable proposal = true) :
    (policy.evaluate proposal rules sessions outside).1 =
      .ok ⟨.deny, "default", "Default taxonomy for " ++ proposal.sideEffect.text⟩ := by
  unfold evaluate
  rw [if_pos high]

/-- The decision, where the policy returns one. -/
theorem evaluate_eq_ok_iff (policy : CompositePolicyEngine σ υ) {rules : σ}
    {sessions : List (String × String)} {outside : υ} {d : PolicyDecision}
    (low : nonBypassable proposal = false)
    (h : (policy.evaluate proposal rules sessions outside).1 = .ok d) :
    ∃ base, (policy.basePolicy.evaluate proposal rules sessions outside).1 = .ok base ∧
      d.decision = if policy.plugins.any (Objects proposal) then .deny else base.decision := by
  have decision := @evaluate_decision _ _ proposal policy rules sessions outside
  rw [h, if_neg (by simp [low])] at decision
  cases hb : (policy.basePolicy.evaluate proposal rules sessions outside).1 with
  | error e =>
      rw [hb] at decision
      cases decision
  | ok base =>
      rw [hb] at decision
      exact ⟨base, rfl, Except.ok.inj decision⟩

end CompositePolicyEngine

/-- A local policy denies the high tier in the taxonomy's words, so a local base's
denial is always returned as it is. -/
theorem local_denial_kept {σ υ : Type} (base : LocalPolicy σ) (plugins : List PolicyPlugin)
    (proposal : ActionProposal) (rules : σ) (sessions : List (String × String)) (outside : υ)
    {b : PolicyDecision} (h : (base.evaluate proposal rules sessions).1 = b)
    (denied : b.decision = .deny) :
    (CompositePolicyEngine.evaluate ⟨base.engine υ, plugins⟩ proposal rules sessions outside).1 =
      .ok b := by
  cases high : nonBypassable proposal with
  | true =>
      rw [CompositePolicyEngine.evaluate_of_nonBypassable _ high, ← h]
      have tier := nonBypassable_iff.mp high
      unfold LocalPolicy.evaluate at h ⊢
      by_cases off : base.mode = .off
      · rw [if_pos off] at h
        cases h
        cases denied
      · rw [if_neg off, if_pos tier]
  | false =>
      exact CompositePolicyEngine.evaluate_of_denied ⟨base.engine υ, plugins⟩ high
        (congrArg Except.ok h) denied

end AgentOs
