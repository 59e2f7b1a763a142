import AgentOs.Policy.MemoryGate

/-!
What acting under a policy does.

`EffectsWithin P` relates the worlds before and after code whose new effects all
satisfy `P`. `memoryWrite_keeps` bounds the effects of a memory write by the
request it puts to the policy, and `applyPolicy_asks` says when a prompt is
shown.
-/

namespace AgentOs

open AgentOs.Lib

section Effects

variable {σ υ : Type}

/-- Between the two worlds only effects that satisfy `P` are added. -/
def EffectsWithin (P : Effect → Prop) (w w' : PolicyWorld σ υ) : Prop :=
  ∃ added, w'.effects = w.effects ++ added ∧ ∀ e ∈ added, P e

variable {P : Effect → Prop}

instance : Std.Refl (EffectsWithin (σ := σ) (υ := υ) P) :=
  ⟨fun _ => ⟨[], (List.append_nil _).symm, nofun⟩⟩

instance : IsTrans (PolicyWorld σ υ) (EffectsWithin P) := by
  refine ⟨?_⟩
  rintro a b c ⟨first, hb, within⟩ ⟨second, hc, within'⟩
  refine ⟨first ++ second, by rw [hc, hb, List.append_assoc], fun e mem => ?_⟩
  rcases List.mem_append.mp mem with h | h
  · exact within e h
  · exact within' e h

theorem EffectsWithin.of_eq {w w' : PolicyWorld σ υ} (h : w'.effects = w.effects) :
    EffectsWithin P w w' :=
  ⟨[], by rw [h, List.append_nil], nofun⟩

theorem EffectsWithin.one {w w' : PolicyWorld σ υ} {e : Effect}
    (h : w'.effects = w.effects ++ [e]) (he : P e) : EffectsWithin P w w' :=
  ⟨[e], h, fun _ mem => List.mem_singleton.mp mem ▸ he⟩

theorem EffectsWithin.mono {Q : Effect → Prop} {w w' : PolicyWorld σ υ} (weaken : ∀ e, P e → Q e)
    (h : EffectsWithin P w w') : EffectsWithin Q w w' := by
  obtain ⟨added, eq, within⟩ := h
  exact ⟨added, eq, fun e mem => weaken e (within e mem)⟩

/-- An effect that is new satisfies `P`. -/
theorem EffectsWithin.mem {w w' : PolicyWorld σ υ} (h : EffectsWithin P w w')
    (fresh : w.effects = []) {e : Effect} (mem : e ∈ w'.effects) : P e := by
  obtain ⟨added, eq, within⟩ := h
  rw [eq, fresh, List.nil_append] at mem
  exact within e mem

/-! ### Effects of the primitive steps -/

theorem decide_keeps (engine : PolicyEngine σ υ) (proposal : ActionProposal) :
    Pass.Keeps (EffectsWithin P) (engine.decide proposal) := by
  intro replies w
  refine .of_eq ?_
  unfold PolicyEngine.decide
  rcases engine.evaluate proposal w.rules w.sessions w.outside with ⟨decision | e, rest⟩ <;> rfl

theorem approveSession_keeps {sessionKey permissionKey : String}
    (h : P (.granted sessionKey permissionKey)) :
    Pass.Keeps (EffectsWithin (σ := σ) (υ := υ) P) (approveSession sessionKey permissionKey) :=
  .change fun _ => .one rfl h

theorem upsertRule_keeps {store : RuleStore σ} {rule : PermissionRule} (h : P (.remembered rule)) :
    Pass.Keeps (EffectsWithin (υ := υ) P) (upsertRule store rule) :=
  fun _ _ => .one rfl h

theorem writeNote_effects (connector : MemoryConnector υ) (request : WriteRequest)
    (replies : List String) (w : PolicyWorld σ υ) :
    (writeNote connector request replies w).2.2.effects = w.effects ++ [.wrote request] := by
  unfold writeNote
  rcases connector.writeNote request.ref request.content request.mode w.outside with
    ⟨result | e, outside⟩ <;> rfl

theorem writeNote_keeps {connector : MemoryConnector υ} {request : WriteRequest}
    (h : P (.wrote request)) :
    Pass.Keeps (EffectsWithin (σ := σ) P) (writeNote connector request) :=
  fun replies w => .one (writeNote_effects connector request replies w) h

theorem callOther_keeps (call : Dict → υ → Except String RawOutput × υ) (arguments : Dict) :
    Pass.Keeps (EffectsWithin (σ := σ) P) (ToolHandler.callOther call arguments) := by
  intro replies w
  refine .of_eq ?_
  unfold ToolHandler.callOther
  rcases call arguments w.outside with ⟨raw | e, outside⟩ <;> rfl

/-! ### Effects of a policy -/

section Apply

variable {α : Type} {engine : PolicyEngine σ υ} {proposal : ActionProposal}
  {executeFn : ActionProposal → Code (PolicyWorld σ υ) α}

/-- `P` allows what an answer to the proposal's prompt may leave: grants and rules
for the proposal's own key. -/
structure AllowsLearning (P : Effect → Prop) (proposal : ActionProposal) : Prop where
  granted : ∀ sessionKey key, derivePermissionKey proposal = some key → P (.granted sessionKey key)
  remembered : ∀ rule, derivePermissionKey proposal = some rule.permissionKey → P (.remembered rule)

theorem executeProposal_keeps (execute : Pass.Keeps (EffectsWithin P) (executeFn proposal)) :
    Pass.Keeps (EffectsWithin P) (executeProposal proposal executeFn) :=
  .bind execute fun _ => .done _

theorem applyAnswer_keeps (learning : AllowsLearning P proposal)
    (execute : Pass.Keeps (EffectsWithin P) (executeFn proposal)) (workspaceId : Option String)
    (taughtBy feedback : String) :
    Pass.Keeps (EffectsWithin P)
      (applyAnswer engine proposal workspaceId taughtBy executeFn feedback) := by
  have executed := executeProposal_keeps execute
  unfold applyAnswer
  split
  · exact executed
  · split
    · exact .done _
    · split
      · split
        · exact executed
        · exact .done _
      · split
        · exact .done _
        · rename_i key hkey
          split
          · split
            · exact .done _
            · exact .bind (approveSession_keeps (learning.granted _ _ hkey)) fun _ => executed
          · unfold rememberRule
            split
            · exact .done _
            · refine .bind (upsertRule_keeps (learning.remembered _ hkey)) fun saved => ?_
              cases saved with
              | error _ => exact .done _
              | ok _ =>
                  dsimp only
                  split
                  · exact executed
                  · exact .done _

/-- A policy leaves what its answers may leave and what the action leaves. -/
theorem applyPolicy_keeps (learning : AllowsLearning P proposal)
    (execute : Pass.Keeps (EffectsWithin P) (executeFn proposal)) (workspaceId : Option String)
    (taughtBy : String) :
    Pass.Keeps (EffectsWithin P)
      (applyPolicy engine proposal workspaceId taughtBy executeFn) := by
  refine .bind (decide_keeps engine proposal) fun decision => ?_
  cases decision.decision with
  | allow => exact executeProposal_keeps execute
  | deny => exact .done _
  | requireApproval =>
      refine .bind (.interrupt _) fun raw => ?_
      cases normalizePolicyFeedback raw with
      | error e => exact .done _
      | ok feedback => exact applyAnswer_keeps learning execute workspaceId taughtBy feedback

/-! ### Prompts and permissions -/

/-- The engine may ask about a proposal. -/
def PolicyEngine.Asks (engine : PolicyEngine σ υ) (proposal : ActionProposal) : Prop :=
  ∃ rules sessions outside decision,
    (engine.evaluate proposal rules sessions outside).1 = .ok decision ∧
      decision.decision = .requireApproval

/-- The engine may let a proposal through, asked or not. -/
def PolicyEngine.Permits (engine : PolicyEngine σ υ) (proposal : ActionProposal) : Prop :=
  ∃ rules sessions outside decision,
    (engine.evaluate proposal rules sessions outside).1 = .ok decision ∧
      decision.decision ≠ .deny

theorem PolicyEngine.Asks.permits (h : engine.Asks proposal) : engine.Permits proposal := by
  obtain ⟨rules, sessions, outside, decision, evaluated, asks⟩ := h
  exact ⟨rules, sessions, outside, decision, evaluated, by rw [asks]; nofun⟩

/-- Code that never stops at a prompt. -/
def NeverAsks (p : Code (PolicyWorld σ υ) α) : Prop :=
  ∀ replies w prompt, (p replies w).1 ≠ .paused prompt

theorem writeNote_silent (connector : MemoryConnector υ) (request : WriteRequest) :
    NeverAsks (σ := σ) (writeNote connector request) := by
  intro replies w prompt
  unfold writeNote
  rcases connector.writeNote request.ref request.content request.mode w.outside with
    ⟨result | e, outside⟩ <;> nofun

theorem callOther_silent (call : Dict → υ → Except String RawOutput × υ) (arguments : Dict) :
    NeverAsks (σ := σ) (ToolHandler.callOther call arguments) := by
  intro replies w prompt
  unfold ToolHandler.callOther
  rcases call arguments w.outside with ⟨raw | e, outside⟩ <;> nofun

theorem executeProposal_silent (silent : NeverAsks (executeFn proposal)) :
    NeverAsks (executeProposal proposal executeFn) :=
  fun replies w prompt h => silent replies w prompt (Pass.map_paused_iff.mp h)

variable {w : PolicyWorld σ υ} {workspaceId : Option String} {taughtBy : String}

theorem decide_of_ok (replies : List String) {decision : PolicyDecision}
    (h : (engine.evaluate proposal w.rules w.sessions w.outside).1 = .ok decision) :
    ∃ w', w'.effects = w.effects ∧
      w'.rules = (engine.evaluate proposal w.rules w.sessions w.outside).2.1 ∧
      engine.decide proposal replies w = (.done decision, replies, w') := by
  rcases evaluated : engine.evaluate proposal w.rules w.sessions w.outside with
    ⟨answer, rules, outside⟩
  rw [evaluated] at h
  cases h
  exact ⟨{ w with rules, outside }, rfl, rfl, by rw [PolicyEngine.decide, evaluated]⟩

theorem decide_of_error (replies : List String) {e : String}
    (h : (engine.evaluate proposal w.rules w.sessions w.outside).1 = .error e) :
    ∃ w', w'.effects = w.effects ∧
      engine.decide proposal replies w = (.raised e, replies, w') := by
  rcases evaluated : engine.evaluate proposal w.rules w.sessions w.outside with
    ⟨answer, rules, outside⟩
  rw [evaluated] at h
  cases h
  exact ⟨{ w with rules, outside }, rfl, by rw [PolicyEngine.decide, evaluated]⟩

/-- An engine that lets nothing of a proposal through leaves no effects. -/
theorem applyPolicy_of_not_permits (h : ¬ engine.Permits proposal) :
    Pass.Keeps (EffectsWithin fun _ => False)
      (applyPolicy engine proposal workspaceId taughtBy executeFn) := by
  intro replies w
  refine .of_eq ?_
  unfold applyPolicy
  cases evaluated : (engine.evaluate proposal w.rules w.sessions w.outside).1 with
  | ok decision =>
      obtain ⟨w', same, -, decided⟩ := decide_of_ok replies evaluated
      have denied : decision.decision = .deny := by
        by_contra permitted
        exact h ⟨_, _, _, decision, evaluated, permitted⟩
      rw [Pass.bind_of_done decided, denied]
      exact same
  | error e =>
      obtain ⟨w', same, decided⟩ := decide_of_error replies evaluated
      rw [Pass.bind_of_raised decided]
      exact same

/-- Where the engine asks, the policy stops at its prompt. -/
theorem applyPolicy_asks {decision : PolicyDecision}
    (evaluated : (engine.evaluate proposal w.rules w.sessions w.outside).1 = .ok decision)
    (asks : decision.decision = .requireApproval) :
    (applyPolicy engine proposal workspaceId taughtBy executeFn [] w).1 =
      .paused (policyPrompt proposal decision.reason) := by
  unfold applyPolicy
  obtain ⟨w', -, -, decided⟩ := decide_of_ok [] evaluated
  rw [Pass.bind_of_done decided, asks]
  rfl

/-- Only where the engine asks: an action that asks nothing itself stops at no
other prompt. -/
theorem asks_of_applyPolicy_paused (silent : NeverAsks (executeFn proposal)) {prompt : String}
    (h : (applyPolicy engine proposal workspaceId taughtBy executeFn [] w).1 = .paused prompt) :
    ∃ decision, (engine.evaluate proposal w.rules w.sessions w.outside).1 = .ok decision ∧
      decision.decision = .requireApproval ∧ prompt = policyPrompt proposal decision.reason := by
  unfold applyPolicy at h
  cases evaluated : (engine.evaluate proposal w.rules w.sessions w.outside).1 with
  | error e =>
      obtain ⟨w', -, decided⟩ := decide_of_error [] evaluated
      rw [Pass.bind_of_raised decided] at h
      cases h
  | ok decision =>
      obtain ⟨w', -, -, decided⟩ := decide_of_ok [] evaluated
      rw [Pass.bind_of_done decided] at h
      refine ⟨decision, rfl, ?_⟩
      cases decided : decision.decision with
      | requireApproval =>
          rw [decided] at h
          cases h
          exact ⟨rfl, rfl⟩
      | deny =>
          rw [decided] at h
          cases h
      | allow =>
          rw [decided] at h
          exact absurd h (executeProposal_silent silent [] w' prompt)

variable (workspaceId taughtBy executeFn) in
/-- Approved, or let through without asking, the action is executed. -/
theorem applyPolicy_executes {decision : PolicyDecision}
    (evaluated : (engine.evaluate proposal w.rules w.sessions w.outside).1 = .ok decision)
    (permits : decision.decision ≠ .deny) :
    ∃ replies w', w'.effects = w.effects ∧
      (applyPolicy engine proposal workspaceId taughtBy executeFn ["approved"] w).2.2 =
        (executeFn proposal replies w').2.2 := by
  unfold applyPolicy
  obtain ⟨w', same, -, decided⟩ := decide_of_ok ["approved"] evaluated
  rw [Pass.bind_of_done decided]
  have executed : ∀ replies, (executeProposal proposal executeFn replies w').2.2 =
      (executeFn proposal replies w').2.2 :=
    fun replies => congrArg Prod.snd (Pass.map_world ..)
  cases answered : decision.decision with
  | deny => exact absurd answered permits
  | allow => exact ⟨["approved"], w', same, executed _⟩
  | requireApproval => exact ⟨[], w', same, executed _⟩

end Apply

end Effects

end AgentOs
