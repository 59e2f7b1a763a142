import AgentOs.Policy.Effects
import AgentOs.Server.RunTasks

/-!
What the ledger says about an approval request (`server/api.py`).

`approveRun` records the decision `"approved"` for every request it accepts and
hands the feedback to the interrupted node, which reads it on its own terms:
the plan gate with `normalize_human_feedback`, a policy prompt with
`normalize_policy_feedback`. `approval_recorded_truly_iff` gives the feedback
for which ledger and node agree.
-/

namespace AgentOs

open AgentOs.Lib

/-! ### The interrupted node -/

/-- An interrupt a run waits at: a plan at the gate, or a memory write the policy
asks about. -/
inductive PendingInterrupt (σ υ : Type) where
  | plan (state : SimonState) (drafted : state.planArtifact?.isSome = true)
  | write (scope : ToolScope σ υ) (request : WriteRequest) (w : PolicyWorld σ υ)
      (decision : PolicyDecision)
      (evaluated : (scope.policy.evaluate request.action w.rules w.sessions w.outside).1 =
        .ok decision)
      (asks : decision.decision = .requireApproval)

namespace PendingInterrupt

variable {σ υ : Type}

/-- The interrupted node takes the value as an approval: the gate writes
`"approved"`, the policy executes the action. -/
def takesAsApproval (value : String) : PendingInterrupt σ υ → Prop
  | plan state _ =>
      (humanGateNode (ω := Unit) state [value] ()).1 =
        .done { humanFeedback := some (some "approved") }
  | write scope request w _ _ _ =>
      (applyPolicy scope.policy request.action none scope.principal
        (fun _ => Pass.done ()) [value] w).1 = .done (.executed ())

/-- The rule an `always_approve` teaches about a write with this key. -/
def taughtRule (scope : ToolScope σ υ) (key : String) : PermissionRule :=
  { permissionKey := key, effect := .alwaysApprove, tierAtCreation := .low
    taughtBy := some scope.principal }

/-- The word a policy prompt reads. -/
def policyWord (value : String) : String :=
  Text.substRuns (fun c => Text.isSpace c || c == '-') '_' (Text.lower (Text.strip value))

/-- The values that approve, spelled out: three words at the gate; at a policy
prompt four words, a session where the write has a key and the policy a session,
and `always_approve` where the rule can be saved. -/
def approvingValue (value : String) : PendingInterrupt σ υ → Prop
  | plan _ _ => Text.lower (Text.strip value) ∈ ["approved", "y", "yes"]
  | write scope request w _ _ _ =>
      policyWord value ∈ ["approved", "approve", "y", "yes"] ∨
      policyWord value ∈ ["session", "approve_session", "session_approve"] ∧
        (derivePermissionKey request.action).isSome = true ∧
        scope.policy.sessionKey.isSome = true ∨
      policyWord value = "always_approve" ∧
        ∃ key store, derivePermissionKey request.action = some key ∧
          scope.policy.store = some store ∧
          (store.upsert (taughtRule scope key)
            (scope.policy.evaluate request.action w.rules w.sessions w.outside).2.1).1 = .ok ()

end PendingInterrupt

/-! ### The readers, by word -/

/-- A rejection is none of the words that approve. -/
theorem rejected_ne (reason : String) {word : String} (h : Text.startsWith word "rejected: " = false) :
    "rejected: " ++ reason ≠ word := by
  rintro rfl
  simp [Text.startsWith, String.toList_append] at h

theorem normalizeHumanFeedback_approved_iff (value : String) :
    normalizeHumanFeedback value = .ok "approved" ↔
      Text.lower (Text.strip value) ∈ ["approved", "y", "yes"] := by
  unfold normalizeHumanFeedback
  dsimp only
  split
  · rename_i empty
    simp [empty]
  · split
    · rename_i _ approved
      simpa [or_assoc] using approved
    · rename_i _ other
      have absent : Text.lower (Text.strip value) ∉ ["approved", "y", "yes"] := by
        simpa [not_or, and_assoc] using other
      refine iff_of_false ?_ absent
      split
      · exact fun h => rejected_ne _ (by decide) (Except.ok.inj h)
      · split
        · exact fun h => rejected_ne "no reason provided" (by decide) (Except.ok.inj h)
        · nofun

open PendingInterrupt in
/-- What a policy prompt reads, by word. -/
theorem normalizePolicyFeedback_iff (value : String) :
    (normalizePolicyFeedback value = .ok "approved" ↔
        policyWord value ∈ ["approved", "approve", "y", "yes"]) ∧
      (normalizePolicyFeedback value = .ok "session" ↔
        policyWord value ∈ ["session", "approve_session", "session_approve"]) ∧
      (normalizePolicyFeedback value = .ok "always_approve" ↔
        policyWord value = "always_approve") := by
  have blank : Text.strip value = "" → policyWord value = "" := by
    intro h
    rw [policyWord, h]
    decide
  unfold normalizePolicyFeedback
  dsimp only
  rw [show Text.substRuns (fun c => Text.isSpace c || c == '-') '_'
    (Text.lower (Text.strip value)) = policyWord value from rfl]
  split
  · simp [blank ‹_›]
  · clear blank
    generalize policyWord value = word
    split
    · rename_i approved
      simp only [List.mem_cons, List.not_mem_nil, or_false] at approved
      rcases approved with rfl | rfl | rfl | rfl <;> simp
    · rename_i notApproved
      split
      · rename_i session
        simp only [List.mem_cons, List.not_mem_nil, or_false] at session
        rcases session with rfl | rfl | rfl <;> simp
      · rename_i notSession
        split
        · rename_i always
          simp [always]
        · rename_i notAlways
          refine ⟨iff_of_false ?_ notApproved, iff_of_false ?_ notSession,
            iff_of_false ?_ notAlways⟩
          -- what is left is a denial, a rejection or an error
          all_goals
            intro same
            split at same
            · simp at same
            · split at same
              · exact rejected_ne _ (by decide) (Except.ok.inj same)
              · split at same <;> simp at same

/-! ### What the node makes of it -/

section Node

variable {σ υ : Type}

/-- A policy that asks reads the value and acts on the answer, in the world its
evaluation left. -/
theorem applyPolicy_answered {α : Type} {engine : PolicyEngine σ υ} {proposal : ActionProposal}
    {w : PolicyWorld σ υ} {decision : PolicyDecision}
    (evaluated : (engine.evaluate proposal w.rules w.sessions w.outside).1 = .ok decision)
    (asks : decision.decision = .requireApproval) (workspaceId : Option String) (taughtBy : String)
    (executeFn : ActionProposal → Code (PolicyWorld σ υ) α) (value : String) :
    ∃ w', w'.rules = (engine.evaluate proposal w.rules w.sessions w.outside).2.1 ∧
      applyPolicy engine proposal workspaceId taughtBy executeFn [value] w =
        match normalizePolicyFeedback value with
        | .error e => refuse .cancelled ("Rejected: " ++ e) [] w'
        | .ok feedback =>
            applyAnswer engine proposal workspaceId taughtBy executeFn feedback [] w' := by
  unfold applyPolicy
  obtain ⟨w', -, rules, decided⟩ := decide_of_ok [value] evaluated
  refine ⟨w', rules, ?_⟩
  rw [Pass.bind_of_done decided, asks]
  dsimp only
  rw [Pass.bind_of_done (Pass.interrupt_cons _ _ _ _)]
  cases normalizePolicyFeedback value <;> rfl

/-- A remembered answer executes the action exactly if it approves and the rule is
saved. -/
theorem rememberRule_executes_iff {engine : PolicyEngine σ υ} {proposal : ActionProposal}
    {key taughtBy : String} {effect : RuleEffect} {w : PolicyWorld σ υ} :
    (rememberRule engine proposal key none taughtBy effect (fun _ => Pass.done ()) [] w).1 =
        .done (.executed ()) ↔
      effect = .alwaysApprove ∧ ∃ store, engine.store = some store ∧
        (store.upsert { permissionKey := key, effect := effect,
                        tierAtCreation := deriveTier proposal, taughtBy := some taughtBy }
          w.rules).1 = .ok () := by
  unfold rememberRule
  cases engine.store with
  | none => exact iff_of_false nofun (by simp)
  | some store =>
      let rule : PermissionRule :=
        { permissionKey := key, effect := effect, tierAtCreation := deriveTier proposal
          taughtBy := some taughtBy }
      have saved : upsertRule store rule [] w = (.done (store.upsert rule w.rules).1, [],
        { w with rules := (store.upsert rule w.rules).2
                 effects := w.effects ++ [.remembered rule] }) := rfl
      dsimp only
      rw [Pass.bind_of_done saved]
      cases upserted : (store.upsert rule w.rules).1 with
      | error e => exact iff_of_false nofun (by simp [rule, upserted])
      | ok _ =>
          by_cases approve : effect = .alwaysApprove
          · simp only [if_pos approve]
            exact iff_of_true rfl ⟨approve, store, rfl, upserted⟩
          · simp only [if_neg approve]
            exact iff_of_false nofun fun h => approve h.1

/-- An answer executes a write exactly if it approves once, grants a session that
exists, or saves a rule. -/
theorem applyAnswer_executes_iff {engine : PolicyEngine σ υ} {request : WriteRequest}
    {taughtBy feedback : String} {w : PolicyWorld σ υ} (answer : PolicyAnswer (.ok feedback)) :
    (applyAnswer engine request.action none taughtBy (fun _ => Pass.done ()) feedback [] w).1 =
        .done (.executed ()) ↔
      feedback = "approved" ∨
      feedback = "session" ∧ (derivePermissionKey request.action).isSome = true ∧
        engine.sessionKey.isSome = true ∨
      feedback = "always_approve" ∧
        ∃ key store, derivePermissionKey request.action = some key ∧ engine.store = some store ∧
          (store.upsert { permissionKey := key, effect := .alwaysApprove, tierAtCreation := .low,
                          taughtBy := some taughtBy } w.rules).1 = .ok () := by
  have low : deriveTier request.action = .low := rfl
  cases answer with
  | approved => exact iff_of_true rfl (.inl rfl)
  | session =>
      cases key : derivePermissionKey request.action with
      | none => simp [applyAnswer, key, low, Text.startsWith, refuse]
      | some permissionKey =>
          cases session : engine.sessionKey with
          | none => simp [applyAnswer, key, low, session, Text.startsWith, refuse]
          | some sessionKey =>
              refine iff_of_true ?_ (.inr (.inl ⟨rfl, rfl, rfl⟩))
              simp only [applyAnswer, key, session]
              rfl
  | alwaysApprove =>
      cases key : derivePermissionKey request.action with
      | none => simp [applyAnswer, key, low, Text.startsWith, refuse]
      | some permissionKey =>
          have remembers : applyAnswer engine request.action none taughtBy (fun _ => Pass.done ())
              "always_approve" = rememberRule engine request.action permissionKey none taughtBy
                .alwaysApprove fun _ => Pass.done () := by
            simp [applyAnswer, key, low, Text.startsWith]
          rw [remembers, rememberRule_executes_iff, low]
          simp
  | alwaysDeny =>
      refine iff_of_false ?_ (by simp)
      cases key : derivePermissionKey request.action with
      | none => simp [applyAnswer, key, low, Text.startsWith, refuse]
      | some permissionKey =>
          have remembers : applyAnswer engine request.action none taughtBy (fun _ => Pass.done ())
              "always_deny" = rememberRule engine request.action permissionKey none taughtBy
                .alwaysDeny fun _ => Pass.done () := by
            simp [applyAnswer, key, low, Text.startsWith]
          rw [remembers, rememberRule_executes_iff]
          exact fun h => nomatch h.1
  | rejected reason =>
      have rejects : Text.startsWith ("rejected: " ++ reason) "rejected" = true := by
        simp [Text.startsWith, String.toList_append]
      have approves : "rejected: " ++ reason ≠ "approved" := rejected_ne _ (by decide)
      have session : "rejected: " ++ reason ≠ "session" := rejected_ne _ (by decide)
      have always : "rejected: " ++ reason ≠ "always_approve" := rejected_ne _ (by decide)
      simp [applyAnswer, rejects, approves, session, always, refuse]

/-- The values an interrupted node takes as an approval. -/
theorem takesAsApproval_iff (interrupt : PendingInterrupt σ υ) (value : String) :
    interrupt.takesAsApproval value ↔ interrupt.approvingValue value := by
  cases interrupt with
  | plan state drafted =>
      obtain ⟨plan, hplan⟩ := Option.isSome_iff_exists.mp drafted
      simp only [PendingInterrupt.takesAsApproval, PendingInterrupt.approvingValue]
      rw [humanGateNode_answers hplan, ← normalizeHumanFeedback_approved_iff]
      cases normalizeHumanFeedback value with
      | error e => exact iff_of_false nofun nofun
      | ok normalized => simp
  | write scope request w decision evaluated asks =>
      obtain ⟨w', rules, answered⟩ := applyPolicy_answered evaluated asks none scope.principal
        (fun _ => Pass.done ()) value
      obtain ⟨once, session, always⟩ := normalizePolicyFeedback_iff value
      have cases_ := normalizePolicyFeedback_cases value
      simp only [PendingInterrupt.takesAsApproval, PendingInterrupt.approvingValue]
      rw [answered, ← once, ← session, ← always, ← rules]
      cases read : normalizePolicyFeedback value with
      | error e => exact iff_of_false nofun (by simp)
      | ok feedback =>
          rw [read] at cases_
          refine (applyAnswer_executes_iff cases_).trans ?_
          simp only [Except.ok.injEq, PendingInterrupt.taughtRule]

end Node

/-! ### Truth of the ledger -/

section Truth

variable {σ υ : Type}

/-- The request is accepted and leaves one decision, which is `"approved"` exactly
if the interrupted node takes the value it is resumed with as an approval. -/
def RecordedTruly (r : RunRecord) (actor : Actor) (feedback : Option String)
    (interrupt : PendingInterrupt σ υ) : Prop :=
  ∃ value approval, (approveRun r actor feedback).1 = .resumed value ∧
    (approveRun r actor feedback).2.approvals = r.approvals ++ [approval] ∧
    (approval.decision = "approved" ↔ interrupt.takesAsApproval value)

/-- **The ledger tells the truth about exactly the approving values.** For every
interrupted run, either kind of interrupt and every request body. -/
theorem approval_recorded_truly_iff {r : RunRecord} (interrupted : r.status? = some .interrupted)
    (actor : Actor) (feedback : Option String) (interrupt : PendingInterrupt σ υ) :
    RecordedTruly r actor feedback interrupt ↔ interrupt.approvingValue (feedback.getD "") := by
  obtain ⟨resumed, approval, added, decided⟩ := approveRun_accepted interrupted actor feedback
  rw [← takesAsApproval_iff]
  constructor
  · rintro ⟨value, approval', resumed', added', truly⟩
    cases resumed.symm.trans resumed'
    cases List.append_cancel_left (added.symm.trans added')
    exact truly.mp decided
  · intro takes
    exact ⟨_, approval, resumed, added, iff_of_true decided takes⟩

/-- A run interrupted at the gate. -/
def gatedRun : RunRecord :=
  { row := some { threadId := "thread", status := .interrupted } }

/-- The plan it waits with. -/
def gatedPlan : PendingInterrupt Unit Unit :=
  .plan { plan := some (.artifact { summary := "plan" }) } rfl

/-- `y` is recorded as what it is. -/
theorem approval_recorded_truly_iff_sample :
    gatedRun.status? = some .interrupted ∧
      RecordedTruly gatedRun ⟨"local", "user", none⟩ (some " Y ") gatedPlan :=
  ⟨rfl, (approval_recorded_truly_iff rfl ⟨"local", "user", none⟩ (some " Y ") gatedPlan).mpr
    (show Text.lower (Text.strip " Y ") ∈ ["approved", "y", "yes"] by decide)⟩

/-- A rejection sends the plan back to the architect, and the ledger says
`"approved"`. -/
theorem rejection_recorded_as_approval :
    (approveRun gatedRun ⟨"local", "user", none⟩ (some "rejected: too risky")).2.approvals =
        [⟨1, "approved", ⟨"local", "user", none⟩, some "rejected: too risky"⟩] ∧
      (humanGateNode (ω := Unit) { plan := some (.artifact { summary := "plan" }) }
        ["rejected: too risky"] ()).1 =
          .done { humanFeedback := some (some "rejected: too risky") } ∧
      ¬ RecordedTruly gatedRun ⟨"local", "user", none⟩ (some "rejected: too risky") gatedPlan := by
  refine ⟨by decide, rfl, ?_⟩
  rintro ⟨value, approval, resumed, added, truly⟩
  cases resumed
  cases added
  have approving : Text.lower (Text.strip "rejected: too risky") ∈ ["approved", "y", "yes"] :=
    (takesAsApproval_iff gatedPlan "rejected: too risky").mp (truly.mp rfl)
  exact absurd approving (by decide)

end Truth

end AgentOs
