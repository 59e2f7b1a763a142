import AgentOs.Lib.History
import AgentOs.Policy.Effects
import AgentOs.Policy.PermissionStore

/-!
Who allowed a memory write.

`GatePass` lists what one pass of `gated_write` can do under a local policy. A
history interleaves passes with user replies, session clears and changes of the
permission store; a pass that stops at its prompt is run again from its start
when the reply comes. `write_has_authority` traces every write of every history
to the mode, the built-in rule, a reply to its own prompt, a session grant that
was given and not cleared, or a rule the store holds.
-/

namespace AgentOs

open AgentOs.Lib

section Passes

variable {σ υ : Type}

/-- What changed between two worlds. -/
structure Leaves (w w' : PolicyWorld σ υ) (added : List Effect)
    (sessions : List (String × String)) (rules : σ) : Prop where
  effects : w'.effects = w.effects ++ added
  sessions : w'.sessions = sessions
  rules : w'.rules = rules

/-- What a pass of a gated write does, given the replies, with the prompt it stops
at. `evaluated` is what the policy says and the rules it leaves. -/
inductive GatePass (policy : LocalPolicy σ) (request : WriteRequest)
    (evaluated : PolicyDecision × σ) (w : PolicyWorld σ υ) :
    List String → Option String → PolicyWorld σ υ → Prop where
  | unsupported {replies : List String} : GatePass policy request evaluated w replies none w
  | refused {replies : List String} {w' : PolicyWorld σ υ} :
      Leaves w w' [] w.sessions evaluated.2 →
        GatePass policy request evaluated w replies none w'
  | asked {w' : PolicyWorld σ υ} :
      evaluated.1.decision = .requireApproval → Leaves w w' [] w.sessions evaluated.2 →
        GatePass policy request evaluated w []
          (some (policyPrompt request.action evaluated.1.reason)) w'
  | allowed {replies : List String} {w' : PolicyWorld σ υ} :
      evaluated.1.decision = .allow → Leaves w w' [.wrote request] w.sessions evaluated.2 →
        GatePass policy request evaluated w replies none w'
  | approved {reply : String} {rest : List String} {w' : PolicyWorld σ υ} :
      normalizePolicyFeedback reply = .ok "approved" → evaluated.1.decision = .requireApproval →
        Leaves w w' [.wrote request] w.sessions evaluated.2 →
          GatePass policy request evaluated w (reply :: rest) none w'
  | session {reply : String} {rest : List String} {sessionKey key : String}
      {w' : PolicyWorld σ υ} :
      normalizePolicyFeedback reply = .ok "session" → evaluated.1.decision = .requireApproval →
        policy.sessionKey = some sessionKey → derivePermissionKey request.action = some key →
          Leaves w w' [.granted sessionKey key, .wrote request] ((sessionKey, key) :: w.sessions)
            evaluated.2 →
          GatePass policy request evaluated w (reply :: rest) none w'
  | learned {reply : String} {rest : List String} {store : RuleStore σ} {rule : PermissionRule}
      {w' : PolicyWorld σ υ} :
      normalizePolicyFeedback reply = .ok "always_approve" →
        evaluated.1.decision = .requireApproval → policy.store = some store →
          derivePermissionKey request.action = some rule.permissionKey →
          rule.effect = .alwaysApprove → (store.upsert rule evaluated.2).1 = .ok () →
          Leaves w w' [.remembered rule, .wrote request] w.sessions
            (store.upsert rule evaluated.2).2 →
          GatePass policy request evaluated w (reply :: rest) none w'
  | remembered {reply : String} {rest : List String} {store : RuleStore σ}
      {rule : PermissionRule} {w' : PolicyWorld σ υ} :
      policy.store = some store → derivePermissionKey request.action = some rule.permissionKey →
        Leaves w w' [.remembered rule] w.sessions (store.upsert rule evaluated.2).2 →
          GatePass policy request evaluated w (reply :: rest) none w'

/-- The action reaches the connector and asks nothing. -/
theorem executeProposal_write (connector : MemoryConnector υ) (request : WriteRequest)
    (replies : List String) (w : PolicyWorld σ υ) :
    let ran := executeProposal request.action (fun _ => writeNote connector request) replies w
    Leaves w ran.2.2 [.wrote request] w.sessions w.rules ∧ ran.1.prompt? = none := by
  intro ran
  have world : ran.2 = (writeNote connector request replies w).2 := Pass.map_world ..
  have silent : ∀ prompt, ran.1 ≠ .paused prompt :=
    executeProposal_silent (writeNote_silent connector request) replies w
  constructor
  · rw [world]
    unfold writeNote
    rcases connector.writeNote request.ref request.content request.mode w.outside with
      ⟨result | e, outside⟩ <;> exact ⟨rfl, rfl, rfl⟩
  · cases h : ran.1 with
    | paused prompt => exact absurd h (silent prompt)
    | done result => rfl
    | raised e => rfl

theorem Leaves.trans {w w' w'' : PolicyWorld σ υ} {added added' : List Effect}
    {sessions sessions' : List (String × String)} {rules rules' : σ}
    (h : Leaves w w' added sessions rules) (h' : Leaves w' w'' added' sessions' rules') :
    Leaves w w'' (added ++ added') sessions' rules' :=
  ⟨by rw [h'.effects, h.effects, List.append_assoc], h'.sessions, h'.rules⟩

variable (policy : LocalPolicy σ) (connector : MemoryConnector υ) (request : WriteRequest)

/-- What an answer to the prompt does. -/
theorem applyAnswer_pass {evaluated : PolicyDecision × σ} {w w₁ : PolicyWorld σ υ} {reply : String}
    {rest : List String} (workspaceId : Option String) (taughtBy : String)
    (asks : evaluated.1.decision = .requireApproval)
    (first : Leaves w w₁ [] w.sessions evaluated.2) {feedback : String}
    (read : normalizePolicyFeedback reply = .ok feedback)
    {ran : Exit String String (PolicyResult MemoryWriteResult) × List String × PolicyWorld σ υ}
    (h : applyAnswer (policy.engine υ) request.action workspaceId taughtBy
      (fun _ => writeNote connector request) feedback rest w₁ = ran) :
    GatePass policy request evaluated w (reply :: rest) ran.1.prompt? ran.2.2 := by
  have executed : ∀ {w₂ : PolicyWorld σ υ} {added : List Effect}
      {sessions : List (String × String)} {rules : σ}, Leaves w w₂ added sessions rules →
      executeProposal request.action (fun _ => writeNote connector request) rest w₂ = ran →
      Leaves w ran.2.2 (added ++ [.wrote request]) sessions rules ∧ ran.1.prompt? = none := by
    rintro w₂ added sessions rules before rfl
    obtain ⟨after, silent⟩ := executeProposal_write connector request rest w₂
    rw [before.sessions, before.rules] at after
    exact ⟨before.trans after, silent⟩
  unfold applyAnswer at h
  by_cases approved : feedback = "approved"
  · rw [if_pos approved] at h
    obtain ⟨after, silent⟩ := executed first h
    rw [silent]
    exact .approved (approved ▸ read) asks after
  · rw [if_neg approved] at h
    split at h
    · subst h
      exact .refused first
    · rw [if_neg (show ¬deriveTier request.action = .high by nofun)] at h
      cases hkey : derivePermissionKey request.action with
      | none =>
          rw [hkey] at h
          subst h
          exact .refused first
      | some key =>
          rw [hkey] at h
          dsimp only at h
          by_cases session : feedback = "session"
          · rw [if_pos session] at h
            cases hsession : policy.sessionKey with
            | none =>
                rw [LocalPolicy.engine, hsession] at h
                subst h
                exact .refused first
            | some sessionKey =>
                have granted : Leaves w
                    (approveSession sessionKey key rest w₁).2.2 [.granted sessionKey key]
                    ((sessionKey, key) :: w.sessions) evaluated.2 :=
                  ⟨by simp [approveSession, first.effects],
                    by simp [approveSession, first.sessions],
                    by simp [approveSession, first.rules]⟩
                rw [LocalPolicy.engine, hsession] at h
                obtain ⟨after, silent⟩ := executed granted h
                rw [silent]
                exact .session (session ▸ read) asks hsession hkey after
          · rw [if_neg session] at h
            unfold rememberRule at h
            cases hstore : policy.store with
            | none =>
                rw [LocalPolicy.engine, hstore] at h
                subst h
                exact .refused first
            | some store =>
                rw [LocalPolicy.engine, hstore] at h
                dsimp only at h
                generalize hrule : PermissionRule.mk key _ _ _ _ workspaceId _ = rule at h
                have named : derivePermissionKey request.action = some rule.permissionKey := by
                  rw [← hrule, hkey]
                have saving : Leaves w (upsertRule store rule rest w₁).2.2 [.remembered rule]
                    w.sessions (store.upsert rule evaluated.2).2 :=
                  ⟨by simp [upsertRule, first.effects], by simp [upsertRule, first.sessions],
                    by simp [upsertRule, first.rules]⟩
                have run : upsertRule store rule rest w₁ =
                    (.done (store.upsert rule evaluated.2).1, rest,
                      (upsertRule store rule rest w₁).2.2) := by
                  simp [upsertRule, first.rules]
                rw [Pass.bind_of_done run] at h
                cases saved : (store.upsert rule evaluated.2).1 with
                | error e =>
                    rw [saved] at h
                    subst h
                    exact .remembered hstore named saving
                | ok _ =>
                    rw [saved] at h
                    dsimp only at h
                    by_cases always : feedback = "always_approve"
                    · rw [if_pos always, if_pos rfl] at h
                      obtain ⟨after, silent⟩ := executed saving h
                      rw [silent]
                      exact .learned (always ▸ read) asks hstore named
                        (by rw [← hrule, if_pos always]) saved after
                    · rw [if_neg always, if_neg nofun] at h
                      subst h
                      exact .remembered hstore named saving

/-- **What a pass of a gated write does.** -/
theorem gatedWrite_pass (proposal : MemoryWriteProposal) (content principal : String)
    (replies : List String) (w : PolicyWorld σ υ) :
    let request := requestOf connector proposal content
    let ran := gatedWrite { currentPolicy := some (policy.engine υ), principal } connector proposal
      content replies w
    GatePass policy request (policy.evaluate request.action w.rules w.sessions) w replies
      ran.1.prompt? ran.2.2 := by
  intro request ran
  by_cases supported : proposal.mode ∈ connector.supportedWriteModes
  · -- The result is only wrapped, so the pass is that of `apply_policy`.
    have wrapped : ran =
        (applyPolicy (policy.engine υ) request.action none principal
          (fun _ => writeNote connector request) >>= fun result =>
            Pass.done (writeOutcome request result)) replies w := by
      change gatedWrite _ _ _ _ _ _ = _
      unfold gatedWrite
      dsimp only
      rw [if_neg (not_not_intro supported)]
      rfl
    rw [wrapped, Pass.map_prompt?, Pass.map_world]
    have decided : (policy.engine υ).decide request.action replies w =
        (.done (policy.evaluate request.action w.rules w.sessions).1, replies,
          { w with rules := (policy.evaluate request.action w.rules w.sessions).2 }) := rfl
    generalize policy.evaluate request.action w.rules w.sessions = evaluated at decided ⊢
    have first : Leaves w { w with rules := evaluated.2 } [] w.sessions evaluated.2 :=
      ⟨by simp, rfl, rfl⟩
    unfold applyPolicy
    rw [Pass.bind_of_done decided]
    cases answer : evaluated.1.decision with
    | allow =>
        obtain ⟨after, silent⟩ := executeProposal_write connector request replies
          { w with rules := evaluated.2 }
        dsimp only
        rw [silent]
        exact .allowed answer ⟨after.effects, after.sessions, after.rules⟩
    | deny => exact .refused first
    | requireApproval =>
        cases replies with
        | nil => exact .asked answer first
        | cons reply rest =>
            dsimp only
            rw [Pass.bind_of_done (Pass.interrupt_cons ..)]
            cases read : normalizePolicyFeedback reply with
            | error e => exact .refused first
            | ok feedback =>
                exact applyAnswer_pass policy connector request none principal answer first read rfl
  · have done : ran.1.prompt? = none ∧ ran.2.2 = w := by
      change (gatedWrite _ _ _ _ _ _).1.prompt? = none ∧ (gatedWrite _ _ _ _ _ _).2.2 = w
      unfold gatedWrite
      dsimp only
      rw [if_pos supported]
      exact ⟨rfl, rfl⟩
    rw [done.1, done.2]
    exact .unsupported

section

variable {policy : LocalPolicy σ} {request : WriteRequest} {evaluated : PolicyDecision × σ}
  {w w' : PolicyWorld σ υ} {replies : List String} {prompt? : Option String}

/-- The only grant a pass adds is the one its reply gives. -/
theorem GatePass.sessions_cases (h : GatePass policy request evaluated w replies prompt? w') :
    w'.sessions = w.sessions ∨ ∃ reply rest sessionKey key, replies = reply :: rest ∧
      normalizePolicyFeedback reply = .ok "session" ∧ policy.sessionKey = some sessionKey ∧
      derivePermissionKey request.action = some key ∧
      w'.sessions = (sessionKey, key) :: w.sessions := by
  cases h with
  | unsupported => exact .inl rfl
  | refused after => exact .inl after.sessions
  | asked _ after => exact .inl after.sessions
  | allowed _ after => exact .inl after.sessions
  | approved _ _ after => exact .inl after.sessions
  | session read _ hsession hkey after =>
      exact .inr ⟨_, _, _, _, rfl, read, hsession, hkey, after.sessions⟩
  | learned _ _ _ _ _ _ after => exact .inl after.sessions
  | remembered _ _ after => exact .inl after.sessions

/-- The only prompt of a pass is the policy's. -/
theorem GatePass.prompt_cases {prompt : String}
    (h : GatePass policy request evaluated w replies (some prompt) w') :
    prompt = policyPrompt request.action evaluated.1.reason := by
  cases h
  rfl

/-- The reply lets the write through. -/
def Approves (reply : String) : Prop :=
  normalizePolicyFeedback reply = .ok "approved" ∨ normalizePolicyFeedback reply = .ok "session" ∨
    normalizePolicyFeedback reply = .ok "always_approve"

/-- A pass that writes was allowed to, or asked and was answered; what it leaves of
the rules is what the policy left, or that with an approval of its own. -/
theorem GatePass.wrote_cases (h : GatePass policy request evaluated w replies prompt? w')
    (fresh : w.effects = []) {written : WriteRequest} (wrote : .wrote written ∈ w'.effects) :
    written = request ∧
      (evaluated.1.decision = .allow ∨ evaluated.1.decision = .requireApproval ∧
        ∃ reply rest, replies = reply :: rest ∧ Approves reply) ∧
      (w'.rules = evaluated.2 ∨ ∃ store rule, policy.store = some store ∧
        derivePermissionKey request.action = some rule.permissionKey ∧
        rule.effect = .alwaysApprove ∧ (store.upsert rule evaluated.2).1 = .ok () ∧
        w'.rules = (store.upsert rule evaluated.2).2) := by
  cases h with
  | unsupported =>
      rw [fresh] at wrote
      cases wrote
  | refused after =>
      rw [after.effects, fresh] at wrote
      cases wrote
  | asked _ after =>
      rw [after.effects, fresh] at wrote
      cases wrote
  | allowed answer after =>
      rw [after.effects, fresh] at wrote
      exact ⟨by simpa using wrote, .inl answer, .inl after.rules⟩
  | approved read asks after =>
      rw [after.effects, fresh] at wrote
      exact ⟨by simpa using wrote, .inr ⟨asks, _, _, rfl, .inl read⟩, .inl after.rules⟩
  | session read asks _ _ after =>
      rw [after.effects, fresh] at wrote
      exact ⟨by simpa using wrote, .inr ⟨asks, _, _, rfl, .inr (.inl read)⟩, .inl after.rules⟩
  | learned read asks hstore hkey approve saved after =>
      rw [after.effects, fresh] at wrote
      exact ⟨by simpa using wrote, .inr ⟨asks, _, _, rfl, .inr (.inr read)⟩,
        .inr ⟨_, _, hstore, hkey, approve, saved, after.rules⟩⟩
  | remembered _ _ after =>
      rw [after.effects, fresh] at wrote
      simp at wrote

end

end Passes

/-! ### Histories -/

section Histories

variable {υ : Type}

/-- A call of `gated_write` under a local policy, with the permission store or
without one. -/
structure WriteCall (υ : Type) where
  mode : PolicyMode
  sessionKey : Option String
  persistent : Bool
  principal : String
  connector : MemoryConnector υ
  proposal : MemoryWriteProposal
  content : String

namespace WriteCall

variable (call : WriteCall υ)

def policy : LocalPolicy StoreState where
  store := if call.persistent then some permissionStore else none
  mode := call.mode
  sessionKey := call.sessionKey

def request : WriteRequest := requestOf call.connector call.proposal call.content

/-- The permission key of the call's connector, mode and reference. -/
def key? : Option String := derivePermissionKey call.request.action

end WriteCall

/-- What histories change: the rules, the session grants, the outside, and the
calls that wait for a reply. -/
structure GateState (υ : Type) where
  table : PermissionTable
  sessions : List (String × String) := []
  outside : υ
  waiting : List (WriteCall υ) := []

/-- An operation. `reply` answers the prompt of a call that waits, which is run
again from its start. -/
inductive GateOp (υ : Type) where
  | write (call : WriteCall υ) (faults : StoreFaults)
  | reply (n : Nat) (text : String) (faults : StoreFaults)
  | clearSession (sessionKey : String)
  | upsert (rule : PermissionRule) (fault : Option Bool)
  | delete (permissionKey : String) (fault : Option Bool)

/-- The faults of the pass an operation runs. -/
def GateOp.faults : GateOp υ → StoreFaults
  | .write _ faults | .reply _ _ faults => faults
  | .clearSession _ | .upsert _ _ | .delete _ _ => {}

/-- What a pass did: the call it ran, its effects, and the prompt it stopped at. -/
structure GateAnswer (υ : Type) where
  call? : Option (WriteCall υ) := none
  effects : List Effect := []
  prompt? : Option String := none

namespace GateState

variable (s : GateState υ)

/-- The world a pass starts in. -/
def world (faults : StoreFaults) : PolicyWorld StoreState υ where
  rules := ⟨s.table, faults⟩
  sessions := s.sessions
  outside := s.outside

/-- A pass of a call; one that stops at a prompt waits. -/
def pass (call : WriteCall υ) (replies : List String) (faults : StoreFaults) :
    GateAnswer υ × GateState υ :=
  let (exit, _, w) := gatedWrite
    { currentPolicy := some (call.policy.engine υ), principal := call.principal }
    call.connector call.proposal call.content replies (s.world faults)
  ({ call? := some call, effects := w.effects, prompt? := exit.prompt? },
    { table := w.rules.table, sessions := w.sessions, outside := w.outside
      waiting := if exit.prompt?.isSome then s.waiting ++ [call] else s.waiting })

/-- The state after an operation. -/
def apply : GateOp υ → GateAnswer υ × GateState υ
  | .write call faults => s.pass call [] faults
  | .reply n text faults =>
      match s.waiting[n]? with
      | some call => { s with waiting := s.waiting.eraseIdx n }.pass call [text] faults
      | none => ({}, s)
  | .clearSession sessionKey =>
      ({}, { s with sessions := s.sessions.filter fun grant => grant.1 ≠ sessionKey })
  | .upsert rule fault =>
      ({}, { s with table := (faulty fault ⟨s.table, {}⟩ (·.upsert rule)).2.table })
  | .delete permissionKey fault =>
      ({}, { s with table := (faulty fault ⟨s.table, {}⟩ (·.delete permissionKey)).2.table })

end GateState

/-- An operation in the journal of a history. -/
abbrev GateEntry (υ : Type) := Entry (GateState υ) (GateOp υ) (GateAnswer υ)

/-! ### What an entry can be -/

/-- The operation runs `call` with these replies and faults. -/
inductive Runs (s : GateState υ) (call : WriteCall υ) : GateOp υ → List String → StoreFaults → Prop
  | write (faults : StoreFaults) : Runs s call (.write call faults) [] faults
  | reply {n : Nat} (text : String) (faults : StoreFaults) :
      s.waiting[n]? = some call → Runs s call (.reply n text faults) [text] faults

theorem Runs.of_reply {s : GateState υ} {call : WriteCall υ} {op : GateOp υ} {reply : String}
    {rest : List String} {faults : StoreFaults} (h : Runs s call op (reply :: rest) faults) :
    ∃ n, op = .reply n reply faults ∧ s.waiting[n]? = some call := by
  cases h with
  | reply text faults waiting => exact ⟨_, rfl, waiting⟩

/-- The faults of the pass an operation runs. -/
theorem Runs.faults_eq {call : WriteCall υ} {op : GateOp υ} {replies : List String}
    {faults : StoreFaults} {s : GateState υ} (h : Runs s call op replies faults) :
    op.faults = faults := by
  cases h <;> rfl

theorem GateState.pass_spec (s : GateState υ) (call : WriteCall υ) (replies : List String)
    (faults : StoreFaults) {answer : GateAnswer υ} {t : GateState υ}
    (h : s.pass call replies faults = (answer, t)) :
    answer.call? = some call ∧ ∃ w,
      GatePass call.policy call.request
        (call.policy.evaluate call.request.action ⟨s.table, faults⟩ s.sessions)
        (s.world faults) replies answer.prompt? w ∧
      answer.effects = w.effects ∧ t.sessions = w.sessions ∧ t.table = w.rules.table ∧
      t.waiting = if answer.prompt?.isSome then s.waiting ++ [call] else s.waiting := by
  have done := gatedWrite_pass call.policy call.connector call.proposal call.content call.principal
    replies (s.world faults)
  cases h
  exact ⟨rfl, _, done, rfl, rfl, rfl, rfl⟩

/-- An entry that runs a call is a pass of it. -/
theorem apply_pass {s t : GateState υ} {op : GateOp υ} {answer : GateAnswer υ}
    {call : WriteCall υ} (h : s.apply op = (answer, t)) (ran : answer.call? = some call) :
    ∃ replies faults w, Runs s call op replies faults ∧
      GatePass call.policy call.request
        (call.policy.evaluate call.request.action ⟨s.table, faults⟩ s.sessions)
        (s.world faults) replies answer.prompt? w ∧
      answer.effects = w.effects ∧ t.sessions = w.sessions ∧ t.table = w.rules.table ∧
      ∀ c ∈ t.waiting, c ∈ s.waiting ∨ c = call ∧ answer.prompt?.isSome = true := by
  have waits : ∀ {before after : List (WriteCall υ)},
      after = (if answer.prompt?.isSome then before ++ [call] else before) →
      before ⊆ s.waiting → ∀ c ∈ after, c ∈ s.waiting ∨ c = call ∧ answer.prompt?.isSome = true := by
    rintro before after rfl sub c hc
    split at hc
    · rename_i asked
      rcases List.mem_append.mp hc with hc | hc
      · exact .inl (sub hc)
      · exact .inr ⟨List.mem_singleton.mp hc, asked⟩
    · exact .inl (sub hc)
  cases op with
  | write called faults =>
      obtain ⟨same, w, done, effects, sessions, table, waiting⟩ := s.pass_spec called [] faults h
      cases Option.some.inj (ran.symm.trans same)
      exact ⟨[], faults, w, .write faults, done, effects, sessions, table,
        waits waiting (List.Subset.refl _)⟩
  | reply n text faults =>
      cases hn : s.waiting[n]? with
      | none =>
          simp only [GateState.apply, hn] at h
          cases h
          cases ran
      | some called =>
          simp only [GateState.apply, hn] at h
          obtain ⟨same, w, done, effects, sessions, table, waiting⟩ :=
            GateState.pass_spec _ called [text] faults h
          cases Option.some.inj (ran.symm.trans same)
          exact ⟨[text], faults, w, .reply text faults hn, done, effects, sessions, table,
            waits waiting (List.eraseIdx_sublist ..).subset⟩
  | clearSession sessionKey => cases h; cases ran
  | upsert rule fault => cases h; cases ran
  | delete permissionKey fault => cases h; cases ran

/-- An entry that runs no call leaves no effects, shows no prompt, grants nothing and
lets nothing wait. -/
theorem apply_idle {s t : GateState υ} {op : GateOp υ} {answer : GateAnswer υ}
    (h : s.apply op = (answer, t)) (idle : answer.call? = none) :
    answer.effects = [] ∧ t.sessions ⊆ s.sessions ∧ t.waiting = s.waiting := by
  cases op with
  | write called faults =>
      cases idle.symm.trans (s.pass_spec called [] faults h).1
  | reply n text faults =>
      cases hn : s.waiting[n]? with
      | none =>
          simp only [GateState.apply, hn] at h
          cases h
          exact ⟨rfl, List.Subset.refl _, rfl⟩
      | some called =>
          simp only [GateState.apply, hn] at h
          cases idle.symm.trans (GateState.pass_spec _ called [text] faults h).1
  | clearSession sessionKey => cases h; exact ⟨rfl, (List.filter_sublist ..).subset, rfl⟩
  | upsert rule fault => cases h; exact ⟨rfl, List.Subset.refl _, rfl⟩
  | delete permissionKey fault => cases h; exact ⟨rfl, List.Subset.refl _, rfl⟩

/-! ### Authority -/

/-- A user granted `request`'s connector, mode and reference to a session. -/
def Grants (sessionKey : String) (request : WriteRequest) (e : GateEntry υ) : Prop :=
  ∃ n text faults granting, e.call = .reply n text faults ∧
    normalizePolicyFeedback text = .ok "session" ∧ e.answer.call? = some granting ∧
    granting.sessionKey = some sessionKey ∧ granting.request.connector = request.connector ∧
    granting.request.mode = request.mode ∧ granting.request.ref = request.ref

/-- What a write of a call rests on, given the entries before it. -/
inductive Authority (early : List (GateEntry υ)) (e : GateEntry υ) (call : WriteCall υ) : Prop
  /-- The mode is off. -/
  | off : call.mode = .off → Authority early e call
  /-- The built-in rule for logs and briefs. -/
  | builtin : (builtinGrant call.request.action).isSome = true → Authority early e call
  /-- A reply that approves, to the prompt this call showed. -/
  | replied {n : Nat} {text reason : String} {faults : StoreFaults} {asked : GateEntry υ} :
      e.call = .reply n text faults → Approves text → asked ∈ early →
        asked.answer.call? = some call →
        asked.answer.prompt? = some (policyPrompt call.request.action reason) →
        Authority early e call
  /-- A session grant that was given and not cleared. -/
  | session {sessionKey : String} {before after : List (GateEntry υ)} {grant : GateEntry υ} :
      call.sessionKey = some sessionKey → early = before ++ grant :: after →
        Grants sessionKey call.request grant →
        (∀ e' ∈ after, e'.call ≠ .clearSession sessionKey) → Authority early e call
  /-- A rule the store holds. -/
  | rule {key : String} : call.persistent = true → call.key? = some key →
      e.before.table.effectOf key = some .alwaysApprove → Authority early e call

section

variable {e : GateEntry υ} (honest : e.before.apply e.call = (e.answer, e.after))

include honest

/-- A new session grant was given by a user. -/
theorem grants_of_new {sessionKey key : String} {request : WriteRequest}
    (hkey : derivePermissionKey request.action = some key)
    (fresh : (sessionKey, key) ∉ e.before.sessions)
    (granted : (sessionKey, key) ∈ e.after.sessions) : Grants sessionKey request e := by
  cases ran : e.answer.call? with
  | none => exact absurd ((apply_idle honest ran).2.1 granted) fresh
  | some call =>
      obtain ⟨replies, faults, w, runs, done, -, sessions, -, -⟩ := apply_pass honest ran
      rw [sessions] at granted
      rcases done.sessions_cases with same | ⟨reply, rest, sk, k, hreplies, read, hsk, hk, added⟩
      · rw [same] at granted
        exact absurd granted fresh
      · rw [added] at granted
        rcases List.mem_cons.mp granted with pair | old
        · cases pair
          subst hreplies
          obtain ⟨n, called, -⟩ := runs.of_reply
          exact ⟨n, reply, faults, call, called, read, ran, hsk, request_key_injective hk hkey⟩
        · exact absurd old fresh

/-- A call that begins to wait stopped at its own prompt. -/
theorem asked_of_new {call : WriteCall υ} (fresh : call ∉ e.before.waiting)
    (waits : call ∈ e.after.waiting) :
    e.answer.call? = some call ∧
      ∃ reason, e.answer.prompt? = some (policyPrompt call.request.action reason) := by
  cases ran : e.answer.call? with
  | none => exact absurd ((apply_idle honest ran).2.2 ▸ waits) fresh
  | some called =>
      obtain ⟨replies, faults, w, runs, done, -, -, -, waiting⟩ := apply_pass honest ran
      rcases waiting call waits with old | ⟨rfl, asked⟩
      · exact absurd old fresh
      · obtain ⟨prompt, shown⟩ := Option.isSome_iff_exists.mp asked
        rw [shown] at done
        exact ⟨rfl, _, by rw [shown, done.prompt_cases]⟩

end

theorem WriteCall.policy_store {call : WriteCall υ} :
    ∀ store, call.policy.store = some store → store = permissionStore := by
  intro store h
  unfold policy at h
  dsimp only at h
  split at h
  · exact (Option.some.inj h).symm
  · cases h

/-- The history of operations, from any rules. -/
def gateHistory (table : PermissionTable) (outside : υ) (ops : List (GateOp υ)) :
    Recorded (GateState υ) (GateOp υ) (GateAnswer υ) :=
  history GateState.apply { table, outside } ops

section

variable {table : PermissionTable} {outside : υ} {early : List (GateEntry υ)} {e : GateEntry υ}

/-- Each write of an entry is its call's, and rests on one of the five authorities. -/
theorem authority_of_write {t : GateState υ}
    (chain : Chain { table, outside } early t) (link : e.before = t)
    (honest : ∀ e' ∈ early ++ [e], e'.before.apply e'.call = (e'.answer, e'.after))
    {request : WriteRequest} (wrote : .wrote request ∈ e.answer.effects) :
    ∃ call, e.answer.call? = some call ∧ call.request = request ∧ Authority early e call := by
  subst link
  have honestE := honest e (by simp)
  have honestEarly : ∀ e' ∈ early, e'.before.apply e'.call = (e'.answer, e'.after) :=
    fun e' he' => honest e' (List.mem_append_left _ he')
  cases ran : e.answer.call? with
  | none =>
      rw [(apply_idle honestE ran).1] at wrote
      cases wrote
  | some call =>
      obtain ⟨replies, faults, w, runs, done, effects, -, -, -⟩ := apply_pass honestE ran
      rw [effects] at wrote
      obtain ⟨rfl, allowed | ⟨-, reply, rest, rfl, approves⟩, -⟩ := done.wrote_cases rfl wrote
      · refine ⟨call, rfl, rfl, ?_⟩
        rcases LocalPolicy.allow_cases allowed with off | grant | approve | builtin
        · exact .off off
        · -- The grant is in the sessions, so some reply put it there.
          obtain ⟨key, hkey, approved⟩ := (Option.any_eq_true _ _).mp grant
          obtain ⟨sessionKey, hsession, held⟩ : ∃ sessionKey, call.sessionKey = some sessionKey ∧
              (sessionKey, key) ∈ e.before.sessions := by
            cases hs : call.sessionKey with
            | none => simp [LocalPolicy.sessionApproved, WriteCall.policy, hs] at approved
            | some sessionKey =>
                exact ⟨sessionKey, rfl,
                  by simpa [LocalPolicy.sessionApproved, WriteCall.policy, hs] using approved⟩
          obtain ⟨before, grant, after, rfl, fresh, granted, kept⟩ := chain.since
            (P := fun s => (sessionKey, key) ∈ s.sessions) (by simp) held
          refine .session hsession rfl
            (grants_of_new (honestEarly grant (by simp)) hkey fresh granted) ?_
          intro e' he' cleared
          have gone := (kept e' he').2
          have honest' := honestEarly e' (by simp [he'])
          rw [cleared] at honest'
          have sessions := congrArg (fun r => r.2.sessions) honest'
          rw [← sessions] at gone
          simp [GateState.apply] at gone
        · obtain ⟨key, hkey, hstore, effect⟩ :=
            LocalPolicy.effectOf_of_ruleEffect WriteCall.policy_store approve
          refine .rule ?_ hkey effect
          by_contra missing
          rw [WriteCall.policy, if_neg missing] at hstore
          cases hstore
        · exact .builtin builtin
      · obtain ⟨n, called, waiting⟩ := runs.of_reply
        obtain ⟨before, asked, after, rfl, fresh, waits, -⟩ := chain.since
          (P := fun s => call ∈ s.waiting) (by simp) (List.mem_of_getElem? waiting)
        obtain ⟨asker, reason, shown⟩ := asked_of_new (honestEarly asked (by simp)) fresh waits
        exact ⟨call, rfl, rfl, .replied called approves (by simp) asker shown⟩

/-- Where the store can be read and policy is on, a write is not forbidden by a
rule, before the pass or after it. -/
theorem not_forbidden_of_write (honest : e.before.apply e.call = (e.answer, e.after))
    {call : WriteCall υ} (ran : e.answer.call? = some call) {request : WriteRequest}
    (wrote : .wrote request ∈ e.answer.effects) (enforced : call.mode ≠ .off)
    (persistent : call.persistent = true) (read : e.call.faults.get = false) {key : String}
    (hkey : call.key? = some key) :
    e.before.table.effectOf key ≠ some .alwaysDeny ∧
      e.after.table.effectOf key ≠ some .alwaysDeny := by
  obtain ⟨replies, faults, w, runs, done, effects, -, table, -⟩ := apply_pass honest ran
  rw [runs.faults_eq] at read
  rw [effects] at wrote
  have hstore : call.policy.store = some permissionStore := by simp [WriteCall.policy, persistent]
  obtain ⟨rfl, answered, rules⟩ := done.wrote_cases rfl wrote
  have undenied : (call.policy.evaluate call.request.action ⟨e.before.table, faults⟩
      e.before.sessions).1.decision ≠ .deny := by
    rcases answered with allowed | ⟨asks, -⟩
    · rw [allowed]
      nofun
    · rw [asks]
      nofun
  have before : e.before.table.effectOf key ≠ some .alwaysDeny := by
    have := LocalPolicy.not_forbidden enforced undenied
    rwa [LocalPolicy.ruleEffect_permissionStore hkey hstore read] at this
  refine ⟨before, ?_⟩
  rw [table]
  rcases rules with same | ⟨store, rule, hstore', hkey', approve, saved, rules⟩
  · rw [same, LocalPolicy.evaluate_effectOf WriteCall.policy_store]
    exact before
  · -- The rule that was saved for the key approves.
    cases Option.some.inj (hstore.symm.trans hstore')
    cases Option.some.inj (hkey.symm.trans hkey')
    rw [rules, show (permissionStore.upsert rule _).2.table = PermissionTable.upsert _ rule from
      faulty_ok saved, PermissionTable.effectOf_upsert_self, approve]
    nofun

end

/-- **Memory writes have authority.** In every history of gated writes under local
policies, replies, session clears and changes of the permission store, any store
call free to raise: a write that reaches the connector is its call's, and rests
on the mode, the built-in rule, a reply to its own prompt, a session grant given
and not cleared since, or a rule the store holds; and where the mode is not off
and the store was read, no rule forbids it when the pass begins or when it ends. -/
theorem write_has_authority (table : PermissionTable) (outside : υ) (ops : List (GateOp υ)) :
    (∀ early e late request, (gateHistory table outside ops).journal = early ++ e :: late →
      .wrote request ∈ e.answer.effects →
        ∃ call, e.answer.call? = some call ∧ call.request = request ∧ Authority early e call) ∧
    (∀ e ∈ (gateHistory table outside ops).journal, ∀ call request key,
      e.answer.call? = some call → .wrote request ∈ e.answer.effects → call.mode ≠ .off →
        call.persistent = true → e.call.faults.get = false → call.key? = some key →
          e.before.table.effectOf key ≠ some .alwaysDeny ∧
            e.after.table.effectOf key ≠ some .alwaysDeny) := by
  have chain := history_chain GateState.apply { table, outside } ops
  have honest := history_entries GateState.apply { table, outside } ops
  constructor
  · intro early e late request split wrote
    unfold gateHistory at split
    rw [split] at chain honest
    obtain ⟨t, first, link, -⟩ := Chain.append_iff.mp chain
    refine authority_of_write first link ?_ wrote
    intro e' he'
    apply honest
    rcases List.mem_append.mp he' with he' | he'
    · exact List.mem_append_left _ he'
    · simp [List.mem_singleton.mp he']
  · intro e he call request key ran wrote enforced persistent read hkey
    exact not_forbidden_of_write (honest e he) ran wrote enforced persistent read hkey

end Histories

end AgentOs
