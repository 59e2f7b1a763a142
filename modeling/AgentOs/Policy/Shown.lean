import AgentOs.Policy.Effects

/-!
An approved write and the write that was shown.

The dispatcher does not keep the action its prompt is about: resumed, it
classifies the task again and hands the old answer to the new action.
`dispatch_of_request` reduces a visit of the dispatcher to the one policy
question it can ask. From it, `shown_is_written_iff` gives the router answers
under which an approved write is the write that was shown.
-/

namespace AgentOs

open AgentOs.Lib

section Dispatch

variable {σ υ : Type} (scope : ToolScope σ υ) (registry : SkillRegistry (ToolHandler υ))
  (routerMode : Option String)

/-- The dispatcher of a runtime whose memory writes are gated. -/
def dispatchTools (answer : Except String RouterDecision) (state : SimonState) :
    Code (PolicyWorld σ υ) DispatcherCommand :=
  dispatch registry ToolHandler.parameters routerMode answer (ToolHandler.invoke scope) state

/-- The write the dispatcher puts to the policy for a task and a router answer. -/
def proposedWrite (answer : Except String RouterDecision) (task : String) : Option WriteRequest :=
  match chooseTool registry ToolHandler.parameters routerMode answer task with
  | .call skill arguments => ToolHandler.request scope skill arguments
  | .escalate _ _ => none
  | .raise _ => none

/-! ### One question at most -/

variable {scope} {skill : RegisteredSkill (ToolHandler υ)} {arguments : Dict}
  {request : WriteRequest}

/-- A call that proposes a write is the policy applied to that write. -/
theorem invoke_of_request (h : ToolHandler.request scope skill arguments = some request) :
    ∃ connector, ToolHandler.invoke scope skill arguments =
      applyPolicy scope.policy request.action none scope.principal
        (fun _ => writeNote connector request) >>= fun result =>
          Pass.done (.result (memoryWriteResult (writeOutcome request result))) := by
  unfold ToolHandler.request at h
  unfold ToolHandler.invoke
  cases handler : skill.handler with
  | other parameters call =>
      rw [handler] at h
      cases h
  | memoryWrite connector =>
      rw [handler] at h
      refine ⟨connector, ?_⟩
      cases read : memoryWriteArguments scope arguments with
      | error e => simp [read] at h
      | ok call =>
          obtain ⟨ref, content, mode⟩ := call
          cases described : connector.describeWriteSideEffect ref mode with
          | error e => simp [read, described] at h
          | ok sideEffect =>
              simp only [read, described] at h
              split at h
              · rename_i supported
                cases h
                simp only [memoryWrite, read, described, Pass.ofExcept_ok, Pass.done_bind,
                  gatedWrite, supported, not_true_eq_false, if_false, requestOf]
                rw [Pass.bind_assoc, Pass.bind_assoc]
                rfl
              · cases h

/-- A call that proposes no write asks nothing and has no effects. -/
theorem invoke_of_no_request (h : ToolHandler.request scope skill arguments = none) :
    NeverAsks (ToolHandler.invoke scope skill arguments) ∧
      Pass.Keeps (EffectsWithin fun _ => False) (ToolHandler.invoke scope skill arguments) := by
  unfold ToolHandler.request at h
  unfold ToolHandler.invoke
  cases handler : skill.handler with
  | other parameters call => exact ⟨callOther_silent call arguments, callOther_keeps call arguments⟩
  | memoryWrite connector =>
      -- the handler raises, or fails a mode its connector does not support
      rw [handler] at h
      cases read : memoryWriteArguments scope arguments with
      | error e =>
          simp only [memoryWrite, read, Pass.ofExcept_error, Pass.raise_bind]
          exact ⟨nofun, .raise _⟩
      | ok call =>
          obtain ⟨ref, content, mode⟩ := call
          cases described : connector.describeWriteSideEffect ref mode with
          | error e =>
              simp only [memoryWrite, read, described, Pass.ofExcept_ok, Pass.done_bind,
                Pass.ofExcept_error, Pass.raise_bind]
              exact ⟨nofun, .raise _⟩
          | ok sideEffect =>
              simp only [read, described] at h
              split at h
              · cases h
              · rename_i unsupported
                simp only [memoryWrite, read, described, Pass.ofExcept_ok, Pass.done_bind,
                  gatedWrite, unsupported, not_false_eq_true, if_true]
                exact ⟨nofun, .done _⟩

variable {registry routerMode} {answer : Except String RouterDecision} {state : SimonState}

/-- Invoking a skill leaves the world as its code does, and asks what its code
asks. -/
theorem invokeSkill_run {ω H : Type} (invoke : RegisteredSkill H → Dict → Code ω RawOutput)
    (skill : RegisteredSkill H) (arguments : Dict) (replies : List String) (w : ω) :
    (invokeSkill invoke skill arguments replies w).2.2 = (invoke skill arguments replies w).2.2 ∧
      ∀ prompt, (invokeSkill invoke skill arguments replies w).1 = .paused prompt ↔
        (invoke skill arguments replies w).1 = .paused prompt := by
  have mapped : invokeSkill invoke skill arguments =
      Pass.attempt (invoke skill arguments) >>= fun result => Pass.done
        (result.casesOn (fun error => escalate (some skill.name) (some error))
          fun rawOutput => reportTool skill.name rawOutput) := by
    unfold invokeSkill
    congr 1
    funext result
    cases result <;> rfl
  rw [mapped]
  refine ⟨?_, fun prompt => ?_⟩
  · rw [Pass.map_world, Pass.attempt_world]
  · rw [Pass.map_paused_iff, Pass.attempt_paused_iff]

/-- **A visit of the dispatcher asks one policy question.** Where it proposes a
write, its prompt and its effects are those of the policy applied to that write. -/
theorem dispatch_of_request
    (h : proposedWrite scope registry routerMode answer state.task = some request) :
    ∃ connector : MemoryConnector υ, ∀ replies w,
      (dispatchTools scope registry routerMode answer state replies w).2.2 =
          (applyPolicy scope.policy request.action none scope.principal
            (fun _ => writeNote connector request) replies w).2.2 ∧
        ∀ prompt, (dispatchTools scope registry routerMode answer state replies w).1 =
            .paused prompt ↔
          (applyPolicy scope.policy request.action none scope.principal
            (fun _ => writeNote connector request) replies w).1 = .paused prompt := by
  unfold proposedWrite at h
  cases choice : chooseTool registry ToolHandler.parameters routerMode answer state.task with
  | escalate tool error => simp [choice] at h
  | raise error => simp [choice] at h
  | call skill arguments =>
      rw [choice] at h
      obtain ⟨connector, invoked⟩ := invoke_of_request h
      refine ⟨connector, fun replies w => ?_⟩
      obtain ⟨world, asked⟩ := invokeSkill_run (ToolHandler.invoke scope) skill arguments replies w
      rw [invoked] at world asked
      simp only [dispatchTools, dispatch, choice]
      exact ⟨world.trans (congrArg Prod.snd (Pass.map_world ..)),
        fun prompt => (asked prompt).trans Pass.map_paused_iff⟩

/-- A visit that proposes no write asks nothing and has no effects. -/
theorem dispatch_of_no_request
    (h : proposedWrite scope registry routerMode answer state.task = none) :
    NeverAsks (dispatchTools scope registry routerMode answer state) ∧
      Pass.Keeps (EffectsWithin fun _ => False)
        (dispatchTools scope registry routerMode answer state) := by
  unfold proposedWrite at h
  cases choice : chooseTool registry ToolHandler.parameters routerMode answer state.task with
  | escalate tool error =>
      simp only [dispatchTools, dispatch, choice]
      refine ⟨?_, .done _⟩
      intro replies w prompt asked
      cases asked
  | raise error =>
      simp only [dispatchTools, dispatch, choice]
      refine ⟨?_, .raise _⟩
      intro replies w prompt asked
      cases asked
  | call skill arguments =>
      rw [choice] at h
      obtain ⟨silent, keeps⟩ := invoke_of_no_request h
      simp only [dispatchTools, dispatch, choice]
      constructor
      · intro replies w prompt asked
        exact silent replies w prompt
          (((invokeSkill_run (ToolHandler.invoke scope) skill arguments replies w).2 prompt).mp asked)
      · intro replies w
        rw [(invokeSkill_run (ToolHandler.invoke scope) skill arguments replies w).1]
        exact keeps replies w

/-! ### The write that was shown -/

/-- The effects an approval of a shown write may have: that write, and rules and
grants for the key its prompt names. -/
def Concerns (shown : WriteRequest) : Effect → Prop
  | .wrote request => request = shown
  | .remembered rule => derivePermissionKey shown.action = some rule.permissionKey
  | .granted _ permissionKey => derivePermissionKey shown.action = some permissionKey

/-- An answer a policy prompt takes as an approval. -/
def ApprovesPolicy (reply : String) : Prop :=
  normalizePolicyFeedback reply ∈
    ([.ok "approved", .ok "session", .ok "always_approve"] : List (Except String String))

instance : DecidablePred ApprovesPolicy :=
  fun _ => inferInstanceAs (Decidable (_ ∈ _))

/-- An approval is an approval of what was shown: if the first pass, under the
router answer `answer`, stops at a policy prompt for a write, and the prompt is
approved, then the second pass, under `answer'`, has no effect that does not
concern that write. -/
def ShownIsWritten (scope : ToolScope σ υ) (registry : SkillRegistry (ToolHandler υ))
    (routerMode : Option String) (answer answer' : Except String RouterDecision)
    (state : SimonState) : Prop :=
  ∀ (w w' : PolicyWorld σ υ) (prompt reply : String) (shown : WriteRequest),
    (dispatchTools scope registry routerMode answer state [] w).1 = .paused prompt →
    proposedWrite scope registry routerMode answer state.task = some shown →
    ApprovesPolicy reply →
    EffectsWithin (Concerns shown) w'
      (dispatchTools scope registry routerMode answer' state [reply] w').2.2

theorem concerns_learning (shown : WriteRequest) : AllowsLearning (Concerns shown) shown.action :=
  ⟨fun _ _ h => h, fun _ h => h⟩

/-- The first pass stops at the prompt for its write, and nowhere else. -/
theorem asks_of_dispatch_paused {w : PolicyWorld σ υ} {prompt : String}
    (h : (dispatchTools scope registry routerMode answer state [] w).1 = .paused prompt) :
    ∃ request reason, proposedWrite scope registry routerMode answer state.task = some request ∧
      scope.policy.Asks request.action ∧ prompt = policyPrompt request.action reason := by
  cases proposed : proposedWrite scope registry routerMode answer state.task with
  | none => exact absurd h ((dispatch_of_no_request proposed).1 [] w prompt)
  | some request =>
      obtain ⟨connector, runs⟩ := dispatch_of_request proposed
      obtain ⟨decision, evaluated, asks, shown⟩ := asks_of_applyPolicy_paused
        (writeNote_silent connector request) (((runs [] w).2 prompt).mp h)
      exact ⟨request, decision.reason, rfl, ⟨_, _, _, decision, evaluated, asks⟩, shown⟩

/-- **An approved write is the write that was shown exactly if the router's
second answer cannot put another write through.** For every task and registry,
and for every pair of router answers, policy, store and approval: either the
policy never asks about the first answer's write, or what it lets through of the
second answer is that same write. -/
theorem shown_is_written_iff (scope : ToolScope σ υ) (registry : SkillRegistry (ToolHandler υ))
    (routerMode : Option String) (answer answer' : Except String RouterDecision)
    (state : SimonState) :
    ShownIsWritten scope registry routerMode answer answer' state ↔
      ∀ shown written,
        proposedWrite scope registry routerMode answer state.task = some shown →
        scope.policy.Asks shown.action →
        proposedWrite scope registry routerMode answer' state.task = some written →
        scope.policy.Permits written.action → written = shown := by
  constructor
  · intro holds shown written proposed asks proposed' permits
    obtain ⟨rules, sessions, outside, decision, evaluated, asks⟩ := asks
    obtain ⟨connector, runs⟩ := dispatch_of_request proposed
    have paused := ((runs [] ⟨rules, sessions, outside, []⟩).2 _).mpr
      (applyPolicy_asks evaluated asks)
    obtain ⟨rules', sessions', outside', decision', evaluated', allowed⟩ := permits
    obtain ⟨connector', runs'⟩ := dispatch_of_request proposed'
    have within := holds _ ⟨rules', sessions', outside', []⟩ _ "approved" shown paused proposed
      (by decide)
    obtain ⟨replies, w', same, executed⟩ := applyPolicy_executes
      (fun _ => writeNote connector' written) none scope.principal
      (w := ⟨rules', sessions', outside', []⟩) evaluated' allowed
    rw [(runs' ["approved"] _).1, executed] at within
    refine within.mem rfl (e := .wrote written) ?_
    rw [writeNote_effects]
    exact List.mem_append_right _ (List.mem_singleton_self _)
  · intro same w w' prompt reply shown paused proposed _
    obtain ⟨request, -, proposed', asks, -⟩ := asks_of_dispatch_paused paused
    cases proposed.symm.trans proposed'
    cases next : proposedWrite scope registry routerMode answer' state.task with
    | none => exact (((dispatch_of_no_request next).2 [reply] w').mono fun _ => False.elim)
    | some written =>
        obtain ⟨connector, runs⟩ := dispatch_of_request next
        rw [(runs [reply] w').1]
        by_cases permits : scope.policy.Permits written.action
        · cases same shown written proposed asks next permits
          exact applyPolicy_keeps (concerns_learning shown)
            (writeNote_keeps (P := Concerns shown) rfl) none scope.principal [reply] w'
        · exact ((applyPolicy_of_not_permits permits [reply] w').mono fun _ => False.elim)

/-- The router is not asked about an explicit command, so its answers do not
matter: what is approved is what was shown. -/
theorem shown_is_written_of_command
    (explicit : parseTier1Request ToolHandler.parameters state.task registry ≠ .ok none)
    (answer answer' : Except String RouterDecision) :
    ShownIsWritten scope registry routerMode answer answer' state := by
  have same : proposedWrite scope registry routerMode answer state.task =
      proposedWrite scope registry routerMode answer' state.task := by
    unfold proposedWrite chooseTool
    cases parsed : parseTier1Request ToolHandler.parameters state.task registry with
    | error e => rfl
    | ok decision =>
        cases decision with
        | none => exact absurd parsed explicit
        | some decision => rfl
  refine (shown_is_written_iff scope registry routerMode answer answer' state).mpr ?_
  intro shown written proposed _ proposed' _
  exact Option.some.inj (proposed'.symm.trans (same.symm.trans proposed))

end Dispatch

/-! ### A write nobody was shown -/

/-- A vault that takes every note. -/
def sampleVault : MemoryConnector Unit where
  name := "markdown_vault"
  supportedWriteModes := [.append, .create, .overwrite]
  describeWriteSideEffect := fun _ _ => .ok ""
  writeNote := fun ref content mode _ =>
    (.ok { ref := ref, mode := mode.text, bytesWritten := some content.length, committed := true },
      ())

/-- A registry with the memory write only. -/
def vaultRegistry : SkillRegistry (ToolHandler Unit) where
  skills := [⟨"memory_write", ["memory-write"], .memoryWrite sampleVault, by decide, by decide,
    by decide, by decide⟩]
  apart := List.pairwise_singleton _ _

/-- A router answer that selects a memory write. -/
def selectWrite (mode ref content : String) : Except String RouterDecision :=
  .ok (.certain "memory_write" [("mode", .str mode), ("ref", .str ref), ("content", .str content)])

/-- A task that is no explicit command. -/
def notesTask : SimonState := { task := "keep my notes" }

/-- The visit of the dispatcher under one router answer, with no policy bound. -/
def vaultVisit (answer : Except String RouterDecision) (replies : List String) :
    Exit String String DispatcherCommand × List String × PolicyWorld Unit Unit :=
  dispatchTools {} vaultRegistry none answer notesTask replies ⟨(), [], (), []⟩

/-- The prompt for a new note `notes/a.md`. -/
def notesPrompt : String :=
  "Policy approval required: memory.write with side_effect=write. Reason: Default taxonomy for " ++
    "write\nReply 'approved' once, 'rejected: <reason>', 'session', 'always_approve', or " ++
    "'always_deny'. Remembered choices apply only to " ++
    "\x60memory_write:write:markdown_vault:create:notes/a.md\x60."

/-- The user is asked to approve a new note `notes/a.md`. On the replay the
router selects an overwrite of `notes/b.md`, which is executed on that approval. -/
theorem other_write_on_approval :
    (vaultVisit (selectWrite "create" "notes/a.md" "draft") []).1 = .paused notesPrompt ∧
      (vaultVisit (selectWrite "overwrite" "notes/b.md" "gone") ["approved"]).2.2.effects =
        [.wrote ⟨"markdown_vault", .overwrite, "notes/b.md", "gone"⟩] ∧
      ¬ ShownIsWritten (σ := Unit) {} vaultRegistry none
        (selectWrite "create" "notes/a.md" "draft")
        (selectWrite "overwrite" "notes/b.md" "gone") notesTask := by
  have asked : (vaultVisit (selectWrite "create" "notes/a.md" "draft") []).1 =
      .paused notesPrompt := Exit.eq_paused_of_prompt? (by decide +kernel)
  have executed : (vaultVisit (selectWrite "overwrite" "notes/b.md" "gone")
      ["approved"]).2.2.effects = [.wrote ⟨"markdown_vault", .overwrite, "notes/b.md", "gone"⟩] := by
    decide +kernel
  refine ⟨asked, executed, fun holds => ?_⟩
  have within := holds _ ⟨(), [], (), []⟩ _ "approved"
    ⟨"markdown_vault", .create, "notes/a.md", "draft"⟩ asked (by decide +kernel) (by decide)
  have written : (⟨"markdown_vault", .overwrite, "notes/b.md", "gone"⟩ : WriteRequest) =
      ⟨"markdown_vault", .create, "notes/a.md", "draft"⟩ :=
    within.mem rfl (e := .wrote ⟨"markdown_vault", .overwrite, "notes/b.md", "gone"⟩)
      (executed ▸ List.mem_singleton_self _)
  exact absurd written (by decide)

end AgentOs
