import AgentOs.Graph.Inputs
import AgentOs.Graph.Stage

/-!
The recursion budget of an invocation (`routing.py`, `graph.py`).

An invocation runs nodes until the run is at `END`, a node interrupts it or one raises; the
budget counts the nodes and the step that finds nothing more to run. `hops` bounds the nodes
that an invocation still runs, by the node that is next and the route of the state: every visit
lowers it (`hops_visit`), whatever the state was before.
-/

namespace AgentOs

open AgentOs.Lib

variable {H ω : Type} (tools : Toolbox H)

/-! ### Invocations -/

/-- What is left of an invocation once `i` nodes have run: `none` where `limit` steps are not
enough. -/
def runNodes (os : ℕ → Outside H ω) : ℕ → ℕ → AgentThread ω → Option (AgentThread ω)
  | 0, _, _ => none
  | limit + 1, i, t =>
      match t.failure, t.pending, t.next with
      | none, none, some n =>
          runNodes os limit (i + 1) ((agentGraph ω tools).visit t n [] (os i))
      | _, _, _ => some t

/-- An invocation with an input. -/
def invokeFresh (limit : ℕ) (t : AgentThread ω) (setup : RunSetup) (task : String)
    (runId : Option String) (os : ℕ → Outside H ω) : Option (AgentThread ω) :=
  runNodes tools os limit 0 (startRun tools t setup task runId)

/-- An invocation with a reply to the pending interrupt: its node runs again. -/
def invokeResumed (limit : ℕ) (t : AgentThread ω) (reply : String) (os : ℕ → Outside H ω) :
    Option (AgentThread ω) :=
  match limit, t.next, t.pending with
  | limit + 1, some n, some _ =>
      runNodes tools os limit 1 ((agentGraph ω tools).visit t n (t.replies ++ [reply]) (os 0))
  | _, _, _ => none

/-- The architect drafts a plan, the executor reports success, and the router mode is valid. -/
structure Obliging (o : Outside H ω) : Prop where
  architect : ∀ prompt, ∃ plan, o.architect.agent prompt = .ok plan
  executor : ∀ plan, ∃ report, o.executor.agent plan = .ok report ∧ report.success = true
  router : ∃ mode, getRouterMode o.routerMode = .ok mode

/-- A reply that the interrupted node accepts: the gate wants a decision. -/
def WellFormedReply (t : AgentThread ω) (reply : String) : Prop :=
  t.next = some .humanGate → ∃ normalized, normalizeHumanFeedback reply = .ok normalized

/-- A fresh thread, or what the invocations of a run leave of it. -/
inductive BudgetedRun : AgentThread ω → Prop where
  | thread (w : ω) : BudgetedRun (freshThread w)
  | fresh {t t' : AgentThread ω} {setup : RunSetup} {task : String} {runId : Option String}
      {os : ℕ → Outside H ω} :
      BudgetedRun t → (∀ i, Obliging (os i)) →
      invokeFresh tools defaultRecursionLimit t setup task runId os = some t' → BudgetedRun t'
  | resumed {t t' : AgentThread ω} {reply : String} {os : ℕ → Outside H ω} :
      BudgetedRun t → t.pending.isSome = true → WellFormedReply t reply → (∀ i, Obliging (os i)) →
      invokeResumed tools defaultRecursionLimit t reply os = some t' → BudgetedRun t'

/-- The invocation from `t` ends within the budget: at `END` or at an interrupt, after at most
six nodes. -/
def EndsInBudget (t : AgentThread ω) (outcome : Option (AgentThread ω)) : Prop :=
  ∃ t', outcome = some t' ∧ t'.failure = none ∧ (t'.next = none ∨ t'.pending.isSome = true) ∧
    t'.trail.length ≤ t.trail.length + 6

/-! ### Nodes of an obliging outside -/

section

variable {tools} {o : Outside H ω} {s : SimonState} {replies : List String} {w : ω}

theorem invokeSkill_returns (invoke : RegisteredSkill H → Dict → Code ω RawOutput)
    (skill : RegisteredSkill H) (arguments : Dict) (replies : List String) (w : ω) (e : String) :
    (invokeSkill invoke skill arguments replies w).1 ≠ .raised e := by
  unfold invokeSkill
  rcases h : invoke skill arguments replies w with ⟨raw | prompt | error, rest, w'⟩
  · rw [Pass.bind_of_done (Pass.attempt_of_done h)]
    exact fun same => by cases same
  · rw [Pass.bind_of_paused (Pass.attempt_of_paused h)]
    exact fun same => by cases same
  · rw [Pass.bind_of_done (Pass.attempt_of_raised h)]
    exact fun same => by cases same

variable (tools) in
/-- The dispatcher raises only over the router mode. -/
theorem chooseTool_returns (obliging : Obliging o) (task e : String) :
    chooseTool tools.registry tools.parameters o.routerMode o.answer task ≠ .raise e := by
  obtain ⟨mode, valid⟩ := obliging.router
  have chosen : ∀ decision, chooseFrom tools.registry decision ≠ .raise e := by
    intro decision
    unfold chooseFrom
    split
    · exact fun same => by cases same
    · split_ifs
      · exact fun same => by cases same
      · split <;> exact fun same => by cases same
  unfold chooseTool
  rw [valid]
  split
  · exact fun same => by cases same
  · exact chosen _
  · cases mode with
    | directEscalation => exact fun same => by cases same
    | cascade =>
        dsimp only
        split
        · exact fun same => by cases same
        · exact chosen _

theorem dispatch_returns (obliging : Obliging o) (e : String) :
    (dispatch tools.registry tools.parameters o.routerMode o.answer o.invoke s replies w).1 ≠
      .raised e := by
  have chosen := chooseTool_returns tools obliging s.task
  unfold dispatch
  cases choice : chooseTool tools.registry tools.parameters o.routerMode o.answer s.task with
  | escalate tool error => exact fun same => by cases same
  | raise error => exact absurd choice (chosen error)
  | call skill arguments => exact invokeSkill_returns _ _ _ _ _ _

/-- Where code does not raise, neither does what is made of its value. -/
theorem map_returns {α β : Type} {p : Code ω α} (f : α → β)
    (returns : ∀ e, (p replies w).1 ≠ .raised e) (e : String) :
    ((do return f (← p) : Code ω β) replies w).1 ≠ .raised e := by
  rcases h : p replies w with ⟨u | prompt | error, rest, w'⟩
  · rw [Pass.bind_of_done h]
    exact fun same => by cases same
  · rw [Pass.bind_of_paused h]
    exact fun same => by cases same
  · exact absurd (congrArg Prod.fst h) (returns error)

/-- A node raises neither without a plan that it needs nor over a reply that it does not know. -/
theorem runNode_returns (obliging : Obliging o) {n : Node}
    (plan : n = .humanGate ∨ n = .executor → ∃ plan, s.planArtifact? = some plan)
    (reply : n = .humanGate → ∀ value ∈ replies.head?,
      ∃ normalized, normalizeHumanFeedback value = .ok normalized) (e : String) :
    (runNode tools n s o replies w).1 ≠ .raised e := by
  cases n with
  | planner | supervisor => exact fun same => by cases same
  | architect =>
      refine map_returns _ (fun e => ?_) e
      obtain ⟨brief, drafts⟩ := obliging.architect (architectPrompt s
        (s.hotContext.getD o.architect.loadedContext)
        ((o.architect.summarized.map (·.1)).orElse fun _ => s.conversationSummary))
      simp only [architectNode, drafts]
      exact fun same => by cases same
  | humanGate =>
      refine map_returns _ (fun e => ?_) e
      obtain ⟨plan, drafted⟩ := plan (.inl rfl)
      cases replies with
      | nil =>
          rw [humanGateNode_asks drafted]
          exact fun same => by cases same
      | cons value rest =>
          obtain ⟨normalized, known⟩ := reply rfl value rfl
          rw [humanGateNode_answers drafted, known]
          exact fun same => by cases same
  | executor =>
      refine map_returns _ (fun e => ?_) e
      obtain ⟨plan, drafted⟩ := plan (.inr rfl)
      obtain ⟨report, reports, _⟩ := obliging.executor plan
      simp only [executorNode, drafted, reports]
      exact fun same => by cases same
  | toolDispatcher =>
      exact map_returns (fun command : DispatcherCommand =>
        ({ update := command.update, goto := some command.goto } : NodeResult))
        (fun e => dispatch_returns obliging e) e

/-- The report of the executor completes the run. -/
theorem runNode_completes (obliging : Obliging o) {plan : PlanArtifact}
    (drafted : s.planArtifact? = some plan) {result : NodeResult}
    (ends : (runNode tools .executor s o replies w).1 = .done result) :
    (s.apply result.update).executorCompleted = true := by
  obtain ⟨report, reports, success⟩ := obliging.executor plan
  have executed : executorNode o.executor s replies w = (.done
      { executorOutput := some (some (.report
          (attachSelfCheck report plan (o.executor.selfCheck report)))) }, replies, w) := by
    simp only [executorNode, drafted, reports]
    rfl
  have finished : (runNode tools .executor s o replies w).1 = .done { update :=
      { executorOutput := some (some (.report
          (attachSelfCheck report plan (o.executor.selfCheck report)))) } } := by
    simp only [runNode]
    rw [Pass.bind_of_done executed]
    rfl
  rw [finished] at ends
  cases ends
  have kept : (attachSelfCheck report plan (o.executor.selfCheck report)).success = true := by
    unfold attachSelfCheck
    split_ifs <;> exact success
  exact kept

end

/-! ### Plans -/

/-- The gate and the executor find a plan, and the gate no earlier reply. -/
structure Supplied (t : AgentThread ω) : Prop where
  interrupted : t.pending.isSome = true → t.next.isSome = true
  unanswered : t.next = some .humanGate → t.replies = []
  gate : t.next = some .humanGate → ∃ plan, t.state.planArtifact? = some plan
  executor : t.next = some .executor → ∃ plan, t.state.planArtifact? = some plan
  approved : t.state.humanFeedback = some "approved" → ∃ plan, t.state.planArtifact? = some plan

section

variable {tools} {t : AgentThread ω} {n : Node}

theorem Supplied.congr {t' : AgentThread ω} (supplied : Supplied t) (hn : t.next = some n)
    (next : t'.next = t.next) (state : t'.state = t.state)
    (replies : t'.next = some .humanGate → t'.replies = []) : Supplied t' where
  interrupted := fun _ => by rw [next, hn]; rfl
  unanswered := replies
  gate := fun hn => state ▸ supplied.gate (next ▸ hn)
  executor := fun hn => state ▸ supplied.executor (next ▸ hn)
  approved := state ▸ supplied.approved

theorem supplied_visit (supplied : Supplied t) (hn : t.next = some n) (replies : List String)
    (o : Outside H ω) : Supplied ((agentGraph ω tools).visit t n replies o) := by
  obtain ⟨exit, w', exits, closed⟩ := agent_visit tools t n replies o
  rw [closed]
  cases exits with
  | planned injected =>
      have kept := planArtifact?_planned injected t.state
      exact ⟨fun asked => (by cases asked), fun _ => rfl, fun next => (by cases next),
        fun next => (by cases next),
        fun approved => (supplied.approved approved).imp fun plan has => kept.trans has⟩
  | routed =>
      rw [close_routed]
      refine ⟨fun asked => (by cases asked), fun _ => rfl, fun next => ?_, fun next => ?_,
        supplied.approved⟩
      · cases hr : routeFromState t.state <;> rw [hr] at next <;> cases next
      · cases hr : routeFromState t.state <;> rw [hr] at next <;> cases next
        exact supplied.approved (route_executor_iff.mp hr).2
  | drafted plan hot summary removed =>
      exact ⟨fun asked => (by cases asked), fun _ => rfl, fun _ => ⟨plan, rfl⟩,
        fun _ => ⟨plan, rfl⟩, fun _ => ⟨plan, rfl⟩⟩
  | asked hplan => exact supplied.congr hn rfl rfl fun _ => rfl
  | answered hplan hv =>
      have has := supplied.gate hn
      exact ⟨fun asked => (by cases asked), fun _ => rfl, fun _ => has, fun _ => has, fun _ => has⟩
  | misread hplan hv => exact supplied.congr hn rfl rfl supplied.unanswered
  | executed report hplan =>
      have has := supplied.executor hn
      exact ⟨fun asked => (by cases asked), fun _ => rfl, fun _ => has, fun _ => has, fun _ => has⟩
  | escalated tool error =>
      exact ⟨fun asked => (by cases asked), fun _ => rfl, fun next => (by cases next),
        fun next => (by cases next), supplied.approved⟩
  | reported tool raw =>
      exact ⟨fun asked => (by cases asked), fun _ => rfl, fun next => (by cases next),
        fun next => (by cases next), supplied.approved⟩
  | waiting prompt => exact supplied.congr hn rfl rfl fun next => by cases hn.symm.trans next
  | failed e planner supervisor => exact supplied.congr hn rfl rfl supplied.unanswered

variable (tools) in
theorem supplied_start (t : AgentThread ω) (setup : RunSetup) (task : String)
    (runId : Option String) : Supplied (startRun tools t setup task runId) where
  interrupted := fun asked => by cases asked
  unanswered := fun _ => rfl
  gate := fun next => by cases next
  executor := fun next => by cases next
  approved := fun approved => by cases approved

end

/-! ### Hops -/

/-- The nodes that an invocation still runs from the supervisor, by its route. -/
def routeHops : Route → ℕ
  | .tool => 5
  | .executor | .architect => 3
  | .finish => 1

/-- The nodes that an invocation still runs from a node, which has a reply or has none. -/
def nodeHops (replied : Bool) (s : SimonState) : Node → ℕ
  | .planner => 6
  | .supervisor => routeHops (routeFromState s)
  | .architect => 2
  | .humanGate => if replied then 4 else 1
  | .executor => 2
  | .toolDispatcher => 4

/-- The nodes that an invocation still runs: none at `END` and at an interrupt. -/
def hops (t : AgentThread ω) : ℕ :=
  match t.pending, t.next with
  | none, some n => nodeHops false t.state n
  | _, _ => 0

theorem routeHops_le (s : SimonState) : routeHops (routeFromState s) ≤ 5 := by
  cases routeFromState s <;> decide

/-- A state that is decided about or escalated does not go to the dispatcher. -/
theorem routeHops_le_three {s : SimonState} (h : routeFromState s ≠ .tool) :
    routeHops (routeFromState s) ≤ 3 := by
  cases hr : routeFromState s with
  | tool => exact absurd hr h
  | architect | executor | finish => decide

section

variable {tools} {t : AgentThread ω} {n : Node} {o : Outside H ω}

variable (tools) in
/-- **Step lemma.** Every visit that returns brings the end of the invocation nearer. -/
theorem hops_visit (supplied : Supplied t) (obliging : Obliging o) (hn : t.next = some n)
    (replies : List String) (reply : n = .humanGate → ∀ value ∈ replies.head?,
      ∃ normalized, normalizeHumanFeedback value = .ok normalized) :
    hops ((agentGraph ω tools).visit t n replies o) + 1 ≤ nodeHops (!replies.isEmpty) t.state n ∧
      ((agentGraph ω tools).visit t n replies o).failure = none := by
  have exits : NodeExit t.state n replies (runNode tools n t.state o replies t.world).1 :=
    node_exit n
  have plan : n = .humanGate ∨ n = .executor → ∃ plan, t.state.planArtifact? = some plan := by
    rintro (gate | executor)
    · exact supplied.gate (gate ▸ hn)
    · exact supplied.executor (executor ▸ hn)
  have returns : ∀ e, (runNode tools n t.state o replies t.world).1 ≠ .raised e :=
    runNode_returns obliging plan reply
  have completes : n = .executor → ∀ result,
      (runNode tools n t.state o replies t.world).1 = .done result →
        (t.state.apply result.update).executorCompleted = true := by
    rintro executor result ends
    obtain ⟨plan, drafted⟩ := plan (.inr executor)
    rw [executor] at ends
    exact runNode_completes obliging drafted ends
  have closed : (agentGraph ω tools).visit t n replies o = (agentGraph ω tools).close t
      ⟨n, t.state, replies, (runNode tools n t.state o replies t.world).1⟩
      (runNode tools n t.state o replies t.world).2.2 := rfl
  rw [closed]
  generalize (runNode tools n t.state o replies t.world).2.2 = w'
  generalize (runNode tools n t.state o replies t.world).1 = exit at exits returns completes
  cases exits with
  | planned injected => exact ⟨Nat.succ_le_succ (routeHops_le _), rfl⟩
  | routed =>
      rw [close_routed]
      refine ⟨?_, rfl⟩
      cases hr : routeFromState t.state <;>
        simp [hops, nodeHops, hr, routeToNode, Target.node?, routeHops]
  | drafted plan hot summary removed => exact ⟨Nat.le_refl _, rfl⟩
  | asked hplan => exact ⟨Nat.le_refl _, rfl⟩
  | answered hplan known =>
      refine ⟨Nat.succ_le_succ (routeHops_le_three fun tool => ?_), rfl⟩
      obtain ⟨_, approved, rejected, _⟩ := route_tool_iff.mp tool
      rcases answer_decides known with decided | decided
      · exact approved (congrArg some decided)
      · cases rejected.symm.trans decided
  | misread hplan unknown => exact absurd rfl (returns _)
  | executed report hplan =>
      have completed := completes rfl _ rfl
      refine ⟨?_, rfl⟩
      have route := route_of_completed completed
      exact Nat.succ_le_succ (Nat.le_of_eq (congrArg routeHops route))
  | escalated tool error =>
      refine ⟨Nat.succ_le_succ (routeHops_le_three fun route => ?_), rfl⟩
      exact (route_tool_iff.mp route).2.2.2.2.2 rfl
  | reported tool raw => exact ⟨Nat.succ_le_succ (Nat.zero_le 3), rfl⟩
  | waiting prompt => exact ⟨Nat.succ_le_succ (Nat.zero_le 3), rfl⟩
  | failed e planner supervisor => exact absurd rfl (returns e)

variable (tools) in
/-- **Run lemma.** The loop ends within its limit, having run at most `hops` nodes. -/
theorem runNodes_ends {os : ℕ → Outside H ω} (obliging : ∀ i, Obliging (os i)) {limit : ℕ} :
    ∀ (i : ℕ) (t : AgentThread ω), Supplied t → t.failure = none → hops t < limit →
      ∃ t', runNodes tools os limit i t = some t' ∧ Supplied t' ∧ t'.failure = none ∧
        (t'.next = none ∨ t'.pending.isSome = true) ∧
        t'.trail.length ≤ t.trail.length + hops t := by
  induction limit with
  | zero => exact fun _ _ _ _ few => absurd few (Nat.not_lt_zero _)
  | succ limit ih =>
      intro i t supplied quiet few
      rw [runNodes, quiet]
      cases pending : t.pending with
      | some prompt =>
          exact ⟨t, rfl, supplied, quiet, .inr (by rw [pending]; rfl), Nat.le_add_right _ _⟩
      | none =>
          cases hn : t.next with
          | none => exact ⟨t, rfl, supplied, quiet, .inl hn, Nat.le_add_right _ _⟩
          | some n =>
              have now : hops t = nodeHops false t.state n := by simp only [hops, pending, hn]
              obtain ⟨fewer, quiet'⟩ := hops_visit tools supplied (obliging i) hn []
                (by rintro _ _ ⟨⟩)
              obtain ⟨t', ends, supplied', quiet'', stopped, ran⟩ := ih (i + 1) _
                (supplied_visit supplied hn [] (os i)) quiet' (by
                  simp only [List.isEmpty_nil, Bool.not_true] at fewer
                  omega)
              refine ⟨t', ends, supplied', quiet'', stopped, ?_⟩
              have grown : ((agentGraph ω tools).visit t n [] (os i)).trail.length =
                  t.trail.length + 1 := by
                rw [Workflow.visit, Workflow.close_trail, List.length_append]
                rfl
              simp only [List.isEmpty_nil, Bool.not_true] at fewer
              omega

/-- No node leaves more than five after it. -/
theorem nodeHops_le (replied : Bool) (s : SimonState) (n : Node) : nodeHops replied s n ≤ 6 := by
  cases n with
  | supervisor => exact Nat.le_succ_of_le (routeHops_le s)
  | humanGate => cases replied <;> exact Nat.le_of_ble_eq_true rfl
  | planner | architect | executor | toolDispatcher => exact Nat.le_of_ble_eq_true rfl

variable (tools) in
/-- An input is worked off. -/
theorem invokeFresh_ends {os : ℕ → Outside H ω} (obliging : ∀ i, Obliging (os i))
    (t : AgentThread ω) (setup : RunSetup) (task : String) (runId : Option String) :
    ∃ t', invokeFresh tools defaultRecursionLimit t setup task runId os = some t' ∧ Supplied t' ∧
      t'.failure = none ∧ (t'.next = none ∨ t'.pending.isSome = true) ∧ t'.trail.length ≤ 6 := by
  obtain ⟨t', ends, supplied, quiet, stopped, ran⟩ := runNodes_ends tools obliging 0
    (startRun tools t setup task runId) (supplied_start tools t setup task runId) rfl
    (Nat.lt_succ_of_le (Nat.le_refl 6))
  exact ⟨t', ends, supplied, quiet, stopped, ran⟩

variable (tools) in
/-- A reply is worked off. -/
theorem invokeResumed_ends {os : ℕ → Outside H ω} (obliging : ∀ i, Obliging (os i))
    (supplied : Supplied t) (asked : t.pending.isSome = true) {reply : String}
    (wellFormed : WellFormedReply t reply) :
    ∃ t', invokeResumed tools defaultRecursionLimit t reply os = some t' ∧ Supplied t' ∧
      t'.failure = none ∧ (t'.next = none ∨ t'.pending.isSome = true) ∧
      t'.trail.length ≤ t.trail.length + 6 := by
  obtain ⟨n, hn⟩ := Option.isSome_iff_exists.mp (supplied.interrupted asked)
  obtain ⟨prompt, pending⟩ := Option.isSome_iff_exists.mp asked
  have known : n = .humanGate → ∀ value ∈ (t.replies ++ [reply]).head?,
      ∃ normalized, normalizeHumanFeedback value = .ok normalized := by
    rintro rfl value first
    rw [supplied.unanswered hn] at first
    cases first
    exact wellFormed hn
  obtain ⟨fewer, quiet⟩ := hops_visit tools supplied (obliging 0) hn _ known
  have few := nodeHops_le (!(t.replies ++ [reply]).isEmpty) t.state n
  obtain ⟨t', ends, supplied', quiet', stopped, ran⟩ := runNodes_ends tools obliging 1 _
    (supplied_visit supplied hn (t.replies ++ [reply]) (os 0)) quiet (fewer.trans few)
  refine ⟨t', ?_, supplied', quiet', stopped, ?_⟩
  · rw [← ends]
    simp only [invokeResumed, defaultRecursionLimit, hn, pending]
  · have grown : ((agentGraph ω tools).visit t n (t.replies ++ [reply]) (os 0)).trail.length =
        t.trail.length + 1 := by
      rw [Workflow.visit, Workflow.close_trail, List.length_append]
      rfl
    omega

/-- A run has what its next invocation needs. -/
theorem BudgetedRun.supplied {t : AgentThread ω} (run : BudgetedRun tools t) : Supplied t := by
  induction run with
  | thread w =>
      exact ⟨fun asked => (by cases asked), fun _ => rfl, fun next => (by cases next),
        fun next => (by cases next), fun approved => (by cases approved)⟩
  | fresh earlier obliging ends supplied =>
      obtain ⟨t', ends', supplied', _⟩ := invokeFresh_ends tools obliging _ _ _ _
      cases ends.symm.trans ends'
      exact supplied'
  | @resumed t t' reply os earlier asked wellFormed obliging ends supplied =>
      obtain ⟨t', ends', supplied', _⟩ :=
        invokeResumed_ends tools obliging supplied asked wellFormed
      cases ends.symm.trans ends'
      exact supplied'

end

/-- Every invocation of a run ends within the default limit, at `END` or at an interrupt, after at
most six nodes. -/
theorem passes_fit_budget {t : AgentThread ω} (run : BudgetedRun tools t)
    {os : ℕ → Outside H ω} (obliging : ∀ i, Obliging (os i)) :
    (∀ setup task runId, EndsInBudget (startRun tools t setup task runId)
      (invokeFresh tools defaultRecursionLimit t setup task runId os)) ∧
    ∀ reply, t.pending.isSome = true → WellFormedReply t reply →
      EndsInBudget t (invokeResumed tools defaultRecursionLimit t reply os) := by
  constructor
  · intro setup task runId
    obtain ⟨t', ends, _, quiet, stopped, ran⟩ := invokeFresh_ends tools obliging t
      setup task runId
    exact ⟨t', ends, quiet, stopped, ran⟩
  · intro reply asked wellFormed
    obtain ⟨t', ends, _, quiet, stopped, ran⟩ := invokeResumed_ends tools obliging
      run.supplied asked wellFormed
    exact ⟨t', ends, quiet, stopped, ran⟩

theorem obliging_sampleOutside : Obliging sampleOutside where
  architect := fun _ => ⟨_, rfl⟩
  executor := fun _ => ⟨_, rfl, rfl⟩
  router := ⟨.cascade, by decide +kernel⟩

/-- The sample run stops at the gate after six nodes, and after an approval at `END`. -/
theorem sample_fits_budget : ∃ t t',
    invokeFresh emptyToolbox defaultRecursionLimit (freshThread ()) {} "task" none
      (fun _ => sampleOutside) = some t ∧ t.pending.isSome = true ∧ t.trail.length = 6 ∧
    invokeResumed emptyToolbox defaultRecursionLimit t "y" (fun _ => sampleOutside) = some t' ∧
    t'.next = none ∧ t'.trail.length ≤ t.trail.length + 6 := by
  have obliging : ∀ _ : ℕ, Obliging sampleOutside := fun _ => obliging_sampleOutside
  obtain ⟨first, _⟩ := passes_fit_budget emptyToolbox (.thread ()) obliging
  obtain ⟨t, ends, _, _, _⟩ := first {} "task" none
  have stops : (invokeFresh emptyToolbox defaultRecursionLimit (freshThread ()) {} "task" none
      (fun _ => sampleOutside)).any (fun t => t.pending.isSome && t.trail.length == 6) = true := by
    decide +kernel
  simp only [ends, Option.any_some, Bool.and_eq_true, beq_iff_eq] at stops
  obtain ⟨asked, six⟩ := stops
  have run : BudgetedRun emptyToolbox t := .fresh (.thread ()) obliging ends
  obtain ⟨_, second⟩ := passes_fit_budget emptyToolbox run obliging
  obtain ⟨t', ends', _, stopped, ran⟩ := second "y" asked fun _ => ⟨"approved", by decide +kernel⟩
  have finishes : ((invokeFresh emptyToolbox defaultRecursionLimit (freshThread ()) {} "task" none
      (fun _ => sampleOutside)).bind fun t => invokeResumed emptyToolbox defaultRecursionLimit t
        "y" (fun _ => sampleOutside)).any (fun t => t.next.isNone) = true := by decide +kernel
  simp only [ends, Option.bind_some, ends', Option.any_some, Option.isNone_iff_eq_none] at finishes
  exact ⟨t, t', ends, asked, six, ends', finishes, ran⟩

end AgentOs
