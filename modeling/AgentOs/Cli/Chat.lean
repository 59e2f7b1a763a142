import AgentOs.Graph.Parallel
import AgentOs.Graph.Review
import AgentOs.Graph.Stage

/-!
The chat loop of the command line (`_chat_loop`, `cli/app.py`).

The first message of a thread is an initial state. Every later one writes only
`messages`: the task, the feedback, the output and the escalation of the earlier
turns stay, and the nodes read them again.

`turn_isolated_iff` gives the turns that do not depend on what earlier turns
left: the first one, and a repetition of the first message on a thread no turn
has escalated.
-/

namespace AgentOs

open AgentOs.Lib

variable {H ω : Type} {tools : Toolbox H}

/-! ### Turns -/

/-- `graph_input` of a message: only the first one is an initial state. -/
def chatInput (setup : RunSetup) (checkpointExists : Bool) (message : String) : StateUpdate :=
  if checkpointExists then { messages := [⟨.human, message⟩] } else cliInitialState setup message

/-- A turn begins. -/
def chatTurn (tools : Toolbox H) (setup : RunSetup) (checkpointExists : Bool)
    (t : AgentThread ω) (message : String) : AgentThread ω :=
  (agentGraph ω tools).start t (asInput (chatInput setup checkpointExists message))

/-- A chat on one thread: the messages so far and the thread they lead to. A turn
is the calls made in it, and may be cut short: the loop returns at Ctrl+C, at a
closed input and on an error, and goes on with the thread when it is entered
again. -/
inductive Chat (tools : Toolbox H) (setup : RunSetup) : List String → AgentThread ω → Prop where
  | opened (w : ω) : Chat tools setup [] (freshThread w)
  | turn {messages : List String} {t t' : AgentThread ω} {message : String}
      {calls : List (Call (Outside H ω) String String)} :
      Chat tools setup messages t →
      Machine.Path (agentMachine ω tools) Machine.Free
        (chatTurn tools setup (!messages.isEmpty) t message) calls t' →
      Chat tools setup (messages ++ [message]) t'

/-! ### Isolation -/

/-- A tool invocation, a planning call or an execution that works on `message`. -/
def WorksOn (message : String) (v : AgentVisit) : Prop :=
  v.node = .toolDispatcher ∨ v.node = .architect ∨ v.node = .executor → v.state.task = message

/-- The architect drafted this plan before. -/
def Drafted (before : List AgentVisit) (plan : PlanArtifact) : Prop :=
  ∃ v ∈ before, v.node = .architect ∧
    ∃ result, v.exit = .done result ∧ result.update.plan = some (some (.artifact plan))

/-- An executor visit that runs a plan drafted and approved before it. -/
def RunsOwnPlan (before : List AgentVisit) (v : AgentVisit) : Prop :=
  v.node = .executor → ∃ plan, v.state.plan = some (.artifact plan) ∧ Drafted before plan ∧
    Approved before plan

/-- The state without what earlier turns left in the routing channels. -/
def SimonState.cleared (s : SimonState) (message : String) : SimonState :=
  { s with
    task := message
    plan := none
    executorOutput := none
    humanFeedback := none
    toolResult := none
    routerEscalated := none }

/-- The turn that starts in `t` is isolated: whatever is answered in it, its
steps work on its message, it executes only its own plans, and it takes the way
it would take without the channels earlier turns have left. -/
structure TurnIsolated (tools : Toolbox H) (t : AgentThread ω) (message : String) : Prop where
  works : ∀ calls t', Machine.Path (agentMachine ω tools) Machine.Free t calls t' →
    ∀ v ∈ t'.trail, WorksOn message v
  plans : ∀ calls t', Machine.Path (agentMachine ω tools) Machine.Free t calls t' →
    EachVisit RunsOwnPlan t'.trail
  routing : ∀ calls t', Machine.Path (agentMachine ω tools) Machine.Free t calls t' →
    ∃ t'', Machine.Path (agentMachine ω tools) Machine.Free
        { t with state := t.state.cleared message } calls t'' ∧
      t'.trail.map (·.node) = t''.trail.map (·.node) ∧ t'.next = t''.next

section Turn

variable {t : AgentThread ω} {message : String}

/-- What a turn on `message` keeps. -/
structure OnTask (message : String) (t : AgentThread ω) : Prop where
  task : t.state.task = message
  works : ∀ v ∈ t.trail, v.state.task = message
  /-- a plan in the state was drafted in this turn -/
  drafted : ∀ plan, t.state.planArtifact? = some plan → Drafted t.trail plan
  executed : EachVisit (fun before v => v.node = .executor →
    ∀ plan, v.state.plan = some (.artifact plan) → Drafted before plan) t.trail

theorem Drafted.concat {before : List AgentVisit} {plan : PlanArtifact} (h : Drafted before plan)
    (v : AgentVisit) : Drafted (before ++ [v]) plan := by
  obtain ⟨architect, mem, rest⟩ := h
  exact ⟨architect, List.mem_append_left _ mem, rest⟩

/-- **Step lemma.** Every visit keeps the task. -/
theorem onTask_visit (on : OnTask message t) (n : Node) (replies : List String)
    (o : Outside H ω) : OnTask message ((agentGraph ω tools).visit t n replies o) := by
  obtain ⟨exit, w', exits, closed⟩ := agent_visit tools t n replies o
  rw [closed]
  have works : ∀ v ∈ t.trail ++ [⟨n, t.state, replies, exit⟩], v.state.task = message := by
    intro v mem
    rcases List.mem_append.mp mem with earlier | last
    · exact on.works v earlier
    · rw [List.mem_singleton.mp last]
      exact on.task
  have executed : EachVisit (fun before v => v.node = .executor →
      ∀ plan, v.state.plan = some (.artifact plan) → Drafted before plan)
      (t.trail ++ [⟨n, t.state, replies, exit⟩]) :=
    eachVisit_concat.mpr ⟨on.executed, fun _ plan h =>
      on.drafted plan (SimonState.planArtifact?_eq_some_iff.mpr h)⟩
  have kept : ∀ plan, t.state.planArtifact? = some plan →
      Drafted (t.trail ++ [⟨n, t.state, replies, exit⟩]) plan :=
    fun plan h => (on.drafted plan h).concat _
  cases exits with
  | planned injected =>
      refine ⟨on.task, works, fun plan h => kept plan ?_, executed⟩
      exact (planArtifact?_planned injected t.state).symm.trans h
  | routed =>
      rw [close_routed]
      exact ⟨on.task, works, kept, executed⟩
  | drafted brief hot summary removed =>
      refine ⟨on.task, works, fun plan h => ?_, executed⟩
      exact ⟨_, List.mem_append_right _ (List.mem_singleton_self _), rfl, _, rfl,
        congrArg some (SimonState.planArtifact?_eq_some_iff.mp h)⟩
  | asked hplan => exact ⟨on.task, works, kept, executed⟩
  | answered hplan hv => exact ⟨on.task, works, kept, executed⟩
  | misread hplan hv => exact ⟨on.task, works, kept, executed⟩
  | executed report hplan => exact ⟨on.task, works, kept, executed⟩
  | escalated tool error => exact ⟨on.task, works, kept, executed⟩
  | reported tool raw => exact ⟨on.task, works, kept, executed⟩
  | waiting prompt => exact ⟨on.task, works, kept, executed⟩
  | failed e planner supervisor => exact ⟨on.task, works, kept, executed⟩

theorem onTask_step (on : OnTask message t) {call : Call (Outside H ω) String String}
    {t' : AgentThread ω} (step : (agentMachine ω tools).step t call = some t') :
    OnTask message t' := by
  cases Workflow.step_iff.mp step with
  | execute hn _ => exact onTask_visit on _ _ _
  | resume hn _ => exact onTask_visit on _ _ _
  | fail _ => exact ⟨on.task, on.works, on.drafted, on.executed⟩

/-- A turn whose input leaves nothing of earlier turns is isolated. -/
theorem isolated_of_untouched {input : NodeResult}
    (task : (t.state.apply input.update).task = message)
    (feedback : (t.state.apply input.update).humanFeedback = none)
    (output : (t.state.apply input.update).executorOutput = none)
    (plan : (t.state.apply input.update).planArtifact? = none)
    (escalated : (t.state.apply input.update).routerEscalated ≠ some true) :
    TurnIsolated tools ((agentGraph ω tools).start t input) message := by
  have on : OnTask message ((agentGraph ω tools).start t input) :=
    { task := task
      works := fun _ mem => absurd mem List.not_mem_nil
      drafted := fun _ h => nomatch plan.symm.trans h
      executed := eachVisit_nil }
  have reviewed : Reviewed ((agentGraph ω tools).start t input) :=
    reviewed_of_start (by rw [feedback]; nofun)
  have parallel : Parallel ((agentGraph ω tools).start t input)
      { (agentGraph ω tools).start t input with
        state := ((agentGraph ω tools).start t input).state.cleared message } :=
    ⟨⟨rfl, rfl, rfl, rfl⟩, ⟨task, plan, output, feedback, rfl, rfl, rfl,
      ⟨fun h => absurd h escalated, nofun⟩⟩, rfl, rfl⟩
  refine ⟨fun calls t' run v mem _ => ?_, fun calls t' run before v after split isExecutor => ?_,
    fun calls t' run => ?_⟩
  · exact (run.invariant (I := OnTask message) (fun _ _ _ _ on step => onTask_step on step)
      on).works v mem
  · have drafted := (run.invariant (I := OnTask message)
      (fun _ _ _ _ on step => onTask_step on step) on).executed
    have approved := (run.invariant (I := Reviewed)
      (fun _ _ _ _ inv step => reviewed_step inv step) reviewed).history
    obtain ⟨plan, hplan, standing⟩ := approved before v after split isExecutor
    exact ⟨plan, hplan, drafted before v after split isExecutor plan hplan, standing⟩
  · obtain ⟨t'', run', alike⟩ := parallel_run parallel run
    exact ⟨t'', run', alike.nodes, alike.next⟩

variable (tools) in
/-- A turn's first two visits: the planner and the supervisor. -/
theorem opening_visits (next : t.next = some .planner) (pending : t.pending = none) :
    ∃ t', Machine.Path (agentMachine ω tools) Machine.Free t [.execute {}, .execute {}] t' ∧
      t'.state = t.state.apply (plannerNode none t.state) ∧ t'.pending = none ∧
      t'.next = (routeToNode (routeFromState t'.state)).node? := by
  let planned := (agentGraph ω tools).visit t .planner [] {}
  have first : (agentMachine ω tools).step t (.execute {}) = some planned :=
    Workflow.step_iff.mpr (.execute next pending)
  have second : (agentMachine ω tools).step planned (.execute {}) =
      some ((agentGraph ω tools).visit planned .supervisor [] {}) :=
    Workflow.step_iff.mpr (.execute rfl rfl)
  have routed : (agentGraph ω tools).visit planned .supervisor [] {} =
      (agentGraph ω tools).close planned ⟨.supervisor, planned.state, [],
        .done { update := {}, goto := some (supervisorGoto planned.state) }⟩ planned.world := rfl
  rw [routed, close_routed] at second
  exact ⟨_, .cons trivial first (.cons trivial second (.nil _)), rfl, rfl, rfl⟩

variable (tools) in
/-- The dispatcher's visit that follows. -/
theorem dispatcher_visit (next : t.next = some .toolDispatcher) (pending : t.pending = none) :
    ∃ t', Machine.Path (agentMachine ω tools) Machine.Free t [.execute {}] t' ∧
      ∃ v ∈ t'.trail, v.node = .toolDispatcher ∧ v.state = t.state := by
  have step : (agentMachine ω tools).step t (.execute {}) =
      some ((agentGraph ω tools).visit t .toolDispatcher [] {}) :=
    Workflow.step_iff.mpr (.execute next pending)
  refine ⟨_, .single trivial step, (agentGraph ω tools).visitOf t .toolDispatcher [] {}, ?_, rfl,
    rfl⟩
  rw [Workflow.visit, Workflow.close_trail]
  exact List.mem_append_right _ (List.mem_singleton_self _)

/-- An isolated turn goes from the supervisor to the dispatcher. -/
theorem TurnIsolated.unescalated (isolated : TurnIsolated tools t message)
    (next : t.next = some .planner) (pending : t.pending = none) :
    t.state.routerEscalated ≠ some true := by
  intro escalated
  obtain ⟨t', run, state, -, routed⟩ := opening_visits tools next pending
  obtain ⟨c, run', -, same⟩ := isolated.routing _ t' run
  obtain ⟨c', run'', cleared, -, routed'⟩ := opening_visits tools
    (t := { t with state := t.state.cleared message }) next pending
  have : c = c' := Option.some.inj
    ((Machine.run_eq_some_iff.mpr run').symm.trans (Machine.run_eq_some_iff.mpr run''))
  subst this
  have dispatched : routeFromState c.state = .tool := by
    rw [cleared]
    exact route_of_untouched rfl rfl (planArtifact?_planned none _) nofun
  have kept : t'.state.routerEscalated = some true := by
    rw [state]
    exact escalated
  rw [routed, routed', dispatched] at same
  cases hr : routeFromState t'.state <;> rw [hr] at same <;> cases same
  exact (route_tool_iff.mp hr).2.2.2.2.2 kept

/-- An isolated turn of an untouched thread dispatches its message. -/
theorem TurnIsolated.task (isolated : TurnIsolated tools t message)
    (next : t.next = some .planner) (pending : t.pending = none)
    (feedback : t.state.humanFeedback = none) (output : t.state.executorOutput = none)
    (plan : t.state.planArtifact? = none) (escalated : t.state.routerEscalated ≠ some true) :
    t.state.task = message := by
  obtain ⟨t', run, state, unasked, routed⟩ := opening_visits tools next pending
  have dispatched : routeFromState t'.state = .tool := by
    rw [state]
    exact route_of_untouched feedback output ((planArtifact?_planned none _).trans plan) escalated
  rw [dispatched] at routed
  obtain ⟨t'', run', v, mem, node, seen⟩ := dispatcher_visit tools routed unasked
  have works := isolated.works _ t'' (run.append run') v mem (.inl node)
  rw [seen, state] at works
  exact works

end Turn

/-! ### Chats -/

section Chats

variable {setup : RunSetup} {messages : List String} {t : AgentThread ω}

theorem chat_opened (chat : Chat tools setup [] t) : ∃ w, t = freshThread w := by
  generalize h : ([] : List String) = messages at chat
  cases chat with
  | opened w => exact ⟨w, rfl⟩
  | turn _ _ => simp at h

/-- In a chat every thread is gated. -/
theorem chat_gated (chat : Chat tools setup messages t) : Gated t := by
  induction chat with
  | opened w =>
      exact ⟨rfl, fun _ => ⟨rfl, rfl, rfl⟩, nofun, nofun⟩
  | @turn messages t t' message calls _ run gated =>
      refine run.invariant (I := Gated) (fun _ _ _ _ gated step => gated_step gated step) ?_
      cases messages.isEmpty with
      | true =>
          refine ⟨rfl, fun _ => ⟨rfl, rfl, rfl⟩, ?_, nofun⟩
          rintro n next (rfl | rfl | rfl) <;> cases next
      | false =>
          refine ⟨gated.noText, gated.untouched, ?_, nofun⟩
          rintro n next (rfl | rfl | rfl) <;> cases next

/-- **A chat turn is isolated exactly if it is the first one of its thread, or
repeats the thread's task and no turn before has been escalated.** For every
chat, however its turns went and wherever they stopped. -/
theorem turn_isolated_iff (chat : Chat tools setup messages t) (message : String) :
    TurnIsolated tools (chatTurn tools setup (!messages.isEmpty) t message) message ↔
      messages = [] ∨ (message = t.state.task ∧ t.state.routerEscalated ≠ some true) := by
  cases messages with
  | nil =>
      refine iff_of_true ?_ (.inl rfl)
      obtain ⟨w, rfl⟩ := chat_opened chat
      exact isolated_of_untouched rfl rfl rfl rfl nofun
  | cons first rest =>
      have gated := chat_gated chat
      constructor
      · intro isolated
        have escalated := isolated.unescalated rfl rfl
        obtain ⟨feedback, output, plan⟩ := gated.untouched escalated
        exact .inr ⟨(isolated.task rfl rfl feedback output plan escalated).symm, escalated⟩
      · rintro (h | ⟨task, escalated⟩)
        · cases h
        · obtain ⟨feedback, output, plan⟩ := gated.untouched escalated
          exact isolated_of_untouched task.symm feedback output plan escalated

end Chats

/-! ### Two messages -/

/-- A tool that lists a directory. -/
def listingOutside : Outside Unit Unit where
  invoke := fun _ _ => Pass.done
    (.bash { args := ["ls"], returncode := some 0, stdout := "a.txt", stderr := "", timedOut := false })

/-- Planner, supervisor and dispatcher. -/
def listingCalls : List (Call (Outside Unit Unit) String String) :=
  List.replicate 3 (.execute listingOutside)

/-- After a tool has answered the first message, the same message makes an
isolated turn. -/
theorem turn_isolated_iff_sample :
    ∃ t : AgentThread Unit, Chat bashToolbox {} ["bash ls"] t ∧ t.next = none ∧
      TurnIsolated bashToolbox (chatTurn bashToolbox {} true t "bash ls") "bash ls" := by
  have reached : ∃ t, (agentMachine Unit bashToolbox).run
      (chatTurn bashToolbox {} false (freshThread ()) "bash ls") listingCalls = some t ∧
      t.next = none ∧ t.state.task = "bash ls" ∧ t.state.routerEscalated = some false :=
    ⟨_, rfl, by decide +kernel, by decide +kernel, by decide +kernel⟩
  obtain ⟨t, run, finished, task, ended⟩ := reached
  have chat : Chat bashToolbox {} ["bash ls"] t :=
    .turn (.opened ()) (Machine.run_eq_some_iff.mp run)
  exact ⟨t, chat, finished, (turn_isolated_iff chat "bash ls").mpr
    (.inr ⟨task.symm, by rw [ended]; nofun⟩)⟩

/-- Asked to `bash pwd` next, the chat lists the directory again. -/
theorem second_message_repeats_first_task :
    ∃ t t' : AgentThread Unit, Chat bashToolbox {} ["bash ls"] t ∧ t.next = none ∧
      (agentMachine Unit bashToolbox).run (chatTurn bashToolbox {} true t "bash pwd")
        listingCalls = some t' ∧
      t'.trail.map (fun v => (v.node, v.state.task)) =
        [(.planner, "bash ls"), (.supervisor, "bash ls"), (.toolDispatcher, "bash ls")] ∧
      ¬ TurnIsolated bashToolbox (chatTurn bashToolbox {} true t "bash pwd")
        "bash pwd" := by
  have reached : ∃ t, (agentMachine Unit bashToolbox).run
        (chatTurn bashToolbox {} false (freshThread ()) "bash ls") listingCalls = some t ∧
      t.next = none ∧
      ((agentMachine Unit bashToolbox).run (chatTurn bashToolbox {} true t "bash pwd")
        listingCalls).map (fun t' => t'.trail.map fun v => (v.node, v.state.task)) =
        some [(.planner, "bash ls"), (.supervisor, "bash ls"), (.toolDispatcher, "bash ls")] :=
    ⟨_, rfl, by decide +kernel, by decide +kernel⟩
  obtain ⟨t, first, finished, visited⟩ := reached
  obtain ⟨t', second, visits⟩ := Option.map_eq_some_iff.mp visited
  refine ⟨t, t', .turn (.opened ()) (Machine.run_eq_some_iff.mp first), finished, second, visits,
    fun isolated => ?_⟩
  have mem : (Node.toolDispatcher, "bash ls") ∈
      t'.trail.map (fun v => (v.node, v.state.task)) := by simp [visits]
  obtain ⟨v, inTrail, same⟩ := List.mem_map.mp mem
  obtain ⟨node, task⟩ := Prod.mk.inj same
  have works := isolated.works _ t' (Machine.run_eq_some_iff.mp second) v inTrail (.inl node)
  exact absurd (task.symm.trans works) (by decide)

end AgentOs
