import AgentOs.Graph.AgentGraph

/-!
The inputs a run starts from (`server/runtime.py`, `cli/app.py`).

The server and the command line each build an initial state; both write the
task, clear the plan, the output and the feedback, and neither writes
`tool_result` or `router_escalated` (`initialState_keeps`).
-/

namespace AgentOs

open AgentOs.Lib

/-- What the runtime supplies for a new run. -/
structure RunSetup where
  backendBinding : Option BackendBinding := none
  hotContext : Option String := none
  strategyHint : Option StrategyHint := none
deriving Repr

/-- `initial_state`. -/
def initialState (setup : RunSetup) (task : String) (runId : Option String) : StateUpdate where
  messages := [⟨.human, task⟩]
  task := some task
  runId := some runId
  plan := some none
  executorOutput := some none
  humanFeedback := some none
  hotContext := some setup.hotContext
  observationContext := some none
  strategyHint := some setup.strategyHint
  conversationSummary := some none
  backendBinding := some setup.backendBinding

/-- `_initial_state` of the command line. -/
def cliInitialState (setup : RunSetup) (task : String) : StateUpdate where
  messages := [⟨.human, task⟩]
  task := some task
  plan := some none
  executorOutput := some none
  humanFeedback := some none
  hotContext := some setup.hotContext
  conversationSummary := some none
  backendBinding := some setup.backendBinding

/-- An input of the graph. -/
def asInput (update : StateUpdate) : NodeResult := { update := update }

/-- A thread that has never run. -/
def freshThread {ω : Type} (w : ω) : AgentThread ω where
  state := {}
  world := w

section Start

variable {H ω : Type} (tools : Toolbox H)

/-- A server task on a thread. -/
def startRun (t : AgentThread ω) (setup : RunSetup) (task : String) (runId : Option String) :
    AgentThread ω :=
  (agentGraph ω tools).start t (asInput (initialState setup task runId))

/-- The calls of a run, as a machine. -/
abbrev agentMachine (ω : Type) (tools : Toolbox H) :
    Machine (AgentThread ω) (Call (Outside H ω) String String) :=
  (agentGraph ω tools).machine

variable (s : SimonState) (setup : RunSetup) (task : String) (runId : Option String)

/-- What a new task leaves of an old state: the earlier messages and the two
channels it does not write. -/
theorem initialState_keeps :
    (s.apply (initialState setup task runId)).toolResult = s.toolResult ∧
      (s.apply (initialState setup task runId)).routerEscalated = s.routerEscalated :=
  ⟨rfl, by simp [initialState]⟩

end Start

/-! ### A sample run -/

/-- No tools: every task is escalated. -/
def emptyToolbox : Toolbox Unit := ⟨SkillRegistry.empty, fun _ => []⟩

/-- One tool, `bash`. -/
def bashToolbox : Toolbox Unit where
  registry :=
    { skills := [⟨"bash", [], (), by decide, nofun, List.not_mem_nil, List.nodup_nil⟩]
      apart := List.pairwise_singleton _ _ }
  parameters := fun _ => ["cmd_args"]

/-- An architect with a plan and an executor that completes it. -/
def sampleOutside : Outside Unit Unit where
  architect := { agent := fun _ => .ok { summary := "plan" } }
  executor := { agent := fun _ => .ok { status := .completed } }

/-- Six visits up to the gate, an approval, and the rest of the run. -/
def approvedCalls : List (Call (Outside Unit Unit) String String) :=
  List.replicate 6 (.execute sampleOutside) ++ .resume "y" sampleOutside ::
    List.replicate 3 (.execute sampleOutside)

end AgentOs
