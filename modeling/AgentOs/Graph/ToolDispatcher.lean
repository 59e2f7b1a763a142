import AgentOs.Graph.HumanGate
import AgentOs.Graph.Routing
import AgentOs.Tools.DefaultRegistry
import AgentOs.Tools.OutputLimits

/-!
The dispatcher node (`nodes/tool_dispatcher.py`, `nodes/smart_router.py`).

`chooseTool` is the part of `dispatch` before a skill runs: it depends on the
task, the registry, the router mode and the model's answer, and on nothing else
of the state. `dispatch` then escalates, raises, or invokes the chosen skill.
`DispatcherExit` lists how a visit can end; every fact about the graph uses that
list and not the code.
-/

namespace AgentOs

open AgentOs.Lib

/-- A command of the dispatcher: a state update and where to go. -/
structure DispatcherCommand where
  update : StateUpdate
  goto : Target
deriving Repr

/-- What a skill returns. -/
inductive RawOutput where
  | result (r : ExecutionResult)
  | bash (r : BashResult)
  /-- another model, by its fields -/
  | model (fields : Json)
  /-- a dict, list or tuple -/
  | data (value : Json)
  /-- anything else, by its `str` -/
  | other (text : String)
deriving Repr

/-- `_serialize_tool_output`. -/
def serializeToolOutput (rawOutput : RawOutput) : String :=
  let serialized := match rawOutput with
    | .result r => r.toJson.pretty
    | .bash r => r.toJson.pretty
    | .model fields => fields.pretty
    | .data value => value.dumps
    | .other text => text
  (truncateUtf8 serialized dispatcherOutputMaxBytes).1

/-- Whether a returned value counts as success: a result by its status, a
command by its return code, anything else always. -/
def RawOutput.success : RawOutput → Bool
  | .result r => r.success
  | .bash r => r.returncode = none || r.returncode = some 0
  | _ => true

/-- `_escalate`. -/
def escalate (tool : Option String) (error : Option String) : DispatcherCommand where
  update :=
    { routerEscalated := some true
      toolResult := error.map fun message => some
        { tool := (tool.filter (· ≠ "")).getD "router", output := message, success := false } }
  goto := .node .supervisor

/-- The command after a skill returned. -/
def reportTool (tool : String) (rawOutput : RawOutput) : DispatcherCommand where
  update :=
    { toolResult := some (some
        { tool := tool, output := serializeToolOutput rawOutput, success := rawOutput.success })
      routerEscalated := some false }
  goto := .finish

section Dispatch

variable {H ω : Type}

/-- `_invoke_skill`: errors escalate, a policy interrupt passes through. -/
def invokeSkill (invoke : RegisteredSkill H → Dict → Code ω RawOutput)
    (skill : RegisteredSkill H) (arguments : Dict) : Code ω DispatcherCommand := do
  match ← Pass.attempt (invoke skill arguments) with
  | .ok rawOutput => return reportTool skill.name rawOutput
  | .error error => return escalate (some skill.name) (some error)

/-- `classify_tool_request`, given what the model (or getting it) answers. -/
def classifyToolRequest (registry : SkillRegistry H) (answer : Except String RouterDecision) :
    Except String RouterDecision :=
  if registry.names = [] then .ok .undecided
  else
    match answer with
    | .error e => .error e
    | .ok decision =>
        match decision.tool with
        | none => .ok decision
        | some tool => if registry.names.contains tool then .ok decision else .ok .undecided

/-- `ROUTER_CONFIDENCE_THRESHOLD`: the double nearest to 0.80. -/
def routerConfidenceThreshold : ℚ := 3602879701896397 / 4503599627370496

/-- What `dispatch` does before a skill runs. -/
inductive ToolChoice (H : Type) where
  | escalate (tool : Option String) (error : Option String)
  | raise (error : String)
  | call (skill : RegisteredSkill H) (arguments : Dict)

/-- Act on a decision: escalate without a tool, below the threshold, or where the
registry has no such skill. -/
def chooseFrom (registry : SkillRegistry H) (decision : RouterDecision) : ToolChoice H :=
  match decision.tool with
  | none => .escalate none none
  | some tool =>
      if decision.confidence < routerConfidenceThreshold then .escalate none none
      else
        match registry.get tool with
        | none => .escalate none none
        | some skill => .call skill decision.arguments

/-- `dispatch` up to the invocation. -/
def chooseTool (registry : SkillRegistry H) (parameters : H → List String)
    (routerMode : Option String) (answer : Except String RouterDecision) (task : String) :
    ToolChoice H :=
  match parseTier1Request parameters task registry with
  | .error error => .escalate ((registry.deterministicMatch task).map (·.name)) (some error)
  | .ok (some decision) => chooseFrom registry decision
  | .ok none =>
      match getRouterMode routerMode with
      | .error error => .raise error
      | .ok .directEscalation => .escalate none none
      | .ok .cascade =>
          match classifyToolRequest registry answer with
          | .error error => .escalate none (some error)
          | .ok decision => chooseFrom registry decision

/-- `dispatch`. -/
def dispatch (registry : SkillRegistry H) (parameters : H → List String)
    (routerMode : Option String) (answer : Except String RouterDecision)
    (invoke : RegisteredSkill H → Dict → Code ω RawOutput) (state : SimonState) :
    Code ω DispatcherCommand :=
  match chooseTool registry parameters routerMode answer state.task with
  | .escalate tool error => return escalate tool error
  | .raise error => Pass.raise error
  | .call skill arguments => invokeSkill invoke skill arguments

/-! ### How a visit ends -/

/-- The exits of the dispatcher. -/
inductive DispatcherExit : Exit String String DispatcherCommand → Prop where
  | escalated (tool error : Option String) : DispatcherExit (.done (escalate tool error))
  | reported (tool : String) (rawOutput : RawOutput) :
      DispatcherExit (.done (reportTool tool rawOutput))
  | paused (prompt : String) : DispatcherExit (.paused prompt)
  | raised (error : String) : DispatcherExit (.raised error)

theorem invokeSkill_exit (invoke : RegisteredSkill H → Dict → Code ω RawOutput)
    (skill : RegisteredSkill H) (arguments : Dict) (replies : List String) (w : ω) :
    DispatcherExit (invokeSkill invoke skill arguments replies w).1 := by
  unfold invokeSkill
  rcases h : invoke skill arguments replies w with ⟨raw | prompt | error, rest, w'⟩
  · rw [Pass.bind_of_done (Pass.attempt_of_done h)]
    exact .reported _ _
  · rw [Pass.bind_of_paused (Pass.attempt_of_paused h)]
    exact .paused _
  · rw [Pass.bind_of_done (Pass.attempt_of_raised h)]
    exact .escalated _ _

/-- **Dispatcher exits.** Whatever the task, the model and the skills do. -/
theorem dispatch_exit (registry : SkillRegistry H) (parameters : H → List String)
    (routerMode : Option String) (answer : Except String RouterDecision)
    (invoke : RegisteredSkill H → Dict → Code ω RawOutput) (state : SimonState)
    (replies : List String) (w : ω) :
    DispatcherExit
      (dispatch registry parameters routerMode answer invoke state replies w).1 := by
  unfold dispatch
  cases chooseTool registry parameters routerMode answer state.task with
  | escalate tool error => exact .escalated tool error
  | raise error => exact .raised error
  | call skill arguments => exact invokeSkill_exit ..

/-- The dispatcher reads the task and nothing else of the state. -/
theorem dispatch_congr {registry : SkillRegistry H} {parameters : H → List String}
    {routerMode : Option String} {answer : Except String RouterDecision}
    {invoke : RegisteredSkill H → Dict → Code ω RawOutput} {state state' : SimonState}
    (task : state.task = state'.task) :
    dispatch registry parameters routerMode answer invoke state =
      dispatch registry parameters routerMode answer invoke state' := by
  simp only [dispatch, task]

end Dispatch

end AgentOs
