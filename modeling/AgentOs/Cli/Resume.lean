import AgentOs.Cli.Chat
import AgentOs.Profiles

/-!
Backends of a resumed thread (`bindings.py`; `_prepare_resume_binding`, `_run_graph` and
`_chat_loop`, `cli/app.py`).

A checkpoint keeps the backends its workflow was started with, and every command line brings those
of its environment. `--resume` compares the two; `--force-rebind` replaces the kept ones. `cliLife`
is a thread under any command lines, and a command line may stop anywhere.

`resume_binding_exact`: no node runs under other backends than the checkpoint names, as long as
no `chat` without `--resume` is entered on a checkpoint that names others; such a chat is not
compared, and runs the graph under its own.
-/

namespace AgentOs

open AgentOs.Lib

/-! ### Bindings -/

/-- `EFFECTIVE_BINDING_FIELDS` -/
def BackendBinding.effective (b : BackendBinding) : List (String × Option String) :=
  [("router", b.router), ("architect", b.architect), ("executor", b.executor),
    ("sandbox_root", some b.sandboxRoot)]

/-- `binding_conflicts` -/
def bindingConflicts (persisted current : BackendBinding) :
    List (String × Option String × Option String) :=
  (persisted.effective.zip current.effective).filterMap fun (old, new) =>
    if old.2 ≠ new.2 then some (old.1, old.2, new.2) else none

/-- A role of a binding that names an adapter of the command line. -/
def validateRole (registry : BackendRegistry) (role : BackendRole) (configured : Option String) :
    Except String Unit :=
  match configured with
  | some name =>
      if Text.startsWith name "cli/" then registry.resolve role (Text.drop name 4) else .ok ()
  | none => .ok ()

/-- `validate_backend_binding` -/
def validateBackendBinding (binding : BackendBinding) (registry : BackendRegistry) :
    Except String Unit := do
  validateRole registry .architect binding.architect
  validateRole registry .executor binding.executor
  if Text.startsWith binding.sandboxRoot "/" then .ok ()
  else .error "sandbox_root must be an absolute path"

/-- `repr` of an optional text. -/
def reprOption : Option String → String
  | none => "None"
  | some s => Json.reprText s

/-- `_render_binding` -/
def renderBinding (b : BackendBinding) : String :=
  Text.join ", " ["router=" ++ reprOption b.router, "architect=" ++ reprOption b.architect,
    "executor=" ++ reprOption b.executor, "profile_name=" ++ reprOption b.profileName,
    "sandbox_root=" ++ Json.reprText b.sandboxRoot]

def renderChange (change : String × Option String × Option String) : String :=
  change.1 ++ ": " ++ reprOption change.2.1 ++ " -> " ++ reprOption change.2.2

/-! ### Resuming -/

/-- What a command line with `--resume` brings. -/
structure ResumeRequest where
  current : BackendBinding
  forceRebind : Bool := false
  registry : BackendRegistry := {}

/-- The name of a node in the graph. -/
def Node.text : Node → String
  | planner => "planner"
  | supervisor => "supervisor"
  | architect => "architect"
  | humanGate => "human_gate"
  | executor => "executor"
  | toolDispatcher => "tool_dispatcher"

/-- `_next_node_name` -/
def nextNodeName (next : Option Node) : String :=
  (next.map Node.text).getD "unknown"

/-- How `_prepare_resume_binding` ends. -/
inductive ResumeBinding where
  /-- the message; the exit code is 2 -/
  | refused (error : String)
  | kept
  /-- the checkpoint gets the current binding -/
  | rebound (warnings : List String)
deriving DecidableEq, Repr

/-- `_prepare_resume_binding` -/
def prepareResumeBinding (persisted : Option BackendBinding) (next : Option Node)
    (request : ResumeRequest) : ResumeBinding :=
  let partialEdits := if next = some .executor then
    ["Partial edits may exist in the sandbox. Inspect before continuing."] else []
  match persisted with
  | none =>
      if !request.forceRebind then
        .refused ("This checkpoint has no persisted backend binding (created before " ++
          "R1.2e). Resuming without an explicit backend selection is not " ++
          "safe. Pass --force-rebind to attach the current binding and " ++
          "continue. Prior backend selection is not inferred.")
      else
        match validateBackendBinding request.current request.registry with
        | .error e => .refused ("Cannot force backend rebind: " ++ e)
        | .ok () =>
            .rebound (("Attaching current backend binding to a legacy checkpoint (no prior " ++
              "binding present). New binding: " ++ renderBinding request.current ++
              ". Current resume node: " ++ nextNodeName next ++ ".") :: partialEdits)
  | some persisted =>
      let changes := bindingConflicts persisted request.current
      if changes = [] then .kept
      else if !request.forceRebind then
        .refused ("Backend binding conflict. Persisted binding: " ++ renderBinding persisted ++
          ". Conflicting effective overrides: " ++ Text.join "; " (changes.map renderChange) ++
          ". Edit the environment or profile to match, or pass --force-rebind.")
      else
        match validateBackendBinding request.current request.registry with
        | .error e => .refused ("Cannot force backend rebind: " ++ e)
        | .ok () =>
            .rebound ("Forcing backend rebind:" :: changes.map renderChange ++
              ["Current resume node: " ++ nextNodeName next] ++ partialEdits)

/-! ### A thread under command lines -/

/-- A command line at work. -/
structure CliSession where
  chat : Bool
  /-- the backends of its environment -/
  binding : BackendBinding
deriving DecidableEq, Repr

/-- A thread, whether it has a checkpoint, and the command line that is at work on it. -/
structure CliThread (ω : Type) where
  thread : AgentThread ω
  checkpoint : Bool := false
  session : Option CliSession := none

inductive CliStep (H ω : Type) where
  /-- `agent-os run` -/
  | run (task : String) (current : BackendBinding) (hotContext : Option String)
  /-- `agent-os chat` -/
  | chat (current : BackendBinding)
  /-- `--resume`; `landing` is the node that `aupdate_state` leaves next, where it is called -/
  | resume (chat : Bool) (request : ResumeRequest) (landing : Option Node)
  /-- a message of a chat -/
  | message (text : String) (hotContext : Option String)
  /-- the graph goes on -/
  | call (c : Call (Outside H ω) String String)
  /-- the command line ends, wherever it is -/
  | leave

section

variable {H ω : Type}

/-- The binding in the checkpoint. -/
def CliThread.persisted (s : CliThread ω) : Option BackendBinding :=
  s.thread.state.backendBinding

/-- `aupdate_state` with a binding. -/
def CliThread.rebind (s : CliThread ω) (current : BackendBinding) (landing : Option Node) :
    AgentThread ω :=
  { s.thread with
    state := s.thread.state.apply { backendBinding := some (some current) }
    next := landing
    pending := none
    replies := [] }

/-- A command line with `--resume`; one that is refused leaves the thread as it was. -/
def CliThread.resume (s : CliThread ω) (chat : Bool) (request : ResumeRequest)
    (landing : Option Node) : CliThread ω :=
  if s.checkpoint = false ∨ chat = false ∧ s.thread.next = none then s
  else
    match prepareResumeBinding s.persisted s.thread.next request with
    | .refused _ => s
    | .kept => { s with session := some ⟨chat, request.current⟩ }
    | .rebound _ =>
        { s with thread := s.rebind request.current landing
                 session := some ⟨chat, request.current⟩ }

/-- The command lines of a thread, one after another. -/
def cliLife (tools : Toolbox H) : Machine (CliThread ω) (CliStep H ω) where
  step s l :=
    match l, s.session with
    | .run task current hotContext, none =>
        some
          { thread := (agentGraph ω tools).start s.thread
              (asInput (cliInitialState { backendBinding := some current, hotContext } task))
            checkpoint := true
            session := some ⟨false, current⟩ }
    | .chat current, none => some { s with session := some ⟨true, current⟩ }
    | .resume chat request landing, none => some (s.resume chat request landing)
    | .message text hotContext, some session =>
        if session.chat then
          some
            { thread := chatTurn tools { backendBinding := some session.binding, hotContext }
                s.checkpoint s.thread text
              checkpoint := true
              session := some session }
        else none
    | .call c, some _ =>
        ((agentMachine ω tools).step s.thread c).map fun thread => { s with thread }
    | .leave, some _ => some { s with session := none }
    | _, _ => none

/-- The checkpoint names the backends of the command line. -/
def CliThread.Matches (s : CliThread ω) (current : BackendBinding) : Prop :=
  ∃ persisted, s.persisted = some persisted ∧ bindingConflicts persisted current = []

/-- A chat without `--resume` is entered on a new thread, or under the same backends. -/
def Compared (s : CliThread ω) : CliStep H ω → Prop
  | .chat current => s.checkpoint = true → s.Matches current
  | _ => True

/-- A node runs under the backends the checkpoint names, and a command line that resumes has
these or is refused, unless its own are forced and pass. -/
def Bound (s : CliThread ω) : CliStep H ω → Prop
  | .call _ => ∃ session, s.session = some session ∧ s.Matches session.binding
  | .resume chat request landing =>
      s.Matches request.current ∨ s.resume chat request landing = s ∨
        request.forceRebind = true ∧
          validateBackendBinding request.current request.registry = .ok ()
  | _ => True

/-! ### Steps -/

variable {tools : Toolbox H} {s s' : CliThread ω}

@[simp] theorem bindingConflicts_self (b : BackendBinding) : bindingConflicts b b = [] := by
  simp [bindingConflicts, BackendBinding.effective]

theorem bindingConflicts_eq_nil_iff {persisted current : BackendBinding} :
    bindingConflicts persisted current = [] ↔ persisted.router = current.router ∧
      persisted.architect = current.architect ∧ persisted.executor = current.executor ∧
      persisted.sandboxRoot = current.sandboxRoot := by
  simp only [bindingConflicts, BackendBinding.effective, List.zip_cons_cons, List.zip_nil_right,
    List.filterMap_eq_nil_iff]
  simp

/-- No node writes the binding. -/
theorem agent_step_binding {t t' : AgentThread ω} {call : Call (Outside H ω) String String}
    (step : (agentMachine ω tools).step t call = some t') :
    t'.state.backendBinding = t.state.backendBinding := by
  have visited : ∀ (n : Node) (replies : List String) (o : Outside H ω),
      ((agentGraph ω tools).visit t n replies o).state.backendBinding =
        t.state.backendBinding := by
    intro n replies o
    obtain ⟨exit, w', exits, closed⟩ := agent_visit tools t n replies o
    rw [closed]
    cases exits <;> rfl
  cases Workflow.step_iff.mp step with
  | execute _ _ => exact visited _ _ _
  | resume _ _ => exact visited _ _ _
  | fail _ => rfl

/-- A call has a node to go on with. -/
theorem agent_step_next {t t' : AgentThread ω} {call : Call (Outside H ω) String String}
    (step : (agentMachine ω tools).step t call = some t') : t.next ≠ none := by
  cases Workflow.step_iff.mp step with
  | execute here _ => rw [here]; exact Option.some_ne_none _
  | resume here _ => rw [here]; exact Option.some_ne_none _
  | fail here => rw [here]; exact Option.some_ne_none _

/-- How a binding is prepared. -/
inductive PreparedCase (persisted : Option BackendBinding) (request : ResumeRequest) :
    ResumeBinding → Prop where
  | refused (error : String) : PreparedCase persisted request (.refused error)
  | kept {b : BackendBinding} : persisted = some b → bindingConflicts b request.current = [] →
      PreparedCase persisted request .kept
  | rebound (warnings : List String) : request.forceRebind = true →
      validateBackendBinding request.current request.registry = .ok () →
      PreparedCase persisted request (.rebound warnings)

theorem prepareResumeBinding_cases (persisted : Option BackendBinding) (next : Option Node)
    (request : ResumeRequest) :
    PreparedCase persisted request (prepareResumeBinding persisted next request) := by
  have forced : ∀ warnings, request.forceRebind = true →
      PreparedCase persisted request
        (match validateBackendBinding request.current request.registry with
          | .error e => .refused ("Cannot force backend rebind: " ++ e)
          | .ok () => .rebound warnings) := by
    intro warnings force
    cases valid : validateBackendBinding request.current request.registry with
    | error e => exact .refused _
    | ok _ => exact .rebound warnings force valid
  unfold prepareResumeBinding
  dsimp only
  cases force : request.forceRebind with
  | false =>
      cases persisted with
      | none => exact .refused _
      | some b =>
          dsimp only
          split
          · exact .kept rfl ‹_›
          · exact .refused _
  | true =>
      cases persisted with
      | none => exact forced _ force
      | some b =>
          dsimp only
          split
          · exact .kept rfl ‹_›
          · exact forced _ force

/-- What a command line that resumes leaves. -/
inductive ResumeCase (s : CliThread ω) (chat : Bool) (request : ResumeRequest) :
    CliThread ω → Prop where
  | refused : ResumeCase s chat request s
  | kept : s.checkpoint = true → s.Matches request.current →
      ResumeCase s chat request { s with session := some ⟨chat, request.current⟩ }
  | rebound (landing : Option Node) : s.checkpoint = true → request.forceRebind = true →
      validateBackendBinding request.current request.registry = .ok () →
      ResumeCase s chat request
        { s with thread := s.rebind request.current landing
                 session := some ⟨chat, request.current⟩ }

theorem resume_cases (s : CliThread ω) (chat : Bool) (request : ResumeRequest)
    (landing : Option Node) : ResumeCase s chat request (s.resume chat request landing) := by
  unfold CliThread.resume
  split
  · exact .refused
  · rename_i allowed
    have there : s.checkpoint = true := by
      by_contra missing
      exact allowed (.inl (Bool.eq_false_of_not_eq_true missing))
    have prepared := prepareResumeBinding_cases s.persisted s.thread.next request
    split
    · exact .refused
    · rename_i kept
      rw [kept] at prepared
      cases prepared with
      | kept held same => exact .kept there ⟨_, held, same⟩
    · rename_i warnings rebound
      rw [rebound] at prepared
      cases prepared with
      | rebound _ force valid => exact .rebound landing there force valid

/-- What holds between the command lines and in them. -/
structure BindingInv (s : CliThread ω) : Prop where
  /-- without a checkpoint there is nothing to go on with -/
  fresh : s.checkpoint = false → s.thread.next = none
  bound : ∀ session, s.session = some session →
    s.Matches session.binding ∨ s.checkpoint = false

/-- A thread whose checkpoint names the backends of its command line. -/
theorem BindingInv.of_matches (checkpoint : s.checkpoint = true)
    (matches_ : ∀ session, s.session = some session → s.Matches session.binding) :
    BindingInv s :=
  ⟨fun missing => absurd (checkpoint.symm.trans missing) Bool.noConfusion,
    fun session open_ => .inl (matches_ session open_)⟩

/-- **Step lemma.** -/
theorem binding_step {l : CliStep H ω} (compared : Compared s l) (inv : BindingInv s)
    (step : (cliLife tools).step s l = some s') : BindingInv s' ∧ Bound s l := by
  simp only [cliLife] at step
  split at step
  · rename_i task current hotContext closed
    cases step
    refine ⟨.of_matches rfl fun session same => ?_, trivial⟩
    cases same
    exact ⟨current, rfl, bindingConflicts_self _⟩
  · rename_i current closed
    cases step
    refine ⟨⟨inv.fresh, fun session same => ?_⟩, trivial⟩
    cases same
    cases checkpoint : s.checkpoint with
    | true => exact .inl (compared checkpoint)
    | false => exact .inr rfl
  · rename_i chat request landing closed
    cases step
    have after := resume_cases s chat request landing
    change BindingInv (s.resume chat request landing) ∧ (s.Matches request.current ∨
      s.resume chat request landing = s ∨ request.forceRebind = true ∧
        validateBackendBinding request.current request.registry = .ok ())
    generalize s.resume chat request landing = resumed at after ⊢
    cases after with
    | refused => exact ⟨inv, .inr (.inl rfl)⟩
    | kept there same =>
        refine ⟨.of_matches there fun session open_ => ?_, .inl same⟩
        cases open_
        exact same
    | rebound landing there force valid =>
        refine ⟨.of_matches there fun session open_ => ?_, .inr (.inr ⟨force, valid⟩)⟩
        cases open_
        exact ⟨request.current, rfl, bindingConflicts_self _⟩
  · rename_i text hotContext session at_
    split at step
    · cases step
      refine ⟨.of_matches rfl fun other same => ?_, trivial⟩
      obtain rfl : session = other := Option.some.inj same
      cases checkpoint : s.checkpoint with
      | true =>
          rcases inv.bound session at_ with matches_ | missing
          · exact matches_
          · exact absurd (checkpoint.symm.trans missing) Bool.noConfusion
      | false => exact ⟨session.binding, rfl, bindingConflicts_self _⟩
    · cases step
  · rename_i c session at_
    obtain ⟨thread, called, rfl⟩ := Option.map_eq_some_iff.mp step
    rcases inv.bound session at_ with matches_ | missing
    · have kept := agent_step_binding called
      refine ⟨⟨fun missing => ?_, fun other same => .inl ?_⟩, session, at_, matches_⟩
      · exact absurd (inv.fresh missing) (agent_step_next called)
      · obtain rfl : session = other := Option.some.inj (at_.symm.trans same)
        obtain ⟨persisted, held, none⟩ := matches_
        exact ⟨persisted, kept.trans held, none⟩
    · exact absurd (inv.fresh missing) (agent_step_next called)
  · rename_i session at_
    cases step
    exact ⟨⟨inv.fresh, fun _ same => absurd same (by simp)⟩, trivial⟩
  · cases step

/-- **A thread runs under the backends its checkpoint names.** In every sequence of command lines,
each of which may stop anywhere, where no chat without `--resume` is entered on a checkpoint that
names other backends: every node runs under what the checkpoint names, and a command line that
resumes has these, is refused, or forces its own when they pass. -/
theorem resume_binding_exact {steps : List (CliStep H ω)}
    (run : Machine.Path (cliLife tools) Compared s steps s') (closed : s.session = none)
    (fresh : s.checkpoint = false → s.thread.next = none) :
    Machine.Path (cliLife tools) Bound s steps s' := by
  refine run.strengthen (I := BindingInv)
    (fun _ _ _ compared inv step => binding_step compared inv step) ⟨fresh, ?_⟩
  intro session open_
  rw [closed] at open_
  cases open_

/-- **A chat is not compared.** Entered without `--resume` on a checkpoint that names other
backends, it runs its first node under its own. -/
theorem chat_runs_unbound (s : CliThread ω) (current : BackendBinding) (text : String)
    (o : Outside H ω) (closed : s.session = none) (checkpoint : s.checkpoint = true)
    (other : ¬ s.Matches current) :
    ∃ s', (cliLife tools).run s [.chat current, .message text none] = some s' ∧
      ((cliLife tools).step s' (.call (.execute o))).isSome = true ∧
      ¬ Bound s' (.call (.execute o) : CliStep H ω) := by
  let entered : CliThread ω :=
    { thread := chatTurn tools { backendBinding := some current, hotContext := none } true
        s.thread text
      checkpoint := true
      session := some ⟨true, current⟩ }
  have ran : (cliLife tools).run s [.chat current, .message text none] = some entered := by
    simp only [Machine.run, cliLife, closed, Option.bind_some, if_true, checkpoint]
    rfl
  refine ⟨entered, ran, rfl, ?_⟩
  rintro ⟨session, open_, matches_⟩
  cases open_
  exact other matches_

end

/-! ### A thread -/

/-- Backends that differ in the architect alone. -/
def bindingOf (architect : String) : BackendBinding :=
  { router := none, architect := some architect, executor := none, profileName := none
    sandboxRoot := "/srv/sandbox" }

/-- A workflow stops at the plan gate and is refused under other backends; then these are forced,
and the plan is approved. -/
def reboundSteps : List (CliStep Unit Unit) :=
  .run "bash ls" (bindingOf "a") none :: List.replicate 6 (.call (.execute sampleOutside)) ++
    [.leave, .resume false { current := bindingOf "b" } none,
      .resume false { current := bindingOf "b", forceRebind := true } (some .humanGate),
      .call (.execute sampleOutside), .call (.resume "y" sampleOutside), .leave]

theorem resume_binding_exact_sample :
    ∃ s : CliThread Unit,
      Machine.Path (cliLife emptyToolbox) Bound ⟨freshThread (), false, none⟩ reboundSteps s ∧
      s.persisted = some (bindingOf "b") := by
  have ran : ∃ s, ((cliLife (ω := Unit) emptyToolbox).run ⟨freshThread (), false, none⟩
      reboundSteps) = some s ∧ s.persisted = some (bindingOf "b") := ⟨_, rfl, rfl⟩
  obtain ⟨s, ran, now⟩ := ran
  have run : Machine.Path (cliLife emptyToolbox) Compared ⟨freshThread (), false, none⟩
      reboundSteps s :=
    (Machine.run_eq_some_iff.mp ran).of_labels (by simp [reboundSteps, Compared])
  exact ⟨s, resume_binding_exact run rfl fun _ => rfl, now⟩

end AgentOs
