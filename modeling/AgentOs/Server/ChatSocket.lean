import AgentOs.Graph.Inputs
import AgentOs.Server.RunExecutor

/-!
The chat endpoint (`websocket_endpoint`, `server/api.py`).

A browser speaks to a thread over a socket, and may lose it and come back at any time. A text is
an answer where the endpoint holds a pending interrupt for its socket, and a new task otherwise.
`ClientView` is what the browser can tell of its socket. `chat_socket_protocol`: every socket keeps
to the protocol, whatever the others do; where sockets of a thread are served one after another,
every text is taken for what the thread awaits, and an answer resumes the prompt that was shown.
-/

namespace AgentOs

open AgentOs.Lib

/-! ### The endpoint -/

inductive SocketFrame where
  | token (content : String)
  | interrupt (prompt : String)
  | done
  | error (status : RunStatus) (message : String)
deriving DecidableEq, Repr

/-- What happens on a socket. -/
inductive SocketEvent where
  | sent (frame : SocketFrame)
  | received (text : String)
  /-- the graph is resumed with a text; the prompt that was pending then -/
  | answered (prompt : Option String) (text : String)
deriving DecidableEq, Repr

inductive SocketStage where
  /-- accepted; the thread was not looked at yet -/
  | opening
  /-- `receive_text`, with `pending_interrupt` -/
  | awaiting (pendingInterrupt : Bool)
  /-- `Command(resume=data)`, before the graph takes it -/
  | answering (text : String)
  | streaming
  | closed
deriving DecidableEq, Repr

/-- The graph may stream tokens. -/
def SocketStage.isRunning : SocketStage → Bool
  | answering _ | streaming => true
  | _ => false

structure Socket where
  stage : SocketStage := .opening
  log : List SocketEvent := []
deriving DecidableEq, Repr

/-- A thread, and the sockets that were ever opened on it. -/
structure ChatServer (ω : Type) where
  thread : AgentThread ω
  sockets : List Socket := []

inductive SocketStep (H ω : Type) where
  | connect
  /-- the pending interrupt is restored -/
  | restore (i : ℕ)
  | receive (i : ℕ) (text : String) (setup : RunSetup)
  /-- the graph takes a step -/
  | call (i : ℕ) (call : Call (Outside H ω) String String)
  | token (i : ℕ) (content : String)
  /-- the stream is over, and its outcome is sent -/
  | report (i : ℕ)
  /-- the browser goes away, or sending fails -/
  | disconnect (i : ℕ)

variable {H ω : Type}

namespace Socket

/-- The socket after an event. -/
def add (socket : Socket) (event : SocketEvent) (stage : SocketStage) : Socket where
  stage := stage
  log := socket.log ++ [event]

/-- The interrupt that a thread awaits an answer to is shown; what a turn came to otherwise. -/
def restore (socket : Socket) (pending : Option String) : Socket :=
  match pending with
  | some prompt => socket.add (.sent (.interrupt prompt)) (.awaiting true)
  | none => { socket with stage := .awaiting false }

def report (socket : Socket) (t : AgentThread ω) : Socket :=
  match t.pending with
  | some prompt => socket.add (.sent (.interrupt prompt)) (.awaiting true)
  | none =>
      match terminalToolFailure t.state with
      | none => socket.add (.sent .done) (.awaiting false)
      | some (status, message) => socket.add (.sent (.error status message)) (.awaiting false)

end Socket

namespace ChatServer

/-- One socket and the thread change. -/
def update (s : ChatServer ω) (i : ℕ) (socket : Socket) (thread : AgentThread ω) :
    ChatServer ω where
  thread := thread
  sockets := s.sockets.set i socket

/-- A raised error ends the endpoint. -/
def afterCall (thread : AgentThread ω) : SocketStage :=
  if thread.failure = none then .streaming else .closed

/-- A step of the graph under a socket. -/
def call (tools : Toolbox H) (s : ChatServer ω) (i : ℕ) (socket : Socket)
    (c : Call (Outside H ω) String String) : Option (ChatServer ω) :=
  ((agentMachine ω tools).step s.thread c).bind fun thread =>
    match socket.stage, c with
    | .answering text, .resume reply _ =>
        if reply = text then
          some (s.update i (socket.add (.answered s.thread.pending text) (afterCall thread)) thread)
        else none
    | .answering _, .fail _ | .streaming, .execute _ | .streaming, .fail _ =>
        some (s.update i { socket with stage := afterCall thread } thread)
    | _, _ => none

end ChatServer

/-- The sockets of a thread. -/
def chatSockets (tools : Toolbox H) : Machine (ChatServer ω) (SocketStep H ω) where
  step s l :=
    match l with
    | .connect => some { s with sockets := s.sockets ++ [{}] }
    | .restore i =>
        match s.sockets[i]? with
        | some socket =>
            if socket.stage = .opening then
              some (s.update i (socket.restore s.thread.pending) s.thread)
            else none
        | none => none
    | .receive i text setup =>
        match s.sockets[i]? with
        | some socket =>
            match socket.stage with
            | .awaiting true =>
                some (s.update i (socket.add (.received text) (.answering text)) s.thread)
            | .awaiting false =>
                some (s.update i (socket.add (.received text) .streaming)
                  (startRun tools s.thread setup text none))
            | _ => none
        | none => none
    | .call i c => s.sockets[i]?.bind fun socket => s.call tools i socket c
    | .token i content =>
        match s.sockets[i]? with
        | some socket =>
            if socket.stage.isRunning = true ∧ content ≠ "" then
              some (s.update i (socket.add (.sent (.token content)) socket.stage) s.thread)
            else none
        | none => none
    | .report i =>
        match s.sockets[i]? with
        | some socket =>
            if socket.stage = .streaming ∧ (s.thread.pending.isSome ∨ s.thread.next.isNone) then
              some (s.update i (socket.report s.thread) s.thread)
            else none
        | none => none
    | .disconnect i =>
        match s.sockets[i]? with
        | some socket => some (s.update i { socket with stage := .closed } s.thread)
        | none => none

/-! ### The protocol -/

/-- What a browser can tell of its socket. -/
inductive ClientView where
  | fresh
  | idle
  | prompted (prompt : String)
  | answering (prompt text : String)
  | busy
deriving DecidableEq, Repr

/-- The protocol of a socket; `strict`: an answer is given to the prompt that was shown. -/
def ClientView.next (strict : Bool) : ClientView → SocketEvent → Option ClientView
  | fresh, .sent (.interrupt prompt) => some (prompted prompt)
  | fresh, .received _ | idle, .received _ => some busy
  | prompted prompt, .received text => some (answering prompt text)
  | answering prompt text, .answered prompt' text' =>
      if strict ∧ ¬(prompt' = some prompt ∧ text' = text) then none else some busy
  | answering prompt text, .sent (.token _) => some (answering prompt text)
  | busy, .sent (.token _) => some busy
  | busy, .sent (.interrupt prompt) => some (prompted prompt)
  | busy, .sent .done | busy, .sent (.error _ _) => some idle
  | _, _ => none

/-- The view after some events, or `none` where one breaks the protocol. -/
def clientView (strict : Bool) (log : List SocketEvent) : Option ClientView :=
  log.foldl (fun view event => view.bind (·.next strict event)) (some .fresh)

/-- The view that goes with a stage. -/
def ClientView.Fits (view : ClientView) : SocketStage → Prop
  | .opening => view = fresh
  | .awaiting true => ∃ prompt, view = prompted prompt
  | .awaiting false => view = fresh ∨ view = idle
  | .answering text => ∃ prompt, view = answering prompt text
  | .streaming => view = busy
  | .closed => True

/-- The socket keeps to the protocol. -/
def Socket.Speaks (strict : Bool) (socket : Socket) : Prop :=
  ∃ view, clientView strict socket.log = some view ∧ view.Fits socket.stage

/-- A socket is opened where no other one is open. -/
def Exclusively (s : ChatServer ω) : SocketStep H ω → Prop
  | .connect => ∀ socket ∈ s.sockets, socket.stage = .closed
  | _ => True

/-- A text is an answer where the thread awaits one, and the graph is resumed with the answer to the
prompt that is pending and was shown. -/
def TakenAsMeant (s : ChatServer ω) : SocketStep H ω → Prop
  | .receive i _ _ => ∀ socket ∈ s.sockets[i]?, ∀ pendingInterrupt,
      socket.stage = .awaiting pendingInterrupt → pendingInterrupt = s.thread.pending.isSome
  | .call i (.resume reply _) => ∃ socket ∈ s.sockets[i]?, ∃ prompt,
      s.thread.pending = some prompt ∧
        clientView true socket.log = some (.answering prompt reply)
  | _ => True

/-! ### Steps -/

variable {tools : Toolbox H} {s s' : ChatServer ω} {strict : Bool}

/-- What a step does. -/
inductive SocketCase (tools : Toolbox H) (s : ChatServer ω) :
    SocketStep H ω → ChatServer ω → Prop where
  | connected : SocketCase tools s .connect { s with sockets := s.sockets ++ [{}] }
  | restored {i : ℕ} {socket : Socket} : s.sockets[i]? = some socket → socket.stage = .opening →
      SocketCase tools s (.restore i) (s.update i (socket.restore s.thread.pending) s.thread)
  | answer {i : ℕ} {socket : Socket} {text : String} {setup : RunSetup} :
      s.sockets[i]? = some socket → socket.stage = .awaiting true →
      SocketCase tools s (.receive i text setup)
        (s.update i (socket.add (.received text) (.answering text)) s.thread)
  | task {i : ℕ} {socket : Socket} {text : String} {setup : RunSetup} :
      s.sockets[i]? = some socket → socket.stage = .awaiting false →
      SocketCase tools s (.receive i text setup) (s.update i (socket.add (.received text) .streaming)
        (startRun tools s.thread setup text none))
  | resumed {i : ℕ} {socket : Socket} {text : String} {o : Outside H ω} {thread : AgentThread ω} :
      s.sockets[i]? = some socket → socket.stage = .answering text →
      (agentMachine ω tools).step s.thread (.resume text o) = some thread →
      SocketCase tools s (.call i (.resume text o)) (s.update i
        (socket.add (.answered s.thread.pending text) (ChatServer.afterCall thread)) thread)
  | failed {i : ℕ} {socket : Socket} {text e : String} {thread : AgentThread ω} :
      s.sockets[i]? = some socket → socket.stage = .answering text →
      (agentMachine ω tools).step s.thread (.fail e) = some thread →
      SocketCase tools s (.call i (.fail e))
        (s.update i { socket with stage := ChatServer.afterCall thread } thread)
  | stepped {i : ℕ} {socket : Socket} {c : Call (Outside H ω) String String}
      {thread : AgentThread ω} : s.sockets[i]? = some socket → socket.stage = .streaming →
      (∀ reply o, c ≠ .resume reply o) → (agentMachine ω tools).step s.thread c = some thread →
      SocketCase tools s (.call i c)
        (s.update i { socket with stage := ChatServer.afterCall thread } thread)
  | token {i : ℕ} {socket : Socket} {content : String} : s.sockets[i]? = some socket →
      socket.stage.isRunning = true → SocketCase tools s (.token i content)
        (s.update i (socket.add (.sent (.token content)) socket.stage) s.thread)
  | reported {i : ℕ} {socket : Socket} : s.sockets[i]? = some socket → socket.stage = .streaming →
      SocketCase tools s (.report i) (s.update i (socket.report s.thread) s.thread)
  | disconnected {i : ℕ} {socket : Socket} : s.sockets[i]? = some socket →
      SocketCase tools s (.disconnect i) (s.update i { socket with stage := .closed } s.thread)

/-- **Step inversion.** -/
theorem socket_cases {l : SocketStep H ω} (step : (chatSockets tools).step s l = some s') :
    SocketCase tools s l s' := by
  cases l with
  | connect =>
      cases step
      exact .connected
  | restore i =>
      dsimp only [chatSockets] at step
      split at step
      · split at step
        · cases step
          exact .restored ‹_› ‹_›
        · cases step
      · cases step
  | receive i text setup =>
      dsimp only [chatSockets] at step
      split at step
      · split at step
        · cases step
          exact .answer ‹_› ‹_›
        · cases step
          exact .task ‹_› ‹_›
        · cases step
      · cases step
  | call i c =>
      obtain ⟨socket, here, called⟩ := Option.bind_eq_some_iff.mp step
      obtain ⟨thread, moved, called⟩ := Option.bind_eq_some_iff.mp called
      split at called
      · split at called
        · rename_i same
          subst same
          cases called
          exact .resumed here ‹_› moved
        · cases called
      · cases called
        exact .failed here ‹_› moved
      · cases called
        exact .stepped here ‹_› (fun _ _ same => by cases same) moved
      · cases called
        exact .stepped here ‹_› (fun _ _ same => by cases same) moved
      · cases called
  | token i content =>
      dsimp only [chatSockets] at step
      split at step
      · split at step
        · rename_i here both
          cases step
          exact .token here both.1
        · cases step
      · cases step
  | report i =>
      dsimp only [chatSockets] at step
      split at step
      · split at step
        · rename_i here both
          cases step
          exact .reported here both.1
        · cases step
      · cases step
  | disconnect i =>
      dsimp only [chatSockets] at step
      split at step
      · cases step
        exact .disconnected ‹_›
      · cases step

theorem clientView_concat (log : List SocketEvent) (event : SocketEvent) :
    clientView strict (log ++ [event]) =
      (clientView strict log).bind (·.next strict event) := by
  rw [clientView, List.foldl_append]
  rfl

/-- One more event that the protocol has. -/
theorem Socket.Speaks.add {socket : Socket} {event : SocketEvent} {stage : SocketStage}
    {view view' : ClientView} (sees : clientView strict socket.log = some view)
    (next : view.next strict event = some view') (fits : view'.Fits stage) :
    (socket.add event stage).Speaks strict := by
  refine ⟨view', ?_, fits⟩
  rw [Socket.add, clientView_concat, sees]
  exact next

theorem mem_update {i : ℕ} {changed socket : Socket} {thread : AgentThread ω}
    (mem : socket ∈ (s.update i changed thread).sockets) :
    socket ∈ s.sockets ∨ socket = changed :=
  List.mem_or_eq_of_mem_set mem

/-- The outcome of a turn, as its frame says. -/
theorem Socket.Speaks.report {socket : Socket} {thread : AgentThread ω}
    (sees : clientView strict socket.log = some .busy) : (socket.report thread).Speaks strict := by
  unfold Socket.report
  split
  · exact .add sees rfl ⟨_, rfl⟩
  · split
    · exact .add sees rfl (.inr rfl)
    · exact .add sees rfl (.inr rfl)

/-- Where the graph fails the endpoint ends. -/
theorem afterCall_fail {t thread : AgentThread ω} {e : String}
    (graph : (agentMachine ω tools).step t (.fail e) = some thread) :
    ChatServer.afterCall thread = .closed := by
  cases Workflow.step_iff.mp graph with
  | fail _ => rfl

/-- **Step lemma.** A step keeps every socket to the protocol. -/
theorem speaks_step {l : SocketStep H ω} (moved : SocketCase tools s l s')
    (speaks : ∀ socket ∈ s.sockets, socket.Speaks strict)
    (meant : strict = true → TakenAsMeant s l) : ∀ socket ∈ s'.sockets, socket.Speaks strict := by
  intro changed mem
  cases moved with
  | connected =>
      rcases List.mem_append.mp mem with before | new
      · exact speaks changed before
      · rw [List.mem_singleton.mp new]
        exact ⟨.fresh, rfl, rfl⟩
  | @restored i socket here opening =>
      rcases mem_update mem with before | rfl
      · exact speaks changed before
      · obtain ⟨view, sees, fits⟩ := speaks socket (List.mem_of_getElem? here)
        rw [opening] at fits
        cases fits
        unfold Socket.restore
        split
        · exact .add sees rfl ⟨_, rfl⟩
        · exact ⟨.fresh, sees, .inl rfl⟩
  | @answer i socket text setup here awaits =>
      rcases mem_update mem with before | rfl
      · exact speaks changed before
      · obtain ⟨view, sees, fits⟩ := speaks socket (List.mem_of_getElem? here)
        rw [awaits] at fits
        obtain ⟨prompt, rfl⟩ := fits
        exact .add sees rfl ⟨prompt, rfl⟩
  | @task i socket text setup here awaits =>
      rcases mem_update mem with before | rfl
      · exact speaks changed before
      · obtain ⟨view, sees, fits⟩ := speaks socket (List.mem_of_getElem? here)
        rw [awaits] at fits
        rcases fits with rfl | rfl
        · exact .add sees rfl rfl
        · exact .add sees rfl rfl
  | @resumed i socket text o thread here answers graph =>
      rcases mem_update mem with before | rfl
      · exact speaks changed before
      · obtain ⟨view, sees, fits⟩ := speaks socket (List.mem_of_getElem? here)
        rw [answers] at fits
        obtain ⟨prompt, rfl⟩ := fits
        have taken : (ClientView.answering prompt text).next strict
            (.answered s.thread.pending text) = some .busy := by
          refine if_neg ?_
          rintro ⟨isStrict, other⟩
          obtain ⟨socket', here', prompt', pending, shown⟩ := meant isStrict
          rw [here] at here'
          cases here'
          rw [isStrict, shown] at sees
          cases sees
          exact other ⟨pending, rfl⟩
        refine .add sees taken ?_
        unfold ChatServer.afterCall
        split
        · rfl
        · trivial
  | @failed i socket text e thread here answers graph =>
      rcases mem_update mem with before | rfl
      · exact speaks changed before
      · obtain ⟨view, sees, _⟩ := speaks socket (List.mem_of_getElem? here)
        rw [afterCall_fail graph]
        exact ⟨view, sees, trivial⟩
  | @stepped i socket c thread here streams other graph =>
      rcases mem_update mem with before | rfl
      · exact speaks changed before
      · obtain ⟨view, sees, fits⟩ := speaks socket (List.mem_of_getElem? here)
        rw [streams] at fits
        refine ⟨view, sees, ?_⟩
        unfold ChatServer.afterCall
        split
        · exact fits
        · trivial
  | @token i socket content here running =>
      rcases mem_update mem with before | rfl
      · exact speaks changed before
      · obtain ⟨view, sees, fits⟩ := speaks socket (List.mem_of_getElem? here)
        cases stage : socket.stage with
        | streaming =>
            rw [stage] at fits
            cases fits
            exact .add sees rfl rfl
        | answering text =>
            rw [stage] at fits
            obtain ⟨prompt, rfl⟩ := fits
            exact .add sees rfl ⟨prompt, rfl⟩
        | opening | awaiting | closed =>
            rw [stage] at running
            cases running
  | @reported i socket here streams =>
      rcases mem_update mem with before | rfl
      · exact speaks changed before
      · obtain ⟨view, sees, fits⟩ := speaks socket (List.mem_of_getElem? here)
        rw [streams] at fits
        cases fits
        exact .report sees
  | @disconnected i socket here =>
      rcases mem_update mem with before | rfl
      · exact speaks changed before
      · obtain ⟨view, sees, _⟩ := speaks socket (List.mem_of_getElem? here)
        exact ⟨view, sees, trivial⟩

/-! ### One socket after another -/

/-- What a socket stands on, while it is the one that is served. -/
def Socket.InStep (pending : Option String) (socket : Socket) : Prop :=
  match socket.stage with
  | .awaiting true =>
      ∃ prompt, clientView true socket.log = some (.prompted prompt) ∧ pending = some prompt
  | .awaiting false => pending = none
  | .answering text =>
      ∃ prompt, clientView true socket.log = some (.answering prompt text) ∧ pending = some prompt
  | _ => True

theorem Socket.inStep_closed {pending : Option String} {socket : Socket}
    (closed : socket.stage = .closed) : socket.InStep pending := by
  rw [Socket.InStep, closed]
  trivial

theorem Socket.inStep_afterCall {pending : Option String} {socket : Socket}
    {thread : AgentThread ω} (stage : socket.stage = ChatServer.afterCall thread) :
    socket.InStep pending := by
  rw [Socket.InStep, stage, ChatServer.afterCall]
  by_cases raised : thread.failure = none
  · rw [if_pos raised]
    trivial
  · rw [if_neg raised]
    trivial

theorem Socket.inStep_restore {pending : Option String} {socket : Socket}
    (sees : clientView true socket.log = some .fresh) : (socket.restore pending).InStep pending := by
  unfold Socket.restore
  split
  · refine ⟨_, ?_, rfl⟩
    rw [Socket.add, clientView_concat, sees]
    rfl
  · rfl

theorem Socket.inStep_report {socket : Socket} {thread : AgentThread ω}
    (sees : clientView true socket.log = some .busy) :
    (socket.report thread).InStep thread.pending := by
  unfold Socket.report
  split
  · rename_i prompt pending
    rw [pending]
    refine ⟨_, ?_, rfl⟩
    rw [Socket.add, clientView_concat, sees]
    rfl
  · rename_i none
    rw [none]
    split <;> rfl

/-- The socket of a place is open. -/
def ChatServer.Open (s : ChatServer ω) (i : ℕ) : Prop :=
  ∃ socket, s.sockets[i]? = some socket ∧ socket.stage ≠ .closed

/-- One socket is served, and what it awaits is what the thread awaits. -/
structure Served (s : ChatServer ω) : Prop where
  speaks : ∀ socket ∈ s.sockets, socket.Speaks true
  one : ∀ i j, s.Open i → s.Open j → i = j
  inStep : ∀ socket ∈ s.sockets, socket.InStep s.thread.pending

/-- In a served thread every step is taken as meant. -/
theorem takenAsMeant_of_served {l : SocketStep H ω} (served : Served s)
    (moved : SocketCase tools s l s') : TakenAsMeant s l := by
  cases moved with
  | @answer i socket text setup here awaits =>
      rintro socket' here' pendingInterrupt stage
      rw [Option.mem_def, here] at here'
      cases here'
      rw [awaits] at stage
      cases stage
      have stands := served.inStep socket (List.mem_of_getElem? here)
      rw [Socket.InStep, awaits] at stands
      obtain ⟨prompt, _, pending⟩ := stands
      rw [pending, Option.isSome_some]
  | @task i socket text setup here awaits =>
      rintro socket' here' pendingInterrupt stage
      rw [Option.mem_def, here] at here'
      cases here'
      rw [awaits] at stage
      cases stage
      have stands := served.inStep socket (List.mem_of_getElem? here)
      rw [Socket.InStep, awaits] at stands
      dsimp only at stands
      rw [stands, Option.isSome_none]
  | @resumed i socket text o thread here answers graph =>
      have stands := served.inStep socket (List.mem_of_getElem? here)
      rw [Socket.InStep, answers] at stands
      obtain ⟨prompt, sees, pending⟩ := stands
      exact ⟨socket, here, prompt, pending, sees⟩
  | stepped here streams other graph =>
      rename_i i socket c thread
      cases c with
      | resume reply o => exact absurd rfl (other reply o)
      | execute o => trivial
      | fail e => trivial
  | connected | restored | failed | token | reported | disconnected => trivial

/-- A change of the one socket that is served. -/
theorem one_update {i : ℕ} {socket changed : Socket} {thread : AgentThread ω}
    (one : ∀ i j, s.Open i → s.Open j → i = j) (here : s.sockets[i]? = some socket)
    (stays : changed.stage ≠ .closed → socket.stage ≠ .closed) (a b : ℕ)
    (openA : (s.update i changed thread).Open a) (openB : (s.update i changed thread).Open b) :
    a = b := by
  have before : ∀ j, (s.update i changed thread).Open j → s.Open j := by
    rintro j ⟨other, there, notClosed⟩
    rw [ChatServer.update, List.getElem?_set] at there
    split at there
    · rename_i same
      subst same
      split at there
      · cases there
        exact ⟨socket, here, stays notClosed⟩
      · cases there
    · exact ⟨other, there, notClosed⟩
  exact one a b (before a openA) (before b openB)

/-- The others are closed. -/
theorem inStep_update {i : ℕ} {socket changed : Socket} {thread : AgentThread ω}
    (served : Served s) (here : s.sockets[i]? = some socket) (notClosed : socket.stage ≠ .closed)
    (stands : changed.InStep thread.pending) :
    ∀ socket ∈ (s.update i changed thread).sockets, socket.InStep thread.pending := by
  intro other mem
  obtain ⟨j, there⟩ := List.mem_iff_getElem?.mp mem
  rw [ChatServer.update, List.getElem?_set] at there
  split at there
  · split at there
    · cases there
      exact stands
    · cases there
  · rename_i apart
    refine Socket.inStep_closed ?_
    by_contra isOpen
    exact apart (served.one i j ⟨socket, here, notClosed⟩ ⟨other, there, isOpen⟩)

/-- **Step lemma.** Where sockets are opened one after another, one is served. -/
theorem served_step {l : SocketStep H ω} (exclusive : Exclusively s l) (served : Served s)
    (step : (chatSockets tools).step s l = some s') : Served s' := by
  have moved := socket_cases step
  have speaks := speaks_step moved served.speaks fun _ => takenAsMeant_of_served served moved
  refine ⟨speaks, ?_, ?_⟩
  · cases moved with
    | connected =>
        have all : ∀ j, ChatServer.Open { s with sockets := s.sockets ++ [{}] } j →
            j = s.sockets.length := by
          rintro j ⟨socket, there, notClosed⟩
          by_contra other
          rcases Nat.lt_or_gt_of_ne other with before | after
          · rw [List.getElem?_append_left before] at there
            exact notClosed (exclusive socket (List.mem_of_getElem? there))
          · rw [List.getElem?_eq_none (by rw [List.length_append, List.length_singleton]; omega)]
              at there
            cases there
        exact fun i j openI openJ => (all i openI).trans (all j openJ).symm
    | restored here stage => exact one_update served.one here fun _ => by rw [stage]; simp
    | answer here stage => exact one_update served.one here fun _ => by rw [stage]; simp
    | task here stage => exact one_update served.one here fun _ => by rw [stage]; simp
    | resumed here stage _ => exact one_update served.one here fun _ => by rw [stage]; simp
    | failed here stage _ => exact one_update served.one here fun _ => by rw [stage]; simp
    | stepped here stage _ _ => exact one_update served.one here fun _ => by rw [stage]; simp
    | token here _ => exact one_update served.one here fun stays => stays
    | reported here stage => exact one_update served.one here fun _ => by rw [stage]; simp
    | disconnected here => exact one_update served.one here fun stays => absurd rfl stays
  · have open_ : ∀ {socket : Socket} {stage : SocketStage}, socket.stage = stage →
        stage ≠ .closed → socket.stage ≠ .closed := fun is apart => is ▸ apart
    cases moved with
    | connected =>
        intro socket mem
        rcases List.mem_append.mp mem with before | new
        · exact served.inStep socket before
        · rw [List.mem_singleton.mp new]
          trivial
    | @restored i socket here stage =>
        obtain ⟨view, sees, fits⟩ := served.speaks socket (List.mem_of_getElem? here)
        rw [stage] at fits
        cases fits
        exact inStep_update served here (open_ stage (by simp)) (Socket.inStep_restore sees)
    | @answer i socket text setup here stage =>
        have stands := served.inStep socket (List.mem_of_getElem? here)
        rw [Socket.InStep, stage] at stands
        obtain ⟨prompt, sees, pending⟩ := stands
        refine inStep_update served here (open_ stage (by simp)) ⟨prompt, ?_, pending⟩
        rw [Socket.add, clientView_concat, sees]
        rfl
    | task here stage => exact inStep_update served here (open_ stage (by simp)) trivial
    | resumed here stage _ =>
        exact inStep_update served here (open_ stage (by simp)) (Socket.inStep_afterCall rfl)
    | failed here stage _ =>
        exact inStep_update served here (open_ stage (by simp)) (Socket.inStep_afterCall rfl)
    | stepped here stage _ _ =>
        exact inStep_update served here (open_ stage (by simp)) (Socket.inStep_afterCall rfl)
    | @token i socket content here running =>
        have stands := served.inStep socket (List.mem_of_getElem? here)
        cases stage : socket.stage with
        | streaming =>
            refine inStep_update served here (open_ stage (by simp)) ?_
            trivial
        | answering text =>
            rw [Socket.InStep, stage] at stands
            obtain ⟨prompt, sees, pending⟩ := stands
            refine inStep_update served here (open_ stage (by simp)) ⟨prompt, ?_, pending⟩
            rw [Socket.add, clientView_concat, sees]
            rfl
        | opening | awaiting | closed =>
            rw [stage] at running
            cases running
    | @reported i socket here stage =>
        obtain ⟨view, sees, fits⟩ := served.speaks socket (List.mem_of_getElem? here)
        rw [stage] at fits
        cases fits
        exact inStep_update served here (open_ stage (by simp)) (Socket.inStep_report sees)
    | disconnected here =>
        intro socket mem
        rcases mem_update mem with before | rfl
        · exact served.inStep socket before
        · exact Socket.inStep_closed rfl

/-- A browser that loses its connection in a turn, and comes back. -/
def reconnecting : List (SocketStep Unit Unit) :=
  [.connect, .restore 0, .receive 0 "plan" {}, .disconnect 0, .connect, .restore 1]

end AgentOs
