import AgentOs.Graph.Inputs
import AgentOs.Lib.Compaction
import AgentOs.Profiles

/-!
The messages of a thread over its tasks (`summarize.py`, `nodes/architect.py`).

Each task adds its text to the messages of its thread. The architect has the oldest ones summarised
and removes them, once there are too many; the next task begins without a summary. A conversation
keeps beside the thread what was said on it, all of it, and `conversation_accounted` finds it again:
some of it is kept, some the summary was made of, and the rest was summarised for an earlier task.
-/

namespace AgentOs

open AgentOs.Lib

/-! ### Summaries -/

/-- `_approximate_tokens` -/
def approximateTokens (text : String) : ℕ := text.length / 4

/-- `_count_message_tokens`, where every content is a text -/
def countMessageTokens (messages : List Message) : ℕ :=
  (messages.map fun message => approximateTokens message.content).sum

/-- `type` of a message -/
def Speaker.type : Speaker → String
  | .human => "human"
  | .ai => "ai"
  | .tool => "tool"

/-- What `summarize_and_trim` asks. -/
def summaryPrompt (existingSummary : Option String) (oldMessages : List Message) : String :=
  let existing := match existingSummary with
    | none | some "" => ""
    | some summary => "Existing Summary:\n" ++ summary ++ "\n\n"
  "Summarize the following conversation history.\n" ++ existing ++
    "New conversation turns to summarize:\n" ++
    Text.join "" (oldMessages.map fun m => "[" ++ m.speaker.type ++ "]: " ++ m.content ++ "\n")

/-- `summarize_and_trim`: the summary, the messages that are kept, and those that are removed. -/
def summarizeAndTrim (config : SummaryConfig) (summarizer : String → Except String String)
    (messages : List Message) (existingSummary : Option String) :
    Except String (Option String × List Message × List Message) := do
  if countMessageTokens messages < config.thresholdTokens ∨
      messages.length ≤ config.keepRecentN then
    return (existingSummary, messages, [])
  let splitIdx := (messages.length - config.keepRecentN).toNat
  let newSummary ← summarizer (summaryPrompt existingSummary (messages.take splitIdx))
  return (some newSummary, messages.drop splitIdx, messages.take splitIdx)

/-- What the architect makes of it: where the summariser fails, it goes on as it is. -/
def conversationSummary (config : SummaryConfig) (summarizer : String → Except String String)
    (state : SimonState) : Option (String × ℕ) :=
  match summarizeAndTrim config summarizer state.messages state.conversationSummary with
  | .ok (some newSummary, _, removed) => some (newSummary, removed.length)
  | .ok (none, _, _) | .error _ => none

/-! ### Conversations -/

/-- A thread, and what was said on it. -/
structure Conversation (ω : Type) where
  thread : AgentThread ω
  /-- the text of every task -/
  said : List Message := []
  /-- what was said and, when the latest task began, was no longer on the thread -/
  forgotten : List Message := []

inductive ConversationStep (H ω : Type) where
  /-- a task of the server -/
  | task (setup : RunSetup) (task : String) (runId : Option String)
  /-- a task of the command line -/
  | cliTask (setup : RunSetup) (task : String)
  | call (call : Call (Outside H ω) String String)

section

variable {H ω : Type} (tools : Toolbox H)

/-- A new task. -/
def Conversation.begin (c : Conversation ω) (input : StateUpdate) : Conversation ω where
  thread := (agentGraph ω tools).start c.thread (asInput input)
  said := c.said ++ input.messages
  forgotten := c.said.take (c.said.length - c.thread.state.messages.length)

def conversations : Machine (Conversation ω) (ConversationStep H ω) where
  step c
    | .task setup task runId => some (c.begin tools (initialState setup task runId))
    | .cliTask setup task => some (c.begin tools (cliInitialState setup task))
    | .call call =>
        ((agentMachine ω tools).step c.thread call).map fun thread => { c with thread }

/-- The architect's summary is `summarize_and_trim`'s, under some configuration, by a summariser
whose answers are among these. -/
def Summarizes (answers : String → String → Prop) (state : SimonState) (o : Outside H ω) : Prop :=
  ∃ config summarizer, o.architect.summarized = conversationSummary config summarizer state ∧
    ∀ prompt answer, summarizer prompt = .ok answer → answers prompt answer

/-- The summariser never fails, and the configuration stays the same. -/
def AlwaysSummarizes (config : SummaryConfig) (state : SimonState) (o : Outside H ω) : Prop :=
  ∃ summarizer : String → String,
    o.architect.summarized = conversationSummary config (fun p => .ok (summarizer p)) state

/-- So it is in every visit. -/
def EveryVisit (ok : SimonState → Outside H ω → Prop) (c : Conversation ω) :
    ConversationStep H ω → Prop
  | .call (.execute o) | .call (.resume _ o) => ok c.thread.state o
  | _ => True

end

/-- A summary was answered to a prompt with the summary before it and a chunk of messages. -/
def SummaryOf (answers : String → String → Prop) (summary : Option String) (chunk : List Message)
    (new : String) : Prop :=
  answers (summaryPrompt summary chunk) new

variable {H ω : Type} {tools : Toolbox H} {answers : String → String → Prop}

/-- A conversation whose messages are all accounted for. -/
def Conversation.Accounted (answers : String → String → Prop) (c : Conversation ω) : Prop :=
  Compacted (SummaryOf answers) c.said c.forgotten c.thread.state.conversationSummary
    c.thread.state.messages

/-- Few enough messages. -/
def Brief (config : SummaryConfig) (messages : List Message) : Prop :=
  countMessageTokens messages < config.thresholdTokens ∨ messages.length ≤ max config.keepRecentN 0

/-- Where the architect has just planned, few enough messages are left. -/
def Trimmed (config : SummaryConfig) (c : Conversation ω) : Prop :=
  ∀ visit, c.thread.trail.getLast? = some visit → visit.node = .architect →
    (∃ result, visit.exit = .done result) → Brief config c.thread.state.messages

/-! ### Steps -/

/-- Nothing is summarised, the summariser fails, or the first messages are taken away. -/
theorem summarizeAndTrim_cases (config : SummaryConfig) (summarizer : String → Except String String)
    (messages : List Message) (summary : Option String) :
    summarizeAndTrim config summarizer messages summary = .ok (summary, messages, []) ∨
      (∃ e, summarizeAndTrim config summarizer messages summary = .error e) ∨
      ∃ n new, summarizer (summaryPrompt summary (messages.take n)) = .ok new ∧
        summarizeAndTrim config summarizer messages summary =
          .ok (some new, messages.drop n, messages.take n) := by
  unfold summarizeAndTrim
  split
  · exact .inl rfl
  · right
    dsimp only
    generalize (messages.length - config.keepRecentN).toNat = splitIdx
    cases asked : summarizer (summaryPrompt summary (messages.take splitIdx)) with
    | error e => exact .inl ⟨e, rfl⟩
    | ok new => exact .inr ⟨splitIdx, new, asked, rfl⟩

/-- What is taken away goes into the summary. -/
theorem compacted_summary {s : SimonState} {o : Outside H ω} {full forgotten : List Message}
    (summarizes : Summarizes answers s o)
    (h : Compacted (SummaryOf answers) full forgotten s.conversationSummary s.messages) :
    Compacted (SummaryOf answers) full forgotten
      ((o.architect.summarized.map (·.1)).orElse fun _ => s.conversationSummary)
      (s.messages.drop ((o.architect.summarized.map (·.2)).getD 0)) := by
  obtain ⟨config, summarizer, made, answered⟩ := summarizes
  rw [made]
  unfold conversationSummary
  rcases summarizeAndTrim_cases config summarizer s.messages s.conversationSummary with
    same | ⟨e, failed⟩ | ⟨n, new, asked, trimmed⟩
  · rw [same]
    cases before : s.conversationSummary with
    | none =>
        rw [before] at h
        exact h
    | some summary =>
        rw [before] at h
        exact h
  · rw [failed]
    exact h
  · rw [trimmed]
    have removed : s.messages.drop (s.messages.take n).length = s.messages.drop n := by
      rw [List.length_take]
      rcases Nat.le_total n s.messages.length with within | beyond
      · rw [Nat.min_eq_left within]
      · rw [Nat.min_eq_right beyond, List.drop_length, List.drop_of_length_le beyond]
    show Compacted _ full forgotten (some new) (s.messages.drop (s.messages.take n).length)
    rw [removed]
    exact h.cut (answered _ _ asked)

/-- No node but the architect touches the messages or the summary. -/
theorem nodeExit_messages {s : SimonState} {n : Node} {replies : List String} {result : NodeResult}
    (other : n ≠ .architect) (exit : NodeExit s n replies (.done result)) :
    (s.apply result.update).messages = s.messages ∧
      (s.apply result.update).conversationSummary = s.conversationSummary := by
  cases exit with
  | drafted plan hot summary removed => exact absurd rfl other
  | planned injected => exact ⟨List.append_nil _, rfl⟩
  | routed => exact ⟨List.append_nil _, rfl⟩
  | answered plan reply => exact ⟨List.append_nil _, rfl⟩
  | executed report plan => exact ⟨List.append_nil _, rfl⟩
  | escalated tool error => exact ⟨List.append_nil _, rfl⟩
  | reported tool raw => exact ⟨List.append_nil _, rfl⟩

theorem architect_exit_cases (s : SimonState) (o : Outside H ω) (replies : List String) (w : ω) :
    (∃ e, (runNode tools .architect s o replies w).1 = .raised e) ∨
      ∃ update : StateUpdate, (runNode tools .architect s o replies w).1 = .done { update } ∧
        update.messages = [] ∧ update.removed = (o.architect.summarized.map (·.2)).getD 0 ∧
        update.conversationSummary =
          some ((o.architect.summarized.map (·.1)).orElse fun _ => s.conversationSummary) := by
  simp only [runNode, architectNode]
  generalize o.architect.agent _ = answer
  cases answer with
  | error e => exact .inl ⟨e, rfl⟩
  | ok brief => exact .inr ⟨_, rfl, rfl, rfl, rfl⟩

/-- Every visit accounts for the messages. -/
theorem accounted_visit {c : Conversation ω} {o : Outside H ω} (n : Node) (replies : List String)
    (summarizes : Summarizes answers c.thread.state o) (accounted : c.Accounted answers) :
    Conversation.Accounted answers
      { c with thread := (agentGraph ω tools).visit c.thread n replies o } := by
  have exits : NodeExit c.thread.state n replies
      (runNode tools n c.thread.state o replies c.thread.world).1 := node_exit n
  unfold Conversation.Accounted Workflow.visit at *
  unfold Workflow.visitOf Workflow.close
  dsimp only [agentGraph]
  by_cases architect : n = .architect
  · subst architect
    rcases @architect_exit_cases H ω tools c.thread.state o replies c.thread.world with
      ⟨e, raised⟩ | ⟨update, done, none_, removed, summary⟩
    · rw [raised]
      exact accounted
    · rw [done]
      have cut := compacted_summary summarizes accounted
      simp only [SimonState.apply, none_, removed, summary, List.append_nil, Option.getD_some]
      exact cut
  · cases ended : (runNode tools n c.thread.state o replies c.thread.world).1 with
    | done result =>
        rw [ended] at exits
        obtain ⟨messages, summary⟩ := nodeExit_messages architect exits
        dsimp only
        rw [messages, summary]
        exact accounted
    | paused prompt => exact accounted
    | raised e => exact accounted

/-- What is left where the summariser does not fail. -/
theorem brief_summary {config : SummaryConfig} {s : SimonState} {o : Outside H ω}
    (summarizes : AlwaysSummarizes config s o) :
    Brief config (s.messages.drop ((o.architect.summarized.map (·.2)).getD 0)) := by
  obtain ⟨summarizer, made⟩ := summarizes
  rw [made]
  unfold conversationSummary summarizeAndTrim
  by_cases small : countMessageTokens s.messages < config.thresholdTokens ∨
      s.messages.length ≤ config.keepRecentN
  · have all : Brief config s.messages :=
      small.imp_right fun few => few.trans (le_max_left config.keepRecentN 0)
    rw [if_pos small]
    cases s.conversationSummary with
    | none => exact all
    | some summary => exact all
  · rw [if_neg small]
    refine .inr ?_
    show ((s.messages.drop (s.messages.take
      (s.messages.length - config.keepRecentN).toNat).length).length : ℤ) ≤ _
    rw [List.length_drop, List.length_take]
    omega

theorem trimmed_visit {config : SummaryConfig} {c : Conversation ω} {o : Outside H ω} (n : Node)
    (replies : List String) (summarizes : AlwaysSummarizes config c.thread.state o) :
    Trimmed config { c with thread := (agentGraph ω tools).visit c.thread n replies o } := by
  intro visit last architect finished
  unfold Workflow.visit at last ⊢
  rw [Workflow.close_trail, List.getLast?_concat] at last
  cases last
  obtain ⟨result, finished⟩ := finished
  dsimp only [Workflow.visitOf] at architect finished
  subst architect
  rcases @architect_exit_cases H ω tools c.thread.state o replies c.thread.world with
    ⟨e, raised⟩ | ⟨update, done, none_, removed, _⟩
  · exact absurd (raised.symm.trans finished) (by simp)
  · unfold Workflow.visitOf Workflow.close
    dsimp only [agentGraph]
    rw [done]
    have brief := brief_summary summarizes
    simp only [SimonState.apply, none_, removed, List.append_nil]
    exact brief

/-- A task adds its text, and forgets what was summarised. -/
theorem accounted_begin {c : Conversation ω} {input : StateUpdate} (removed : input.removed = 0)
    (summary : input.conversationSummary = some none) (accounted : c.Accounted answers) :
    (c.begin tools input).Accounted answers := by
  have grown := accounted.forget.append input.messages
  unfold Conversation.Accounted Conversation.begin Workflow.start
  simp only [agentGraph, asInput, SimonState.apply, removed, summary, List.drop_zero,
    Option.getD_some]
  exact grown

/-- **Step lemma.** -/
theorem accounted_step {c c' : Conversation ω} {step : ConversationStep H ω}
    (summarizing : EveryVisit (Summarizes answers) c step) (accounted : c.Accounted answers)
    (h : (conversations tools).step c step = some c') : c'.Accounted answers := by
  cases step with
  | task setup task runId =>
      cases h
      exact accounted_begin rfl rfl accounted
  | cliTask setup task =>
      cases h
      exact accounted_begin rfl rfl accounted
  | call call =>
      obtain ⟨thread, called, rfl⟩ := Option.map_eq_some_iff.mp h
      cases Workflow.step_iff.mp called with
      | execute here free => exact accounted_visit _ _ summarizing accounted
      | resume here asked => exact accounted_visit _ _ summarizing accounted
      | fail here => exact accounted

theorem trimmed_step {config : SummaryConfig} {c c' : Conversation ω} {step : ConversationStep H ω}
    (summarizing : EveryVisit (AlwaysSummarizes config) c step) (trimmed : Trimmed config c)
    (h : (conversations tools).step c step = some c') : Trimmed config c' := by
  cases step with
  | task setup task runId =>
      cases h
      exact fun visit last => by cases last
  | cliTask setup task =>
      cases h
      exact fun visit last => by cases last
  | call call =>
      obtain ⟨thread, called, rfl⟩ := Option.map_eq_some_iff.mp h
      cases Workflow.step_iff.mp called with
      | execute here free => exact trimmed_visit _ _ summarizing
      | resume here asked => exact trimmed_visit _ _ summarizing
      | fail here => exact trimmed

/-- **Nothing that was said is lost within a task**: what is no longer on the thread went into the
summary, in turn, and only with the next task it is forgotten. What is left stays brief. -/
theorem conversation_accounted {w : ω} {steps : List (ConversationStep H ω)} {c : Conversation ω}
    (run : Machine.Path (conversations tools) (EveryVisit (Summarizes answers))
      ⟨freshThread w, [], []⟩ steps c) :
    c.Accounted answers ∧ c.thread.state.messages <:+ c.said ∧
      ∀ config, Machine.Path (conversations tools) (EveryVisit (AlwaysSummarizes config))
        ⟨freshThread w, [], []⟩ steps c → Trimmed config c := by
  have accounted : c.Accounted answers :=
    run.invariant (I := Conversation.Accounted answers)
      (fun _ _ _ summarizing accounted step => accounted_step summarizing accounted step)
      Compacted.empty
  refine ⟨accounted, accounted.suffix, fun config always => ?_⟩
  exact always.invariant (I := Trimmed config)
    (fun _ _ _ summarizing trimmed step => trimmed_step summarizing trimmed step)
    (fun visit last => by cases last)

/-- An architect whose summariser is asked about all messages but the last. -/
def summarizingOutside : Outside Unit Unit where
  architect :=
    { agent := fun _ => .ok { summary := "plan" }
      summarized := some ("one", 1) }

/-- Two tasks, and the second one up to its plan. -/
def twoTasks : List (ConversationStep Unit Unit) :=
  [.task {} "one" none, .task {} "two" none, .call (.execute summarizingOutside),
    .call (.execute summarizingOutside), .call (.execute summarizingOutside),
    .call (.execute summarizingOutside), .call (.execute summarizingOutside)]

theorem conversation_accounted_sample : ∃ c : Conversation Unit,
    Machine.Path (conversations emptyToolbox) (EveryVisit (Summarizes fun _ answer => answer = "one"))
      ⟨freshThread (), [], []⟩ twoTasks c ∧
    c.thread.state.messages = [⟨.human, "two"⟩] ∧ c.Accounted fun _ answer => answer = "one" := by
  have here : ∀ state : SimonState, state.messages = [⟨.human, "one"⟩, ⟨.human, "two"⟩] →
      Summarizes (fun _ answer => answer = "one") state summarizingOutside := by
    intro state messages
    refine ⟨{ thresholdTokens := 0, keepRecentN := 1 }, fun _ => .ok "one", ?_,
      fun _ _ asked => (Except.ok.inj asked).symm⟩
    unfold conversationSummary summarizeAndTrim
    rw [messages]
    rfl
  obtain ⟨c, run, last⟩ : ∃ c : Conversation Unit, Machine.Path (conversations emptyToolbox)
      (EveryVisit (Summarizes fun _ answer => answer = "one")) ⟨freshThread (), [], []⟩ twoTasks c ∧
      c.thread.state.messages = [⟨.human, "two"⟩] :=
    ⟨_, .cons trivial rfl (.cons trivial rfl (.cons (here _ rfl) rfl (.cons (here _ rfl) rfl
      (.cons (here _ rfl) rfl (.cons (here _ rfl) rfl (.cons (here _ rfl) rfl (.nil _))))))), rfl⟩
  exact ⟨c, run, last, (conversation_accounted run).1⟩

end AgentOs
