import AgentOs.Graph.State
import AgentOs.Lib.Machine
import AgentOs.Lib.Slots
import AgentOs.Observations.Store
import Mathlib.Data.Rat.Defs

/-!
Strategy selection (`strategies.py`), by any number of calls for one run.

A call reads the run's assignment. Where there is none of a registered strategy, it
chooses one (the explicit one, the winner of the evidence, or the least assigned), and
inserts it; the insertion answers with the run's strategy where another call was first. The
reading, the aggregation and the insertion are transactions of their own.

The call that comes second answers with the strategy of the first and with its own reason.
`selections_agree_iff` says in which runs that shows, or a stored strategy that is not
registered any more.
-/

namespace AgentOs

open AgentOs.Lib

/-! ### Strategies -/

inductive SelectionReason where
  | explicit
  | evidenceBacked
  | exploration
  | default
deriving DecidableEq, Repr

def SelectionReason.text : SelectionReason → String
  | .explicit => "explicit"
  | .evidenceBacked => "evidence_backed"
  | .exploration => "exploration"
  | .default => "default"

/-- The reason that a hint accepts. -/
def SelectionReason.ofText (text : String) : Option SelectionReason :=
  [SelectionReason.explicit, .evidenceBacked, .exploration, .default].find? (·.text = text)

theorem SelectionReason.text_of_ofText {text : String} {reason : SelectionReason}
    (h : SelectionReason.ofText text = some reason) : reason.text = text := by
  have found := List.find?_some h
  exact of_decide_eq_true found

structure StrategyDefinition where
  strategyId : String
  version : ℕ
  taskKind : String
  directive : String
deriving DecidableEq, Repr

structure StrategySelection (S : Type) where
  hint : StrategyHint
  patterns : List (OutcomePattern S)
deriving DecidableEq, Repr

def defaultStrategy : StrategyDefinition where
  strategyId := "default-v1"
  version := 1
  taskKind := "workflow"
  directive := "Create a clear direct plan, identify material assumptions, and include " ++
    "necessary validation without extra exploration."

/-- `_WORKFLOW_STRATEGIES`. -/
def workflowStrategies : List StrategyDefinition :=
  [defaultStrategy,
    { strategyId := "verification-first-v1", version := 1, taskKind := "workflow"
      directive := "Inspect relevant constraints and files before proposing a plan; identify " ++
        "risks and unknowns, favor minimal reversible changes, and include explicit " ++
        "validation plus rollback or safety checkpoints." },
    { strategyId := "concise-plan-v1", version := 1, taskKind := "workflow"
      directive := "Produce only necessary ordered steps, the top risks, and exact validation; " ++
        "avoid optional discovery or expanded scope." },
    { strategyId := "clarify-first-v1", version := 1, taskKind := "workflow"
      directive := "Before proposing a plan or taking any action, surface 3-5 binary " ++
        "(pass/fail) acceptance criteria that define 'done' for this task and " ++
        "place them in the structured acceptance_criteria field as concise statements. " ++
        "Classify each intended side-effect as reversible or irreversible. " ++
        "Present these to the human for confirmation or adjustment first; do not " ++
        "execute irreversible side-effects until criteria are confirmed. This " ++
        "directive cannot change permission, tool-safety, or execution constraints." }]

def strategiesFor (taskKind : String) : List StrategyDefinition :=
  if taskKind = "workflow" then workflowStrategies else []

/-- `by_id.get(strategy_id)`. -/
def byId (taskKind strategyId : String) : Option StrategyDefinition :=
  (strategiesFor taskKind).find? (·.strategyId = strategyId)

/-- `_hint`. -/
def hint (definition : StrategyDefinition) (reason : SelectionReason) : StrategyHint where
  strategyId := definition.strategyId
  version := definition.version
  taskKind := definition.taskKind
  selectionReason := reason.text
  directive := definition.directive

theorem byId_strategyId {taskKind strategyId : String} {definition : StrategyDefinition}
    (h : byId taskKind strategyId = some definition) : definition.strategyId = strategyId := by
  have found := List.find?_some h
  exact of_decide_eq_true found

theorem byId_isSome {taskKind strategyId : String}
    (mem : strategyId ∈ (strategiesFor taskKind).map (·.strategyId)) :
    (byId taskKind strategyId).isSome := by
  obtain ⟨definition, listed, rfl⟩ := List.mem_map.mp mem
  exact List.find?_isSome.mpr ⟨definition, listed, by simp⟩

/-- The versions that the exploration is given. -/
def strategyVersions (taskKind : String) : List (String × ℤ) :=
  (strategiesFor taskKind).map fun item => (item.strategyId, (item.version : ℤ))

/-- Every registered strategy has a positive version. -/
theorem strategyVersions_positive (taskKind : String) :
    ¬(strategyVersions taskKind).any fun item => item.2 < 1 := by
  unfold strategyVersions strategiesFor
  split
  · decide
  · simp

section

variable {S : Type} (scoring : Scoring S)

/-! ### The evidence -/

/-- The order of `_evidence_winner`: better scores first, then the strategies' texts. -/
def ranksBefore (a b : OutcomePattern S) : Bool :=
  scoring.above a.outcomeScore b.outcomeScore ||
    (!scoring.above b.outcomeScore a.outcomeScore && a.strategyId ≤ b.strategyId)

/-- `_evidence_winner`. -/
def evidenceWinner (patterns : List (OutcomePattern S)) :
    Option (OutcomePattern S × OutcomePattern S) :=
  let eligible := patterns.filter fun pattern => 5 ≤ pattern.labelledCount
  match eligible.insertionSort fun a b => ranksBefore scoring a b = true with
  | winner :: comparator :: _ =>
      if scoring.low winner.outcomeScore then none
      else if scoring.close winner.outcomeScore comparator.outcomeScore then none
      else some (winner, comparator)
  | _ => none

/-- The summary that is stored with the winner. -/
def evidenceSummary (patterns : List (OutcomePattern S)) (winner second : OutcomePattern S) :
    Json :=
  .obj [("labelled_counts", .obj (patterns.map fun p =>
      (p.strategyId, .num (toString p.labelledCount)))),
    ("scores", .obj (patterns.map fun p => (p.strategyId, .num (scoring.rounded p.outcomeScore)))),
    ("winner", .str winner.strategyId),
    ("threshold_met", .bool true),
    ("margin", .num (scoring.margin winner.outcomeScore second.outcomeScore))]

/-! ### The machine -/

/-- Where a call is. -/
inductive SelectStage (S : Type) where
  | reading
  | aggregating
  /-- `assign_strategy` of a registered strategy -/
  | assigning (definition : StrategyDefinition) (reason : SelectionReason)
      (evidence : Option Json) (patterns : List (OutcomePattern S))
  /-- `assign_balanced_exploration` -/
  | exploring (patterns : List (OutcomePattern S))
  | done (reply : Except String (StrategySelection S))

/-- A call of `select_strategy`; `usesStore` where it has a store and a run. -/
structure SelectCall (S : Type) where
  explicitStrategyId : Option String
  withStore : Bool
  stage : SelectStage S

/-- The two tables, and the calls. -/
structure StrategyWorld (S : Type) where
  assignments : List StrategyAssignment := []
  observations : List LabelledOutcome := []
  calls : List (SelectCall S) := []

inductive StrategyStep where
  | call (explicitStrategyId : Option String) (withStore : Bool)
  /-- the call at place `i` goes on -/
  | advance (i : ℕ) (now : String)
  /-- labels change -/
  | label (observations : List LabelledOutcome)
  /-- another run is assigned a strategy -/
  | other (row : StrategyAssignment)

/-- What all calls have in common: the scores' arithmetic, SHA-256, and the arguments. -/
structure SelectSetup (S : Type) where
  scoring : Scoring S
  digest : String → ℕ
  workspaceId : String
  taskKind : String
  runId : String

variable (setup : SelectSetup S)

/-- `_hint(by_id[strategy_id], reason)`. -/
def selectionOf (taskKind strategyId : String) (reason : SelectionReason)
    (patterns : List (OutcomePattern S)) : Except String (StrategySelection S) :=
  match byId taskKind strategyId with
  | none => .error ("KeyError: " ++ strategyId)
  | some definition => .ok ⟨hint definition reason, patterns⟩

/-- What a call does before it comes to the store. -/
def startSelect (explicitStrategyId : Option String) (withStore : Bool) : SelectStage S :=
  if strategiesFor setup.taskKind = [] then .done (.ok ⟨hint defaultStrategy .default, []⟩)
  else
    match explicitStrategyId with
    | none =>
        if withStore then .reading else .done (.ok ⟨hint defaultStrategy .default, []⟩)
    | some strategyId =>
        match byId setup.taskKind strategyId with
        | none =>
            .done (.error ("Strategy '" ++ strategyId ++ "' is not allowed for task kind '" ++
              setup.taskKind ++ "'"))
        | some definition =>
            if withStore then .reading
            else .done (.ok ⟨hint definition (if strategyId = "" then .default else .explicit), []⟩)

/-- What a call does with the assignment it read. -/
def afterRead (explicitStrategyId : Option String) (existing : Option StrategyAssignment) :
    SelectStage S :=
  match existing.bind fun row => (byId setup.taskKind row.strategyId).map fun d => (row, d) with
  | some (row, definition) =>
      match SelectionReason.ofText row.selectionReason with
      | none => .done (.error "validation error for StrategyHint: selection_reason")
      | some reason => .done (.ok ⟨hint definition reason, []⟩)
  | none =>
      match explicitStrategyId.bind (byId setup.taskKind) with
      | some definition => .assigning definition .explicit none []
      | none => .aggregating

/-- What a call does with the patterns. -/
def afterAggregate (observations : List LabelledOutcome) : SelectStage S :=
  let patterns := aggregatePatterns setup.scoring setup.workspaceId setup.taskKind
    ((strategiesFor setup.taskKind).map (·.strategyId)) observations
  match evidenceWinner setup.scoring patterns with
  | none => .exploring patterns
  | some (winner, second) =>
      match byId setup.taskKind winner.strategyId with
      | none => .done (.error ("KeyError: " ++ winner.strategyId))
      | some definition =>
          .assigning definition .evidenceBacked
            (some (evidenceSummary setup.scoring patterns winner second)) patterns

/-- The row that `assign_strategy` is given. -/
def selectedRow (definition : StrategyDefinition) (reason : SelectionReason)
    (evidence : Option Json) (now : String) : StrategyAssignment where
  runId := setup.runId
  workspaceId := setup.workspaceId
  taskKind := setup.taskKind
  strategyId := definition.strategyId
  strategyVersion := .ok (definition.version : ℤ)
  selectionReason := reason.text
  selectorVersion := "v1.0"
  evidenceSummary := .ok evidence
  selectedAt := now

namespace StrategyWorld

variable (w : StrategyWorld S)

def setStage (i : ℕ) (call : SelectCall S) (stage : SelectStage S) : StrategyWorld S :=
  { w with calls := w.calls.set i { call with stage } }

/-- The next transaction of the call at place `i`. -/
def advance (i : ℕ) (call : SelectCall S) (now : String) : Option (StrategyWorld S) :=
  match call.stage with
  | .reading =>
      match getStrategyAssignment setup.runId w.assignments with
      | .error e => some (w.setStage i call (.done (.error e)))
      | .ok existing => some (w.setStage i call (afterRead setup call.explicitStrategyId existing))
  | .aggregating => some (w.setStage i call (afterAggregate setup w.observations))
  | .assigning definition reason evidence patterns =>
      let (strategyId, assignments) :=
        assignStrategy (selectedRow setup definition reason evidence now) w.assignments
      some
        { w.setStage i call (.done (selectionOf setup.taskKind strategyId reason patterns)) with
          assignments }
  | .exploring patterns =>
      match assignBalancedExploration setup.digest setup.workspaceId setup.taskKind setup.runId
          (strategyVersions setup.taskKind) "v1.0" now w.assignments with
      | .error e => some (w.setStage i call (.done (.error e)))
      | .ok (strategyId, assignments) =>
          some
            { w.setStage i call
                (.done (selectionOf setup.taskKind strategyId .exploration patterns)) with
              assignments }
  | .done _ => none

end StrategyWorld

/-- The machine of any number of calls for one run. -/
def selectStrategy : Machine (StrategyWorld S) StrategyStep where
  step w
    | .call explicitStrategyId withStore =>
        some
          { w with
            calls := w.calls ++
              [⟨explicitStrategyId, withStore, startSelect setup explicitStrategyId withStore⟩] }
    | .advance i now => (w.calls[i]?).bind fun call => w.advance setup i call now
    | .label observations => some { w with observations }
    | .other row =>
        if row.runId = setup.runId ∨ (assignmentOf row.runId w.assignments).isSome then none
        else some { w with assignments := w.assignments ++ [row] }

end

/-! ### Agreement -/

section

variable {S : Type} (setup : SelectSetup S)

/-- The call is given a strategy that is not registered for its task kind. -/
def SelectCall.Disallowed (call : SelectCall S) : Prop :=
  strategiesFor setup.taskKind ≠ [] ∧
    ∃ strategyId, call.explicitStrategyId = some strategyId ∧ byId setup.taskKind strategyId = none

/-- The call comes to the store. -/
structure SelectCall.UsesStore (call : SelectCall S) : Prop where
  store : call.withStore = true
  kind : strategiesFor setup.taskKind ≠ []
  allowed : ∀ strategyId, call.explicitStrategyId = some strategyId →
    (byId setup.taskKind strategyId).isSome

/-- A call that is done has not raised, unless it is disallowed; where it used the store, it
has answered with the run's assignment. -/
structure SelectCall.Agrees (assignments : List StrategyAssignment) (call : SelectCall S) :
    Prop where
  raises : ∀ e, call.stage = .done (.error e) → call.Disallowed setup
  selects : call.UsesStore setup → ∀ selection, call.stage = .done (.ok selection) →
    ∃ row, assignmentOf setup.runId assignments = some row ∧
      selection.hint.strategyId = row.strategyId ∧
      selection.hint.selectionReason = row.selectionReason

def SelectionsAgree (w : StrategyWorld S) : Prop := ∀ call ∈ w.calls, call.Agrees setup w.assignments

/-- What a call may find the run assigned to. -/
def SelectStage.Admits (taskKind : String) (row : StrategyAssignment) : SelectStage S → Prop
  | .reading => row.Decodes ∧ ((byId taskKind row.strategyId).isSome →
      (SelectionReason.ofText row.selectionReason).isSome)
  | .assigning _ reason _ _ =>
      (byId taskKind row.strategyId).isSome ∧ row.selectionReason = reason.text
  | .exploring _ =>
      (byId taskKind row.strategyId).isSome ∧
        row.selectionReason = SelectionReason.exploration.text
  | .aggregating | .done _ => True

/-- A call that goes on finds no assignment, or one that it admits: what it reads decodes,
and what is there when it inserts has a registered strategy and its own reason. -/
def SelectAdmitted (w : StrategyWorld S) : StrategyStep → Prop
  | .advance i _ => ∀ call, w.calls[i]? = some call → ∀ row,
      assignmentOf setup.runId w.assignments = some row → call.stage.Admits setup.taskKind row
  | _ => True

/-- What a call is on its way to. -/
structure SelectCall.OnItsWay (call : SelectCall S) : Prop where
  uses : (∀ reply, call.stage ≠ .done reply) → call.UsesStore setup
  registered : ∀ definition reason evidence patterns,
    call.stage = .assigning definition reason evidence patterns →
      byId setup.taskKind definition.strategyId = some definition

/-- What holds of every reachable state. -/
structure SelectInv (w : StrategyWorld S) : Prop where
  calls : ∀ call ∈ w.calls, call.OnItsWay setup
  present : ∀ call ∈ w.calls, call.UsesStore setup → ∀ selection,
    call.stage = .done (.ok selection) → (assignmentOf setup.runId w.assignments).isSome

variable {setup}

/-- A row that is there stays, so what agreed with it does, and what did not does not. -/
theorem SelectCall.agrees_iff {call : SelectCall S} {assignments assignments' : List
    StrategyAssignment} (grows : ∀ row, assignmentOf setup.runId assignments = some row →
      assignmentOf setup.runId assignments' = some row)
    (present : call.UsesStore setup → ∀ selection, call.stage = .done (.ok selection) →
      (assignmentOf setup.runId assignments).isSome) :
    call.Agrees setup assignments' ↔ call.Agrees setup assignments := by
  constructor
  · rintro ⟨raises, selects⟩
    refine ⟨raises, ?_⟩
    intro uses selection stage
    obtain ⟨row, found⟩ := Option.isSome_iff_exists.mp (present uses selection stage)
    obtain ⟨row', found', same⟩ := selects uses selection stage
    obtain rfl := Option.some.inj ((grows row found).symm.trans found')
    exact ⟨row, found, same⟩
  · rintro ⟨raises, selects⟩
    refine ⟨raises, ?_⟩
    intro uses selection stage
    obtain ⟨row, found, same⟩ := selects uses selection stage
    exact ⟨row, grows row found, same⟩

variable {w w' : StrategyWorld S} {i : ℕ} {call : SelectCall S} {stage : SelectStage S}
  {assignments rows : List StrategyAssignment} {admitted : Prop}

/-! #### What one transaction does to its call -/

/-- The call comes to a stage as it should, and agrees there exactly under a condition. -/
structure SelectCall.ComesTo (setup : SelectSetup S) (call : SelectCall S)
    (assignments : List StrategyAssignment) (stage : SelectStage S) (admitted : Prop) : Prop where
  onItsWay : SelectCall.OnItsWay setup { call with stage }
  present : ∀ selection, stage = .done (.ok selection) →
    (assignmentOf setup.runId assignments).isSome
  agrees : SelectCall.Agrees setup assignments { call with stage } ↔ admitted

theorem SelectCall.UsesStore.not_disallowed (uses : call.UsesStore setup) :
    ¬call.Disallowed setup := by
  rintro ⟨_, strategyId, given, unknown⟩
  have known := uses.allowed strategyId given
  rw [unknown] at known
  exact absurd known (by simp)

theorem SelectCall.UsesStore.at_stage (uses : call.UsesStore setup) :
    SelectCall.UsesStore setup { call with stage } :=
  ⟨uses.store, uses.kind, uses.allowed⟩

/-- A call that comes to a stage before its end. -/
theorem comesTo_going (uses : call.UsesStore setup) (going : ∀ reply, stage ≠ .done reply)
    (registered : ∀ definition reason evidence patterns,
      stage = .assigning definition reason evidence patterns →
        byId setup.taskKind definition.strategyId = some definition) (holds : admitted) :
    call.ComesTo setup assignments stage admitted where
  onItsWay := ⟨fun _ => uses.at_stage, registered⟩
  present selection ended := absurd ended (going _)
  agrees := by
    constructor
    · intro _
      exact holds
    · intro _
      exact ⟨fun e ended => absurd ended (going _), fun _ _ ended => absurd ended (going _)⟩

/-- A call that raises. -/
theorem comesTo_raised (uses : call.UsesStore setup) (e : String) (fails : ¬admitted) :
    call.ComesTo setup assignments (.done (.error e)) admitted where
  onItsWay := ⟨fun going => absurd rfl (going _), fun _ _ _ _ same => by cases same⟩
  present selection ended := by cases ended
  agrees := by
    constructor
    · intro agrees
      exact absurd (agrees.raises e rfl) uses.not_disallowed
    · intro holds
      exact absurd holds fails

/-- A call that answers, where the run has an assignment. -/
theorem comesTo_selected {row : StrategyAssignment} {definition : StrategyDefinition}
    {reason : SelectionReason} {patterns : List (OutcomePattern S)} (uses : call.UsesStore setup)
    (found : assignmentOf setup.runId assignments = some row)
    (known : byId setup.taskKind row.strategyId = some definition)
    (same : row.selectionReason = reason.text ↔ admitted) :
    call.ComesTo setup assignments (.done (.ok ⟨hint definition reason, patterns⟩)) admitted where
  onItsWay := ⟨fun going => absurd rfl (going _), fun _ _ _ _ same => by cases same⟩
  present _ _ := Option.isSome_iff_exists.mpr ⟨row, found⟩
  agrees := by
    rw [← same]
    constructor
    · intro agrees
      obtain ⟨row', found', _, reasons⟩ := agrees.selects uses.at_stage _ rfl
      obtain rfl := Option.some.inj (found.symm.trans found')
      exact reasons.symm
    · intro reasons
      refine ⟨fun e ended => (by cases ended), ?_⟩
      intro _ selection ended
      obtain rfl := Except.ok.inj (SelectStage.done.inj ended)
      exact ⟨row, found, byId_strategyId known, reasons.symm⟩

/-- What a call reads decides where it goes. -/
theorem comesTo_afterRead (rows : List StrategyAssignment) (uses : call.UsesStore setup) :
    call.ComesTo setup rows
      (afterRead setup call.explicitStrategyId (assignmentOf setup.runId rows))
      (∀ row, assignmentOf setup.runId rows = some row →
        (byId setup.taskKind row.strategyId).isSome →
          (SelectionReason.ofText row.selectionReason).isSome) := by
  -- without a registered assignment the call goes on
  have going : ∀ {admitted : Prop}, admitted → call.ComesTo setup rows
      (match call.explicitStrategyId.bind (byId setup.taskKind) with
        | some definition => .assigning definition .explicit none []
        | none => .aggregating) admitted := by
    intro admitted holds
    cases given : call.explicitStrategyId.bind (byId setup.taskKind) with
    | none => exact comesTo_going uses (by simp) (by simp) holds
    | some definition =>
        obtain ⟨strategyId, _, known⟩ := Option.bind_eq_some_iff.mp given
        refine comesTo_going uses (by simp) ?_ holds
        intro definition' reason evidence patterns same
        cases same
        rw [byId_strategyId known]
        exact known
  unfold afterRead
  cases found : assignmentOf setup.runId rows with
  | none => exact going (fun row absent => by cases absent)
  | some row =>
      cases known : byId setup.taskKind row.strategyId with
      | none =>
          simp only [Option.bind_some, known, Option.map_none]
          refine going ?_
          intro row' same registered
          cases same
          rw [known] at registered
          cases registered
      | some definition =>
          simp only [Option.bind_some, known, Option.map_some]
          cases reasonRead : SelectionReason.ofText row.selectionReason with
          | none =>
              refine comesTo_raised uses _ ?_
              intro holds
              have read := holds row rfl (by rw [known]; rfl)
              rw [reasonRead] at read
              cases read
          | some reason =>
              refine comesTo_selected uses found known ⟨?_, ?_⟩
              · intro _ row' same _
                cases same
                rw [reasonRead]
                rfl
              · intro _
                exact (SelectionReason.text_of_ofText reasonRead).symm

theorem evidenceWinner_mem {scoring : Scoring S} {patterns : List (OutcomePattern S)}
    {winner second : OutcomePattern S} (h : evidenceWinner scoring patterns = some (winner, second)) :
    winner ∈ patterns := by
  unfold evidenceWinner at h
  dsimp only at h
  split at h
  · rename_i first comparator rest ranked
    split at h
    · cases h
    · split at h
      · cases h
      · cases h
        have top : winner ∈ winner :: second :: rest := List.mem_cons_self
        rw [← ranked] at top
        exact (List.mem_filter.mp ((List.mem_insertionSort _).mp top)).1
  · cases h

/-- The winner is registered, so the aggregation does not raise. -/
theorem comesTo_afterAggregate (uses : call.UsesStore setup)
    (observations : List LabelledOutcome) (holds : admitted) :
    call.ComesTo setup rows (afterAggregate setup observations) admitted := by
  unfold afterAggregate
  dsimp only
  split
  · exact comesTo_going uses (by simp) (by simp) holds
  · rename_i winner second won
    have listed : winner.strategyId ∈ (strategiesFor setup.taskKind).map (·.strategyId) := by
      obtain ⟨strategyId, mem, rfl⟩ := List.mem_map.mp (evidenceWinner_mem won)
      exact mem
    obtain ⟨definition, known⟩ := Option.isSome_iff_exists.mp (byId_isSome listed)
    rw [known]
    refine comesTo_going uses (by simp) ?_ holds
    intro definition' reason evidence patterns same
    cases same
    rw [byId_strategyId known]
    exact known

/-- An insertion answers with what the run has then. -/
theorem comesTo_assigned {row : StrategyAssignment} {reason : SelectionReason}
    (patterns : List (OutcomePattern S)) (uses : call.UsesStore setup)
    (own : row.runId = setup.runId) (registered : (byId setup.taskKind row.strategyId).isSome)
    (reasons : row.selectionReason = reason.text) :
    call.ComesTo setup (assignStrategy row rows).2
      (.done (selectionOf setup.taskKind (assignStrategy row rows).1 reason patterns))
      (∀ found, assignmentOf setup.runId rows = some found →
        (byId setup.taskKind found.strategyId).isSome ∧ found.selectionReason = reason.text) := by
  obtain ⟨after, stored, is_after, answered⟩ := assignmentOf_assignStrategy row rows
  rw [own] at stored is_after
  rw [answered]
  have admits : (∀ found, assignmentOf setup.runId rows = some found →
      (byId setup.taskKind found.strategyId).isSome ∧ found.selectionReason = reason.text) ↔
        (byId setup.taskKind after.strategyId).isSome ∧ after.selectionReason = reason.text := by
    cases before : assignmentOf setup.runId rows with
    | none =>
        rw [before] at is_after
        subst is_after
        exact ⟨fun _ => ⟨registered, reasons⟩, fun _ found absent => by cases absent⟩
    | some existing =>
        rw [before] at is_after
        subst is_after
        exact ⟨fun holds => holds _ rfl, fun holds found same => by cases same; exact holds⟩
  rw [admits]
  unfold selectionOf
  cases known : byId setup.taskKind after.strategyId with
  | none =>
      refine comesTo_raised uses _ ?_
      rintro ⟨isRegistered, _⟩
      cases isRegistered
  | some definition =>
      exact comesTo_selected uses stored known ⟨fun same => ⟨rfl, same⟩, fun both => both.2⟩

theorem assignStrategy_grows {row : StrategyAssignment} (own : row.runId = setup.runId) :
    ∀ found, assignmentOf setup.runId rows = some found →
      assignmentOf setup.runId (assignStrategy row rows).2 = some found := by
  intro found before
  obtain ⟨after, stored, is_after, _⟩ := assignmentOf_assignStrategy row rows
  rw [own] at stored is_after
  rw [before] at is_after
  rw [stored, is_after]
  rfl

/-- The exploration chooses a registered strategy. -/
theorem explorationRow_registered (digest : String → ℕ) (workspaceId runId now : String)
    {taskKind : String} (kind : strategiesFor taskKind ≠ []) :
    (byId taskKind (explorationRow digest workspaceId taskKind runId (strategyVersions taskKind)
      "v1.0" now rows).strategyId).isSome := by
  have ids : (strategyVersions taskKind).map Prod.fst =
      (strategiesFor taskKind).map (·.strategyId) := by
    simp [strategyVersions, Function.comp_def]
  apply byId_isSome
  rw [← ids]
  have some_id : (strategyVersions taskKind).map Prod.fst ≠ [] := by
    rw [ids]
    simpa using kind
  have some_tied := leastAssigned_ne_nil workspaceId taskKind rows some_id
  unfold explorationRow
  dsimp only
  have inside := Nat.mod_lt
    (digest (workspaceId ++ "\x00" ++ taskKind ++ "\x00" ++ runId))
    (List.length_pos_of_ne_nil some_tied)
  rw [List.getElem?_eq_getElem inside]
  exact mem_leastAssigned (List.getElem_mem inside)

/-! #### What a step does to the agreement -/

/-- A call goes on: the others agree as before. -/
theorem selectionsAgree_setStage (inv : SelectInv setup w) (here : w.calls[i]? = some call)
    (going : ∀ reply, call.stage ≠ .done reply)
    (grows : ∀ row, assignmentOf setup.runId w.assignments = some row →
      assignmentOf setup.runId assignments = some row)
    (comes : call.ComesTo setup assignments stage admitted) :
    SelectInv setup { w.setStage i call stage with assignments } ∧
      (SelectionsAgree setup { w.setStage i call stage with assignments } ↔
        SelectionsAgree setup w ∧ admitted) := by
  rw [← comes.agrees]
  have others : ∀ other ∈ w.calls.set i { call with stage },
      other = { call with stage } ∨ other ∈ w.calls := by
    intro other mem
    exact (List.mem_or_eq_of_mem_set mem).symm
  have same : ∀ other ∈ w.calls,
      other.Agrees setup assignments ↔ other.Agrees setup w.assignments :=
    fun other mem => SelectCall.agrees_iff grows (inv.present other mem)
  refine ⟨⟨?_, ?_⟩, ?_, ?_⟩
  · intro other mem
    rcases others other mem with rfl | old
    · exact comes.onItsWay
    · exact inv.calls other old
  · intro other mem uses selection ended
    rcases others other mem with rfl | old
    · exact comes.present selection ended
    · obtain ⟨row, found⟩ := Option.isSome_iff_exists.mp (inv.present other old uses selection ended)
      exact Option.isSome_iff_exists.mpr ⟨row, grows row found⟩
  · intro agree
    constructor
    · intro other mem
      obtain ⟨j, there⟩ := List.mem_iff_getElem?.mp mem
      by_cases at_place : j = i
      · -- the call that goes on was not done, so there was nothing to agree with
        subst at_place
        obtain rfl := Option.some.inj (here.symm.trans there)
        exact ⟨fun e ended => absurd ended (going _), fun _ _ ended => absurd ended (going _)⟩
      · refine (same other mem).mp (agree other (List.mem_of_getElem? (i := j) ?_))
        show (w.calls.set i { call with stage })[j]? = some other
        rw [List.getElem?_set_ne (Ne.symm at_place)]
        exact there
    · exact agree _ (List.mem_of_getElem? (getElem?_set_self_of_getElem? here))
  · rintro ⟨agree, own⟩ other mem
    rcases others other mem with rfl | old
    · exact own
    · exact (same other old).mpr (agree other old)

/-- The world changes beside the calls: they agree as before. -/
theorem selectionsAgree_beside (w' : StrategyWorld S) (inv : SelectInv setup w) (calls : w'.calls = w.calls)
    (same : assignmentOf setup.runId w'.assignments = assignmentOf setup.runId w.assignments) :
    SelectInv setup w' ∧ (SelectionsAgree setup w' ↔ SelectionsAgree setup w) := by
  have agrees : ∀ call ∈ w.calls,
      call.Agrees setup w'.assignments ↔ call.Agrees setup w.assignments := by
    intro call mem
    refine SelectCall.agrees_iff ?_ (inv.present call mem)
    intro row found
    rw [same]
    exact found
  refine ⟨⟨?_, ?_⟩, ?_⟩
  · rw [calls]
    exact inv.calls
  · rw [calls, same]
    exact inv.present
  · unfold SelectionsAgree
    rw [calls]
    exact forall₂_congr agrees

/-- A call starts: it is on its way to the store, or is done at once. -/
theorem startSelect_cases (setup : SelectSetup S) (explicitStrategyId : Option String)
    (withStore : Bool) (stage : SelectStage S) :
    let call : SelectCall S := ⟨explicitStrategyId, withStore, stage⟩
    (call.UsesStore setup ∧ startSelect setup explicitStrategyId withStore = .reading) ∨
      (call.Disallowed setup ∧
        ∃ e, startSelect setup explicitStrategyId withStore = .done (.error e)) ∨
      (¬call.UsesStore setup ∧
        ∃ selection, startSelect setup explicitStrategyId withStore = .done (.ok selection)) := by
  intro call
  unfold startSelect
  by_cases kind : strategiesFor setup.taskKind = []
  · rw [if_pos kind]
    exact .inr (.inr ⟨fun uses => uses.kind kind, _, rfl⟩)
  rw [if_neg kind]
  cases explicitStrategyId with
  | none =>
      cases withStore with
      | true => exact .inl ⟨⟨rfl, kind, fun strategyId given => by cases given⟩, rfl⟩
      | false => exact .inr (.inr ⟨fun uses => (by cases uses.store), _, rfl⟩)
  | some strategyId =>
      cases known : byId setup.taskKind strategyId with
      | none => exact .inr (.inl ⟨⟨kind, strategyId, rfl, known⟩, _, by simp only [known]; rfl⟩)
      | some definition =>
          cases withStore with
          | true =>
              refine .inl ⟨⟨rfl, kind, ?_⟩, by simp only [known]; rfl⟩
              intro strategyId' given
              cases given
              rw [known]
              rfl
          | false =>
              exact .inr (.inr ⟨fun uses => (by cases uses.store), _, by simp only [known]; rfl⟩)

/-- A call that starts is on its way, and there is nothing yet for it to disagree with. -/
theorem startSelect_onItsWay (setup : SelectSetup S) (assignments : List StrategyAssignment)
    (explicitStrategyId : Option String) (withStore : Bool) :
    let call : SelectCall S :=
      ⟨explicitStrategyId, withStore, startSelect setup explicitStrategyId withStore⟩
    call.OnItsWay setup ∧ call.Agrees setup assignments ∧
      (call.UsesStore setup → ∀ selection, call.stage ≠ .done (.ok selection)) := by
  intro call
  rcases startSelect_cases setup explicitStrategyId withStore call.stage with
    ⟨uses, reads⟩ | ⟨disallowed, e, raised⟩ | ⟨aside, selection, answered⟩
  · have stage : call.stage = .reading := reads
    exact ⟨⟨fun _ => uses, fun _ _ _ _ same => by rw [stage] at same; cases same⟩,
      ⟨fun e same => (by rw [stage] at same; cases same),
        fun _ _ same => (by rw [stage] at same; cases same)⟩,
      fun _ _ same => by rw [stage] at same; cases same⟩
  · have stage : call.stage = .done (.error e) := raised
    exact ⟨⟨fun going => absurd stage (going _), fun _ _ _ _ same => by rw [stage] at same; cases same⟩,
      ⟨fun _ _ => disallowed, fun _ _ same => (by rw [stage] at same; cases same)⟩,
      fun _ _ same => by rw [stage] at same; cases same⟩
  · have stage : call.stage = .done (.ok selection) := answered
    exact ⟨⟨fun going => absurd stage (going _), fun _ _ _ _ same => by rw [stage] at same; cases same⟩,
      ⟨fun e same => (by rw [stage] at same; cases same), fun uses => absurd uses aside⟩,
      fun uses => absurd uses aside⟩

/-- A transaction of a call keeps the agreement exactly where it is admitted. -/
theorem selectionsAgree_advance {now : String} (inv : SelectInv setup w)
    (here : w.calls[i]? = some call) (step : w.advance setup i call now = some w') :
    SelectInv setup w' ∧ (SelectionsAgree setup w' ↔ SelectionsAgree setup w ∧
      ∀ row, assignmentOf setup.runId w.assignments = some row →
        call.stage.Admits setup.taskKind row) := by
  have onItsWay := inv.calls call (List.mem_of_getElem? here)
  unfold StrategyWorld.advance at step
  cases stage : call.stage with
  | done reply =>
      rw [stage] at step
      cases step
  | reading =>
      have going : ∀ reply, call.stage ≠ .done reply := by simp [stage]
      have uses := onItsWay.uses going
      rw [stage] at step
      dsimp only at step
      by_cases decodes : ∀ row, assignmentOf setup.runId w.assignments = some row → row.Decodes
      · rw [getStrategyAssignment_eq decodes] at step
        rw [← Option.some.inj step]
        have split := selectionsAgree_setStage inv here going (fun _ found => found)
          (comesTo_afterRead w.assignments uses)
        refine ⟨split.1, split.2.trans (and_congr_right ?_)⟩
        intro _
        constructor
        · intro known row found
          exact ⟨decodes row found, known row found⟩
        · intro admits row found
          exact (admits row found).2
      · push Not at decodes
        obtain ⟨row, found, broken⟩ := decodes
        obtain ⟨e, raises⟩ := getStrategyAssignment_raises found broken
        rw [raises] at step
        rw [← Option.some.inj step]
        refine selectionsAgree_setStage inv here going (fun _ found => found)
          (comesTo_raised uses e ?_)
        intro admits
        exact broken (admits row found).1
  | aggregating =>
      have going : ∀ reply, call.stage ≠ .done reply := by simp [stage]
      rw [stage] at step
      rw [← Option.some.inj step]
      exact selectionsAgree_setStage inv here going (fun _ found => found)
        (comesTo_afterAggregate (onItsWay.uses going) w.observations fun _ _ => trivial)
  | assigning definition reason evidence patterns =>
      have going : ∀ reply, call.stage ≠ .done reply := by simp [stage]
      have known := onItsWay.registered definition reason evidence patterns stage
      rw [stage] at step
      rw [← Option.some.inj step]
      exact selectionsAgree_setStage inv here going (assignStrategy_grows rfl)
        (comesTo_assigned patterns (onItsWay.uses going) rfl (by
          show (byId setup.taskKind definition.strategyId).isSome
          rw [known]
          rfl) rfl)
  | exploring patterns =>
      have going : ∀ reply, call.stage ≠ .done reply := by simp [stage]
      have uses := onItsWay.uses going
      have some_version : strategyVersions setup.taskKind ≠ [] := by
        simpa [strategyVersions] using uses.kind
      rw [stage] at step
      dsimp only at step
      unfold assignBalancedExploration at step
      rw [if_neg some_version, if_neg (strategyVersions_positive setup.taskKind)] at step
      rw [← Option.some.inj step]
      exact selectionsAgree_setStage inv here going (assignStrategy_grows rfl)
        (comesTo_assigned patterns uses rfl (explorationRow_registered _ _ _ _ uses.kind) rfl)

/-- A step keeps the agreement exactly where it is admitted. -/
theorem selectionsAgree_step {l : StrategyStep} (inv : SelectInv setup w)
    (step : (selectStrategy setup).step w l = some w') :
    SelectInv setup w' ∧
      (SelectionsAgree setup w' ↔ SelectionsAgree setup w ∧ SelectAdmitted setup w l) := by
  cases l with
  | call explicitStrategyId withStore =>
      rw [← Option.some.inj step]
      obtain ⟨onItsWay, agrees, fresh⟩ := startSelect_onItsWay setup w.assignments
        explicitStrategyId withStore
      refine ⟨⟨?_, ?_⟩, ?_, ?_⟩
      · intro call mem
        rcases List.mem_append.mp mem with old | new
        · exact inv.calls call old
        · obtain rfl := List.mem_singleton.mp new
          exact onItsWay
      · intro call mem uses selection ended
        rcases List.mem_append.mp mem with old | new
        · exact inv.present call old uses selection ended
        · obtain rfl := List.mem_singleton.mp new
          exact absurd ended (fresh uses selection)
      · intro agree
        exact ⟨fun call mem => agree call (List.mem_append_left _ mem), trivial⟩
      · rintro ⟨agree, _⟩ call mem
        rcases List.mem_append.mp mem with old | new
        · exact agree call old
        · obtain rfl := List.mem_singleton.mp new
          exact agrees
  | advance i now =>
      obtain ⟨call, here, advanced⟩ := Option.bind_eq_some_iff.mp step
      obtain ⟨inv', agree_iff⟩ := selectionsAgree_advance inv here advanced
      refine ⟨inv', agree_iff.trans (and_congr_right ?_)⟩
      intro _
      constructor
      · intro admits call' there
        obtain rfl := Option.some.inj (here.symm.trans there)
        exact admits
      · intro admitted
        exact admitted call here
  | label observations =>
      rw [← Option.some.inj step]
      obtain ⟨inv', agree_iff⟩ := selectionsAgree_beside { w with observations } inv rfl rfl
      exact ⟨inv', agree_iff.trans (and_iff_left trivial).symm⟩
  | other row =>
      have inserted : (if row.runId = setup.runId ∨ (assignmentOf row.runId w.assignments).isSome then
          none else some { w with assignments := w.assignments ++ [row] }) = some w' := step
      split at inserted
      · cases inserted
      · rename_i apart
        push Not at apart
        rw [← Option.some.inj inserted]
        obtain ⟨inv', agree_iff⟩ := selectionsAgree_beside
          { w with assignments := w.assignments ++ [row] } inv rfl (assignmentOf_concat_of_ne apart.1)
        exact ⟨inv', agree_iff.trans (and_iff_left trivial).symm⟩

/-- **Selections agree with the audit record.** From any store content, calls of
`select_strategy` for one run, in any interleaving, raise only for a disallowed strategy and
answer with the strategy and the reason of the persisted assignment, exactly if every
transaction that finds an assignment of the run finds one it admits. -/
theorem selections_agree_iff {S : Type} (setup : SelectSetup S) {w w' : StrategyWorld S}
    {ls : List StrategyStep} (start : w.calls = [])
    (path : Machine.Path (selectStrategy setup) Machine.Free w ls w') :
    SelectionsAgree setup w' ↔
      Machine.Path (selectStrategy setup) (SelectAdmitted setup) w ls w' := by
  have none_yet : SelectionsAgree setup w := by
    intro call mem
    rw [start] at mem
    cases mem
  have inv : SelectInv setup w := by
    constructor
    · intro call mem
      rw [start] at mem
      cases mem
    · intro call mem
      rw [start] at mem
      cases mem
  have exactly := path.meets_iff (fun _ _ _ _ inv step => selectionsAgree_step inv step) inv
  rw [exactly]
  exact and_iff_right none_yet

end

/-! ### A replay and a race -/

/-- The scores as fractions; without labels no score is rounded. -/
def exactScoring : Scoring ℚ where
  score accepted edited labelled := (accepted + edited / 2) / labelled
  zero := 0
  above a b := b < a
  low a := a < 7 / 10
  close a b := a - b < 15 / 100
  rounded _ := "0.0"
  margin _ _ := "0.0"

/-- Calls for one run, with the digest of its three texts. -/
def oneRun : SelectSetup ℚ where
  scoring := exactScoring
  digest _ := 113826608996812792826880128189859808435798311189632140234561975222644632167525
  workspaceId := "workspace"
  taskKind := "workflow"
  runId := "run"

/-- What the calls answered: the strategies and their reasons. -/
def StrategyWorld.answers {S : Type} (w : StrategyWorld S) : List (Option (String × String)) :=
  w.calls.map fun call =>
    match call.stage with
    | .done (.ok selection) => some (selection.hint.strategyId, selection.hint.selectionReason)
    | _ => none

/-- An explicit selection, and a call that comes after it. -/
def replaySteps : List StrategyStep :=
  [.call (some "default-v1") true, .advance 0 "10:00", .advance 0 "10:00",
    .call none true, .advance 1 "10:05"]

/-- An explicit selection and an exploration that read together; the exploration is first. -/
def raceSteps : List StrategyStep :=
  [.call (some "default-v1") true, .call none true, .advance 0 "10:00", .advance 1 "10:00",
    .advance 1 "10:00", .advance 1 "10:00", .advance 0 "10:01"]

instance {S : Type} (setup : SelectSetup S) (row : StrategyAssignment) :
    (stage : SelectStage S) → Decidable (stage.Admits setup.taskKind row)
  | .reading => inferInstanceAs (Decidable (_ ∧ (_ → _)))
  | .assigning _ _ _ _ => inferInstanceAs (Decidable (_ ∧ _))
  | .exploring _ => inferInstanceAs (Decidable (_ ∧ _))
  | .aggregating => isTrue trivial
  | .done _ => isTrue trivial

instance {S : Type} (setup : SelectSetup S) (w : StrategyWorld S) :
    (l : StrategyStep) → Decidable (SelectAdmitted setup w l)
  | .advance i _ => inferInstanceAs (Decidable (∀ call ∈ w.calls[i]?,
      ∀ row ∈ assignmentOf setup.runId w.assignments, call.stage.Admits setup.taskKind row))
  | .call _ _ => isTrue trivial
  | .label _ => isTrue trivial
  | .other _ => isTrue trivial

/-- The call that comes after answers as the first one did. -/
theorem replayed_selections_agree :
    ∃ w, Machine.Path (selectStrategy oneRun) Machine.Free {} replaySteps w ∧
      w.answers = [some ("default-v1", "explicit"), some ("default-v1", "explicit")] ∧
      SelectionsAgree oneRun w := by
  have answered : (((selectStrategy oneRun).restrict (SelectAdmitted oneRun)).run {}
      replaySteps).map (·.answers) =
      some [some ("default-v1", "explicit"), some ("default-v1", "explicit")] := by
    decide +kernel
  obtain ⟨w, ran, answers⟩ := Option.map_eq_some_iff.mp answered
  have path := Machine.run_restrict_iff.mp ran
  exact ⟨w, path.free, answers, (selections_agree_iff oneRun rfl path.free).mpr path⟩

/-- A run that races: the explicit call answers with the exploration's strategy, and calls it
explicit. -/
theorem raced_reason_differs :
    ∃ w, Machine.Path (selectStrategy oneRun) Machine.Free {} raceSteps w ∧
      ¬SelectionsAgree oneRun w := by
  have answered : ((selectStrategy oneRun).run {} raceSteps).map (fun w =>
      (w.calls[0]?.map fun call => (call.explicitStrategyId, call.withStore), w.answers[0]?,
        (assignmentOf "run" w.assignments).map fun row => (row.strategyId, row.selectionReason))) =
      some (some (some "default-v1", true), some (some ("concise-plan-v1", "explicit")),
        some ("concise-plan-v1", "exploration")) := by
    decide +kernel
  obtain ⟨w, ran, seen⟩ := Option.map_eq_some_iff.mp answered
  refine ⟨w, Machine.run_eq_some_iff.mp ran, ?_⟩
  intro agree
  simp only [Prod.mk.injEq] at seen
  obtain ⟨called, answer, audit⟩ := seen
  obtain ⟨call, here, given⟩ := Option.map_eq_some_iff.mp called
  obtain ⟨row, found, recorded⟩ := Option.map_eq_some_iff.mp audit
  simp only [Prod.mk.injEq] at given recorded
  have uses : call.UsesStore oneRun := by
    refine ⟨given.2, by decide, ?_⟩
    rw [given.1]
    intro strategyId same
    cases same
    decide +kernel
  unfold StrategyWorld.answers at answer
  rw [List.getElem?_map, here, Option.map_some] at answer
  replace answer := Option.some.inj answer
  split at answer
  · rename_i selection ended
    obtain ⟨row', found', _, reasons⟩ :=
      (agree call (List.mem_of_getElem? here)).selects uses selection ended
    obtain rfl := Option.some.inj (found.symm.trans found')
    simp only [Option.some.injEq, Prod.mk.injEq] at answer
    rw [answer.2, recorded.2] at reasons
    exact absurd reasons (by decide)
  · cases answer

end AgentOs
