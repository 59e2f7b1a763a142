import AgentOs.Lib.Purge
import AgentOs.Observations.Advisory
import AgentOs.Observations.Balance
import AgentOs.Observations.SkillCandidates
import AgentOs.Strategies.Selection

/-!
One observation store under several workspaces (`observations.py`, `skill_candidates.py`,
`server/api.py`).

With `AGENT_OS_OBSERVATIONS_DB` set, every workspace opens the same database. What a workspace
asks of it names the workspace: `store_shared_exact` says that the calls of the others make no
difference to the answers, except for observations that they store under its id. Folding white
space is the one way to do that.
-/

namespace AgentOs

open AgentOs.Lib

/-- The tables of the store. -/
structure ObservationDb where
  observations : List StoredObservation
  assignments : List StrategyAssignment

/-- What is asked of the store. -/
inductive ObservationRequest (H : Type) where
  /-- a run ends: the new id, the time and what is recorded -/
  | create (observationId now : String) (given : NewObservation)
  /-- `GET /api/observations` -/
  | list (taskKind : Option String) (limit : ℤ)
  /-- `POST /api/observations/{observation_id}/outcome` -/
  | recordOutcome (observationId signal : String) (evidence : Json) (now : String)
  /-- an architect prompt is built -/
  | advise (taskKind : String)
  /-- a strategy is selected: the evidence for it -/
  | patterns (taskKind : String) (strategyIds : List String)
  /-- and the assignment of the run -/
  | assign (call : AssignmentCall)
  /-- `GET /api/observations/assignments/{run_id}` -/
  | assignment (runId : String)
  /-- `GET /api/skill-candidates` -/
  | candidates (registry : SkillRegistry H)

/-- A request, and the workspace that makes it. -/
structure ObservationCall (H : Type) where
  workspaceId : String
  request : ObservationRequest H

inductive ObservationReply (S : Type) where
  | created (answer : Except String StoredObservation)
  | listed (observations : List StoredObservation)
  | recorded (answer : Except (ℕ × String) StoredObservation)
  | advice (text : String)
  | patterns (patterns : List (OutcomePattern S))
  | assigned (answer : Except String String)
  | assignment (answer : Except (ℕ × String) StrategyAssignment)
  | candidates (answer : Except String (List (SkillCandidate S)))

namespace StoredObservation

/-- The row as rendering reads it. -/
def row (stored : StoredObservation) : ObservationRow where
  workspaceId := stored.workspaceId
  taskKind := stored.taskKind
  schemaVersion := .ok 1
  approach := stored.approach
  artifactRefs := .ok (.arr (stored.artifactRefs.map .str))
  outcomeSignal := stored.outcomeSignal
  outcomeEvidence := stored.outcomeEvidence
  createdAt := stored.createdAt

/-- The row as the aggregation reads it. -/
def label (stored : StoredObservation) : LabelledOutcome where
  workspaceId := stored.workspaceId
  taskKind := stored.taskKind
  approach := stored.approach
  outcomeSignal := stored.outcomeSignal

end StoredObservation

/-- `get_strategy_assignment_endpoint` -/
def getStrategyAssignmentEndpoint (workspaceId runId : String) (rows : List StrategyAssignment) :
    Except (ℕ × String) StrategyAssignment :=
  match getStrategyAssignment runId rows with
  | .error _ => .error (500, "Failed to read strategy assignment")
  | .ok none => .error (404, "Strategy assignment not found")
  | .ok (some assignment) =>
      if assignment.workspaceId ≠ workspaceId then .error (404, "Strategy assignment not found")
      else .ok assignment

/-- The call as a workspace makes it. -/
def AssignmentCall.within (workspaceId : String) : AssignmentCall → AssignmentCall
  | assignStrategy row => assignStrategy { row with workspaceId }
  | assignBalancedExploration call => assignBalancedExploration { call with workspaceId }

/-- The observation as a workspace records it. -/
def NewObservation.within (workspaceId : String) (given : NewObservation) : NewObservation :=
  { given with workspaceId := .str workspaceId }

section

variable {S H : Type} [LinearOrder S] (scoring : Scoring S) (mining : CandidateScoring S)
  (cases : CaseTable) (digest : String → ℕ)

/-- What the store answers to a workspace. -/
def answerObservation (db : ObservationDb) (call : ObservationCall H) :
    ObservationReply S × ObservationDb :=
  let workspaceId := call.workspaceId
  match call.request with
  | .create observationId now given =>
      let (answer, observations) := ObservationStore.create (given.within workspaceId)
        observationId now db.observations
      (.created answer, { db with observations })
  | .list taskKind limit =>
      (.listed (ObservationStore.list (some workspaceId) taskKind limit db.observations), db)
  | .recordOutcome observationId signal evidence now =>
      let (answer, observations) := ObservationStore.recordObservationOutcomeEndpoint workspaceId
        observationId signal evidence now db.observations
      (.recorded answer, { db with observations })
  | .advise taskKind =>
      (.advice (renderAdvisoryContext workspaceId taskKind
        (db.observations.map StoredObservation.row)), db)
  | .patterns taskKind strategyIds =>
      (.patterns (aggregatePatterns scoring workspaceId taskKind strategyIds
        (db.observations.map StoredObservation.label)), db)
  | .assign assignment =>
      let (answer, assignments) := performAssignment digest db.assignments
        ⟨assignment.within workspaceId, none⟩
      (.assigned answer, { db with assignments })
  | .assignment runId =>
      (.assignment (getStrategyAssignmentEndpoint workspaceId runId db.assignments), db)
  | .candidates registry =>
      (.candidates (mineSkillCandidates mining cases registry workspaceId 3 mining.minimum
        db.observations), db)

/-- The workspace that a call stores an observation under. -/
def ObservationCall.storesUnder (call : ObservationCall H) : Option String :=
  match call.request with
  | .create observationId now given =>
      ((given.within call.workspaceId).row observationId now).toOption.map (·.workspaceId)
  | _ => none

/-- `uuid4` gives new ids, a run is one workspace's, and what a row of it stores can be read. -/
def ObservationCall.Admitted (db : ObservationDb) (call : ObservationCall H) : Prop :=
  match call.request with
  | .create observationId _ _ => observationId ∉ db.observations.map (·.observationId)
  | .assign assignment =>
      (∀ row ∈ db.assignments, row.runId = assignment.runId →
        row.workspaceId = call.workspaceId) ∧
      ∀ row, assignment = .assignStrategy row → row.Decodes
  | _ => True

end

/-! ### What a workspace sees -/

/-- The observations of a workspace. -/
def ownObservations (workspaceId : String) (rows : List StoredObservation) :
    List StoredObservation :=
  rows.filter (·.workspaceId = workspaceId)

/-- The assignments of a workspace. -/
def ownAssignments (workspaceId : String) (rows : List StrategyAssignment) :
    List StrategyAssignment :=
  rows.filter (·.workspaceId = workspaceId)

section

variable {S H : Type} {scoring : Scoring S} {cases : CaseTable} {digest : String → ℕ}
  {workspaceId observationId runId now : String} {rows : List StoredObservation}
  {assignments : List StrategyAssignment}

/-- Who asks for rows of a workspace need not see the others. -/
theorem filter_own {q : StoredObservation → Bool}
    (within : ∀ row, q row = true → row.workspaceId = workspaceId) :
    rows.filter q = (ownObservations workspaceId rows).filter q := by
  rw [ownObservations, List.filter_filter]
  refine List.filter_congr fun row _ => ?_
  cases chosen : q row with
  | false => rfl
  | true => rw [within row chosen, Bool.true_and, decide_eq_true rfl]

theorem countP_own {q : StoredObservation → Bool}
    (within : ∀ row, q row = true → row.workspaceId = workspaceId) :
    rows.countP q = (ownObservations workspaceId rows).countP q := by
  rw [List.countP_eq_length_filter, filter_own within, ← List.countP_eq_length_filter]

theorem list_own (taskKind : Option String) (limit : ℤ) :
    ObservationStore.list (some workspaceId) taskKind limit rows =
      ObservationStore.list (some workspaceId) taskKind limit (ownObservations workspaceId rows) := by
  unfold ObservationStore.list
  rw [@filter_own workspaceId]
  intro row chosen
  exact of_decide_eq_true ((Bool.and_eq_true ..).mp chosen).1

theorem advice_own (taskKind : String) :
    renderAdvisoryContext workspaceId taskKind (rows.map StoredObservation.row) =
      renderAdvisoryContext workspaceId taskKind
        ((ownObservations workspaceId rows).map StoredObservation.row) := by
  unfold renderAdvisoryContext listObservations newestFirst
  rw [List.filter_map, List.filter_map, @filter_own workspaceId]
  intro row chosen
  exact of_decide_eq_true (of_decide_eq_true chosen).1

theorem patterns_own (taskKind : String) (strategyIds : List String) :
    aggregatePatterns scoring workspaceId taskKind strategyIds (rows.map StoredObservation.label) =
      aggregatePatterns scoring workspaceId taskKind strategyIds
        ((ownObservations workspaceId rows).map StoredObservation.label) := by
  have count : ∀ (strategyId : String) (signal : OutcomeSignal),
      (rows.map StoredObservation.label).countP (fun o => o.workspaceId = workspaceId ∧
          o.taskKind = taskKind ∧ o.approach = strategyId ∧ o.outcomeSignal = signal) =
        ((ownObservations workspaceId rows).map StoredObservation.label).countP fun o =>
          o.workspaceId = workspaceId ∧ o.taskKind = taskKind ∧ o.approach = strategyId ∧
            o.outcomeSignal = signal := by
    intro strategyId signal
    rw [List.countP_map, List.countP_map, @countP_own workspaceId]
    intro row chosen
    exact (of_decide_eq_true chosen).1
  unfold aggregatePatterns
  simp only [count]

variable [LinearOrder S] {mining : CandidateScoring S}

theorem candidates_own (registry : SkillRegistry H) :
    mineSkillCandidates mining cases registry workspaceId 3 mining.minimum rows =
      mineSkillCandidates mining cases registry workspaceId 3 mining.minimum
        (ownObservations workspaceId rows) := by
  have bucket : ∀ bucket, labelledBucket workspaceId bucket rows =
      labelledBucket workspaceId bucket (ownObservations workspaceId rows) := fun bucket =>
    filter_own fun row chosen => (of_decide_eq_true chosen).1
  have buckets : signatureBuckets workspaceId rows =
      signatureBuckets workspaceId (ownObservations workspaceId rows) := by
    unfold signatureBuckets
    rw [@filter_own workspaceId]
    intro row chosen
    exact (of_decide_eq_true chosen).1
  have pattern : signaturePattern mining workspaceId 3 rows =
      signaturePattern mining workspaceId 3 (ownObservations workspaceId rows) := by
    funext bucket_
    unfold signaturePattern
    rw [bucket]
  unfold mineSkillCandidates aggregateTaskSignatures
  rw [buckets, pattern]

end

/-! ### Writing -/

section

variable {digest : String → ℕ} {workspaceId observationId runId now : String}
  {rows : List StoredObservation} {assignments : List StrategyAssignment}

open ObservationStore

/-- Creating under a new id. -/
theorem create_fresh {given : NewObservation}
    (fresh : observationId ∉ rows.map (·.observationId)) :
    create given observationId now rows =
      (given.row observationId now,
        match given.row observationId now with
        | .error _ => rows
        | .ok row => rows ++ [row]) := by
  have none : get observationId rows = none := by
    refine List.find?_eq_none.mpr fun row mem same => fresh ?_
    exact List.mem_map.mpr ⟨row, mem, of_decide_eq_true same⟩
  unfold create
  cases given.row observationId now with
  | error e => rfl
  | ok row =>
      dsimp only
      rw [none]
      rfl

theorem relabel_id (outcome : OutcomeSignal × Option String) (row : StoredObservation) :
    (relabel observationId now outcome row).observationId = row.observationId := by
  unfold relabel
  split <;> rfl

theorem relabel_workspace (outcome : OutcomeSignal × Option String) (row : StoredObservation) :
    (relabel observationId now outcome row).workspaceId = row.workspaceId := by
  unfold relabel
  split <;> rfl

/-- Of the row with an id there is one. -/
theorem recordOutcome_found {signal : String} {evidence : Json}
    {outcome : OutcomeSignal × Option String} {row : StoredObservation}
    (distinct : (rows.map (·.observationId)).Nodup) (found : get observationId rows = some row)
    (valid : checkOutcome signal evidence = .ok outcome) :
    recordOutcome observationId signal evidence now rows =
      (.ok (some (relabel observationId now outcome row)),
        rows.map (relabel observationId now outcome)) := by
  have here : row.observationId = observationId := by simpa using List.find?_some found
  have once : rows.countP (·.observationId = observationId) = 1 := by
    have count := List.count_eq_one_of_mem distinct
      (List.mem_map.mpr ⟨row, List.mem_of_find?_eq_some found, here⟩)
    rw [List.count, List.countP_map] at count
    rw [← count]
    exact List.countP_congr fun row _ => by simp
  have kept : (fun row : StoredObservation => decide (row.observationId = observationId)) ∘
      relabel observationId now outcome = fun row => decide (row.observationId = observationId) := by
    funext row
    rw [Function.comp, relabel_id]
  have after : get observationId (rows.map (relabel observationId now outcome)) =
      some (relabel observationId now outcome row) := by
    unfold ObservationStore.get at found ⊢
    rw [List.find?_map, kept, found]
    rfl
  unfold recordOutcome
  rw [valid]
  dsimp only
  rw [once, after, if_neg (by simp)]

/-- The endpoint looks for the row among those of its workspace. -/
theorem recordEndpoint_own {signal : String} {evidence : Json}
    (distinct : (rows.map (·.observationId)).Nodup) :
    recordObservationOutcomeEndpoint workspaceId observationId signal evidence now rows =
      match get observationId (ownObservations workspaceId rows), checkOutcome signal evidence with
      | none, _ => (.error (404, "Observation not found"), rows)
      | some _, .error e => (.error (422, e), rows)
      | some row, .ok outcome => (.ok (relabel observationId now outcome row),
          rows.map (relabel observationId now outcome)) := by
  have seen : get observationId (ownObservations workspaceId rows) =
      (get observationId rows).filter (·.workspaceId = workspaceId) :=
    @find?_seen _ _ _ StoredObservation.observationId _ _ _ distinct
  unfold recordObservationOutcomeEndpoint
  cases found : get observationId rows with
  | none =>
      rw [seen, found]
      rfl
  | some row =>
      rw [seen, found, Option.filter_some]
      dsimp only
      by_cases own : row.workspaceId = workspaceId
      · rw [if_neg (not_not_intro own), if_pos (decide_eq_true own)]
        cases valid : checkOutcome signal evidence with
        | error e =>
            unfold recordOutcome
            rw [valid]
        | ok outcome => rw [recordOutcome_found distinct found valid]
      · rw [if_pos own, if_neg (by simpa using own)]

/-- What is wrong with the arguments of a call. -/
def AssignmentCall.refusal : AssignmentCall → Option String
  | assignStrategy _ => none
  | assignBalancedExploration call =>
      if call.strategyIds = [] then some "strategy_ids must not be empty"
      else if call.lacksVersion then
        some "strategy_versions must provide a positive integer for every strategy"
      else none

/-- A call on a connection that does not fail. -/
theorem performAssignment_answer (call : AssignmentCall) :
    performAssignment digest assignments ⟨call, none⟩ =
      match call.refusal, assignmentOf call.runId assignments with
      | some e, _ => (.error e, assignments)
      | none, some existing => (.ok existing.strategyId, assignments)
      | none, none =>
          let row := call.row digest assignments
          if row.strategyVersion.toOption.all (fitsInteger ·) then
            (.ok row.strategyId, assignments ++ [row])
          else (.error "Python int too large to convert to SQLite INTEGER", assignments) := by
  have inserts : ∀ row : StrategyAssignment, assignmentOf row.runId assignments = none →
      (Transaction.execute (insertAssignment row) fun _ =>
          .commit row.strategyId : AssignmentTransaction).attempt assignments assignments none =
        if row.strategyVersion.toOption.all (fitsInteger ·) then
          (.ok row.strategyId, assignments ++ [row])
        else (.error "Python int too large to convert to SQLite INTEGER", assignments) := by
    intro row none
    have inserted : insertAssignment row assignments =
        if row.strategyVersion.toOption.all (fitsInteger ·) then .ok (1, assignments ++ [row])
        else .error "Python int too large to convert to SQLite INTEGER" := by
      rw [insertAssignment, none, Option.isSome_none, if_neg Bool.false_ne_true]
    split
    · rename_i fits
      rw [if_pos fits] at inserted
      rw [Transaction.attempt_execute inserted]
      rfl
    · rename_i large
      rw [if_neg large] at inserted
      simp only [Transaction.attempt, inserted]
  unfold performAssignment Transaction.perform
  cases call with
  | assignStrategy row =>
      rw [AssignmentCall.transaction, Transaction.attempt_select]
      dsimp only [AssignmentCall.runId, AssignmentCall.refusal, AssignmentCall.row]
      cases found : assignmentOf row.runId assignments with
      | some existing => rfl
      | none => exact inserts row found
  | assignBalancedExploration call =>
      rw [AssignmentCall.transaction]
      dsimp only [AssignmentCall.runId, AssignmentCall.refusal, AssignmentCall.row]
      by_cases none : call.strategyIds = []
      · rw [if_pos none, if_pos none]
        rfl
      · rw [if_neg none, if_neg none]
        cases call.lacksVersion with
        | true => rfl
        | false =>
            rw [if_neg Bool.false_ne_true, if_neg Bool.false_ne_true, Transaction.attempt_select]
            cases found : assignmentOf call.runId assignments with
            | some existing => rfl
            | none =>
                dsimp only
                rw [Transaction.attempt_select]
                exact inserts (call.row digest assignments) found

theorem assignedCount_own (taskKind strategyId : String) :
    assignedCount workspaceId taskKind strategyId assignments =
      assignedCount workspaceId taskKind strategyId (ownAssignments workspaceId assignments) := by
  unfold assignedCount ownAssignments
  rw [List.countP_filter]
  refine List.countP_congr fun row _ => ?_
  simp only [decide_eq_true_eq, Bool.and_eq_true]
  exact ⟨fun chosen => ⟨chosen, chosen.1⟩, And.left⟩

/-- The row that a workspace would insert. -/
theorem row_own (call : AssignmentCall) :
    (call.within workspaceId).row digest assignments =
      (call.within workspaceId).row digest (ownAssignments workspaceId assignments) := by
  cases call with
  | assignStrategy row => rfl
  | assignBalancedExploration call =>
      dsimp only [AssignmentCall.within, AssignmentCall.row, ExplorationCall.row,
        ExplorationCall.selected, leastAssigned]
      simp only [@assignedCount_own workspaceId assignments]

/-- The assignment of a run, as the endpoint shows it. -/
theorem assignmentEndpoint_own (distinct : (assignments.map (·.runId)).Nodup)
    (decodes : ∀ row ∈ assignments, row.Decodes) :
    getStrategyAssignmentEndpoint workspaceId runId assignments =
      match assignmentOf runId (ownAssignments workspaceId assignments) with
      | none => .error (404, "Strategy assignment not found")
      | some row => .ok row := by
  have seen : assignmentOf runId (ownAssignments workspaceId assignments) =
      (assignmentOf runId assignments).filter (·.workspaceId = workspaceId) :=
    @find?_seen _ _ _ StrategyAssignment.runId _ _ _ distinct
  unfold getStrategyAssignmentEndpoint
  rw [getStrategyAssignment_eq fun row found => decodes row (List.mem_of_find?_eq_some found), seen]
  cases assignmentOf runId assignments with
  | none => rfl
  | some row =>
      rw [Option.filter_some]
      dsimp only
      by_cases own : row.workspaceId = workspaceId
      · rw [if_neg (not_not_intro own), if_pos (decide_eq_true own)]
      · rw [if_pos own, if_neg (by simpa using own)]

end

/-! ### Isolation -/

/-- Two stores look the same to a workspace; the second has nothing that the first has not. -/
structure SharedView (workspaceId : String) (s t : ObservationDb) : Prop where
  observations : ownObservations workspaceId s.observations =
    ownObservations workspaceId t.observations
  assignments : ownAssignments workspaceId s.assignments = ownAssignments workspaceId t.assignments
  ids : ∀ id ∈ t.observations.map (·.observationId), id ∈ s.observations.map (·.observationId)
  rows : ∀ row ∈ t.assignments, row ∈ s.assignments
  distinct : (s.observations.map (·.observationId)).Nodup ∧
    (t.observations.map (·.observationId)).Nodup
  runs : (s.assignments.map (·.runId)).Nodup ∧ (t.assignments.map (·.runId)).Nodup
  decodes : ∀ row ∈ s.assignments, row.Decodes

section

variable {S H : Type} [LinearOrder S] {scoring : Scoring S} {mining : CandidateScoring S}
  {cases : CaseTable} {digest : String → ℕ} {workspaceId : String} {s t : ObservationDb}
  {call : ObservationCall H}

variable (workspaceId) in
/-- The calls that may matter to a workspace: its own, and those that store under its id. -/
def mattersTo (call : ObservationCall H) : Bool :=
  call.workspaceId = workspaceId || call.storesUnder = some workspaceId

theorem nodup_concat {α K : Type} {key : α → K} {rows : List α} {row : α}
    (fresh : key row ∉ rows.map key) (distinct : (rows.map key).Nodup) :
    ((rows ++ [row]).map key).Nodup := by
  rw [List.map_append, List.map_singleton, List.nodup_append]
  refine ⟨distinct, List.nodup_singleton _, fun k mem other same => ?_⟩
  rw [List.mem_singleton.mp same]
  exact fun here => fresh (here ▸ mem)

/-- Rows with one more. -/
theorem SharedView.create (view : SharedView workspaceId s t) {row : StoredObservation}
    (fresh : row.observationId ∉ s.observations.map (·.observationId)) :
    SharedView workspaceId { s with observations := s.observations ++ [row] }
      { t with observations := t.observations ++ [row] } := by
  refine { view with observations := ?_, ids := ?_, distinct := ⟨?_, ?_⟩ }
  · have same := view.observations
    unfold ownObservations at same ⊢
    rw [List.filter_append, List.filter_append, same]
  · intro id mem
    rw [List.map_append, List.mem_append] at mem ⊢
    exact mem.imp_left (view.ids id)
  · exact nodup_concat fresh view.distinct.1
  · exact nodup_concat (fun mem => fresh (view.ids _ mem)) view.distinct.2

/-- A row of another workspace. -/
theorem SharedView.create_other (view : SharedView workspaceId s t) {row : StoredObservation}
    (fresh : row.observationId ∉ s.observations.map (·.observationId))
    (other : row.workspaceId ≠ workspaceId) :
    SharedView workspaceId { s with observations := s.observations ++ [row] } t := by
  refine { view with observations := ?_, ids := ?_, distinct := ⟨?_, view.distinct.2⟩ }
  · rw [← view.observations, ownObservations, ownObservations, List.filter_append,
      List.filter_cons_of_neg (by simpa using other), List.filter_nil, List.append_nil]
  · intro id mem
    rw [List.map_append, List.mem_append]
    exact .inl (view.ids id mem)
  · exact nodup_concat fresh view.distinct.1

theorem map_relabel_id {observationId now : String} {outcome : OutcomeSignal × Option String}
    (rows : List StoredObservation) :
    (rows.map (ObservationStore.relabel observationId now outcome)).map (·.observationId) =
      rows.map (·.observationId) := by
  rw [List.map_map]
  exact List.map_congr_left fun row _ => relabel_id outcome row

theorem own_relabel {observationId now : String} {outcome : OutcomeSignal × Option String}
    (rows : List StoredObservation) :
    ownObservations workspaceId (rows.map (ObservationStore.relabel observationId now outcome)) =
      (ownObservations workspaceId rows).map (ObservationStore.relabel observationId now outcome) := by
  unfold ownObservations
  rw [List.filter_map]
  congr 1
  exact List.filter_congr fun row _ => by rw [Function.comp, relabel_workspace]

/-- An outcome that is recorded in both. -/
theorem SharedView.relabel (view : SharedView workspaceId s t) (observationId now : String)
    (outcome : OutcomeSignal × Option String) :
    SharedView workspaceId
      { s with observations := s.observations.map (ObservationStore.relabel observationId now outcome) }
      { t with
        observations := t.observations.map (ObservationStore.relabel observationId now outcome) } := by
  refine { view with observations := ?_, ids := ?_, distinct := ?_ }
  · rw [own_relabel, own_relabel, view.observations]
  · rw [map_relabel_id, map_relabel_id]
    exact view.ids
  · rw [map_relabel_id, map_relabel_id]
    exact view.distinct

/-- An outcome of another workspace's observation. -/
theorem SharedView.relabel_other (view : SharedView workspaceId s t) (observationId now : String)
    (outcome : OutcomeSignal × Option String)
    (other : ∀ row ∈ s.observations, row.observationId = observationId →
      row.workspaceId ≠ workspaceId) :
    SharedView workspaceId
      { s with observations := s.observations.map (ObservationStore.relabel observationId now outcome) }
      t := by
  refine { view with observations := ?_, ids := ?_, distinct := ⟨?_, view.distinct.2⟩ }
  · rw [← view.observations]
    refine @map_unseen _ _ StoredObservation.observationId _ _ observationId _
      (fun row mem here => decide_eq_false (other row mem here)) (fun row apart => if_neg apart) ?_
    intro row
    rw [relabel_workspace]
  · rw [map_relabel_id]
    exact view.ids
  · rw [map_relabel_id]
    exact view.distinct.1

/-- An assignment in both. -/
theorem SharedView.assign (view : SharedView workspaceId s t) {row : StrategyAssignment}
    (fresh : row.runId ∉ s.assignments.map (·.runId)) (decodes : row.Decodes) :
    SharedView workspaceId { s with assignments := s.assignments ++ [row] }
      { t with assignments := t.assignments ++ [row] } := by
  have absent : row.runId ∉ t.assignments.map (·.runId) := fun mem => by
    obtain ⟨other, here, same⟩ := List.mem_map.mp mem
    exact fresh (List.mem_map.mpr ⟨other, view.rows other here, same⟩)
  refine { view with assignments := ?_, rows := ?_, runs := ⟨?_, ?_⟩, decodes := ?_ }
  · have same := view.assignments
    unfold ownAssignments at same ⊢
    rw [List.filter_append, List.filter_append, same]
  · intro other mem
    rw [List.mem_append] at mem ⊢
    exact mem.imp_left (view.rows other)
  · exact nodup_concat fresh view.runs.1
  · exact nodup_concat absent view.runs.2
  · intro other mem
    rcases List.mem_append.mp mem with before | new
    · exact view.decodes other before
    · rw [List.mem_singleton.mp new]
      exact decodes

/-- An assignment of another workspace. -/
theorem SharedView.assign_other (view : SharedView workspaceId s t) {row : StrategyAssignment}
    (fresh : row.runId ∉ s.assignments.map (·.runId)) (decodes : row.Decodes)
    (other : row.workspaceId ≠ workspaceId) :
    SharedView workspaceId { s with assignments := s.assignments ++ [row] } t := by
  refine { view with assignments := ?_, rows := ?_, runs := ⟨?_, view.runs.2⟩, decodes := ?_ }
  · rw [← view.assignments, ownAssignments, ownAssignments, List.filter_append,
      List.filter_cons_of_neg (by simpa using other), List.filter_nil, List.append_nil]
  · intro other mem
    exact List.mem_append_left _ (view.rows other mem)
  · exact nodup_concat fresh view.runs.1
  · intro other mem
    rcases List.mem_append.mp mem with before | new
    · exact view.decodes other before
    · rw [List.mem_singleton.mp new]
      exact decodes

/-- A run that one workspace has is found among its assignments. -/
theorem assignmentOf_own {runId : String} {assignments : List StrategyAssignment}
    (distinct : (assignments.map (·.runId)).Nodup)
    (unshared : ∀ row ∈ assignments, row.runId = runId → row.workspaceId = workspaceId) :
    assignmentOf runId assignments = assignmentOf runId (ownAssignments workspaceId assignments) := by
  have seen : assignmentOf runId (ownAssignments workspaceId assignments) =
      (assignmentOf runId assignments).filter (·.workspaceId = workspaceId) :=
    @find?_seen _ _ _ StrategyAssignment.runId _ _ _ distinct
  rw [seen]
  cases found : assignmentOf runId assignments with
  | none => rfl
  | some row =>
      have here : row.runId = runId := by simpa using List.find?_some found
      have own := unshared row (List.mem_of_find?_eq_some found) here
      rw [Option.filter_some, if_pos (decide_eq_true own)]

theorem assignmentOf_none {runId : String} {assignments : List StrategyAssignment}
    (none : assignmentOf runId assignments = none) : runId ∉ assignments.map (·.runId) := by
  intro mem
  obtain ⟨row, mem, same⟩ := List.mem_map.mp mem
  exact List.find?_eq_none.mp none row mem (decide_eq_true same)

theorem within_runId (call : AssignmentCall) : (call.within workspaceId).runId = call.runId := by
  cases call <;> rfl

theorem within_workspace (call : AssignmentCall) (rows : List StrategyAssignment) :
    ((call.within workspaceId).row digest rows).workspaceId = workspaceId := by
  cases call <;> rfl

theorem within_decodes {assignment : AssignmentCall}
    (readable : ∀ row, assignment = .assignStrategy row → row.Decodes)
    (rows : List StrategyAssignment) :
    ((assignment.within workspaceId).row digest rows).Decodes := by
  cases assignment with
  | assignStrategy row => exact readable row rfl
  | assignBalancedExploration call => exact ⟨rfl, rfl⟩

/-- An assignment that the workspace asks for. -/
theorem assign_kept (view : SharedView workspaceId s t) {assignment : AssignmentCall}
    (unshared : ∀ row ∈ s.assignments, row.runId = assignment.runId →
      row.workspaceId = workspaceId)
    (readable : ∀ row, assignment = .assignStrategy row → row.Decodes) :
    (performAssignment digest s.assignments ⟨assignment.within workspaceId, none⟩).1 =
        (performAssignment digest t.assignments ⟨assignment.within workspaceId, none⟩).1 ∧
      SharedView workspaceId
        { s with assignments :=
            (performAssignment digest s.assignments ⟨assignment.within workspaceId, none⟩).2 }
        { t with assignments :=
            (performAssignment digest t.assignments ⟨assignment.within workspaceId, none⟩).2 } := by
  have same : assignmentOf assignment.runId s.assignments =
      assignmentOf assignment.runId t.assignments := by
    rw [assignmentOf_own view.runs.1 unshared, view.assignments, ← assignmentOf_own view.runs.2]
    exact fun row mem => unshared row (view.rows row mem)
  have row : (assignment.within workspaceId).row digest s.assignments =
      (assignment.within workspaceId).row digest t.assignments := by
    rw [row_own, view.assignments, ← row_own]
  rw [performAssignment_answer, performAssignment_answer, within_runId, ← same, ← row]
  cases (assignment.within workspaceId).refusal with
  | some e => exact ⟨rfl, view⟩
  | none =>
      cases found : assignmentOf assignment.runId s.assignments with
      | some existing => exact ⟨rfl, view⟩
      | none =>
          dsimp only
          split
          · refine ⟨rfl, view.assign ?_ (within_decodes readable _)⟩
            rw [row_runId, within_runId]
            exact assignmentOf_none found
          · exact ⟨rfl, view⟩

/-- An assignment that another workspace asks for. -/
theorem assign_dropped (view : SharedView workspaceId s t) {assignment : AssignmentCall}
    {other : String} (apart : other ≠ workspaceId)
    (readable : ∀ row, assignment = .assignStrategy row → row.Decodes) :
    SharedView workspaceId
      { s with assignments :=
          (performAssignment digest s.assignments ⟨assignment.within other, none⟩).2 } t := by
  rw [performAssignment_answer, within_runId]
  cases (assignment.within other).refusal with
  | some e => exact view
  | none =>
      cases found : assignmentOf assignment.runId s.assignments with
      | some existing => exact view
      | none =>
          dsimp only
          split
          · refine view.assign_other ?_ (within_decodes readable _) ?_
            · rw [row_runId, within_runId]
              exact assignmentOf_none found
            · rw [within_workspace]
              exact apart
          · exact view

/-- **What one call does** to what a workspace sees. -/
theorem viewed_observations : Viewed (answerObservation (H := H) scoring mining cases digest)
    (fun db call => call.Admitted db) (mattersTo workspaceId) (·.workspaceId = workspaceId)
    (SharedView workspaceId) where
  seen_keep := by
    intro call own
    rw [mattersTo, own, Bool.true_or]
  kept := by
    rintro s t ⟨asks, request⟩ view admitted keep
    have own : ObservationCall.storesUnder ⟨asks, request⟩ = none → asks = workspaceId := by
      intro none
      rw [mattersTo, none] at keep
      simpa using keep
    cases request with
    | create observationId now given =>
        have absent : observationId ∉ t.observations.map (·.observationId) := fun mem =>
          admitted (view.ids _ mem)
        dsimp only [answerObservation]
        rw [create_fresh admitted, create_fresh absent]
        cases built : (given.within asks).row observationId now with
        | error e => exact ⟨fun _ => rfl, view⟩
        | ok row =>
            refine ⟨fun _ => rfl, view.create ?_⟩
            rw [(NewObservation.row_ok built).1]
            exact admitted
    | list taskKind limit =>
        obtain rfl := own rfl
        dsimp only [answerObservation]
        rw [list_own, view.observations, ← list_own]
        exact ⟨fun _ => rfl, view⟩
    | recordOutcome observationId signal evidence now =>
        obtain rfl := own rfl
        dsimp only [answerObservation]
        rw [recordEndpoint_own view.distinct.1, recordEndpoint_own view.distinct.2,
          view.observations]
        cases ObservationStore.get observationId (ownObservations asks t.observations) with
        | none => exact ⟨fun _ => rfl, view⟩
        | some row =>
            cases ObservationStore.checkOutcome signal evidence with
            | error e => exact ⟨fun _ => rfl, view⟩
            | ok outcome => exact ⟨fun _ => rfl, view.relabel observationId now outcome⟩
    | advise taskKind =>
        obtain rfl := own rfl
        dsimp only [answerObservation]
        rw [advice_own, view.observations, ← advice_own]
        exact ⟨fun _ => rfl, view⟩
    | patterns taskKind strategyIds =>
        obtain rfl := own rfl
        dsimp only [answerObservation]
        rw [patterns_own, view.observations, ← patterns_own]
        exact ⟨fun _ => rfl, view⟩
    | assign assignment =>
        obtain rfl := own rfl
        obtain ⟨same, after⟩ := assign_kept view admitted.1 admitted.2
        exact ⟨fun _ => congrArg ObservationReply.assigned same, after⟩
    | assignment runId =>
        obtain rfl := own rfl
        have decodes : ∀ row ∈ t.assignments, row.Decodes := fun row mem =>
          view.decodes row (view.rows row mem)
        dsimp only [answerObservation]
        rw [assignmentEndpoint_own view.runs.1 view.decodes,
          assignmentEndpoint_own view.runs.2 decodes, view.assignments]
        exact ⟨fun _ => rfl, view⟩
    | candidates registry =>
        obtain rfl := own rfl
        dsimp only [answerObservation]
        rw [candidates_own, view.observations, ← candidates_own]
        exact ⟨fun _ => rfl, view⟩
  dropped := by
    rintro s t ⟨asks, request⟩ view admitted drop
    rw [mattersTo, Bool.or_eq_false_iff, decide_eq_false_iff_not, decide_eq_false_iff_not] at drop
    obtain ⟨apart, stores⟩ := drop
    cases request with
    | create observationId now given =>
        dsimp only [answerObservation]
        rw [create_fresh admitted]
        cases built : (given.within asks).row observationId now with
        | error e => exact view
        | ok row =>
            refine view.create_other ?_ fun same => stores ?_
            · rw [(NewObservation.row_ok built).1]
              exact admitted
            · dsimp only [ObservationCall.storesUnder]
              rw [built, ← same]
              rfl
    | recordOutcome observationId signal evidence now =>
        dsimp only [answerObservation]
        rw [recordEndpoint_own view.distinct.1]
        cases found : ObservationStore.get observationId (ownObservations asks s.observations) with
        | none => exact view
        | some row =>
            cases ObservationStore.checkOutcome signal evidence with
            | error e => exact view
            | ok outcome =>
                refine view.relabel_other observationId now outcome fun other mem same => ?_
                have here : row.observationId = observationId := by
                  simpa using List.find?_some found
                obtain ⟨there, ours⟩ := List.mem_filter.mp (List.mem_of_find?_eq_some found)
                have one := List.inj_on_of_nodup_map view.distinct.1 mem there (same.trans here.symm)
                rw [one, of_decide_eq_true ours]
                exact apart
    | assign assignment => exact assign_dropped view apart admitted.2
    | list | advise | patterns | assignment | candidates => exact view

/-- An observation is stored under the id with its white space folded. -/
theorem storesUnder_folds (stores : call.storesUnder = some workspaceId) :
    Text.join " " (Text.words call.workspaceId) = workspaceId := by
  obtain ⟨asks, request⟩ := call
  cases request with
  | create observationId now given =>
      dsimp only [ObservationCall.storesUnder] at stores
      obtain ⟨row, built, same⟩ := Option.map_eq_some_iff.mp stores
      cases read : (given.within asks).row observationId now with
      | error e =>
          rw [read] at built
          cases built
      | ok row' =>
          rw [read] at built
          cases built
          rw [← same]
          exact requiredText_folds (NewObservation.row_ok read).2.2
  | list | recordOutcome | advise | patterns | assign | assignment | candidates => cases stores

variable (scoring mining cases digest workspaceId) in
/-- **A workspace sees its own observations.** What it is answered in a store that others use too is
what it is answered where the others only make the calls that store under its id; and where no other
id becomes its own when white space is folded, what it is answered alone. -/
theorem store_shared_exact (calls : List (ObservationCall H))
    (admitted : Throughout (answerObservation scoring mining cases digest)
      (fun db call => call.Admitted db) ⟨[], []⟩ calls) :
    (replies (answerObservation scoring mining cases digest) ⟨[], []⟩ calls).filter
          (fun entry => entry.1.workspaceId = workspaceId) =
        (replies (answerObservation scoring mining cases digest) ⟨[], []⟩
          (calls.filter (mattersTo workspaceId))).filter
            (fun entry => entry.1.workspaceId = workspaceId) ∧
      ((∀ call ∈ calls, Text.join " " (Text.words call.workspaceId) = workspaceId →
          call.workspaceId = workspaceId) →
        (replies (answerObservation scoring mining cases digest) ⟨[], []⟩ calls).filter
            (fun entry => entry.1.workspaceId = workspaceId) =
          replies (answerObservation scoring mining cases digest) ⟨[], []⟩
            (calls.filter (·.workspaceId = workspaceId))) := by
  have start : SharedView workspaceId ⟨[], []⟩ ⟨[], []⟩ :=
    { observations := rfl
      assignments := rfl
      ids := fun _ mem => mem
      rows := fun _ mem => mem
      distinct := ⟨List.nodup_nil, List.nodup_nil⟩
      runs := ⟨List.nodup_nil, List.nodup_nil⟩
      decodes := by simp }
  have purged := replies_purge (@viewed_observations S H _ scoring mining cases digest workspaceId)
    start admitted
  refine ⟨purged, fun apart => ?_⟩
  have own : calls.filter (mattersTo workspaceId) =
      calls.filter (·.workspaceId = workspaceId) := by
    refine List.filter_congr fun call mem => ?_
    rw [mattersTo]
    by_cases same : call.workspaceId = workspaceId
    · rw [decide_eq_true same, Bool.true_or]
    · rw [decide_eq_false same, Bool.false_or, decide_eq_false_iff_not]
      exact fun stores => same (apart call mem (storesUnder_folds stores))
  rw [purged, own]
  refine List.filter_eq_self.mpr fun entry mem => ?_
  exact (List.mem_filter.mp (List.of_mem_zip mem).1).2

end

/-- A terminal run. -/
def terminalRun (runId : String) : NewObservation where
  workspaceId := .null
  runId := .str runId
  threadId := .str "t"
  taskKind := .str "data sync"
  approach := .str "graph_terminal"
  source := .str "server.run"

/-- Two workspaces; one tries to label an observation of the other. -/
def sharedCalls : List (ObservationCall Unit) :=
  [⟨"/a", .create "o1" "2026-01-01" (terminalRun "r1")⟩,
    ⟨"/b", .create "o2" "2026-01-02" (terminalRun "r2")⟩,
    ⟨"/b", .recordOutcome "o1" "accepted" .null "2026-01-03"⟩,
    ⟨"/a", .list none 100⟩]

theorem sharedCalls_new : "o2" ∉ (ObservationStore.create ((terminalRun "r1").within "/a") "o1"
    "2026-01-01" []).2.map (·.observationId) := by
  decide

theorem store_shared_exact_sample :
    (replies (answerObservation exactScoring exactCandidateScoring asciiCases fun _ => 0) ⟨[], []⟩
        sharedCalls).filter (fun entry => entry.1.workspaceId = "/a") =
      replies (answerObservation exactScoring exactCandidateScoring asciiCases fun _ => 0) ⟨[], []⟩
        (sharedCalls.filter (·.workspaceId = "/a")) :=
  (store_shared_exact exactScoring exactCandidateScoring asciiCases (fun _ => 0) "/a" sharedCalls
    ⟨List.not_mem_nil, sharedCalls_new, trivial, trivial, trivial⟩).2 (by decide)

/-! ### Candidates of a run -/

section

variable {S H : Type} [LinearOrder S] {scoring : Scoring S} {mining : CandidateScoring S}
  {cases : CaseTable} {digest : String → ℕ} {workspaceId observationId now : String}
  {rows : List StoredObservation}

open ObservationStore

/-- What creating leaves: the rows, or one more within its bounds. -/
theorem create_bounded {given : NewObservation} (bounded : ∀ row ∈ rows, row.Bounded) :
    (∀ row ∈ (create given observationId now rows).2, row.Bounded) ∧
      (create given observationId now rows).2.length ≤ rows.length + 1 := by
  unfold create
  cases built : given.row observationId now with
  | error e => exact ⟨bounded, Nat.le_succ _⟩
  | ok row =>
      dsimp only
      split
      · exact ⟨bounded, Nat.le_succ _⟩
      · refine ⟨fun other mem => ?_, by rw [List.length_append, List.length_singleton]⟩
        rcases List.mem_append.mp mem with before | new
        · exact bounded other before
        · rw [List.mem_singleton.mp new]
          exact (NewObservation.row_ok built).2.1

/-- The endpoint leaves the rows, or writes a label over some. -/
theorem recordEndpoint_rows {signal : String} {evidence : Json} :
    (recordObservationOutcomeEndpoint workspaceId observationId signal evidence now rows).2 = rows ∨
      ∃ outcome, (recordObservationOutcomeEndpoint workspaceId observationId signal evidence now
        rows).2 = rows.map (relabel observationId now outcome) := by
  have recorded : (recordOutcome observationId signal evidence now rows).2 = rows ∨
      ∃ outcome, (recordOutcome observationId signal evidence now rows).2 =
        rows.map (relabel observationId now outcome) := by
    unfold recordOutcome
    cases checkOutcome signal evidence with
    | error e => exact .inl rfl
    | ok outcome => exact .inr ⟨outcome, rfl⟩
  unfold recordObservationOutcomeEndpoint
  dsimp only
  split
  · exact .inl rfl
  · split
    · exact .inl rfl
    · generalize recordOutcome observationId signal evidence now rows = result at recorded ⊢
      obtain ⟨answer, written⟩ := result
      rcases answer with e | ⟨⟩ | updated <;> exact recorded

theorem relabel_bounded {outcome : OutcomeSignal × Option String} {row : StoredObservation}
    (bounded : row.Bounded) : (relabel observationId now outcome row).Bounded := by
  unfold relabel
  split
  · exact ⟨bounded.taskKind, bounded.taskSignature, bounded.runId⟩
  · exact bounded

/-- A call keeps the bounds, and adds one row at most. -/
theorem answer_bounded {db : ObservationDb} {call : ObservationCall H}
    (bounded : ∀ row ∈ db.observations, row.Bounded) :
    (∀ row ∈ (answerObservation scoring mining cases digest db call).2.observations,
        row.Bounded) ∧
      (answerObservation scoring mining cases digest db call).2.observations.length ≤
        db.observations.length + 1 := by
  obtain ⟨asks, request⟩ := call
  cases request with
  | create observationId now given => exact create_bounded bounded
  | recordOutcome observationId signal evidence now =>
      dsimp only [answerObservation]
      rcases @recordEndpoint_rows asks observationId now db.observations signal evidence with
        same | ⟨outcome, written⟩
      · rw [same]
        exact ⟨bounded, Nat.le_succ _⟩
      · rw [written, List.length_map]
        refine ⟨fun row mem => ?_, Nat.le_succ _⟩
        obtain ⟨before, here, rfl⟩ := List.mem_map.mp mem
        exact relabel_bounded (bounded before here)
  | list | advise | patterns | assign | assignment | candidates => exact ⟨bounded, Nat.le_succ _⟩

/-- So does a run. -/
theorem serve_bounded {db : ObservationDb} {calls : List (ObservationCall H)}
    (bounded : ∀ row ∈ db.observations, row.Bounded) :
    (∀ row ∈ (serve (answerObservation scoring mining cases digest) db calls).2.observations,
        row.Bounded) ∧
      (serve (answerObservation scoring mining cases digest) db calls).2.observations.length ≤
        db.observations.length + calls.length := by
  induction calls generalizing db with
  | nil => exact ⟨bounded, Nat.le_refl _⟩
  | cons call calls ih =>
      obtain ⟨first, more⟩ := @answer_bounded S H _ scoring mining cases digest db call bounded
      obtain ⟨all, length⟩ := ih first
      refine ⟨all, length.trans ?_⟩
      rw [List.length_cons]
      omega

variable (scoring mining cases digest workspaceId) in
/-- **What is proposed after a run** of calls, fewer than SQLite has rows: the buckets that qualify,
each once and in order, under names that are one component of a path. A candidate passes as input
for authoring exactly where its slug has 97 characters at most, as every ASCII kind has; and a skill
that is registered takes out those that suggest one of its words. -/
theorem skill_candidates_exact (registry : SkillRegistry H) (calls : List (ObservationCall H))
    (few : calls.length < 2 ^ 63) :
    let rows := (serve (answerObservation scoring mining cases digest) ⟨[], []⟩
      calls).2.observations
    ∃ candidates, mineSkillCandidates mining cases registry workspaceId 3 mining.minimum rows =
        .ok candidates ∧
      candidates.Pairwise (·.key ≤ ·.key) ∧
      (candidates.map fun c => (c.taskKind, c.signature)).Nodup ∧
      (∀ candidate, candidate ∈ candidates ↔ ∃ bucket,
        Qualifies mining cases registry workspaceId rows bucket ∧
          candidate = bucketCandidate mining cases workspaceId rows bucket) ∧
      (∀ candidate ∈ candidates, IsCandidateName candidate.suggestedSkillName ∧
        (∀ candidateId, candidate.isAuthoringInput mining candidateId = true ↔
          (1 ≤ candidateId.length ∧ candidateId.length ≤ 160) ∧
            (skillSlug cases candidate.taskKind).length ≤ 97) ∧
        ((∀ c ∈ candidate.taskKind.toList, c.toNat < 128) →
          (skillSlug cases candidate.taskKind).length ≤ 97)) ∧
      ∀ (registry' : SkillRegistry H) (skill : RegisteredSkill H),
        registry'.skills = registry.skills ++ [skill] →
        ∃ left, mineSkillCandidates mining cases registry' workspaceId 3 mining.minimum rows =
            .ok left ∧
          ∀ candidate, candidate ∈ left ↔
            candidate ∈ candidates ∧ candidate.suggestedSkillName ∉ skill.words := by
  intro rows
  obtain ⟨bounded, length⟩ := @serve_bounded S H _ scoring mining cases digest ⟨[], []⟩ calls
    (fun _ mem => by cases mem)
  have room : rows.length < 10 ^ 19 := by
    have length : rows.length ≤ 0 + calls.length := length
    omega
  obtain ⟨candidates, mined, ordered, once, exact_⟩ :=
    @mineSkillCandidates_spec S H _ mining cases registry workspaceId rows bounded
  refine ⟨candidates, mined, ordered, once, exact_, fun candidate mem => ?_, ?_⟩
  · obtain ⟨bucket, qualifies, rfl⟩ := (exact_ candidate).mp mem
    obtain ⟨⟨_, short⟩, valid⟩ := bucket_bounded bounded qualifies.mem
    refine ⟨suggestedSkillName_name valid, fun candidateId =>
      isAuthoringInput_iff bounded room qualifies, fun ascii => ?_⟩
    refine (length_skillSlug_le ascii).trans (max_le (by decide) ?_)
    exact short.trans (by decide)
  · intro registry' skill extends_
    obtain ⟨left, minedLeft, _, _, exactLeft⟩ :=
      @mineSkillCandidates_spec S H _ mining cases registry' workspaceId rows bounded
    refine ⟨left, minedLeft, fun candidate => ?_⟩
    rw [exactLeft, exact_]
    constructor
    · rintro ⟨bucket, qualifies, rfl⟩
      have new := qualifies.new
      rw [extends_] at new
      refine ⟨⟨bucket, ⟨qualifies.repeated, qualifies.good, fun other mem =>
        new other (List.mem_append_left _ mem)⟩, rfl⟩, ?_⟩
      exact new skill (List.mem_append_right _ (List.mem_singleton_self skill))
    · rintro ⟨⟨bucket, qualifies, rfl⟩, free⟩
      refine ⟨bucket, ⟨qualifies.repeated, qualifies.good, fun other mem => ?_⟩, rfl⟩
      rw [extends_] at mem
      rcases List.mem_append.mp mem with before | new
      · exact qualifies.new other before
      · rw [List.mem_singleton.mp new]
        exact free

end

theorem skill_candidates_exact_sample :
    ∃ candidates, mineSkillCandidates exactCandidateScoring asciiCases
        (SkillRegistry.empty : SkillRegistry Unit) "/a" 3 (3 / 4)
        (serve (answerObservation exactScoring exactCandidateScoring asciiCases fun _ => 0)
          ⟨[], []⟩ sharedCalls).2.observations = .ok candidates ∧
      candidates.Pairwise (·.key ≤ ·.key) := by
  obtain ⟨candidates, mined, ordered, _⟩ := skill_candidates_exact exactScoring
    exactCandidateScoring asciiCases (fun _ => 0) "/a" SkillRegistry.empty sharedCalls (by decide)
  exact ⟨candidates, mined, ordered⟩

end AgentOs
