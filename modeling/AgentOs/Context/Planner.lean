import AgentOs.Context.Injected
import AgentOs.Graph.Nodes

/-!
The context that the planner stores (`nodes/planner.py`).

The injected context keeps to the limit by itself, and is put behind the context that the state has
already; then both are cut to the same limit. `cut_leaves_frame_open`: the cut can fall into a
frame. `planner_frames_complete_iff` says where it does: between the start of a header and the end
of its footer.
-/

namespace AgentOs

open AgentOs.Lib

section

variable {V : Type} (reading : ValueReading V)

/-- The composed workspace that the planner finds. -/
structure PlannerRuntime (V : Type) where
  contextProviders : List (ContextProvider V)
  /-- `int` of the `max_chars` of the workspace, if it is a number -/
  maxChars : Option Int := some 8000
  policy : Option PolicyPlugin := none
  world : ContextWorld

/-- The call of `load_injected_context` for a task. -/
def plannerCall (runtime : PlannerRuntime V) (maxChars : Int) (state : SimonState) : ContextCall where
  task := state.task
  maxChars := maxChars
  policy := runtime.policy
  runId := state.runId

/-- What is loaded for a task. -/
def loadForTask (runtime : Option (PlannerRuntime V)) (state : SimonState) :
    Option InjectedContext := do
  let runtime ← runtime
  let maxChars ← runtime.maxChars
  if runtime.contextProviders = [] then none
  else
    some ⟨(loadInjectedContext reading runtime.world (plannerCall runtime maxChars state)
      runtime.contextProviders).1, maxChars⟩

/-- `_sync_planner_logic`, which loads nothing inside a running event loop. -/
def syncPlannerLogic (loopRunning : Bool) (runtime : Option (PlannerRuntime V))
    (state : SimonState) : StateUpdate :=
  plannerNode (if loopRunning then none else loadForTask reading runtime state) state

/-- `_async_planner_logic` -/
def asyncPlannerLogic (runtime : Option (PlannerRuntime V)) (state : SimonState) : StateUpdate :=
  plannerNode (loadForTask reading runtime state) state

/-- How the planner node is called. -/
inductive PlannerPath where
  | sync (loopRunning : Bool)
  | async
deriving DecidableEq, Repr

def PlannerPath.logic (path : PlannerPath) (runtime : Option (PlannerRuntime V))
    (state : SimonState) : StateUpdate :=
  match path with
  | .sync loopRunning => syncPlannerLogic reading loopRunning runtime state
  | .async => asyncPlannerLogic reading runtime state

/-- Does the planner load context? -/
def PlannerPath.loads : PlannerPath → Bool
  | .sync loopRunning => !loopRunning
  | .async => true

/-- The frames that `load_injected_context` writes within a limit. -/
def PlannerRuntime.parts (runtime : PlannerRuntime V) (maxChars : Int) (state : SimonState) :
    List String :=
  if runtime.contextProviders = [] ∨ maxChars ≤ 0 then []
  else
    (askProviders reading runtime.world (plannerCall runtime maxChars state) {}
      runtime.contextProviders).gathered.contentParts

end

/-! ### Where a frame stands -/

/-- What stands in front of the injected context. -/
def existingLead (existing : String) : String := if existing = "" then "" else existing ++ "\n\n"

/-- What stands in front of a frame: the existing context, and the frames before. -/
def frameOpening (existing : String) (before : List String) : String :=
  existingLead existing ++ String.join (before.map (· ++ "\n"))

/-- Of every frame whose header is begun, the text has all up to the end of the footer. -/
def FramesComplete (parts : List String) (existing stored : String) : Prop :=
  ∀ before (f : ContextFrame) after, parts = before ++ f.text :: after →
    (frameOpening existing before ++ "--- BEGIN CONTEXT").toList <+: stored.toList →
      (frameOpening existing before ++ f.body).toList <+: stored.toList

/-- A frame of which the first 17 characters lie in front of the limit, and not all up to its last
newline. -/
def CutInFrame (parts : List String) (existing : String) (maxChars : Int) : Prop :=
  ∃ before part after, parts = before ++ part :: after ∧
    (frameOpening existing before).length + 17 ≤ maxChars ∧
      maxChars < (frameOpening existing before).length + part.length - 1

theorem join_append_cons (before : List String) (part : String) (after : List String) :
    ∃ rest, Text.join "\n" (before ++ part :: after) =
      String.join (before.map (· ++ "\n")) ++ part ++ rest := by
  induction before with
  | nil =>
      rw [List.nil_append, List.map_nil, String.join_nil, String.empty_append]
      cases after with
      | nil => exact ⟨"", by rw [Text.join, String.intercalate_singleton, String.append_empty]⟩
      | cons next after =>
          exact ⟨"\n" ++ Text.join "\n" (next :: after), by
            rw [Text.join, String.intercalate_cons_cons, Text.join, String.append_assoc]⟩
  | cons first before ih =>
      obtain ⟨rest, same⟩ := ih
      refine ⟨rest, ?_⟩
      have further : Text.join "\n" (first :: (before ++ part :: after)) =
          first ++ "\n" ++ Text.join "\n" (before ++ part :: after) := by
        cases before with
        | nil => rw [Text.join, List.nil_append, String.intercalate_cons_cons]; rfl
        | cons second before =>
            rw [Text.join, List.cons_append, String.intercalate_cons_cons]; rfl
      rw [List.cons_append, further, same, List.map_cons, String.join_cons]
      simp only [String.append_assoc]

/-- A frame stands behind its opening. -/
theorem frame_stands (existing : String) (before : List String) (part : String)
    (after : List String) : ∃ rest, existingLead existing ++ Text.join "\n" (before ++ part :: after) =
      frameOpening existing before ++ part ++ rest := by
  obtain ⟨rest, same⟩ := join_append_cons before part after
  refine ⟨rest, ?_⟩
  rw [same, frameOpening]
  simp only [String.append_assoc]

theorem contextHeader_begins (source : String) (title : Option String) :
    "--- BEGIN CONTEXT".toList <+: (contextHeader source title).toList := by
  have begins : "--- BEGIN CONTEXT".toList <+: "--- BEGIN CONTEXT [".toList := by decide
  cases title with
  | none =>
      rw [contextHeader_none, String.toList_append, String.toList_append, List.append_assoc]
      exact begins.trans (List.prefix_append _ _)
  | some title =>
      rw [contextHeader_some, String.toList_append, String.toList_append, String.toList_append,
        String.toList_append, List.append_assoc, List.append_assoc, List.append_assoc]
      exact begins.trans (List.prefix_append _ _)

/-- The text of a frame begins with its body, and the body with the header's first words. -/
theorem ContextFrame.begins (f : ContextFrame) :
    f.body.toList <+: f.text.toList ∧ "--- BEGIN CONTEXT".toList <+: f.body.toList := by
  constructor
  · rw [ContextFrame.text, String.toList_append]
    exact List.prefix_append _ _
  · refine (contextHeader_begins f.source f.title).trans ?_
    simp only [ContextFrame.body, String.toList_append, List.append_assoc]
    exact List.prefix_append _ _

theorem combineContext_eq (existing : Option String) (text : String) {maxChars : Int}
    (pos : 0 < maxChars) : (combineContext existing ⟨text, maxChars⟩).toList =
      (existingLead (existing.getD "") ++ text).toList.take maxChars.toNat := by
  unfold combineContext existingLead Text.sliceTo Text.take
  dsimp only
  rw [if_pos pos.le, String.toList_ofList]
  split
  · rw [String.empty_append]
  · rfl

/-- The combined text has every frame whole unless the limit falls into one. -/
theorem combine_complete_iff {parts : List String} {existing : Option String} {maxChars : Int}
    (pos : 0 < maxChars) (framed : ∀ part ∈ parts, ∃ f : ContextFrame, part = f.text) :
    FramesComplete parts (existing.getD "")
        (combineContext existing ⟨Text.join "\n" parts, maxChars⟩) ↔
      ¬ CutInFrame parts (existing.getD "") maxChars := by
  -- what the combined text begins with is kept where it ends in front of the limit
  have kept : ∀ {start : String},
      start.toList <+: (existingLead (existing.getD "") ++ Text.join "\n" parts).toList →
      (start.toList <+: (combineContext existing ⟨Text.join "\n" parts, maxChars⟩).toList ↔
        (start.length : Int) ≤ maxChars) := by
    intro start begins
    rw [combineContext_eq existing _ pos, List.prefix_take_iff, String.length_toList]
    constructor
    · rintro ⟨_, short⟩
      omega
    · exact fun short => ⟨begins, by omega⟩
  have stands : ∀ {before : List String} {f : ContextFrame} {after : List String} {start : String},
      parts = before ++ f.text :: after → start.toList <+: f.text.toList →
      ((frameOpening (existing.getD "") before ++ start).toList <+:
          (combineContext existing ⟨Text.join "\n" parts, maxChars⟩).toList ↔
        ((frameOpening (existing.getD "") before).length : Int) + start.length ≤ maxChars) := by
    intro before f after start split begins
    obtain ⟨rest, whole⟩ := frame_stands (existing.getD "") before f.text after
    rw [kept, String.length_append, Int.natCast_add]
    rw [split, whole, String.toList_append, String.toList_append, String.toList_append,
      List.append_assoc]
    exact List.prefix_append_right_inj _ |>.mpr (begins.trans (List.prefix_append _ _))
  have marker : ∀ {before : List String} {f : ContextFrame} {after : List String},
      parts = before ++ f.text :: after →
      ((frameOpening (existing.getD "") before ++ "--- BEGIN CONTEXT").toList <+:
          (combineContext existing ⟨Text.join "\n" parts, maxChars⟩).toList ↔
        ((frameOpening (existing.getD "") before).length : Int) + 17 ≤ maxChars) :=
    fun {_ f _} split => stands split (f.begins.2.trans f.begins.1)
  have length : ∀ f : ContextFrame, f.text.length = f.body.length + 1 := fun f => by
    rw [ContextFrame.text, String.length_append]
    rfl
  constructor
  · rintro complete ⟨before, part, after, split, begun, cut⟩
    obtain ⟨f, rfl⟩ := framed part (split ▸ List.mem_append_right _ List.mem_cons_self)
    have whole := (stands split f.begins.1).mp
      (complete before f after split ((marker split).mpr begun))
    have := length f
    omega
  · intro notCut before f after split begun
    refine (stands split f.begins.1).mpr (Int.not_lt.mp fun cut => notCut ?_)
    have := length f
    exact ⟨before, f.text, after, split, (marker split).mp begun, by omega⟩

/-- Where the combined text is within the limit, no frame is cut. -/
theorem not_cutInFrame_of_fits {parts : List String} {existing : String} {maxChars : Int}
    (fits : ((existingLead existing ++ Text.join "\n" parts).length : Int) ≤ maxChars) :
    ¬ CutInFrame parts existing maxChars := by
  rintro ⟨before, part, after, split, _, cut⟩
  obtain ⟨rest, whole⟩ := frame_stands existing before part after
  rw [split, whole, String.length_append, String.length_append] at fits
  omega

/-! ### The planner -/

section

variable {V : Type} {reading : ValueReading V} {runtime : PlannerRuntime V} {maxChars : Int}
  {state : SimonState}

theorem loadInjectedContext_parts :
    (loadInjectedContext reading runtime.world (plannerCall runtime maxChars state)
      runtime.contextProviders).1 = Text.join "\n" (runtime.parts reading maxChars state) := by
  unfold loadInjectedContext PlannerRuntime.parts
  by_cases idle : runtime.contextProviders = [] ∨ maxChars ≤ 0
  · rw [if_pos (show _ ∨ (plannerCall runtime maxChars state).maxChars ≤ 0 from idle), if_pos idle]
    rfl
  · rw [if_neg (show ¬ (_ ∨ (plannerCall runtime maxChars state).maxChars ≤ 0) from idle),
      if_neg idle]
    rfl

theorem parts_framed :
    ∀ part ∈ runtime.parts reading maxChars state, ∃ f : ContextFrame, part = f.text := by
  intro part mem
  unfold PlannerRuntime.parts at mem
  split at mem
  · cases mem
  · rename_i busy
    have budget : 0 ≤ (plannerCall runtime maxChars state).maxChars := by
      rw [not_or, Int.not_le] at busy
      exact busy.2.le
    obtain ⟨frames, parts, _⟩ := (@askProviders_inv _ (fun _ => True) _ _ reading runtime.world
      runtime.contextProviders (.start budget)
      fun _ _ => trivial).framed
    rw [parts] at mem
    obtain ⟨f, _, rfl⟩ := List.mem_map.mp mem
    exact ⟨f, rfl⟩

/-- Without text there are no frames. -/
theorem parts_nil (none : Text.join "\n" (runtime.parts reading maxChars state) = "") :
    runtime.parts reading maxChars state = [] := by
  refine List.eq_nil_iff_forall_not_mem.mpr fun part mem => ?_
  obtain ⟨f, rfl⟩ := parts_framed part mem
  have occurs := occurs_join "\n" mem
  rw [none] at occurs
  exact f.text_ne_empty (String.toList_eq_nil_iff.mp (List.eq_nil_of_infix_nil occurs))

theorem not_cutInFrame_nil {existing : String} : ¬ CutInFrame [] existing maxChars := by
  rintro ⟨before, part, after, split, _⟩
  exact absurd split.symm (List.append_ne_nil_of_right_ne_nil _ (List.cons_ne_nil _ _))

/-- With no context before it, the injected context has no frame that is cut. -/
theorem not_cutInFrame_fresh : ¬ CutInFrame (runtime.parts reading maxChars state) "" maxChars := by
  by_cases idle : maxChars ≤ 0
  · rw [PlannerRuntime.parts, if_pos (.inr idle)]
    exact not_cutInFrame_nil
  · refine not_cutInFrame_of_fits ?_
    have framed := (@loadInjectedContext_framed (plannerCall runtime maxChars state) _ reading
      runtime.world runtime.contextProviders (Int.not_le.mp idle).le).1
    rw [loadInjectedContext_parts] at framed
    rw [existingLead, if_pos rfl, String.empty_append]
    exact framed

/-- Every frame that the planner stores is complete, unless the limit falls into one; inside a
running event loop the synchronous planner stores none. -/
theorem planner_frames_complete_iff (reading : ValueReading V) (path : PlannerPath)
    (runtime : PlannerRuntime V) (maxChars : Int) (state : SimonState) :
    (∀ stored,
        (path.logic reading (some { runtime with maxChars := some maxChars }) state).hotContext =
          some (some stored) →
        FramesComplete (runtime.parts reading maxChars state) (state.hotContext.getD "") stored) ↔
      (path.loads = true →
        ¬ CutInFrame (runtime.parts reading maxChars state) (state.hotContext.getD "")
          maxChars) := by
  have logic : path.logic reading (some { runtime with maxChars := some maxChars }) state =
      plannerNode (if path.loads then loadForTask reading
        (some { runtime with maxChars := some maxChars }) state else none) state := by
    cases path with
    | sync loopRunning => cases loopRunning <;> rfl
    | async => rfl
  rw [logic]
  cases loads : path.loads with
  | false => exact ⟨fun _ is => (by cases is), fun _ stored is => (by cases is)⟩
  | true =>
      rw [if_pos rfl, forall_prop_of_true rfl]
      by_cases nothing : Text.join "\n" (runtime.parts reading maxChars state) = ""
      · -- without a text nothing is stored, and there are no frames
        rw [parts_nil nothing]
        refine ⟨fun _ => not_cutInFrame_nil, fun _ stored _ before f after split => ?_⟩
        exact absurd split.symm (List.append_ne_nil_of_right_ne_nil _ (List.cons_ne_nil _ _))
      have busy : ¬ (runtime.contextProviders = [] ∨ maxChars ≤ 0) := by
        intro idle
        rw [PlannerRuntime.parts, if_pos idle] at nothing
        exact nothing rfl
      rw [not_or, Int.not_le] at busy
      have loaded : loadForTask reading (some { runtime with maxChars := some maxChars }) state =
          some ⟨Text.join "\n" (runtime.parts reading maxChars state), maxChars⟩ := by
        rw [← loadInjectedContext_parts]
        exact if_neg busy.1
      have stores : (plannerNode (loadForTask reading
          (some { runtime with maxChars := some maxChars }) state) state).hotContext =
          some (some (combineContext state.hotContext
            ⟨Text.join "\n" (runtime.parts reading maxChars state), maxChars⟩)) := by
        rw [loaded]
        exact if_neg nothing
      rw [← combine_complete_iff busy.2 parts_framed, stores]
      constructor
      · exact fun complete => complete _ rfl
      · rintro complete stored same
        cases same
        exact complete

end

/-- A provider of ten letters, which takes no notice of its budget. -/
def lettersProvider : ContextProvider Empty where
  name := "notes"
  provide _ _ _ _ := .returned (.text "abcdefghij")

def lettersRuntime : PlannerRuntime Empty where
  contextProviders := [lettersProvider]
  maxChars := some 60
  world := ⟨fun _ => none, none, none⟩

/-- Nothing is read of a value where there is none. -/
def noValues : ValueReading Empty := ⟨Empty.elim, Empty.elim⟩

/-- The injected frame takes the whole limit, so that any existing context leaves it half-open. -/
theorem cut_leaves_frame_open : ∃ stored,
    (asyncPlannerLogic noValues (some lettersRuntime)
      { task := "review", hotContext := some "Ship it" }).hotContext = some (some stored) ∧
    (syncPlannerLogic noValues false (some lettersRuntime)
      { task := "review", hotContext := some "Ship it" }).hotContext = some (some stored) ∧
    Occurs (contextHeader "notes" none) stored ∧ ¬ Occurs (contextFooter "notes") stored := by
  refine ⟨"Ship it\n\n--- BEGIN CONTEXT [notes] ---\na\n--- END CONTEXT [no", ?_⟩
  refine ⟨?_, ?_, ?_, ?_⟩ <;> decide +kernel

end AgentOs
