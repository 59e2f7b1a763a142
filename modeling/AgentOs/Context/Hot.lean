import AgentOs.Context.Injected

/-!
Hot context (`hot_context.py`).

The notes that match the sources are read in turn, and those that are old or empty are passed over.
The loop that frames the rest is `gather` over their frames (`gatherNotes_eq`), so that a cut frame
is the last one.

`context_budgets_exact` says of both loaders what they return within a budget.
-/

namespace AgentOs

open AgentOs.Lib

/-- What is read of a note. -/
structure HotNote where
  content : String
  effectiveDate : Option String := none
  updated : Option String := none
  created : Option String := none

/-- A memory connector, with what it and the clock say of the age of a note. -/
structure HotConnector where
  name : String
  /-- the refs of the notes, where they have one -/
  listNotes : Except String (List (Option String))
  readNote : String → Except String HotNote
  /-- Is there a file of the note that was last written more than so many days ago? -/
  fileTooOld : Int → String → Bool
  /-- Is the text a date more than so many days ago? -/
  dateTooOld : Int → String → Bool

/-- The sources where none are given. -/
def hotSources : List String :=
  ["system.md", "invariants.md", "goals.md", "hot.md", "AI/Memory/*.md"]

section

variable (fnmatch : String → String → Bool) (connector : HotConnector) (maxChars maxAgeDays : Int)

/-- A note that matches a source, after the refs that matched before. -/
def matchNote (src : String) (matchingRefs : List String) (note : Option String) : List String :=
  let ref := note.getD ""
  if ref = "" then matchingRefs
  else if fnmatch ref src = true ∧ ref ∉ matchingRefs then matchingRefs ++ [ref]
  else matchingRefs

/-- `matching_refs` -/
def matchingRefs (sources : List String) (notes : List (Option String)) : List String :=
  sources.foldl (fun refs src => notes.foldl (matchNote fnmatch src) refs) []

/-- `is_too_old` -/
def isTooOld (ref : String) (note : HotNote) : Bool :=
  if connector.name = "markdown_vault" then connector.fileTooOld maxAgeDays ref
  else
    match note.effectiveDate.filter (· ≠ "") <|> note.updated.filter (· ≠ "") <|>
        note.created.filter (· ≠ "") with
    | some dateStr => connector.dateTooOld maxAgeDays dateStr
    | none => false

/-- The frame of a note. -/
def hotPart (ref content : String) : String :=
  "--- BEGIN " ++ ref ++ " ---\n" ++ content ++ "\n--- END " ++ ref ++ " ---\n"

/-- The notes in turn. -/
def gatherNotes : Gathered → List String → Gathered
  | g, [] => g
  | g, ref :: refs =>
      if g.currentChars ≥ maxChars then g
      else
        match connector.readNote ref with
        | .error _ => gatherNotes g refs
        | .ok note =>
            if isTooOld connector maxAgeDays ref note then gatherNotes g refs
            else if note.content = "" then gatherNotes g refs
            else
              let part := hotPart ref note.content
              let remainingChars := g.remaining maxChars
              if remainingChars ≤ 0 then g
              else
                let part := if part.length > remainingChars then Text.sliceTo part remainingChars
                  else part
                gatherNotes (g.add part) refs

/-- `load_hot_context` -/
def loadHotContext (sources : Option (List String)) : String :=
  match connector.listNotes with
  | .error _ => ""
  | .ok allNotes =>
      (gatherNotes connector maxChars maxAgeDays {}
        (matchingRefs fnmatch (sources.getD hotSources) allNotes)).text

/-! ### What is shown -/

/-- Does a ref match a source? -/
def refMatches (src ref : String) : Bool := ref ≠ "" && fnmatch ref src

/-- The refs that match the sources, each where it matches first. -/
def hotRefs (sources : List String) (notes : List (Option String)) : List String :=
  (sources.flatMap fun src =>
    (notes.map (·.getD "")).filter (refMatches fnmatch src)).eraseDups

/-- The content of a note that is shown: it can be read, and is neither old nor empty. -/
def shownContent (ref : String) : Option String :=
  match connector.readNote ref with
  | .error _ => none
  | .ok note =>
      if isTooOld connector maxAgeDays ref note then none
      else if note.content = "" then none
      else some note.content

/-- The frames of the refs that are shown. -/
def hotParts (refs : List String) : List String :=
  refs.filterMap fun ref => (shownContent connector maxAgeDays ref).map (hotPart ref)

end

section

variable {fnmatch : String → String → Bool} {connector : HotConnector} {maxChars maxAgeDays : Int}

theorem hotPart_ne_empty (ref content : String) : hotPart ref content ≠ "" := by
  intro none
  have head := congrArg String.toList none
  simp only [hotPart, String.toList_append] at head
  cases head

theorem hotParts_some {refs : List String} :
    ∀ part ∈ hotParts connector maxAgeDays refs, part ≠ "" := by
  intro part mem
  obtain ⟨ref, _, shown⟩ := List.mem_filterMap.mp mem
  obtain ⟨content, _, rfl⟩ := Option.map_eq_some_iff.mp shown
  exact hotPart_ne_empty ref content

/-- The loop gathers the frames of the notes that are shown. -/
theorem gatherNotes_eq {g : Gathered} {refs : List String} :
    gatherNotes connector maxChars maxAgeDays g refs =
      Gathered.gather maxChars g (hotParts connector maxAgeDays refs) := by
  induction refs generalizing g with
  | nil => rfl
  | cons ref refs ih =>
      have parts : hotParts connector maxAgeDays (ref :: refs) =
          ((shownContent connector maxAgeDays ref).map (hotPart ref)).toList ++
            hotParts connector maxAgeDays refs := by
        unfold hotParts
        rw [List.filterMap_cons]
        cases (shownContent connector maxAgeDays ref).map (hotPart ref) <;> rfl
      rw [gatherNotes, parts]
      split
      · rename_i full
        exact (Gathered.gather_full full).symm
      unfold shownContent
      cases connector.readNote ref with
      | error exc => exact ih
      | ok note =>
          dsimp only
          split
          · exact ih
          split
          · exact ih
          · rename_i notFull _ _
            rw [Option.map_some, Option.toList_some, List.singleton_append, Gathered.gather_cons,
              if_neg notFull, ih]

/-- One more ref, unless it is among those before it. -/
theorem eraseDups_append_singleton (seen : List String) (ref : String) :
    (seen ++ [ref]).eraseDups = if ref ∈ seen then seen.eraseDups else seen.eraseDups ++ [ref] := by
  rw [List.eraseDups_append, List.removeAll, List.filter_cons, List.filter_nil]
  split
  · rename_i new
    rw [if_neg (by simpa using new)]
    rfl
  · rename_i old
    rw [if_pos (by simpa using old)]
    exact List.append_nil _

theorem matchNote_eq {src : String} {seen : List String} {note : Option String} :
    matchNote fnmatch src seen.eraseDups note =
      if refMatches fnmatch src (note.getD "") then (seen ++ [note.getD ""]).eraseDups
      else seen.eraseDups := by
  simp only [matchNote, refMatches, eraseDups_append_singleton, List.mem_eraseDups]
  by_cases empty : note.getD "" = ""
  · simp only [empty, ne_eq, not_true_eq_false, decide_false, Bool.false_and, Bool.false_eq_true,
      if_true, if_false]
  · simp only [empty, ne_eq, not_false_eq_true, decide_true, Bool.true_and, if_false]
    by_cases old : note.getD "" ∈ seen
    · simp only [old, not_true_eq_false, and_false, if_true, if_false, ite_self]
    · simp only [old, not_false_eq_true, and_true, if_false]

/-- A source adds the refs that match it. -/
theorem foldl_matchNote {src : String} {seen : List String} {notes : List (Option String)} :
    notes.foldl (matchNote fnmatch src) seen.eraseDups =
      (seen ++ (notes.map (·.getD "")).filter (refMatches fnmatch src)).eraseDups := by
  induction notes generalizing seen with
  | nil => rw [List.foldl_nil, List.map_nil, List.filter_nil, List.append_nil]
  | cons note notes ih =>
      rw [List.foldl_cons, List.map_cons, List.filter_cons, matchNote_eq]
      split
      · rw [ih, List.append_assoc]
        rfl
      · exact ih

theorem matchingRefs_eq {sources : List String} {notes : List (Option String)} :
    matchingRefs fnmatch sources notes = hotRefs fnmatch sources notes := by
  have all : ∀ seen, sources.foldl (fun refs src => notes.foldl (matchNote fnmatch src) refs)
      seen.eraseDups = (seen ++ sources.flatMap fun src =>
        (notes.map (·.getD "")).filter (refMatches fnmatch src)).eraseDups := by
    induction sources with
    | nil => exact fun seen => by rw [List.foldl_nil, List.flatMap_nil, List.append_nil]
    | cons src sources ih =>
        intro seen
        rw [List.foldl_cons, foldl_matchNote, ih, List.flatMap_cons, List.append_assoc]
  exact all []

theorem eraseDups_nodup (refs : List String) : refs.eraseDups.Nodup := by
  induction refs using List.reverseRecOn with
  | nil => exact List.nodup_nil
  | append_singleton refs ref ih =>
      rw [eraseDups_append_singleton]
      split
      · exact ih
      · rename_i new
        refine List.nodup_append.mpr ⟨ih, List.nodup_cons.mpr ⟨List.not_mem_nil, List.nodup_nil⟩,
          fun a mem b mem' same => new ?_⟩
        rw [← List.mem_singleton.mp mem', ← same]
        exact List.mem_eraseDups.mp mem

/-- What the loader returns: the frames of the distinct matching refs within the budget. -/
theorem loadHotContext_framed {sources : Option (List String)} (budget : 0 ≤ maxChars) :
    ((loadHotContext fnmatch connector maxChars maxAgeDays sources).length : Int) ≤ maxChars ∧
      ∀ notes, connector.listNotes = .ok notes → ∃ written,
        loadHotContext fnmatch connector maxChars maxAgeDays sources = Text.join "\n" written ∧
          Gathered.WrittenWithin maxChars
            (hotParts connector maxAgeDays (hotRefs fnmatch (sources.getD hotSources) notes))
            written := by
  have gathered := fun refs => @Gathered.gather_start maxChars _ budget
    (@hotParts_some connector maxAgeDays refs)
  unfold loadHotContext
  constructor
  · cases connector.listNotes with
    | error exc => exact budget
    | ok notes =>
        dsimp only
        rw [gatherNotes_eq]
        exact (gathered _).1
  · intro notes listed
    rw [listed]
    dsimp only
    rw [gatherNotes_eq, matchingRefs_eq]
    exact ⟨_, rfl, (gathered _).2⟩

end

/-- Within every budget, the injected context is joined from complete frames, and the hot context
from the frames of the distinct refs that match and are shown, in the order of the sources, of which
only the last may be cut. -/
theorem context_budgets_exact (maxChars : ℕ) :
    (∀ (V : Type) (reading : ValueReading V) (world : ContextWorld) (call : ContextCall)
        (providers : List (ContextProvider V)),
      let text := (loadInjectedContext reading world { call with maxChars } providers).1
      text.length ≤ maxChars ∧ ∃ frames : List ContextFrame,
        text = Text.join "\n" (frames.map ContextFrame.text) ∧
          ∀ f ∈ frames, ∃ block,
            ReturnedBy reading world { call with maxChars } providers block ∧ f.Shows block) ∧
    ∀ (fnmatch : String → String → Bool) (connector : HotConnector) (maxAgeDays : Int)
        (sources : Option (List String)),
      let text := loadHotContext fnmatch connector maxChars maxAgeDays sources
      text.length ≤ maxChars ∧ ∀ notes, connector.listNotes = .ok notes →
        let refs := hotRefs fnmatch (sources.getD hotSources) notes
        refs.Nodup ∧ ∃ written, text = Text.join "\n" written ∧
          Gathered.WrittenWithin maxChars (hotParts connector maxAgeDays refs) written := by
  constructor
  · intro V reading world call providers
    obtain ⟨fits, frames⟩ := @loadInjectedContext_framed { call with maxChars } _ reading world
      providers (Int.natCast_nonneg maxChars)
    exact ⟨Int.ofNat_le.mp fits, frames⟩
  · intro fnmatch connector maxAgeDays sources
    obtain ⟨fits, shown⟩ := @loadHotContext_framed fnmatch connector _ maxAgeDays sources
      (Int.natCast_nonneg maxChars)
    exact ⟨Int.ofNat_le.mp fits, fun notes listed => ⟨eraseDups_nodup _, shown notes listed⟩⟩

end AgentOs
