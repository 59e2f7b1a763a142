import AgentOs.Connectors.VaultRebuild

/-!
The graph of the notes (`build_graph_data` and `get_graph_data`, `server/api.py`).

The endpoint lists notes, up to a limit, and draws an edge from a note to each other one that it
links to, by reference or by title. `note_graph_exact`: for a vault, the nodes are its first notes
and the edges are the links between them, each once.
-/

namespace AgentOs

open AgentOs.Lib

/-- What `list_notes` says of a note. -/
structure NoteListing where
  ref : String
  title : Option String
deriving DecidableEq, Repr

structure GraphNode where
  id : String
  title : String
  group : String
deriving DecidableEq, Repr

structure GraphData where
  nodes : List GraphNode := []
  edges : List (String × String) := []
deriving DecidableEq, Repr

/-- A note as a node; one without a reference is none. -/
def graphNode (note : NoteListing) : Option GraphNode :=
  if note.ref = "" then none
  else some
    { id := note.ref
      title := (note.title.filter (· ≠ "")).getD note.ref
      group := if '/' ∈ note.ref.toList then .ofList (note.ref.toList.takeWhile (· ≠ '/')) else "" }

section

variable (nodes : List GraphNode)

/-- `title_to_ref` -/
def titleToRef : Dictionary String String :=
  .ofEntries ((nodes.filter fun node => node.title ≠ "" ∧ node.title ≠ node.id).map fun node =>
    (node.title, node.id))

/-- A link of a note is drawn, where it leads to another node and is new. -/
def addLink (source : String) (edges : List (String × String)) (link : String) :
    List (String × String) :=
  let target := if link ∈ nodes.map (·.id) then some link else (titleToRef nodes).get? link
  match target with
  | none => edges
  | some target =>
      if target ∉ nodes.map (·.id) ∨ target = source ∨ (source, target) ∈ edges then edges
      else edges ++ [(source, target)]

/-- The links of a node are drawn, where its note can be read. -/
def addLinks (links : String → Option (List String)) (edges : List (String × String))
    (node : GraphNode) : List (String × String) :=
  ((links node.id).getD []).foldl (addLink nodes node.id) edges

end

/-- `build_graph_data`, for what `list_notes` lists and the links of what `read_note` reads. -/
def buildGraphData (listed : List NoteListing) (links : String → Option (List String))
    (maxNodes : ℤ) : GraphData :=
  let nodes := (listed.take (max maxNodes 0).toNat).filterMap graphNode
  { nodes, edges := nodes.foldl (addLinks nodes links) [] }

/-! ### Edges -/

section

variable {nodes : List GraphNode} {links : String → Option (List String)}
  {edges : List (String × String)} {source target s t link : String}

/-- The node that a link leads to: the one with its reference, or else the last one with its
title. -/
def linkTarget (nodes : List GraphNode) (link : String) : Option String :=
  if link ∈ nodes.map (·.id) then some link
  else (nodes.filter fun node => node.title = link ∧ node.title ≠ "" ∧
    node.title ≠ node.id).getLast?.map (·.id)

theorem linkTarget_eq : (if link ∈ nodes.map (·.id) then some link
    else (titleToRef nodes).get? link) = linkTarget nodes link := by
  unfold linkTarget titleToRef
  split
  · rfl
  · rw [Dictionary.get?_ofEntries, List.filter_map, List.getLast?_map, List.filter_filter,
      Option.map_map]
    simp only [Function.comp_def, Bool.decide_and]

/-- A link leads to a node. -/
theorem linkTarget_mem (leads : linkTarget nodes link = some target) :
    target ∈ nodes.map (·.id) := by
  unfold linkTarget at leads
  split at leads
  · rename_i here
    cases leads
    exact here
  · obtain ⟨node, last, rfl⟩ := Option.map_eq_some_iff.mp leads
    exact List.mem_map_of_mem (List.mem_filter.mp (List.mem_of_getLast? last)).1

theorem mem_addLink : (s, t) ∈ addLink nodes source edges link ↔
    (s, t) ∈ edges ∨ s = source ∧ t ≠ source ∧ linkTarget nodes link = some t := by
  unfold addLink
  dsimp only
  rw [linkTarget_eq]
  cases leads : linkTarget nodes link with
  | none => exact (or_iff_left fun new => by cases new.2.2).symm
  | some target =>
      have node := linkTarget_mem leads
      dsimp only
      split
      · rename_i skipped
        refine (or_iff_left_of_imp ?_).symm
        rintro ⟨rfl, other, same⟩
        cases same
        exact (skipped.resolve_left (not_not.mpr node)).resolve_left other
      · rename_i drawn
        rw [not_or, not_or] at drawn
        rw [List.mem_append, List.mem_singleton, Prod.mk.injEq, Option.some.injEq]
        refine or_congr_right ⟨?_, fun new => ⟨new.1, new.2.2.symm⟩⟩
        rintro ⟨rfl, rfl⟩
        exact ⟨rfl, drawn.2.1, rfl⟩

theorem nodup_addLink (once : edges.Nodup) : (addLink nodes source edges link).Nodup := by
  unfold addLink
  dsimp only
  split
  · exact once
  · split
    · exact once
    · rename_i drawn
      rw [not_or, not_or] at drawn
      refine once.append (List.nodup_singleton _) fun edge old new => drawn.2.2 ?_
      rwa [← List.mem_singleton.mp new]

theorem mem_addLinks (node : GraphNode) : (s, t) ∈ addLinks nodes links edges node ↔
    (s, t) ∈ edges ∨ s = node.id ∧ t ≠ node.id ∧
      ∃ link ∈ (links node.id).getD [], linkTarget nodes link = some t := by
  unfold addLinks
  generalize (links node.id).getD [] = found
  induction found generalizing edges with
  | nil => simp
  | cons link found ih =>
      rw [List.foldl_cons, ih, mem_addLink, List.exists_mem_cons_iff, or_assoc]
      refine or_congr_right ?_
      constructor
      · rintro (⟨same, other, leads⟩ | ⟨same, other, leads⟩)
        · exact ⟨same, other, .inl leads⟩
        · exact ⟨same, other, .inr leads⟩
      · rintro ⟨same, other, leads | leads⟩
        · exact .inl ⟨same, other, leads⟩
        · exact .inr ⟨same, other, leads⟩

theorem nodup_addLinks (once : edges.Nodup) (node : GraphNode) :
    (addLinks nodes links edges node).Nodup := by
  unfold addLinks
  induction (links node.id).getD [] generalizing edges with
  | nil => exact once
  | cons link found ih => exact ih (nodup_addLink once)

/-- The edges from some of the nodes. -/
theorem mem_edges (sources : List GraphNode) : (s, t) ∈ sources.foldl (addLinks nodes links) edges ↔
    (s, t) ∈ edges ∨ s ∈ sources.map (·.id) ∧ t ≠ s ∧
      ∃ link ∈ (links s).getD [], linkTarget nodes link = some t := by
  induction sources generalizing edges with
  | nil => simp
  | cons node sources ih =>
      rw [List.foldl_cons, ih, mem_addLinks, List.map_cons, List.mem_cons, or_assoc, or_and_right]
      refine or_congr_right (or_congr_left ⟨?_, ?_⟩)
      · rintro ⟨rfl, leads⟩
        exact ⟨rfl, leads⟩
      · rintro ⟨rfl, leads⟩
        exact ⟨rfl, leads⟩

theorem nodup_edges (sources : List GraphNode) (once : edges.Nodup) :
    (sources.foldl (addLinks nodes links) edges).Nodup := by
  induction sources generalizing edges with
  | nil => exact once
  | cons node sources ih => exact ih (nodup_addLinks once node)

end

/-! ### The notes of a vault -/

namespace MarkdownVault

section

variable {root : VaultRoot} {μ : Type} (state : VaultState root μ)

/-- `MarkdownVaultConnector.list_notes` -/
def VaultState.listNotes : List NoteListing :=
  state.foundNotes.map fun names =>
    { ref := asPosix names
      title := match state.readText (root.parts ++ names) with
        | .ok content => noteTitle content
        | .error _ => none }

/-- The links that `read_note` finds. -/
def VaultState.noteLinks (ref : String) : Option (List String) :=
  (readNote state.access root state.tree ref).toOption.map (·.links)

/-- `get_graph_data`, with `GRAPH_MAX_NODES` -/
def getGraphData (limit : ℤ) : GraphData :=
  buildGraphData state.listNotes state.noteLinks (min (max limit 0) 200)

/-- A graph of the first notes of a vault. -/
structure NoteGraphExact (shown : List String) (graph : GraphData) : Prop where
  nodes : graph.nodes.map (·.id) = shown
  once : graph.edges.Nodup
  /-- An edge is a link that the note has now, to another note that is shown. -/
  edges : ∀ s t, (s, t) ∈ graph.edges ↔ s ∈ shown ∧ t ≠ s ∧ ∃ content,
    state.readText (root.parts ++ Path.parts s) = .ok content ∧
      ∃ link ∈ findLinks 0 content.toList, linkTarget graph.nodes link = some t
  within : ∀ s t, (s, t) ∈ graph.edges → t ∈ shown

variable {state}

/-- A note that is listed is read where it was found. -/
theorem noteLinks_of_found {key : String} (found : key ∈ state.foundRefs) :
    state.noteLinks key = (state.readText (root.parts ++ Path.parts key)).toOption.map
      fun content => findLinks 0 content.toList := by
  obtain ⟨here, text⟩ := mem_foundRefs_iff.mp found
  have note := (mem_foundNotes_iff.mp here).2.2
  have named := (unresolvedPath_of_indexKey (indexKey_asPosix note text)).1
  have noNul : hasNul key = false := by
    obtain ⟨last, isLast⟩ := Option.ne_none_iff_exists'.mp
      (List.getLast?_eq_none_iff.not.mpr (nonempty_of_isNotePath note))
    have ends := note.1
    rw [isLast, Option.getD_some] at ends
    have names : (Path.parts key).dropLast ++ [last] = Path.parts key :=
      List.dropLast_append_getLast? last isLast
    rw [hasNul, isLast, Option.map_some, noteName, if_pos ends, Option.toList_some, names,
      List.any_eq_false]
    intro name mem
    simpa using (proper_of_mem_foundNotes here name mem).noNul
  have opens : (noteFile root state.tree key).bind (noteText state.access) =
      state.readText (root.parts ++ Path.parts key) := by
    unfold noteFile VaultState.readText
    rw [named]
    dsimp only
    rw [noNul, if_neg Bool.false_ne_true]
  unfold VaultState.noteLinks readNote
  rw [opens]
  cases state.readText (root.parts ++ Path.parts key) with
  | ok content => rfl
  | error e =>
      split
      · rfl
      · rfl
      · rename_i ok
        cases ok

theorem ne_empty_of_found {key : String} (found : key ∈ state.foundRefs) : key ≠ "" := by
  rintro rfl
  exact nonempty_of_isNotePath (mem_foundNotes_iff.mp (mem_foundRefs_iff.mp found).1).2.2
    (by decide)

theorem ids_graphNodes {listed : List NoteListing} (named : ∀ note ∈ listed, note.ref ≠ "") :
    (listed.filterMap graphNode).map (·.id) = listed.map (·.ref) := by
  induction listed with
  | nil => rfl
  | cons note listed ih =>
      rw [List.filterMap_cons, graphNode, if_neg (named note List.mem_cons_self)]
      exact congrArg (note.ref :: ·) (ih fun other mem => named other (List.mem_cons_of_mem _ mem))

/-- **The graph of a vault** is that of the links between its first notes. -/
theorem note_graph_exact (state : VaultState root μ) (limit : ℤ) :
    NoteGraphExact state (state.foundRefs.take (min (max limit 0) 200).toNat)
      (getGraphData state limit) := by
  have refs : state.listNotes.map (·.ref) = state.foundRefs := by
    rw [VaultState.listNotes, List.map_map]
    rfl
  have listed : ∀ note ∈ state.listNotes, note.ref ≠ "" := fun note mem =>
    ne_empty_of_found (refs ▸ List.mem_map_of_mem mem)
  have ids : (getGraphData state limit).nodes.map (·.id) =
      state.foundRefs.take (min (max limit 0) 200).toNat := by
    show ((state.listNotes.take _).filterMap graphNode).map (·.id) = _
    rw [ids_graphNodes fun note mem => listed note (List.mem_of_mem_take mem), List.map_take, refs]
    congr 1
    omega
  have edges : ∀ s t, (s, t) ∈ (getGraphData state limit).edges ↔
      s ∈ state.foundRefs.take (min (max limit 0) 200).toNat ∧ t ≠ s ∧
        ∃ link ∈ (state.noteLinks s).getD [],
          linkTarget (getGraphData state limit).nodes link = some t := by
    intro s t
    rw [← ids]
    exact (mem_edges _).trans (or_iff_right List.not_mem_nil)
  refine ⟨ids, nodup_edges _ List.nodup_nil, fun s t => ?_, fun s t edge => ?_⟩
  · rw [edges]
    refine and_congr_right fun shown => and_congr_right fun _ => ?_
    rw [noteLinks_of_found (List.mem_of_mem_take shown)]
    cases state.readText (root.parts ++ Path.parts s) with
    | ok content => simp [Except.toOption]
    | error e => simp [Except.toOption]
  · obtain ⟨_, _, link, _, leads⟩ := (edges s t).mp edge
    rw [← ids]
    exact linkTarget_mem leads

end

end MarkdownVault

end AgentOs
