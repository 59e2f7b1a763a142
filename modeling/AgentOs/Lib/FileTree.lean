import Mathlib.Data.List.Induction

/-!
File trees.

A tree says what is at each path, a path being its names from the root. Directories and
files are made, removed with everything below them, and moved with everything below
them. `SameBelow` compares two trees under a directory: what was made where nothing was
shows unless a removal takes it away again (`sameBelow_make_iff`,
`sameBelow_removeAll_iff`).
-/

namespace AgentOs.Lib

/-- What is at each path. -/
def FileTree (ν ε : Type) := List ν → Option ε

/-- A path is in a directory, at any depth. -/
def Below {ν : Type} (root path : List ν) : Prop := root <+: path ∧ path ≠ root

namespace FileTree

variable {ν ε : Type}

/-- Nothing is in what is not there. -/
def Closed (t : FileTree ν ε) : Prop :=
  ∀ path name, t path = none → t (path ++ [name]) = none

theorem Closed.none_below {t : FileTree ν ε} {dir path : List ν} (closed : Closed t)
    (absent : t dir = none) (h : dir <+: path) : t path = none := by
  obtain ⟨rest, rfl⟩ := h
  induction rest using List.reverseRecOn with
  | nil => simpa using absent
  | append_singleton rest name ih =>
      rw [← List.append_assoc]
      exact closed _ _ ih

variable [DecidableEq ν]

/-- Entries are made; of two at one path the first one stays. -/
def make (items : List (List ν × ε)) (t : FileTree ν ε) : FileTree ν ε :=
  fun path => (items.lookup path).or (t path)

/-- Directories are removed with everything in them. -/
def removeAll (dirs : List (List ν)) (t : FileTree ν ε) : FileTree ν ε :=
  fun path => if dirs.any (·.isPrefixOf path) then none else t path

/-- A removal that stops: the directory stays, and what is kept in it. -/
def removePart (dir : List ν) (kept : List ν → Bool) (t : FileTree ν ε) : FileTree ν ε :=
  fun path => if dir.isPrefixOf path ∧ path ≠ dir ∧ kept path = false then none else t path

/-- A directory is renamed. -/
def move (source target : List ν) (t : FileTree ν ε) : FileTree ν ε :=
  fun path =>
    if target.isPrefixOf path then t (source ++ path.drop target.length)
    else if source.isPrefixOf path then none
    else t path

/-- Two trees agree below a directory. -/
def SameBelow (root : List ν) (t t' : FileTree ν ε) : Prop :=
  ∀ path, Below root path → t path = t' path

variable {t : FileTree ν ε} {root dir path : List ν} {items : List (List ν × ε)}

theorem lookup_isSome_iff : (items.lookup path).isSome ↔ ∃ item ∈ items, item.1 = path := by
  induction items with
  | nil => simp
  | cons item items ih =>
      rw [List.lookup_cons]
      split
      · rename_i same
        simp [eq_of_beq same]
      · rename_i other
        have ne : item.1 ≠ path := fun same => by simp [same] at other
        simp [ih, ne]

theorem lookup_of_mem {item : ε} (once : (items.map Prod.fst).Nodup) (mem : (path, item) ∈ items) :
    items.lookup path = some item := by
  induction items with
  | nil => cases mem
  | cons first items ih =>
      obtain ⟨fresh, once⟩ := List.nodup_cons.mp once
      rw [List.lookup_cons]
      rcases List.mem_cons.mp mem with rfl | mem
      · simp
      · have other : (path == first.1) = false := by
          refine beq_eq_false_iff_ne.mpr fun same => fresh ?_
          exact List.mem_map.mpr ⟨_, mem, same⟩
        rw [other]
        exact ih once mem

theorem make_of_absent (absent : ∀ item ∈ items, item.1 ≠ path) : make items t path = t path := by
  have missing : items.lookup path = none := by
    rw [← Option.not_isSome_iff_eq_none, lookup_isSome_iff]
    rintro ⟨item, mem, same⟩
    exact absent item mem same
  rw [make, missing]
  rfl

theorem make_ne_none {item : List ν × ε} (mem : item ∈ items) : make items t item.1 ≠ none := by
  obtain ⟨e, found⟩ := Option.isSome_iff_exists.mp (lookup_isSome_iff.mpr ⟨item, mem, rfl⟩)
  rw [make, found]
  simp

/-- The first entry at a path is made. -/
theorem make_append_of_mem {item : ε} {more : List (List ν × ε)}
    (once : (items.map Prod.fst).Nodup) (mem : (path, item) ∈ items) :
    make (items ++ more) t path = some item := by
  rw [make, List.lookup_append, lookup_of_mem once mem]
  rfl

/-- **What removals leave of what was made** shows. -/
theorem sameBelow_removeAll_iff {dirs : List (List ν)} (fresh : ∀ item ∈ items, t item.1 = none)
    (empty : ∀ d ∈ dirs, ∀ path, d <+: path → t path = none) :
    SameBelow root (removeAll dirs (make items t)) t ↔
      ∀ item ∈ items, Below root item.1 → ∃ d ∈ dirs, d <+: item.1 := by
  constructor
  · intro same item mem below
    by_contra outside
    have stays : removeAll dirs (make items t) item.1 = make items t item.1 := by
      refine if_neg fun removed => outside ?_
      obtain ⟨d, hd, covers⟩ := List.any_eq_true.mp removed
      exact ⟨d, hd, List.isPrefixOf_iff_prefix.mp covers⟩
    have there : make items t item.1 ≠ none := make_ne_none mem
    exact there (by rw [← stays, same _ below, fresh item mem])
  · intro covered path below
    unfold removeAll
    split
    · rename_i removed
      obtain ⟨d, hd, covers⟩ := List.any_eq_true.mp removed
      exact (empty d hd path (List.isPrefixOf_iff_prefix.mp covers)).symm
    · rename_i stays
      refine make_of_absent ?_
      rintro item mem rfl
      obtain ⟨d, hd, covers⟩ := covered item mem below
      exact stays (List.any_eq_true.mpr ⟨d, hd, List.isPrefixOf_iff_prefix.mpr covers⟩)

omit [DecidableEq ν] in
theorem SameBelow.symm {t' : FileTree ν ε} (h : SameBelow root t t') : SameBelow root t' t :=
  fun path below => (h path below).symm

omit [DecidableEq ν] in
theorem SameBelow.congr_right {t' u : FileTree ν ε} (h : SameBelow root t t') :
    SameBelow root u t ↔ SameBelow root u t' := by
  constructor
  · exact fun same path below => (same path below).trans (h path below)
  · exact fun same path below => (same path below).trans (h path below).symm

/-- What was made where nothing was shows. -/
theorem sameBelow_make_iff (fresh : ∀ item ∈ items, t item.1 = none) :
    SameBelow root (make items t) t ↔ ∀ item ∈ items, ¬Below root item.1 := by
  have none_removed : removeAll [] (make items t) = make items t := by
    funext path
    simp [removeAll]
  rw [← none_removed, sameBelow_removeAll_iff fresh (by simp)]
  simp

/-- A directory that was moved and is removed has left its first place too. -/
theorem removeAll_move (source target : List ν) :
    removeAll [target] (move source target t) = removeAll [target, source] t := by
  funext path
  by_cases there : target.isPrefixOf path = true
  · simp [removeAll, there]
  · simp only [removeAll, move, there, List.any_cons, List.any_nil, Bool.or_false, Bool.false_or]
    by_cases here : source.isPrefixOf path = true <;> simp [here]

theorem move_target (source target rest : List ν) :
    move source target t (target ++ rest) = t (source ++ rest) := by
  have there : target.isPrefixOf (target ++ rest) = true :=
    List.isPrefixOf_iff_prefix.mpr (List.prefix_append ..)
  rw [move, if_pos there, List.drop_left]

theorem removePart_of_outside (kept : List ν → Bool) (outside : ¬dir <+: path) :
    removePart dir kept t path = t path :=
  if_neg fun h => outside (List.isPrefixOf_iff_prefix.mp h.1)

/-- Where nothing is, nothing is removed. -/
theorem removePart_of_empty (kept : List ν → Bool) (empty : ∀ path, dir <+: path → t path = none) :
    removePart dir kept t = t := by
  funext path
  unfold removePart
  split
  · rename_i h
    exact (empty path (List.isPrefixOf_iff_prefix.mp h.1)).symm
  · rfl

theorem removeAll_of_empty (empty : ∀ path, dir <+: path → t path = none) :
    removeAll [dir] t = t := by
  funext path
  by_cases under : dir.isPrefixOf path = true
  · simp [removeAll, under, empty path (List.isPrefixOf_iff_prefix.mp under)]
  · simp [removeAll, under]

/-- Nothing is left where a directory was moved from. -/
theorem move_source {source target : List ν} (out : ¬source <+: target) (inn : ¬target <+: source)
    (h : source <+: path) : move source target t path = none := by
  have apart : ¬target.isPrefixOf path = true := by
    intro under
    rcases List.prefix_or_prefix_of_prefix h (List.isPrefixOf_iff_prefix.mp under) with h | h
    · exact out h
    · exact inn h
  rw [move, if_neg apart, if_pos (List.isPrefixOf_iff_prefix.mpr h)]

/-- A removal that stops leaves the directory. -/
theorem removePart_self (kept : List ν → Bool) : removePart dir kept t dir = t dir :=
  if_neg fun h => h.2.1 rfl

end FileTree

end AgentOs.Lib
