import AgentOs.Lib.Text
import Mathlib.Data.List.Induction

/-!
Absolute paths, lexically.

A path is the list of its names from the root. `parts` reads a text as a path
library does: a doubled separator and a `.` say nothing, so `parts` is compatible
with joining by a separator (`parts_append`). `resolve` then takes `..` back one
name and stays at the root; it does not look at any file system, so there are no
links.

`withSuffix` replaces a name's suffix: what follows its last dot, where something
stands before the dot and after it.
-/

namespace AgentOs.Lib.Path

/-! ### Reading a path -/

/-- The stretches between separators. -/
def split : List Char → List (List Char)
  | [] => [[]]
  | c :: cs =>
      if c = '/' then [] :: split cs
      else
        match split cs with
        | [] => [[c]]
        | stretch :: rest => (c :: stretch) :: rest

/-- The names of a path; `..` is one of them. -/
def parts (path : String) : List String :=
  ((split path.toList).map String.ofList).filter fun name => name ≠ "" && name ≠ "."

/-- The path starts at the root. -/
def isAbsolute (path : String) : Bool :=
  path.toList.head? = some '/'

/-- `base / path`: an absolute path replaces the base. -/
def join (base : List String) (path : String) : List String :=
  if isAbsolute path then parts path else base ++ parts path

theorem split_ne_nil (cs : List Char) : split cs ≠ [] := by
  cases cs with
  | nil => nofun
  | cons c cs =>
      unfold split
      split
      · nofun
      · split <;> nofun

theorem split_append (cs ds : List Char) : split (cs ++ '/' :: ds) = split cs ++ split ds := by
  induction cs with
  | nil => simp [split]
  | cons c cs ih =>
      by_cases h : c = '/'
      · simp [split, h, ih]
      · obtain ⟨stretch, rest, hs⟩ := List.exists_cons_of_ne_nil (split_ne_nil cs)
        simp [split, h, ih, hs]

/-- The names of a path cut at a separator. -/
theorem parts_append {path : String} {cs ds : List Char} (h : path.toList = cs ++ '/' :: ds) :
    parts path = parts (.ofList cs) ++ parts (.ofList ds) := by
  unfold parts
  rw [h, split_append]
  simp

theorem parts_ofList_append (cs ds : List Char) :
    parts (.ofList (cs ++ '/' :: ds)) = parts (.ofList cs) ++ parts (.ofList ds) :=
  parts_append (String.toList_ofList)

/-- Leading separators say nothing. -/
theorem parts_lstrip (path : String) : parts (Text.lstripChar '/' path) = parts path := by
  suffices ∀ cs : List Char, parts (.ofList (cs.dropWhile (· == '/'))) = parts (.ofList cs) by
    simpa [Text.lstripChar] using this path.toList
  intro cs
  induction cs with
  | nil => rfl
  | cons c cs ih =>
      by_cases h : c = '/'
      · subst h
        rw [List.dropWhile_cons_of_pos (by decide), ih]
        exact (parts_ofList_append [] cs).symm
      · rw [List.dropWhile_cons_of_neg (by simpa using h)]

/-- A path that begins with a directory goes through its names. -/
theorem parts_prefix {path directory : String}
    (h : Text.startsWith path (directory ++ "/") = true) : parts directory <+: parts path := by
  obtain ⟨rest, hrest⟩ := List.isPrefixOf_iff_prefix.mp h
  have cut : path.toList = directory.toList ++ '/' :: rest := by
    rw [← hrest, String.toList_append]
    simp
  rw [parts_append cut, String.ofList_toList]
  exact List.prefix_append ..

/-! ### Names -/

/-- A name that stands for itself in the text of a path. -/
structure CleanName (name : String) : Prop where
  nonempty : name ≠ ""
  noDot : name ≠ "."
  noSlash : '/' ∉ name.toList

theorem split_of_notMem {cs : List Char} (absent : '/' ∉ cs) : split cs = [cs] := by
  induction cs with
  | nil => rfl
  | cons c cs ih =>
      have other : c ≠ '/' := fun same => absent (same ▸ List.mem_cons_self)
      rw [split, if_neg other, ih fun mem => absent (List.mem_cons_of_mem c mem)]

theorem CleanName.parts_eq {name : String} (clean : CleanName name) : parts name = [name] := by
  rw [parts, split_of_notMem clean.noSlash]
  simp [String.ofList_toList, clean.nonempty, clean.noDot]

theorem notMem_of_mem_split {cs part : List Char} (mem : part ∈ split cs) : '/' ∉ part := by
  induction cs generalizing part with
  | nil =>
      rw [split, List.mem_singleton] at mem
      rw [mem]
      exact List.not_mem_nil
  | cons c cs ih =>
      unfold split at mem
      split at mem
      · rcases List.mem_cons.mp mem with rfl | later
        · exact List.not_mem_nil
        · exact ih later
      · rename_i other
        split at mem
        · rw [List.mem_singleton.mp mem, List.mem_singleton]
          exact fun same => other same.symm
        · rename_i stretch rest split
          rcases List.mem_cons.mp mem with rfl | later
          · rw [List.mem_cons, not_or]
            exact ⟨fun same => other same.symm, ih (by rw [split]; exact List.mem_cons_self)⟩
          · exact ih (by rw [split]; exact List.mem_cons_of_mem _ later)

/-- The names of a reference are clean. -/
theorem cleanName_of_mem_parts {ref name : String} (mem : name ∈ parts ref) :
    CleanName name := by
  obtain ⟨there, passes⟩ := List.mem_filter.mp mem
  obtain ⟨part, inSplit, rfl⟩ := List.mem_map.mp there
  simp only [Bool.and_eq_true, decide_eq_true_eq] at passes
  refine ⟨passes.1, passes.2, ?_⟩
  rw [String.toList_ofList]
  exact notMem_of_mem_split inSplit

/-! ### Resolving a path -/

/-- One name: `..` goes up, and stays at the root. -/
def enter (path : List String) (name : String) : List String :=
  if name = ".." then path.dropLast else path ++ [name]

/-- `path.resolve()`, without links. -/
def resolve (path : List String) : List String :=
  path.foldl enter []

theorem resolve_append (path names : List String) :
    resolve (path ++ names) = names.foldl enter (resolve path) :=
  List.foldl_append

theorem foldl_enter_of_plain (path : List String) {names : List String}
    (plain : ∀ name ∈ names, name ≠ "..") : names.foldl enter path = path ++ names := by
  induction names generalizing path with
  | nil => simp
  | cons name rest ih =>
      rw [List.foldl_cons, enter, if_neg (plain name (List.mem_cons_self ..)),
        ih _ fun n hn => plain n (List.mem_cons_of_mem _ hn)]
      simp

/-- As many `..` as names lead back. -/
theorem foldl_enter_back (path names : List String) :
    (List.replicate names.length "..").foldl enter (path ++ names) = path := by
  induction names using List.reverseRecOn with
  | nil => simp
  | append_singleton names name ih =>
      rw [List.length_append, List.length_singleton, List.replicate_succ, List.foldl_cons, enter,
        if_pos rfl, ← List.append_assoc, List.dropLast_concat]
      exact ih

/-- A path without `..` is where it says. -/
theorem resolve_of_plain {path : List String} (plain : ∀ name ∈ path, name ≠ "..") :
    resolve path = path :=
  (foldl_enter_of_plain [] plain).trans (List.nil_append path)

/-! ### Suffixes -/

/-- A name without its suffix. -/
def stem (name : String) : String :=
  let after := name.toList.reverse.takeWhile (· ≠ '.')
  let upToDot := name.toList.reverse.dropWhile (· ≠ '.')
  if 1 < upToDot.length && after ≠ [] then .ofList upToDot.tail.reverse else name

theorem mem_of_mem_stem {c : Char} {name : String} (mem : c ∈ (stem name).toList) :
    c ∈ name.toList := by
  unfold stem at mem
  dsimp only at mem
  split at mem
  · rw [String.toList_ofList, List.mem_reverse] at mem
    exact List.mem_reverse.mp ((List.dropWhile_suffix _).subset (List.mem_of_mem_tail mem))
  · exact mem

/-- `path.with_suffix(suffix)`, on the name of the path. -/
def withSuffix (name suffix : String) : String :=
  stem name ++ suffix

/-- `name.endswith(suffix)`. -/
def endsWith (name suffix : String) : Bool :=
  suffix.toList.isSuffixOf name.toList

end AgentOs.Lib.Path
