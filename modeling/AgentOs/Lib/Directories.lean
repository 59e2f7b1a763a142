import AgentOs.Lib.Path
import Mathlib.Logic.Function.Basic

/-!
Directories and files.

A tree has a node at each path, and every node is in a directory. `openFrom` follows names from a
directory on, `..` included, and `makeDirs` makes what is missing on the way to a directory.
`openFrom_ok_iff` says which file is opened, `makeDirs_ok_iff` when the directories can be made, and
`makeDirs_node` what they are then. A file that is put elsewhere and the directories on the way to it
change nothing of what is opened (`openFrom_grown`).
-/

namespace AgentOs.Lib

inductive TreeNode (τ : Type) where
  | directory
  | file (content : τ)
deriving DecidableEq, Repr

instance {τ : Type} : (node : Option (TreeNode τ)) → Decidable (node = some .directory)
  | none => isFalse (by intro same; cases same)
  | some (.file _) => isFalse (by intro same; cases same)
  | some .directory => isTrue rfl

/-- What the system answers when a path cannot be used. -/
inductive OsError where
  | fileNotFound
  | fileExists
  | notADirectory
  | isADirectory
  | refused (message : String)
deriving DecidableEq, Repr

structure DirectoryTree (τ : Type) where
  node : List String → Option (TreeNode τ)
  top : node [] = some .directory
  within : ∀ path name, node (path ++ [name]) ≠ none → node path = some .directory

namespace DirectoryTree

variable {τ : Type} {t t' : DirectoryTree τ} {at_ dir path target names : List String}

/-- What a node lies in are directories. -/
theorem directory_above (there : t.node path ≠ none) (above : dir <+: path) (ne : dir ≠ path) :
    t.node dir = some .directory := by
  obtain ⟨rest, rfl⟩ := above
  induction rest using List.reverseRecOn with
  | nil => exact absurd (List.append_nil dir).symm ne
  | append_singleton rest name ih =>
      rw [← List.append_assoc] at there
      have parent := t.within _ _ there
      rcases eq_or_ne rest [] with rfl | longer
      · rwa [List.append_nil] at parent
      · refine ih (by rw [parent]; exact Option.some_ne_none _) ?_
        intro same
        exact longer (List.append_cancel_left ((List.append_nil dir).trans same)).symm

/-- Below what is not there is nothing. -/
theorem none_below (absent : t.node dir = none) (below : dir <+: path) : t.node path = none := by
  by_contra there
  rcases eq_or_ne dir path with rfl | ne
  · exact there absent
  · rw [directory_above there below ne] at absent
    cases absent

/-! ### Changing a tree -/

/-- A node is put into a directory, where no directory is. -/
def put (t : DirectoryTree τ) (path : List String) (node : TreeNode τ) : DirectoryTree τ :=
  if h : t.node path.dropLast = some .directory ∧ t.node path ≠ some .directory then
    { node := Function.update t.node path (some node)
      top := by
        have other : [] ≠ path := by
          rintro rfl
          exact h.2 t.top
        rw [Function.update_of_ne other]
        exact t.top
      within := by
        intro dir name there
        have other : dir ≠ path ∨ dir ++ [name] = path := by
          by_contra both
          rw [not_or, not_not] at both
          rw [Function.update_of_ne both.2] at there
          exact h.2 (both.1 ▸ t.within dir name there)
        rcases eq_or_ne (dir ++ [name]) path with same | elsewhere
        · have up : dir = path.dropLast := by rw [← same, List.dropLast_concat]
          have ne : dir ≠ path := by
            rintro rfl
            exact absurd (congrArg List.length same) (by simp)
          rw [Function.update_of_ne ne, up]
          exact h.1
        · rw [Function.update_of_ne elsewhere] at there
          rw [Function.update_of_ne (other.resolve_right elsewhere)]
          exact t.within dir name there }
  else t

theorem put_node (parent : t.node path.dropLast = some .directory)
    (free : t.node path ≠ some .directory) (node : TreeNode τ) :
    (t.put path node).node = Function.update t.node path (some node) := by
  rw [put, dif_pos ⟨parent, free⟩]

/-- `path.mkdir(parents=True, exist_ok=True)`: the directories on the way, from one on. Where one
cannot be made, those above it stay. -/
def makeDirs (denied : List String → Option String) (at_ : List String) :
    List String → DirectoryTree τ → Except OsError Unit × DirectoryTree τ
  | [], t => (.ok (), t)
  | name :: names, t =>
      match t.node (at_ ++ [name]) with
      | some .directory => makeDirs denied (at_ ++ [name]) names t
      | some (.file _) => (.error (if names = [] then .fileExists else .notADirectory), t)
      | none =>
          match denied (at_ ++ [name]) with
          | some message => (.error (.refused message), t)
          | none => makeDirs denied (at_ ++ [name]) names (t.put (at_ ++ [name]) .directory)

/-! ### Opening a file -/

/-- The file that names lead to from a path on, and where it is. -/
def openFrom (t : DirectoryTree τ) (at_ : List String) :
    List String → Except OsError (List String × τ)
  | [] =>
      match t.node at_ with
      | none => .error .fileNotFound
      | some .directory => .error .isADirectory
      | some (.file content) => .ok (at_, content)
  | name :: names =>
      match t.node at_ with
      | none => .error .fileNotFound
      | some (.file _) => .error .notADirectory
      | some .directory => t.openFrom (Path.enter at_ name) names

/-- **What is opened** is where the names lead, when every directory on the way is one. -/
theorem openFrom_ok_iff {content : τ} : t.openFrom at_ names = .ok (path, content) ↔
    names.foldl Path.enter at_ = path ∧ t.node path = some (.file content) ∧
      ∀ way, way <+: names → way ≠ names →
        t.node (way.foldl Path.enter at_) = some .directory := by
  induction names generalizing at_ with
  | nil =>
      unfold openFrom
      constructor
      · intro opens
        split at opens
        · cases opens
        · cases opens
        · rename_i here
          cases opens
          exact ⟨rfl, here, fun way short ne => absurd (List.prefix_nil.mp short) ne⟩
      · rintro ⟨rfl, here, -⟩
        rw [List.foldl_nil] at here ⊢
        rw [here]
  | cons name names ih =>
      unfold openFrom
      constructor
      · intro opens
        split at opens
        · cases opens
        · cases opens
        · rename_i here
          obtain ⟨leads, there, ways⟩ := ih.mp opens
          refine ⟨leads, there, fun way short ne => ?_⟩
          cases way with
          | nil => exact here
          | cons first way =>
              obtain ⟨rfl, shorter⟩ := List.cons_prefix_cons.mp short
              exact ways way shorter fun same => ne (congrArg (first :: ·) same)
      · rintro ⟨leads, there, ways⟩
        have here := ways [] List.nil_prefix (List.cons_ne_nil _ _).symm
        rw [List.foldl_nil] at here
        rw [here]
        refine ih.mpr ⟨leads, there, fun way short ne => ?_⟩
        exact ways (name :: way) (List.cons_prefix_cons.mpr ⟨rfl, short⟩)
          fun same => ne (List.cons.inj same).2

/-- Where all are directories, there is no file to open. -/
theorem openFrom_directories
    (all : ∀ way, way <+: names → t.node (way.foldl Path.enter at_) = some .directory) :
    t.openFrom at_ names = .error .isADirectory := by
  induction names generalizing at_ with
  | nil =>
      have here := all [] List.nil_prefix
      rw [List.foldl_nil] at here
      rw [openFrom, here]
  | cons name names ih =>
      have here := all [] List.nil_prefix
      rw [List.foldl_nil] at here
      rw [openFrom, here]
      exact ih fun way short => all (name :: way) (List.cons_prefix_cons.mpr ⟨rfl, short⟩)

/-- A path without `..` is opened where a file is. -/
theorem openFrom_plain_iff {content : τ} (plain : ∀ name ∈ names, name ≠ "..") :
    t.openFrom [] names = .ok (path, content) ↔
      path = names ∧ t.node names = some (.file content) := by
  rw [openFrom_ok_iff, Path.foldl_enter_of_plain [] plain, List.nil_append]
  constructor
  · rintro ⟨rfl, file, -⟩
    exact ⟨rfl, file⟩
  · rintro ⟨rfl, file⟩
    refine ⟨rfl, file, fun way short ne => ?_⟩
    rw [Path.foldl_enter_of_plain [] fun name mem => plain name (short.subset mem),
      List.nil_append]
    exact directory_above (by rw [file]; exact Option.some_ne_none _) short ne

/-- Nothing is found where nothing is, however many directories there are on the way. -/
theorem openFrom_absent (absent : t.node at_ = none)
    (grown : ∀ way, way <+: names → t'.node (at_ ++ way) = t.node (at_ ++ way) ∨
      t'.node (at_ ++ way) = some .directory ∧ way ≠ names)
    (plain : ∀ name ∈ names, name ≠ "..") : t'.openFrom at_ names = .error .fileNotFound := by
  induction names generalizing at_ with
  | nil =>
      have here := (grown [] List.nil_prefix).resolve_right fun h => h.2 rfl
      rw [List.append_nil, absent] at here
      rw [openFrom, here]
  | cons name names ih =>
      unfold openFrom
      rcases grown [] List.nil_prefix with here | ⟨here, -⟩
      · rw [List.append_nil, absent] at here
        rw [here]
      · rw [List.append_nil] at here
        rw [here]
        dsimp only
        rw [Path.enter, if_neg (plain name List.mem_cons_self)]
        refine ih (none_below absent (List.prefix_append _ _)) ?_
          fun other mem => plain other (List.mem_cons_of_mem _ mem)
        intro way short
        have further := grown (name :: way) (List.cons_prefix_cons.mpr ⟨rfl, short⟩)
        rw [List.append_assoc, List.singleton_append]
        exact further.imp_right fun h => ⟨h.1, fun same => h.2 (congrArg (name :: ·) same)⟩

/-- **Directories that are made change nothing of what is opened**, nor does what is elsewhere. -/
theorem openFrom_grown (grown : ∀ way, way <+: names → t'.node (at_ ++ way) = t.node (at_ ++ way) ∨
      t.node (at_ ++ way) = none ∧ t'.node (at_ ++ way) = some .directory ∧ way ≠ names)
    (plain : ∀ name ∈ names, name ≠ "..") : t'.openFrom at_ names = t.openFrom at_ names := by
  induction names generalizing at_ with
  | nil =>
      have same := (grown [] List.nil_prefix).resolve_right fun h => h.2.2 rfl
      rw [List.append_nil] at same
      rw [openFrom, openFrom, same]
  | cons name names ih =>
      rcases grown [] List.nil_prefix with same | ⟨absent, -⟩
      · rw [List.append_nil] at same
        have further : t'.openFrom (Path.enter at_ name) names =
            t.openFrom (Path.enter at_ name) names := by
          rw [Path.enter, if_neg (plain name List.mem_cons_self)]
          refine ih ?_ fun other mem => plain other (List.mem_cons_of_mem _ mem)
          intro way short
          have behind := grown (name :: way) (List.cons_prefix_cons.mpr ⟨rfl, short⟩)
          rw [List.append_assoc, List.singleton_append]
          exact behind.imp_right fun h =>
            ⟨h.1, h.2.1, fun same => h.2.2 (congrArg (name :: ·) same)⟩
        rw [openFrom, openFrom, same, further]
      · rw [List.append_nil] at absent
        rw [openFrom_absent absent (fun way short => (grown way short).imp_right fun h => h.2) plain,
          openFrom_absent absent (fun _ _ => .inl rfl) plain]

/-! ### Making directories -/

variable {denied : List String → Option String}

theorem makeDirs_cons {name : String} : makeDirs denied at_ (name :: names) t =
    match t.node (at_ ++ [name]) with
    | some .directory => makeDirs denied (at_ ++ [name]) names t
    | some (.file _) => (.error (if names = [] then .fileExists else .notADirectory), t)
    | none =>
        match denied (at_ ++ [name]) with
        | some message => (.error (.refused message), t)
        | none => makeDirs denied (at_ ++ [name]) names (t.put (at_ ++ [name]) .directory) := rfl

theorem put_concat {name : String} (here : t.node at_ = some .directory)
    (absent : t.node (at_ ++ [name]) = none) (node : TreeNode τ) :
    (t.put (at_ ++ [name]) node).node = Function.update t.node (at_ ++ [name]) (some node) := by
  refine put_node ?_ ?_ node
  · rwa [List.dropLast_concat]
  · rw [absent]
    intro same
    cases same

/-- Directories are made on the way, and nothing else changes. -/
theorem makeDirs_grown (denied : List String → Option String) (names : List String)
    (here : t.node at_ = some .directory) (path : List String) :
    (makeDirs denied at_ names t).2.node path = t.node path ∨
      t.node path = none ∧ (makeDirs denied at_ names t).2.node path = some .directory ∧
        path <+: at_ ++ names := by
  induction names generalizing at_ t with
  | nil => exact .inl rfl
  | cons name names ih =>
      have longer : at_ ++ [name] ++ names = at_ ++ name :: names := by
        rw [List.append_assoc, List.singleton_append]
      rw [makeDirs_cons]
      cases there : t.node (at_ ++ [name]) with
      | some node =>
          cases node with
          | directory => exact longer ▸ ih there
          | file content => exact .inl rfl
      | none =>
          dsimp only
          cases denied (at_ ++ [name]) with
          | some message => exact .inl rfl
          | none =>
              have made := put_concat here there TreeNode.directory
              have now : (t.put (at_ ++ [name]) .directory).node (at_ ++ [name]) =
                  some .directory := by rw [made, Function.update_self]
              have rest := ih now
              rw [longer] at rest
              by_cases same : path = at_ ++ [name]
              · subst same
                rcases rest with stays | ⟨absent, -⟩
                · exact .inr ⟨there, stays.trans now, longer ▸ List.prefix_append _ _⟩
                · rw [now] at absent
                  cases absent
              · have before : (t.put (at_ ++ [name]) .directory).node path = t.node path := by
                  rw [made, Function.update_of_ne same]
                rwa [before] at rest

/-- The ways into a directory and on. -/
theorem forall_ways_cons {P : List String → Prop} {name : String} :
    (∀ way, way <+: name :: names → way ≠ [] → P (at_ ++ way)) ↔
      P (at_ ++ [name]) ∧ ∀ way, way <+: names → way ≠ [] → P (at_ ++ [name] ++ way) := by
  constructor
  · intro all
    refine ⟨all [name] (List.cons_prefix_cons.mpr ⟨rfl, List.nil_prefix⟩) (List.cons_ne_nil _ _),
      fun way short _ => ?_⟩
    rw [List.append_assoc]
    exact all (name :: way) (List.cons_prefix_cons.mpr ⟨rfl, short⟩) (List.cons_ne_nil _ _)
  · rintro ⟨first, further⟩ way short some_
    cases way with
    | nil => exact absurd rfl some_
    | cons other way =>
        obtain ⟨rfl, shorter⟩ := List.cons_prefix_cons.mp short
        rcases eq_or_ne way [] with rfl | more
        · exact first
        · have behind := further way shorter more
          rwa [List.append_assoc] at behind

/-- When no file is on the way and what is missing may be made. -/
theorem makeDirs_ok_iff (here : t.node at_ = some .directory) :
    (makeDirs denied at_ names t).1 = .ok () ↔ ∀ way, way <+: names → way ≠ [] →
      t.node (at_ ++ way) = some .directory ∨
        t.node (at_ ++ way) = none ∧ denied (at_ ++ way) = none := by
  induction names generalizing at_ t with
  | nil => exact iff_of_true rfl fun way short some_ => absurd (List.prefix_nil.mp short) some_
  | cons name names ih =>
      rw [makeDirs_cons, forall_ways_cons (P := fun path =>
        t.node path = some .directory ∨ t.node path = none ∧ denied path = none)]
      cases there : t.node (at_ ++ [name]) with
      | some node =>
          cases node with
          | directory => simpa using ih there
          | file content => simp
      | none =>
          cases refuses : denied (at_ ++ [name]) with
          | some message => simp
          | none =>
              have made := put_concat here there TreeNode.directory
              have now : (t.put (at_ ++ [name]) .directory).node (at_ ++ [name]) =
                  some .directory := by rw [made, Function.update_self]
              dsimp only
              rw [ih now, and_iff_right (.inr ⟨rfl, rfl⟩)]
              refine forall₃_congr fun way _ some_ => ?_
              have other : at_ ++ [name] ++ way ≠ at_ ++ [name] := by
                intro same
                exact some_ (List.append_right_eq_self.mp same)
              rw [made, Function.update_of_ne other]

/-- What is made are the directories on the way. -/
theorem makeDirs_ok (here : t.node at_ = some .directory)
    (made : (makeDirs denied at_ names t).1 = .ok ()) {way : List String} (short : way <+: names) :
    (makeDirs denied at_ names t).2.node (at_ ++ way) = some .directory := by
  induction names generalizing at_ t way with
  | nil =>
      rw [List.prefix_nil.mp short, List.append_nil]
      exact here
  | cons name names ih =>
      have stays : (makeDirs denied at_ (name :: names) t).2.node at_ = some .directory := by
        rcases makeDirs_grown denied (name :: names) here at_ with same | new
        · exact same.trans here
        · exact new.2.1
      cases way with
      | nil => rwa [List.append_nil]
      | cons first way =>
          obtain ⟨rfl, shorter⟩ := List.cons_prefix_cons.mp short
          rw [makeDirs_cons] at made ⊢
          have longer : at_ ++ first :: way = at_ ++ [first] ++ way := by
            rw [List.append_assoc, List.singleton_append]
          rw [longer]
          cases there : t.node (at_ ++ [first]) with
          | some node =>
              cases node with
              | directory =>
                  rw [there] at made
                  exact ih there made shorter
              | file content =>
                  rw [there] at made
                  cases made
          | none =>
              rw [there] at made
              dsimp only at made ⊢
              cases refuses : denied (at_ ++ [first]) with
              | some message =>
                  rw [refuses] at made
                  cases made
              | none =>
                  rw [refuses] at made
                  have now : (t.put (at_ ++ [first]) .directory).node (at_ ++ [first]) =
                      some .directory := by
                    rw [put_concat here there, Function.update_self]
                  exact ih now made shorter

end DirectoryTree

end AgentOs.Lib
