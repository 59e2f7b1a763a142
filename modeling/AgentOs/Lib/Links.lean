import AgentOs.Lib.Directories

/-!
Symbolic links.

A file of a tree may be a link, which says where it leads. `realpath` follows the links on a path
until none is left on it (`realpath_linkFree`), so that the system, which follows them too, ends
where the path says (`follow_of_linkFree`). Where a path leads depends on the links alone
(`SameLinks.realpath`): trees that grow by directories and plain files agree on it.
-/

namespace AgentOs.Lib

inductive Linked (τ : Type) where
  | content (content : τ)
  | link (target : String)
deriving DecidableEq, Repr

abbrev LinkedTree (τ : Type) := DirectoryTree (Linked τ)

namespace LinkedTree

variable {τ : Type} {t t' : LinkedTree τ} {at_ names path : List String} {links : ℕ}

/-- Where the link of a path leads. -/
def link? (t : LinkedTree τ) (path : List String) : Option String :=
  match t.node path with
  | some (.file (.link target)) => some target
  | _ => none

/-- Names that are followed, up to the first link. -/
inductive Walk where
  | arrived (path : List String)
  | link (at_ : List String) (target : String) (rest : List String)

def walk (t : LinkedTree τ) (at_ : List String) : List String → Walk
  | [] => .arrived at_
  | name :: names =>
      if name = ".." then t.walk at_.dropLast names
      else
        match t.link? (at_ ++ [name]) with
        | some target => .link at_ target names
        | none => t.walk (at_ ++ [name]) names

/-- Where the names behind a link are followed from, and which ones. -/
def behind (at_ : List String) (target : String) (rest : List String) :
    List String × List String :=
  (if Path.isAbsolute target then [] else at_, Path.parts target ++ rest)

/-- `os.path.realpath`: the names are followed from a directory on, and so many links. A loop has
more of them. -/
def realpath (t : LinkedTree τ) : ℕ → List String → List String → Option (List String)
  | 0, at_, names =>
      match t.walk at_ names with
      | .arrived path => some path
      | .link _ _ _ => none
  | links + 1, at_, names =>
      match t.walk at_ names with
      | .arrived path => some path
      | .link at_ target rest =>
          t.realpath links (behind at_ target rest).1 (behind at_ target rest).2

/-- Where the system finds a path. It follows 40 links. -/
def follow (t : LinkedTree τ) (path : List String) : Option (List String) := t.realpath 40 [] path

/-! ### Paths without links -/

/-- Neither a link nor `..` is on the path. -/
structure LinkFree (t : LinkedTree τ) (path : List String) : Prop where
  noLink : ∀ way, way <+: path → t.link? way = none
  plain : ∀ name ∈ path, name ≠ ".."

theorem linkFree_nil : LinkFree t [] where
  noLink := by
    intro way short
    rw [List.prefix_nil.mp short, link?, t.top]
  plain := by simp

theorem LinkFree.dropLast (free : LinkFree t path) : LinkFree t path.dropLast where
  noLink way short := free.noLink way (short.trans (List.dropLast_prefix path))
  plain name mem := free.plain name ((List.dropLast_sublist path).mem mem)

theorem LinkFree.concat (free : LinkFree t path) {name : String} (plain : name ≠ "..")
    (noLink : t.link? (path ++ [name]) = none) : LinkFree t (path ++ [name]) where
  noLink := by
    intro way short
    rcases List.prefix_concat_iff.mp short with rfl | within
    · exact noLink
    · exact free.noLink way within
  plain := by
    intro other mem
    rcases List.mem_append.mp mem with before | last
    · exact free.plain other before
    · rw [List.mem_singleton.mp last]
      exact plain

/-- What a walk passes has no links. -/
theorem walk_linkFree (names : List String) (free : LinkFree t at_) :
    match t.walk at_ names with
    | .arrived path => LinkFree t path
    | .link at_ _ _ => LinkFree t at_ := by
  induction names generalizing at_ with
  | nil => exact free
  | cons name names ih =>
      rw [walk]
      by_cases up : name = ".."
      · rw [if_pos up]
        exact ih free.dropLast
      · rw [if_neg up]
        cases found : t.link? (at_ ++ [name]) with
        | some target => exact free
        | none => exact ih (free.concat up found)

/-- **No link is left** on a path that was resolved. -/
theorem realpath_linkFree (free : LinkFree t at_) (resolved : t.realpath links at_ names = some path) :
    LinkFree t path := by
  induction links generalizing at_ names with
  | zero =>
      have passed := walk_linkFree names free
      rw [realpath] at resolved
      split at resolved
      · rename_i arrived
        cases resolved
        rwa [arrived] at passed
      · cases resolved
  | succ links ih =>
      have passed := walk_linkFree names free
      rw [realpath] at resolved
      split at resolved
      · rename_i arrived
        cases resolved
        rwa [arrived] at passed
      · rename_i here target rest stopped
        rw [stopped] at passed
        refine ih ?_ resolved
        unfold behind
        split
        · exact linkFree_nil
        · exact passed

/-- A walk on a path without links stays on it. -/
theorem walk_of_linkFree (free : LinkFree t (at_ ++ path)) :
    t.walk at_ (path ++ names) = t.walk (at_ ++ path) names := by
  induction path generalizing at_ with
  | nil => rw [List.append_nil, List.nil_append]
  | cons name path ih =>
      have longer : at_ ++ name :: path = at_ ++ [name] ++ path := by
        rw [List.append_assoc, List.singleton_append]
      rw [longer] at free ⊢
      have here : t.link? (at_ ++ [name]) = none := free.noLink _ (List.prefix_append _ _)
      have plain : name ≠ ".." := free.plain name
        (List.mem_append_left _ (List.mem_append_right _ (List.mem_singleton_self name)))
      rw [List.cons_append, walk, if_neg plain, here]
      exact ih free

theorem realpath_of_linkFree (free : LinkFree t path) (links : ℕ) :
    t.realpath links [] path = some path := by
  have arrives : t.walk [] path = .arrived path := by
    have walked : t.walk [] (path ++ []) = t.walk ([] ++ path) [] := walk_of_linkFree free
    rwa [List.append_nil, List.nil_append] at walked
  cases links with
  | zero => rw [realpath, arrives]
  | succ links => rw [realpath, arrives]

/-- **The system ends where such a path says.** -/
theorem follow_of_linkFree (free : LinkFree t path) : t.follow path = some path :=
  realpath_of_linkFree free 40

/-! ### Trees with the same links -/

/-- Two trees have the same links. -/
def SameLinks (t t' : LinkedTree τ) : Prop := ∀ path, t'.link? path = t.link? path

theorem SameLinks.refl (t : LinkedTree τ) : SameLinks t t := fun _ => rfl

theorem SameLinks.trans {t'' : LinkedTree τ} (first : SameLinks t t') (second : SameLinks t' t'') :
    SameLinks t t'' := fun path => (second path).trans (first path)

theorem SameLinks.walk (same : SameLinks t t') : t'.walk at_ names = t.walk at_ names := by
  induction names generalizing at_ with
  | nil => rfl
  | cons name names ih =>
      rw [LinkedTree.walk, LinkedTree.walk, same, ih, ih]

/-- **Where a path leads** depends on the links. -/
theorem SameLinks.realpath (same : SameLinks t t') :
    t'.realpath links at_ names = t.realpath links at_ names := by
  induction links generalizing at_ names with
  | zero => rw [LinkedTree.realpath, LinkedTree.realpath, same.walk]
  | succ links ih =>
      rw [LinkedTree.realpath, LinkedTree.realpath, same.walk]
      cases t.walk at_ names with
      | arrived path => rfl
      | link here target rest => exact ih

theorem SameLinks.linkFree (same : SameLinks t t') (free : LinkFree t path) : LinkFree t' path where
  noLink way short := (same way).trans (free.noLink way short)
  plain := free.plain

/-! ### Growing -/

/-- A new directory is no link, and takes the place of none. -/
theorem sameLinks_makeDirs (denied : List String → Option String)
    (here : t.node at_ = some .directory) (names : List String) :
    SameLinks t (DirectoryTree.makeDirs denied at_ names t).2 := by
  intro path
  rcases DirectoryTree.makeDirs_grown denied names here path with same | ⟨absent, made, -⟩
  · rw [link?, link?, same]
  · rw [link?, link?, absent, made]

/-- A file in the place of another one, or of nothing, leaves the links as they are. -/
theorem sameLinks_put {content : τ} (noLink : t.link? path = none) :
    SameLinks t (t.put path (.file (.content content))) := by
  intro other
  unfold DirectoryTree.put
  split
  · rcases eq_or_ne other path with rfl | apart
    · rw [noLink]
      simp only [link?, Function.update_self]
    · simp only [link?, Function.update_of_ne apart]
  · rfl

end LinkedTree

end AgentOs.Lib
