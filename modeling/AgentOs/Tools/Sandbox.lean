import AgentOs.Lib.Lines
import AgentOs.Lib.Links
import AgentOs.Lib.Machine

/-!
The sandbox and the file tools (`sandbox.py`, `tools/edit_file.py`, `tools/read_file.py`).

A tool resolves its path, links and `..` included, and refuses what ends outside its root; then
the system opens what the path was resolved to. A run binds the root to a directory of the
configured sandbox (`sandbox_scope`). `sandbox_confined` says what any sequence of scopes, edits and
reads can do to a tree with links.
-/

namespace AgentOs

open AgentOs.Lib

/-- The text of each file, or `none` where its bytes are not UTF-8. -/
abbrev ProjectTree := LinkedTree (Option String)

/-- What the tools take from their process. -/
structure SandboxEnv where
  /-- the working directory -/
  cwd : List String
  /-- `AGENT_OS_SANDBOX` -/
  sandboxEnv : Option String
  /-- the links that resolving a path follows, at most; more of them are a loop -/
  links : ℕ
  /-- the paths that cannot be made or written, and why -/
  unwritable : List String → Option String := fun _ => none
  unreadable : List String → Option String := fun _ => none
  repr : Option String → String

inductive ToolError where
  | valueError (message : String)
  | runtimeError (message : String)
  | fileNotFound (message : String)
  | undecodable
  | system (error : OsError)
deriving DecidableEq, Repr

/-- The processes' tree, and `_sandbox_override` with the values it had before. -/
structure Sandbox where
  tree : ProjectTree
  overrides : List (List String) := []

section

variable (env : SandboxEnv)

/-- `Path.resolve` -/
def resolvePath (t : ProjectTree) (path : List String) : Except ToolError (List String) :=
  if path.any (·.toList.contains '\x00') then .error (.valueError "embedded null byte")
  else
    match t.realpath env.links [] path with
    | some path => .ok path
    | none => .error (.runtimeError "Symlink loop")

/-- `_configured_sandbox_root` -/
def configuredSandboxRoot (t : ProjectTree) : Except ToolError (List String) :=
  resolvePath env t (Path.join env.cwd (env.sandboxEnv.getD "./sandbox"))

/-- `get_sandbox_root` -/
def getSandboxRoot (s : Sandbox) : Except ToolError (List String) :=
  match s.overrides with
  | root :: _ => .ok root
  | [] => configuredSandboxRoot env s.tree

/-- `get_read_root` -/
def getReadRoot (s : Sandbox) : Except ToolError (List String) :=
  match s.overrides, env.sandboxEnv with
  | root :: _, _ => .ok root
  | [], none | [], some "" => resolvePath env s.tree env.cwd
  | [], some configuredRoot => resolvePath env s.tree (Path.join env.cwd configuredRoot)

/-- The system finds a directory at the path. -/
def isDir (t : ProjectTree) (path : List String) : Bool :=
  match (t.follow path).bind t.node with
  | some .directory => true
  | _ => false

/-- `resolve_workspace_root` -/
def resolveWorkspaceRoot (t : ProjectTree) (workspace : Option String) :
    Except ToolError (List String) := do
  let base ← configuredSandboxRoot env t
  let requested := match workspace with
    | some workspace => if Text.strip workspace = "" then base else Path.join base workspace
    | none => base
  let resolved ← resolvePath env t requested
  if !base.isPrefixOf resolved then
    .error (.valueError ("Workspace " ++ env.repr workspace ++ " resolves outside the sandbox"))
  else if !isDir t resolved then
    .error (.valueError ("Workspace " ++ env.repr workspace ++ " is not an existing directory"))
  else .ok resolved

/-- `resolve_sandbox_path` -/
def resolveSandboxPath (s : Sandbox) (path : String) : Except ToolError (List String) := do
  let sandboxRoot ← getSandboxRoot env s
  let resolved ← resolvePath env s.tree (Path.join sandboxRoot path)
  if sandboxRoot.isPrefixOf resolved then .ok resolved
  else .error (.valueError ("Path " ++ path ++ " resolves outside the sandbox"))

/-- `write_bytes` on a path: the system opens what it finds there. -/
def writeBytes (t : ProjectTree) (path : List String) (content : String) :
    Except ToolError ℕ × ProjectTree :=
  match t.follow path with
  | none => (.error (.system (.refused "Too many levels of symbolic links")), t)
  | some path =>
      match env.unwritable path with
      | some message => (.error (.system (.refused message)), t)
      | none => (.ok (Text.utf8Length content), t.put path (.file (.content (some content))))

/-- `edit_file` -/
def editFile (s : Sandbox) (path content : String) : Except ToolError ℕ × Sandbox :=
  match resolveSandboxPath env s path with
  | .error e => (.error e, s)
  | .ok resolved =>
      if isDir s.tree resolved then
        (.error (.valueError ("Path " ++ path ++ " resolves to a directory, cannot edit file")), s)
      else
        match DirectoryTree.makeDirs env.unwritable [] resolved.dropLast s.tree with
        | (.error e, tree) => (.error (.system e), { s with tree })
        | (.ok (), tree) =>
            let (written, tree) := writeBytes env tree resolved content
            (written, { s with tree })

/-- `read_text` on a file that was found -/
def readContent (target : List String) (content : Option String) : Except ToolError String :=
  match env.unreadable target, content with
  | some message, _ => .error (.system (.refused message))
  | none, none => .error .undecodable
  | none, some text => .ok (readText text)

/-- `is_file` and `read_text` on a path that was accepted -/
def readTarget (t : ProjectTree) (path : String) (target : List String) : Except ToolError String :=
  match (t.follow target).bind t.node with
  | some (.file (.content content)) => readContent env target content
  | _ => .error (.fileNotFound ("File not found: " ++ path))

/-- `read_file` -/
def readFile (s : Sandbox) (path : String) : Except ToolError String := do
  let root ← getReadRoot env s
  let target ← resolvePath env s.tree (Path.join root path)
  if !root.isPrefixOf target then .error (.valueError "Path is outside project root")
  else readTarget env s.tree path target

/-! ### Runs -/

/-- What a run of tools does. -/
inductive SandboxStep where
  /-- `sandbox_scope` is entered, or raises -/
  | enter (workspace : Option String)
  | leave
  | edit (path content : String)
  | read (path : String)

inductive SandboxReply where
  | entered (answer : Except ToolError (List String))
  | left
  | edited (answer : Except ToolError ℕ)
  | content (answer : Except ToolError String)

def answerSandbox (s : Sandbox) : SandboxStep → SandboxReply × Sandbox
  | .enter workspace =>
      match resolveWorkspaceRoot env s.tree workspace with
      | .ok resolved => (.entered (.ok resolved), { s with overrides := resolved :: s.overrides })
      | .error e => (.entered (.error e), s)
  | .leave => (.left, { s with overrides := s.overrides.tail })
  | .edit path content =>
      let (answer, s) := editFile env s path content
      (.edited answer, s)
  | .read path => (.content (readFile env s path), s)

/-- What a step writes into a file. -/
def writtenBy (target : List String) (s : Sandbox) : SandboxStep → Option String
  | .edit path content =>
      match resolveSandboxPath env s path, (editFile env s path content).1 with
      | .ok resolved, .ok _ => if resolved = target then some content else none
      | _, _ => none
  | _ => none

/-- What a run writes into a file last. -/
def lastWritten (target : List String) : Sandbox → List SandboxStep → Option String
  | _, [] => none
  | s, step :: steps =>
      (lastWritten target (answerSandbox env s step).2 steps).or (writtenBy env target s step)

/-- Which file a read is of. -/
def ReadsFile (s : Sandbox) (path : String) (target : List String) : Prop :=
  ∃ root, getReadRoot env s = .ok root ∧ root <+: target ∧
    resolvePath env s.tree (Path.join root path) = .ok target

end

/-! ### Resolving -/

section

variable {env : SandboxEnv} {t t' : ProjectTree} {s : Sandbox} {path content : String}
  {names base resolved root : List String}

theorem resolvePath_linkFree (found : resolvePath env t names = .ok resolved) :
    LinkedTree.LinkFree t resolved := by
  unfold resolvePath at found
  split at found
  · cases found
  · split at found
    · rename_i path arrived
      cases found
      exact LinkedTree.realpath_linkFree LinkedTree.linkFree_nil arrived
    · cases found

theorem resolvePath_congr (same : LinkedTree.SameLinks t t') :
    resolvePath env t' names = resolvePath env t names := by
  unfold resolvePath
  rw [same.realpath]

theorem configuredSandboxRoot_congr (same : LinkedTree.SameLinks t t') :
    configuredSandboxRoot env t' = configuredSandboxRoot env t :=
  resolvePath_congr same

/-- A path is a directory for the system where it is one in the tree. -/
theorem isDir_iff (free : LinkedTree.LinkFree t resolved) :
    isDir t resolved = true ↔ t.node resolved = some .directory := by
  unfold isDir
  rw [LinkedTree.follow_of_linkFree free, Option.bind_some]
  split
  · rename_i there
    exact iff_of_true rfl there
  · rename_i other
    exact iff_of_false Bool.false_ne_true other

/-- A path that is accepted lies below the root, and has no links. -/
theorem resolveSandboxPath_ok (accepted : resolveSandboxPath env s path = .ok resolved) :
    ∃ root, getSandboxRoot env s = .ok root ∧ root <+: resolved ∧
      LinkedTree.LinkFree s.tree resolved ∧
      resolvePath env s.tree (Path.join root path) = .ok resolved := by
  unfold resolveSandboxPath at accepted
  cases rooted : getSandboxRoot env s with
  | error e =>
      rw [rooted] at accepted
      cases accepted
  | ok root =>
      rw [rooted] at accepted
      cases found : resolvePath env s.tree (Path.join root path) with
      | error e =>
          simp only [found, bind, Except.bind] at accepted
          cases accepted
      | ok target =>
          simp only [found, bind, Except.bind] at accepted
          split at accepted
          · rename_i below
            cases accepted
            exact ⟨root, rfl, List.isPrefixOf_iff_prefix.mp below, resolvePath_linkFree found, found⟩
          · cases accepted

/-! ### Editing -/

/-- What editing does to a tree, where the path was resolved to `resolved`. -/
inductive EditCase (env : SandboxEnv) (s : Sandbox) (resolved : List String) (content : String) :
    Except ToolError ℕ × Sandbox → Prop where
  | refused {e : ToolError} : EditCase env s resolved content (.error e, s)
  /-- directories were made, and that was all -/
  | stopped {e : ToolError} : EditCase env s resolved content
      (.error e,
        { s with tree := (DirectoryTree.makeDirs env.unwritable [] resolved.dropLast s.tree).2 })
  | written : s.tree.node resolved ≠ some .directory →
      (DirectoryTree.makeDirs env.unwritable [] resolved.dropLast s.tree).1 = .ok () →
      EditCase env s resolved content (.ok (Text.utf8Length content),
        { s with
          tree := DirectoryTree.put (DirectoryTree.makeDirs env.unwritable [] resolved.dropLast
            s.tree).2 resolved (.file (.content (some content))) })

theorem editFile_cases (env : SandboxEnv) (s : Sandbox) (path content : String) :
    (∃ e, resolveSandboxPath env s path = .error e ∧ editFile env s path content = (.error e, s)) ∨
      ∃ resolved, resolveSandboxPath env s path = .ok resolved ∧
        EditCase env s resolved content (editFile env s path content) := by
  unfold editFile
  cases accepted : resolveSandboxPath env s path with
  | error e => exact .inl ⟨e, rfl, rfl⟩
  | ok resolved =>
      refine .inr ⟨resolved, rfl, ?_⟩
      obtain ⟨root, _, _, free, _⟩ := resolveSandboxPath_ok accepted
      dsimp only
      split
      · exact .refused
      · rename_i notDir
        rw [isDir_iff free] at notDir
        have links := LinkedTree.sameLinks_makeDirs env.unwritable s.tree.top
          resolved.dropLast
        cases made : DirectoryTree.makeDirs env.unwritable [] resolved.dropLast s.tree with
        | mk answer tree =>
            rw [made] at links
            have tree' : (DirectoryTree.makeDirs env.unwritable [] resolved.dropLast s.tree).2 =
                tree := by rw [made]
            cases answer with
            | error e =>
                dsimp only
                rw [← tree']
                exact .stopped
            | ok done =>
                dsimp only
                unfold writeBytes
                rw [LinkedTree.follow_of_linkFree (links.linkFree free)]
                dsimp only
                split
                · dsimp only
                  rw [← tree']
                  exact .stopped
                · dsimp only
                  rw [← tree']
                  exact .written notDir (by rw [made])

/-- **What an edit changes**: directories are made on the way to the file, and the file. -/
theorem editFile_node (content : String)
    (accepted : resolveSandboxPath env s path = .ok resolved) (other : List String) (apart : other ≠ resolved) :
    (editFile env s path content).2.tree.node other = s.tree.node other ∨
      s.tree.node other = none ∧
        (editFile env s path content).2.tree.node other = some .directory ∧ other <+: resolved := by
  have made := DirectoryTree.makeDirs_grown env.unwritable resolved.dropLast s.tree.top other
  rw [List.nil_append] at made
  have longer : other <+: resolved.dropLast → other <+: resolved :=
    fun short => short.trans (List.dropLast_prefix resolved)
  have directories := made.imp_right (And.imp_right (And.imp_right longer))
  rcases editFile_cases env s path content with ⟨e, refused, _⟩ | ⟨resolved', same, edits⟩
  · rw [accepted] at refused
    cases refused
  · rw [accepted] at same
    cases same
    generalize editFile env s path content = after at edits ⊢
    cases edits with
    | refused => exact .inl rfl
    | stopped => exact directories
    | written _ _ =>
        have untouched : ∀ tree : ProjectTree,
            (tree.put resolved (.file (.content (some content)))).node other = tree.node other := by
          intro tree
          unfold DirectoryTree.put
          split
          · exact Function.update_of_ne apart _ _
          · rfl
        dsimp only
        rw [untouched]
        exact directories

theorem editFile_overrides : (editFile env s path content).2.overrides = s.overrides := by
  rcases editFile_cases env s path content with ⟨e, _, refused⟩ | ⟨resolved, _, edits⟩
  · rw [refused]
  · generalize editFile env s path content = after at edits ⊢
    cases edits <;> rfl

/-- An edit leaves the links as they are. -/
theorem editFile_links (env : SandboxEnv) (s : Sandbox) (path content : String) :
    LinkedTree.SameLinks s.tree (editFile env s path content).2.tree := by
  rcases editFile_cases env s path content with ⟨e, _, refused⟩ | ⟨resolved, accepted, edits⟩
  · rw [refused]
    exact .refl _
  · obtain ⟨root, _, _, free, _⟩ := resolveSandboxPath_ok accepted
    have links := LinkedTree.sameLinks_makeDirs env.unwritable s.tree.top
      resolved.dropLast
    generalize editFile env s path content = after at edits ⊢
    cases edits with
    | refused => exact .refl _
    | stopped => exact links
    | written _ _ =>
        refine links.trans (LinkedTree.sameLinks_put ?_)
        exact (links resolved).trans (free.noLink resolved List.prefix_rfl)

/-- A directory stays one. -/
theorem editFile_directory {dir : List String} (here : s.tree.node dir = some .directory) :
    (editFile env s path content).2.tree.node dir = some .directory := by
  rcases editFile_cases env s path content with ⟨e, _, refused⟩ | ⟨resolved, accepted, edits⟩
  · rw [refused]
    exact here
  · rcases eq_or_ne dir resolved with rfl | apart
    · generalize editFile env s path content = after at edits ⊢
      cases edits with
      | refused => exact here
      | stopped =>
          rcases DirectoryTree.makeDirs_grown env.unwritable dir.dropLast s.tree.top dir with
            same | ⟨absent, _⟩
          · exact same.trans here
          · rw [here] at absent
            cases absent
      | written notDir _ => exact absurd here notDir
    · rcases editFile_node content accepted dir apart with same | ⟨absent, _⟩
      · exact same.trans here
      · rw [here] at absent
        cases absent

/-- What is written is there. -/
theorem editFile_written {n : ℕ} (accepted : resolveSandboxPath env s path = .ok resolved)
    (done : (editFile env s path content).1 = .ok n) :
    (editFile env s path content).2.tree.node resolved =
      some (.file (.content (some content))) := by
  rcases editFile_cases env s path content with ⟨e, refused, _⟩ | ⟨resolved', same, edits⟩
  · rw [accepted] at refused
    cases refused
  · rw [accepted] at same
    cases same
    generalize editFile env s path content = after at edits done ⊢
    cases edits with
    | refused => cases done
    | stopped => cases done
    | written notDir made =>
        have parent := DirectoryTree.makeDirs_ok s.tree.top made List.prefix_rfl
        rw [List.nil_append] at parent
        have free : (DirectoryTree.makeDirs env.unwritable [] resolved.dropLast s.tree).2.node
            resolved ≠ some .directory := by
          rcases DirectoryTree.makeDirs_grown env.unwritable resolved.dropLast s.tree.top resolved
            with same | ⟨_, _, short⟩
          · rw [same]
            exact notDir
          · rw [List.nil_append] at short
            have shorter := short.length_le
            rw [List.length_dropLast] at shorter
            have none : resolved = [] := List.length_eq_zero_iff.mp (by omega)
            rw [none] at notDir
            exact absurd s.tree.top notDir
        dsimp only
        rw [DirectoryTree.put_node parent free, Function.update_self]

/-! ### Runs -/

/-- The tree has grown by what may be made, from the tree it was. -/
def GrownBelow (base : List String) (t t' : ProjectTree) : Prop :=
  ∀ path, ¬base <+: path → t'.node path = t.node path ∨
    t.node path = none ∧ t'.node path = some .directory ∧ path <+: base

/-- What a run keeps. -/
structure SandboxKept (env : SandboxEnv) (t : ProjectTree) (base : List String) (s : Sandbox) :
    Prop where
  links : LinkedTree.SameLinks t s.tree
  outside : GrownBelow base t s.tree
  scopes : ∀ scope ∈ s.overrides, base <+: scope ∧ LinkedTree.LinkFree s.tree scope ∧
    s.tree.node scope = some .directory

/-- The root of a tool lies in the configured sandbox. -/
theorem SandboxKept.below (kept : SandboxKept env t base s)
    (configured : configuredSandboxRoot env t = .ok base)
    (rooted : getSandboxRoot env s = .ok root) : base <+: root := by
  unfold getSandboxRoot at rooted
  split at rooted
  · rename_i scope rest scopes
    cases rooted
    exact (kept.scopes root (by rw [scopes]; exact List.mem_cons_self)).1
  · rw [configuredSandboxRoot_congr kept.links, configured] at rooted
    cases rooted
    exact List.prefix_rfl

theorem resolveWorkspaceRoot_ok {workspace : Option String}
    (found : resolveWorkspaceRoot env t workspace = .ok resolved) :
    ∃ base, configuredSandboxRoot env t = .ok base ∧ base <+: resolved ∧
      LinkedTree.LinkFree t resolved ∧ t.node resolved = some .directory := by
  unfold resolveWorkspaceRoot at found
  cases configured : configuredSandboxRoot env t with
  | error e =>
      rw [configured] at found
      cases found
  | ok base =>
      simp only [configured, bind, Except.bind] at found
      split at found
      · cases found
      · rename_i target arrived
        have free := resolvePath_linkFree arrived
        split at found
        · cases found
        · rename_i below
          split at found
          · cases found
          · rename_i dir
            cases found
            refine ⟨base, rfl, ?_, free, (isDir_iff free).mp (by simpa using dir)⟩
            exact List.isPrefixOf_iff_prefix.mp (by simpa using below)

/-- **Step lemma.** -/
theorem sandbox_step (configured : configuredSandboxRoot env t = .ok base)
    (kept : SandboxKept env t base s) (step : SandboxStep) :
    SandboxKept env t base (answerSandbox env s step).2 := by
  cases step with
  | enter workspace =>
      dsimp only [answerSandbox]
      cases found : resolveWorkspaceRoot env s.tree workspace with
      | error e => exact kept
      | ok resolved =>
          obtain ⟨base', configured', below, free, dir⟩ := resolveWorkspaceRoot_ok found
          rw [configuredSandboxRoot_congr kept.links, configured] at configured'
          cases configured'
          refine { kept with scopes := fun scope mem => ?_ }
          rcases List.mem_cons.mp mem with rfl | before
          · exact ⟨below, free, dir⟩
          · exact kept.scopes scope before
  | leave => exact { kept with scopes := fun scope mem => kept.scopes scope (List.mem_of_mem_tail mem) }
  | read path => exact kept
  | edit path content =>
      have links := editFile_links env s path content
      refine ⟨kept.links.trans links, fun other out => ?_, fun scope mem => ?_⟩
      · dsimp only [answerSandbox]
        cases accepted : resolveSandboxPath env s path with
        | error e =>
            rcases editFile_cases env s path content with ⟨_, _, refused⟩ | ⟨resolved, other', _⟩
            · rw [refused]
              exact kept.outside other out
            · rw [accepted] at other'
              cases other'
        | ok resolved =>
            obtain ⟨root, rooted, below, _, _⟩ := resolveSandboxPath_ok accepted
            have inside := (kept.below configured rooted).trans below
            have apart : other ≠ resolved := by
              rintro rfl
              exact out inside
            have before := kept.outside other out
            rcases editFile_node content accepted other apart with
              same | ⟨absent, now, short⟩
            · rw [same]
              exact before
            · refine .inr ⟨?_, now, (List.prefix_or_prefix_of_prefix short inside).resolve_right out⟩
              rcases before with same | ⟨none, _⟩
              · exact same.symm.trans absent
              · exact none
      · dsimp only [answerSandbox] at mem
        rw [editFile_overrides] at mem
        obtain ⟨below, free, dir⟩ := kept.scopes scope mem
        exact ⟨below, links.linkFree free, editFile_directory dir⟩

theorem sandbox_run (configured : configuredSandboxRoot env t = .ok base)
    (kept : SandboxKept env t base s) (steps : List SandboxStep) :
    SandboxKept env t base (serve (answerSandbox env) s steps).2 := by
  induction steps generalizing s with
  | nil => exact kept
  | cons step steps ih => exact ih (sandbox_step configured kept step)

/-! ### What is read -/

/-- A step writes what it says into a file, or leaves it as it is. -/
theorem written_step (env : SandboxEnv) (s : Sandbox) (target : List String) (step : SandboxStep) :
    match writtenBy env target s step with
    | some text => (answerSandbox env s step).2.tree.node target =
        some (.file (.content (some text)))
    | none => (answerSandbox env s step).2.tree.node target = s.tree.node target ∨
        s.tree.node target = none ∧
          (answerSandbox env s step).2.tree.node target = some .directory := by
  cases step with
  | enter workspace =>
      refine .inl ?_
      dsimp only [answerSandbox]
      split <;> rfl
  | leave => exact .inl rfl
  | read path => exact .inl rfl
  | edit path content =>
      dsimp only [answerSandbox, writtenBy]
      rcases editFile_cases env s path content with ⟨e, refused, same⟩ | ⟨resolved, accepted, edits⟩
      · rw [refused, same]
        exact .inl rfl
      · cases done : (editFile env s path content).1 with
        | error e =>
            rw [accepted]
            generalize editFile env s path content = after at edits done ⊢
            cases edits with
            | refused => exact .inl rfl
            | stopped =>
                rcases DirectoryTree.makeDirs_grown env.unwritable resolved.dropLast s.tree.top
                  target with same | ⟨absent, now, _⟩
                · exact .inl same
                · exact .inr ⟨absent, now⟩
            | written _ _ => cases done
        | ok n =>
            rw [accepted]
            dsimp only
            by_cases here : resolved = target
            · rw [if_pos here, ← here]
              exact editFile_written accepted done
            · rw [if_neg here]
              rcases editFile_node content accepted target (Ne.symm here) with
                same | ⟨absent, now, _⟩
              · exact .inl same
              · exact .inr ⟨absent, now⟩

/-- What a file holds after a run. -/
theorem written_run (env : SandboxEnv) (s : Sandbox) (target : List String)
    (steps : List SandboxStep) :
    match lastWritten env target s steps with
    | some text => (serve (answerSandbox env) s steps).2.tree.node target =
        some (.file (.content (some text)))
    | none => (serve (answerSandbox env) s steps).2.tree.node target = s.tree.node target ∨
        s.tree.node target = none ∧
          (serve (answerSandbox env) s steps).2.tree.node target = some .directory := by
  induction steps generalizing s with
  | nil => exact .inl rfl
  | cons step steps ih =>
      have first := written_step env s target step
      have later := ih (answerSandbox env s step).2
      rw [serve, lastWritten]
      dsimp only
      cases last : lastWritten env target (answerSandbox env s step).2 steps with
      | some text =>
          rw [last] at later
          exact later
      | none =>
          rw [last] at later
          rw [Option.none_or]
          cases wrote : writtenBy env target s step with
          | some text =>
              rw [wrote] at first
              dsimp only at first later ⊢
              rcases later with same | ⟨absent, _⟩
              · exact same.trans first
              · rw [first] at absent
                cases absent
          | none =>
              rw [wrote] at first
              dsimp only at first later ⊢
              rcases later with same | ⟨absent, now⟩
              · rw [same]
                exact first
              · rcases first with before | ⟨_, made⟩
                · exact .inr ⟨before.symm.trans absent, now⟩
                · rw [made] at absent
                  cases absent

theorem readFile_of_reads {target : List String} (reads : ReadsFile env s path target) :
    readFile env s path = readTarget env s.tree path target := by
  obtain ⟨root, rooted, below, found⟩ := reads
  have inside : root.isPrefixOf target = true := List.isPrefixOf_iff_prefix.mpr below
  simp only [readFile, rooted, found, bind, Except.bind, inside, Bool.not_true, Bool.false_eq_true,
    if_false]

theorem reads_of_ok {text : String} (read : readFile env s path = .ok text) :
    ∃ target, ReadsFile env s path target := by
  unfold readFile at read
  cases rooted : getReadRoot env s with
  | error e =>
      rw [rooted] at read
      cases read
  | ok root =>
      rw [rooted] at read
      cases found : resolvePath env s.tree (Path.join root path) with
      | error e =>
          simp only [found, bind, Except.bind] at read
          cases read
      | ok target =>
          simp only [found, bind, Except.bind] at read
          split at read
          · cases read
          · rename_i below
            exact ⟨target, root, rooted, List.isPrefixOf_iff_prefix.mp (by simpa using below), found⟩

/-- In a scope, and where the sandbox is configured, a path is the same file for both tools. -/
theorem getReadRoot_eq (bound : s.overrides ≠ [] ∨ env.sandboxEnv ≠ none) :
    getReadRoot env s = getSandboxRoot env s := by
  unfold getReadRoot getSandboxRoot
  cases scopes : s.overrides with
  | cons scope rest => rfl
  | nil =>
      have configured := bound.resolve_left (fun some_ => some_ scopes)
      unfold configuredSandboxRoot
      cases set : env.sandboxEnv with
      | none => exact absurd set configured
      | some root =>
          rw [Option.getD_some]
          rcases eq_or_ne root "" with rfl | named
          · have here : Path.join env.cwd "" = env.cwd := by
              rw [Path.join, if_neg (by decide)]
              exact List.append_nil _
            rw [here]
            rfl
          · simp only

/-- The outcome of a run that began with a tree and in no scope. -/
structure SandboxConfined (env : SandboxEnv) (t : ProjectTree) (base : List String)
    (steps : List SandboxStep) (s : Sandbox) : Prop where
  /-- Outside the sandbox nothing changes, but that the sandbox itself may be made. -/
  outside : ∀ path, ¬base <+: path → s.tree.node path = t.node path ∨
    t.node path = none ∧ s.tree.node path = some .directory ∧ path <+: base
  links : LinkedTree.SameLinks t s.tree
  scopes : ∀ scope ∈ s.overrides, base <+: scope
  /-- An edit in a scope changes nothing outside it. -/
  within : ∀ scope rest, s.overrides = scope :: rest → ∀ path content other, ¬scope <+: other →
    (editFile env s path content).2.tree.node other = s.tree.node other
  /-- A read gives what was written into its file last, by whatever path. -/
  reads : ∀ path target, ReadsFile env s path target → readFile env s path =
    match lastWritten env target ⟨t, []⟩ steps with
    | some text => readContent env target (some text)
    | none => readTarget env t path target
  /-- Nothing else is read. -/
  refused : ∀ path text, readFile env s path = .ok text → ∃ target, ReadsFile env s path target
  sameRoot : s.overrides ≠ [] ∨ env.sandboxEnv ≠ none → getReadRoot env s = getSandboxRoot env s

end

/-- A sandbox with a link that leads out of it. -/
def linkedSandbox : ProjectTree where
  node path :=
    if path = [] ∨ path = ["w"] then some .directory
    else if path = ["w", "out"] then some (.file (.link "/etc"))
    else none
  top := rfl
  within := by
    intro path name there
    have parent : path = [] ∨ path = ["w"] := by
      by_contra other
      rw [not_or] at other
      have first : path ++ [name] ≠ ["w"] := fun same =>
        other.1 (List.append_inj' (show path ++ [name] = [] ++ ["w"] from same) rfl).1
      have second : path ++ [name] ≠ ["w", "out"] := fun same =>
        other.2 (List.append_inj' (show path ++ [name] = ["w"] ++ ["out"] from same) rfl).1
      simp [first, second] at there
    exact if_pos parent

def sampleSandboxEnv : SandboxEnv where
  cwd := ["w"]
  sandboxEnv := some "/w"
  links := 40
  unreadable _ := none
  repr workspace := workspace.getD "None"

end AgentOs
