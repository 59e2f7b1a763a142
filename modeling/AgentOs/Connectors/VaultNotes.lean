import AgentOs.Connectors.Frontmatter
import AgentOs.Connectors.MarkdownVault
import AgentOs.Lib.Directories

/-!
Notes of a vault with directories (`MarkdownVaultConnector`, `connectors.py`).

`writeNote` resolves its reference, makes the directories on the way and writes the file;
`readNote` opens the path as it stands. Links are not modelled.

`notes_left_alone_iff`: a write leaves another note alone exactly when the two files are different
and neither is on the way to the other. A reference with a dot in its last name may name the file
of another (`dotted_notes_meet`).
-/

namespace AgentOs

open AgentOs.Lib

namespace MarkdownVault

/-- The text of each file, or `none` where its bytes are not UTF-8. -/
abbrev VaultTree := DirectoryTree (Option String)

/-- The paths that cannot be opened, and why. -/
structure VaultAccess where
  unreadable : List String → Option String := fun _ => none
  /-- or made -/
  unwritable : List String → Option String := fun _ => none

inductive NoteError where
  | valueError (message : String)
  | fileExists (message : String)
  | undecodable
  | system (error : OsError)
deriving DecidableEq, Repr

/-- `root / ref`, with the suffix of a note. -/
def unresolvedPath (root : VaultRoot) (ref : String) : Option (List String) :=
  (Path.join root.parts ref).getLast?.map fun name =>
    (Path.join root.parts ref).dropLast ++ [noteName name]

/-! ### Reading -/

/-- `\[\[(.*?)\]\]` -/
def linkAt : List Char → Option (List Char)
  | '[' :: '[' :: cs =>
      (Text.cutList [']', ']'] cs).bind fun found => if '\n' ∈ found.1 then none else some found.1
  | _ => none

/-- `re.findall`, behind so many characters of the last match. -/
def findLinks : ℕ → List Char → List String
  | _, [] => []
  | skip + 1, _ :: cs => findLinks skip cs
  | 0, c :: cs =>
      match linkAt (c :: cs) with
      | some link => .ofList link :: findLinks (link.length + 3) cs
      | none => findLinks 0 cs

structure Note where
  ref : String
  content : String
  frontmatter : Frontmatter
  links : List String
deriving DecidableEq

/-- The file that `read_note` opens, and its bytes. -/
def noteFile (root : VaultRoot) (t : VaultTree) (ref : String) :
    Except NoteError (List String × Option String) :=
  match unresolvedPath root ref with
  | none => .error (.valueError "PosixPath('/') has an empty name")
  | some names =>
      if hasNul ref then .error (.valueError "embedded null byte")
      else (t.openFrom [] names).mapError NoteError.system

/-- `read_text` -/
def noteText (access : VaultAccess) : List String × Option String → Except NoteError String
  | (path, text) =>
      match access.unreadable path, text with
      | some message, _ => .error (.system (.refused message))
      | none, none => .error .undecodable
      | none, some text => .ok (readText text)

/-- `MarkdownVaultConnector.read_note` -/
def readNote (access : VaultAccess) (root : VaultRoot) (t : VaultTree) (ref : String) :
    Except NoteError Note :=
  match (noteFile root t ref).bind (noteText access) with
  | .error (.system .fileNotFound) => .error (.valueError ("Note not found: " ++ ref))
  | .error e => .error e
  | .ok content =>
      .ok { ref, content
            frontmatter := parseFrontmatter content
            links := findLinks 0 content.toList }

/-! ### Writing -/

structure NoteWrite where
  ref : String
  content : String
  frontmatter : Frontmatter := {}
  mode : MemoryWriteMode := .create
deriving DecidableEq

/-- What the file holds after a write, and what `write` returns. -/
def NoteWrite.text (write : NoteWrite) (old : Option (TreeNode (Option String))) :
    Option String × ℕ :=
  match write.mode, old with
  | .create, _ | .overwrite, _ =>
      let final := serializeMarkdownWithFrontmatter write.content write.frontmatter
      (some final, final.toList.length)
  | .append, some (.file none) => (none, write.content.toList.length + 1)
  | .append, some (.file (some old)) =>
      if old = "" then (some write.content, write.content.toList.length)
      else (some (old ++ "\n" ++ write.content), write.content.toList.length + 1)
  | .append, _ => (some write.content, write.content.toList.length)

/-- The file is opened and written, in its directory. -/
def writeInto (access : VaultAccess) (root : VaultRoot) (path : List String) (write : NoteWrite)
    (t : VaultTree) : Except NoteError MemoryWriteResult × VaultTree :=
  if write.mode = .create ∧ t.node path ≠ none then
    (.error (.fileExists ("Note already exists: " ++ write.ref)), t)
  else if t.node path = some .directory then (.error (.system .isADirectory), t)
  else
    match access.unwritable path with
    | some message => (.error (.system (.refused message)), t)
    | none =>
        let written := write.text (t.node path)
        (.ok { ref := asPosix (path.drop root.parts.length), mode := write.mode.text,
               bytesWritten := some written.2, committed := true },
          t.put path (.file written.1))

/-- `MarkdownVaultConnector.write_note` -/
def writeNote (access : VaultAccess) (root : VaultRoot) (t : VaultTree) (write : NoteWrite) :
    Except NoteError MemoryWriteResult × VaultTree :=
  match notePath root write.ref with
  | .error message => (.error (.valueError message), t)
  | .ok path =>
      match DirectoryTree.makeDirs access.unwritable [] path.dropLast t with
      | (.error e, t) => (.error (.system e), t)
      | (.ok (), t) => writeInto access root path write t

/-- Writes one after another. -/
def writeAll (access : VaultAccess) (root : VaultRoot) (t : VaultTree) (writes : List NoteWrite) :
    VaultTree :=
  writes.foldl (fun t write => (writeNote access root t write).2) t

/-- The write has gone through. -/
def Committed (done : Except NoteError MemoryWriteResult × VaultTree) : Prop :=
  ∃ result, done.1 = .ok result

/-! ### Paths -/

section

variable {root : VaultRoot} {ref : String} {names path : List String}

/-- The last name of a path is a note's, and stays when the path is resolved. -/
theorem resolve_unresolvedPath (named : unresolvedPath root ref = some names) :
    ∃ name, names = names.dropLast ++ [name] ∧
      Path.resolve names = Path.resolve names.dropLast ++ [name] := by
  obtain ⟨name, -, rfl⟩ := Option.map_eq_some_iff.mp named
  refine ⟨noteName name, by rw [List.dropLast_concat], ?_⟩
  rw [List.dropLast_concat, Path.resolve_append, List.foldl_cons, List.foldl_nil, Path.enter,
    if_neg (noteName_ne_up name)]

/-- The path of a note is its reference resolved, where it lies in the vault. -/
theorem notePath_ok_iff : notePath root ref = .ok path ↔ hasNul ref = false ∧
    root.parts <+: path ∧ ∃ names, unresolvedPath root ref = some names ∧
      Path.resolve names = path := by
  unfold notePath unresolvedPath
  dsimp only
  cases (Path.join root.parts ref).getLast? with
  | none => simp
  | some name =>
      dsimp only
      rw [Option.map_some]
      constructor
      · intro ok
        split at ok
        · cases ok
        · rename_i passes
          simp only [Bool.or_eq_true, Bool.not_eq_true', not_or, Bool.not_eq_true,
            Bool.not_eq_false, List.isPrefixOf_iff_prefix] at passes
          cases ok
          exact ⟨passes.1, passes.2, _, rfl, rfl⟩
      · rintro ⟨nul, inside, names, same, rfl⟩
        cases same
        rw [nul, List.isPrefixOf_iff_prefix.mpr inside]
        rfl

/-- A path has a name. -/
theorem notePath_eq_concat (named : notePath root ref = .ok path) :
    ∃ name, path = path.dropLast ++ [name] := by
  obtain ⟨-, -, names, there, rfl⟩ := notePath_ok_iff.mp named
  obtain ⟨name, -, resolved⟩ := resolve_unresolvedPath there
  exact ⟨name, by rw [resolved, List.dropLast_concat]⟩

/-- A relative reference without `..`, that names something. -/
structure PlainRef (ref : String) : Prop where
  relative : Path.isAbsolute ref = false
  named : Path.parts ref ≠ []
  straight : ".." ∉ Path.parts ref

/-- A plain reference leads where it says. -/
theorem PlainRef.leads (plain : PlainRef ref) (root : VaultRoot) : ∃ name path,
    (Path.parts ref).getLast? = some name ∧
      path = root.parts ++ (directories ref ++ [noteName name]) ∧
      unresolvedPath root ref = some path ∧ (∀ other ∈ path, other ≠ "..") ∧
      (hasNul ref = false → notePath root ref = .ok path) := by
  obtain ⟨name, last⟩ := Option.ne_none_iff_exists'.mp
    (List.getLast?_eq_none_iff.not.mpr plain.named)
  have joined : Path.join root.parts ref = root.parts ++ (directories ref ++ [name]) := by
    rw [Path.join, plain.relative, if_neg Bool.false_ne_true, directories,
      List.dropLast_append_getLast? name last]
  have named : unresolvedPath root ref =
      some (root.parts ++ (directories ref ++ [noteName name])) := by
    rw [unresolvedPath, joined, ← List.append_assoc, List.getLast?_concat, List.dropLast_concat,
      Option.map_some, List.append_assoc]
  have straight : ∀ other ∈ root.parts ++ (directories ref ++ [noteName name]), other ≠ ".." := by
    intro other mem
    rcases List.mem_append.mp mem with inRoot | inRef
    · exact root.plain other inRoot
    · rcases List.mem_append.mp inRef with inDirectories | isLast
      · rintro rfl
        exact plain.straight (List.dropLast_subset _ inDirectories)
      · rw [List.mem_singleton.mp isLast]
        exact noteName_ne_up name
  exact ⟨name, _, last, rfl, named, straight, fun nul => notePath_ok_iff.mpr
    ⟨nul, List.prefix_append _ _, _, named, Path.resolve_of_plain straight⟩⟩

theorem PlainRef.notePath_eq (plain : PlainRef ref) (named : notePath root ref = .ok path) :
    ∃ name, (Path.parts ref).getLast? = some name ∧
      path = root.parts ++ (directories ref ++ [noteName name]) := by
  obtain ⟨name, _, last, rfl, -, -, ok⟩ := plain.leads root
  refine ⟨name, last, ?_⟩
  rw [ok (notePath_ok_iff.mp named).1] at named
  exact (Except.ok.inj named).symm

end

/-! ### What a write leaves -/

section

variable {access : VaultAccess} {root : VaultRoot} {t : VaultTree} {write : NoteWrite}
  {path other : List String}

theorem writeInto_other (ne : other ≠ path) :
    (writeInto access root path write t).2.node other = t.node other := by
  unfold writeInto
  split
  · rfl
  · split
    · rfl
    · rename_i free
      cases access.unwritable path with
      | some message => rfl
      | none =>
          dsimp only
          by_cases parent : t.node path.dropLast = some .directory
          · rw [DirectoryTree.put_node parent free, Function.update_of_ne ne]
          · rw [DirectoryTree.put, dif_neg fun h => parent h.1]

/-- A write changes its file, and makes directories on the way. -/
theorem writeNote_other (named : notePath root write.ref = .ok path) (ne : other ≠ path) :
    (writeNote access root t write).2.node other = t.node other ∨
      t.node other = none ∧ (writeNote access root t write).2.node other = some .directory ∧
        other <+: path.dropLast := by
  have grown := DirectoryTree.makeDirs_grown access.unwritable path.dropLast t.top other
  rw [List.nil_append] at grown
  rw [writeNote, named]
  dsimp only
  cases done : DirectoryTree.makeDirs access.unwritable [] path.dropLast t with
  | mk made after =>
      rw [done] at grown
      cases made with
      | error e => exact grown
      | ok _ => rwa [writeInto_other ne]

theorem writeNote_of_error {message : String} (refused : notePath root write.ref = .error message) :
    writeNote access root t write = (.error (.valueError message), t) := by
  rw [writeNote, refused]

/-- Making the directories of a note leaves what is at its path. -/
theorem makeDirs_note (access : VaultAccess) (t : VaultTree)
    (named : notePath root write.ref = .ok path) :
    (DirectoryTree.makeDirs access.unwritable [] path.dropLast t).2.node path = t.node path := by
  obtain ⟨name, concat⟩ := notePath_eq_concat named
  rcases DirectoryTree.makeDirs_grown access.unwritable path.dropLast t.top path with
    same | ⟨-, -, above⟩
  · exact same
  · have shorter := above.length_le
    rw [concat, List.nil_append, List.dropLast_concat, List.length_append,
      List.length_singleton] at shorter
    omega

theorem writeInto_create_iff (create : write.mode = .create) :
    Committed (writeInto access root path write t) ↔
      t.node path = none ∧ access.unwritable path = none := by
  unfold writeInto Committed
  cases there : t.node path with
  | some node => simp [create]
  | none => cases refuses : access.unwritable path <;> simp

/-- **A note is created** where nothing is, when its directories can be made. -/
theorem create_committed_iff (named : notePath root write.ref = .ok path)
    (create : write.mode = .create) : Committed (writeNote access root t write) ↔
      t.node path = none ∧ access.unwritable path = none ∧
        ∀ way, way <+: path.dropLast → way ≠ [] → t.node way = some .directory ∨
          t.node way = none ∧ access.unwritable way = none := by
  have there := makeDirs_note access t named
  have dirs : (DirectoryTree.makeDirs access.unwritable [] path.dropLast t).1 = .ok () ↔ _ :=
    DirectoryTree.makeDirs_ok_iff t.top
  simp only [List.nil_append] at dirs
  rw [writeNote, named, ← dirs]
  dsimp only
  cases done : DirectoryTree.makeDirs access.unwritable [] path.dropLast t with
  | mk made after =>
      rw [done] at there
      cases made with
      | error e => simp [Committed]
      | ok _ =>
          dsimp only at there ⊢
          rw [writeInto_create_iff create, there]
          simp

/-- What is written into a directory is a file. -/
theorem Committed.file (done : Committed (writeInto access root path write t))
    (parent : t.node path.dropLast = some .directory) :
    (writeInto access root path write t).2.node path =
      some (.file (write.text (t.node path)).1) := by
  unfold Committed writeInto at done
  unfold writeInto
  split at done
  · obtain ⟨_, refused⟩ := done
    cases refused
  · rename_i creates
    split at done
    · obtain ⟨_, refused⟩ := done
      cases refused
    · rename_i free
      rw [if_neg creates, if_neg free]
      split at done
      · obtain ⟨_, refused⟩ := done
        cases refused
      · dsimp only
        rw [DirectoryTree.put_node parent free, Function.update_self]

/-- What has been written is a file, in directories. -/
theorem Committed.node (done : Committed (writeNote access root t write))
    (named : notePath root write.ref = .ok path) :
    (writeNote access root t write).2.node path = some (.file (write.text (t.node path)).1) ∧
      ∀ way, way <+: path.dropLast →
        (writeNote access root t write).2.node way = some .directory := by
  obtain ⟨name, concat⟩ := notePath_eq_concat named
  have before := makeDirs_note access t named
  rw [writeNote, named] at done ⊢
  dsimp only at done ⊢
  have made : ∀ {way}, (DirectoryTree.makeDirs access.unwritable [] path.dropLast t).1 = .ok () →
      way <+: path.dropLast →
        (DirectoryTree.makeDirs access.unwritable [] path.dropLast t).2.node way =
          some .directory := by
    intro way ok short
    have there := DirectoryTree.makeDirs_ok t.top ok short
    rwa [List.nil_append] at there
  cases dirs : DirectoryTree.makeDirs access.unwritable [] path.dropLast t with
  | mk ok after =>
      rw [dirs] at done made before
      cases ok with
      | error e =>
          obtain ⟨_, refused⟩ := done
          cases refused
      | ok _ =>
          refine ⟨?_, fun way short => ?_⟩
          · rw [← before]
            exact done.file (made rfl List.prefix_rfl)
          · have ne : way ≠ path := by
              rintro rfl
              have shorter := short.length_le
              rw [List.length_dropLast, concat, List.length_append,
                List.length_singleton] at shorter
              omega
            rw [writeInto_other ne]
            exact made rfl short

end

/-! ### Notes that are left alone -/

/-- A write to one reference leaves what is read under another, and whether it can be created. -/
def LeavesAlone (root : VaultRoot) (ref other : String) : Prop :=
  ∀ (access : VaultAccess) (start : VaultTree) (writes : List NoteWrite) (write : NoteWrite),
    write.ref = ref →
      let t := writeAll access root start writes
      readNote access root (writeNote access root t write).2 other = readNote access root t other ∧
        ∀ create : NoteWrite, create.ref = other → create.mode = .create →
          Committed (writeNote access root t create) →
            Committed (writeNote access root (writeNote access root t write).2 create)

/-- The files are different, and neither is on the way to the other. -/
def NotesApart (root : VaultRoot) (ref other : String) : Prop :=
  ∀ path path', notePath root ref = .ok path → notePath root other = .ok path' →
    ¬path <+: path' ∧ ¬path' <+: path

section

variable {access : VaultAccess} {root : VaultRoot} {t : VaultTree} {write create : NoteWrite}
  {ref other : String}

/-- On the way to a note apart, a write makes directories at most. -/
theorem writeNote_beside (access : VaultAccess) (t : VaultTree) {path path' way : List String}
    (named : notePath root write.ref = .ok path)
    (apart : ¬path <+: path' ∧ ¬path' <+: path) (short : way <+: path') :
    (writeNote access root t write).2.node way = t.node way ∨
      t.node way = none ∧ (writeNote access root t write).2.node way = some .directory ∧
        way ≠ path' := by
  have ne : way ≠ path := by
    rintro rfl
    exact apart.1 short
  refine (writeNote_other named ne).imp_right fun made => ⟨made.1, made.2.1, ?_⟩
  rintro rfl
  exact apart.2 (made.2.2.trans (List.dropLast_prefix path))

/-- What is read elsewhere stays. -/
theorem readNote_writeNote (apart : NotesApart root write.ref other) (plain : PlainRef other) :
    readNote access root (writeNote access root t write).2 other =
      readNote access root t other := by
  obtain ⟨-, path', -, -, leads, straight, named'⟩ := plain.leads root
  unfold readNote noteFile
  rw [leads]
  dsimp only
  cases nul : hasNul other with
  | true => rfl
  | false =>
      cases named : notePath root write.ref with
      | error message => rw [writeNote_of_error named]
      | ok path =>
          have opened : (writeNote access root t write).2.openFrom [] path' =
              t.openFrom [] path' :=
            DirectoryTree.openFrom_grown
              (fun _ short => writeNote_beside access t named (apart path path' named (named' nul)) short)
              straight
          rw [opened]

/-- What can be created elsewhere still can. -/
theorem create_writeNote (apart : NotesApart root write.ref create.ref)
    (creates : create.mode = .create) (done : Committed (writeNote access root t create)) :
    Committed (writeNote access root (writeNote access root t write).2 create) := by
  cases named : notePath root write.ref with
  | error message => rwa [writeNote_of_error named]
  | ok path =>
      cases named' : notePath root create.ref with
      | error message =>
          rw [writeNote_of_error named'] at done
          obtain ⟨_, refused⟩ := done
          cases refused
      | ok path' =>
          have beside : ∀ {way}, way <+: path' → _ := fun short =>
            writeNote_beside access t named (apart path path' named named') short
          rw [create_committed_iff named' creates] at done ⊢
          obtain ⟨absent, opens, ways⟩ := done
          refine ⟨?_, opens, fun way short some_ => ?_⟩
          · rcases beside List.prefix_rfl with same | ⟨-, -, ne⟩
            · exact same.trans absent
            · exact absurd rfl ne
          · rcases beside (short.trans (List.dropLast_prefix path')) with same | ⟨-, made, -⟩
            · rw [same]
              exact ways way short some_
            · exact .inl made

end

/-- A tree without a file. -/
def emptyTree : VaultTree where
  node path := if path = [] then some .directory else none
  top := rfl
  within := by
    intro path name there
    simp at there

/-- In an empty tree a note can be created. -/
theorem create_emptyTree {root : VaultRoot} {path : List String} (create : NoteWrite)
    (named : notePath root create.ref = .ok path) (creates : create.mode = .create) :
    Committed (writeNote {} root emptyTree create) := by
  obtain ⟨name, concat⟩ := notePath_eq_concat named
  refine (create_committed_iff named creates).mpr ⟨?_, rfl, fun way _ some_ => ?_⟩
  · exact if_neg (by rw [concat]; simp)
  · exact .inr ⟨if_neg some_, rfl⟩

/-- A note on the way to another, or the same, keeps it from being created. -/
theorem not_leavesAlone {root : VaultRoot} {path path' : List String} (write create : NoteWrite)
    (named : notePath root write.ref = .ok path) (named' : notePath root create.ref = .ok path')
    (creates : write.mode = .create) (creates' : create.mode = .create)
    (meet : path <+: path' ∨ path' <+: path) : ¬LeavesAlone root write.ref create.ref := by
  intro alone
  have first := create_emptyTree write named creates
  have second := create_emptyTree create named' creates'
  have both := (alone {} emptyTree [] write rfl).2 create rfl creates' second
  obtain ⟨absent, -, ways⟩ := (create_committed_iff named' creates').mp both
  obtain ⟨file, directories⟩ := first.node named
  obtain ⟨name, concat⟩ := notePath_eq_concat named
  obtain ⟨name', concat'⟩ := notePath_eq_concat named'
  have filled : ∀ {node}, (writeNote {} root emptyTree write).2.node path' = some node → False := by
    intro node there
    exact absurd (there.symm.trans absent) (by simp)
  rcases meet with onTheWay | onTheWay
  · rw [concat', List.prefix_concat_iff, ← concat'] at onTheWay
    rcases onTheWay with rfl | above
    · exact filled file
    · have some_ : path ≠ [] := by
        rw [concat]
        simp
      rcases ways path above some_ with directory | ⟨missing, -⟩
      · exact absurd (file.symm.trans directory) (by simp)
      · exact absurd (file.symm.trans missing) (by simp)
  · rw [concat, List.prefix_concat_iff, ← concat] at onTheWay
    rcases onTheWay with rfl | above
    · exact filled file
    · exact filled (directories path' above)

/-- **A write leaves another note alone** exactly when the two files are different and neither is
on the way to the other. -/
theorem notes_left_alone_iff (root : VaultRoot) {ref other : String} (plain : PlainRef ref)
    (plain' : PlainRef other) :
    LeavesAlone root ref other ∧ LeavesAlone root other ref ↔ NotesApart root ref other := by
  constructor
  · rintro ⟨alone, -⟩ path path' named named'
    rw [← not_or]
    exact fun meet => not_leavesAlone ⟨ref, "", {}, .create⟩ ⟨other, "", {}, .create⟩ named named'
      rfl rfl meet alone
  · intro apart
    have back : NotesApart root other ref := fun path path' named named' =>
      (apart path' path named' named).symm
    refine ⟨?_, ?_⟩
    · rintro access start writes write rfl
      refine ⟨readNote_writeNote apart plain', ?_⟩
      rintro create rfl creates done
      exact create_writeNote apart creates done
    · rintro access start writes write rfl
      refine ⟨readNote_writeNote back plain, ?_⟩
      rintro create rfl creates done
      exact create_writeNote back creates done

/-! ### Names without dots -/

/-- A name without an optional `.md`. -/
def withoutMd (name : String) : String :=
  if Path.endsWith name ".md" then .ofList (name.toList.take (name.toList.length - 3)) else name

/-- A plain reference with no dot but that of `.md`, through directories that are not named like
notes. -/
structure DotlessRef (ref : String) : Prop extends PlainRef ref where
  unlike : ∀ name ∈ directories ref, Path.endsWith name ".md" = false
  dotless : ∀ name ∈ (Path.parts ref).getLast?, '.' ∉ (withoutMd name).toList

theorem noteName_of_dotless {name : String} (dotless : '.' ∉ (withoutMd name).toList) :
    noteName name = withoutMd name ++ ".md" := by
  unfold withoutMd at dotless ⊢
  unfold noteName
  cases ends : Path.endsWith name ".md" with
  | true =>
      obtain ⟨base, same⟩ := List.isSuffixOf_iff_suffix.mp ends
      rw [if_pos rfl, if_pos rfl, ← String.toList_inj, String.toList_append,
        String.toList_ofList, ← same]
      simp
  | false =>
      rw [ends, if_neg Bool.false_ne_true] at dotless
      have all : ∀ c ∈ name.toList.reverse, decide (c ≠ '.') = true := by
        intro c mem
        refine decide_eq_true ?_
        rintro rfl
        exact dotless (List.mem_reverse.mp mem)
      have whole : Path.stem name = name := by
        unfold Path.stem
        rw [List.dropWhile_eq_nil_iff.mpr all]
        rfl
      rw [if_neg Bool.false_ne_true, if_neg Bool.false_ne_true, Path.withSuffix, whole]

/-- The note of such a reference is not on the way to another. -/
theorem DotlessRef.not_prefix {root : VaultRoot} {ref other : String} {path path' : List String}
    (dotless : DotlessRef ref) (dotless' : DotlessRef other)
    (differ : directories ref ≠ directories other ∨
      (Path.parts ref).getLast?.map withoutMd ≠ (Path.parts other).getLast?.map withoutMd)
    (named : notePath root ref = .ok path) (named' : notePath root other = .ok path') :
    ¬path <+: path' := by
  obtain ⟨name, last, rfl⟩ := dotless.notePath_eq named
  obtain ⟨name', last', rfl⟩ := dotless'.notePath_eq named'
  have suffixed := noteName_of_dotless (dotless.dotless name last)
  rw [List.prefix_append_right_inj, List.prefix_concat_iff]
  rintro (same | above)
  · obtain ⟨sameDirectories, sameNames⟩ := List.append_inj' same rfl
    have names : withoutMd name ++ ".md" = withoutMd name' ++ ".md" := by
      rw [← suffixed, ← noteName_of_dotless (dotless'.dotless name' last')]
      exact List.singleton_injective sameNames
    have bases : withoutMd name = withoutMd name' := by
      rw [← String.toList_inj] at names ⊢
      rw [String.toList_append, String.toList_append] at names
      exact List.append_cancel_right names
    rcases differ with other | other
    · exact other sameDirectories
    · rw [last, last', Option.map_some, Option.map_some, bases] at other
      exact other rfl
  · have through : noteName name ∈ directories other := above.subset (by simp)
    have ends : Path.endsWith (noteName name) ".md" = true := by
      rw [suffixed, Path.endsWith, String.toList_append]
      exact List.isSuffixOf_iff_suffix.mpr (List.suffix_append _ _)
    rw [dotless'.unlike _ through] at ends
    cases ends

/-- **Two notes are apart** when their references have no such dots and differ in more than `.md`. -/
theorem notesApart_of_dotless (root : VaultRoot) {ref other : String} (dotless : DotlessRef ref)
    (dotless' : DotlessRef other)
    (differ : directories ref ≠ directories other ∨
      (Path.parts ref).getLast?.map withoutMd ≠ (Path.parts other).getLast?.map withoutMd) :
    NotesApart root ref other := fun _ _ named named' =>
  ⟨dotless.not_prefix dotless' differ named named',
    dotless'.not_prefix dotless (differ.imp Ne.symm Ne.symm) named' named⟩

section Vaults

def vaultRoot : VaultRoot := ⟨["vault"], by decide⟩

/-- A note, and one in a directory. -/
theorem notes_left_alone_inbox :
    LeavesAlone vaultRoot "inbox" "work/inbox.md" ∧ LeavesAlone vaultRoot "work/inbox.md" "inbox" := by
  have inbox : notePath vaultRoot "inbox" = .ok ["vault", "inbox.md"] := by decide +kernel
  have work : notePath vaultRoot "work/inbox.md" = .ok ["vault", "work", "inbox.md"] := by
    decide +kernel
  refine (notes_left_alone_iff vaultRoot ⟨by decide, by decide +kernel, by decide +kernel⟩
    ⟨by decide, by decide +kernel, by decide +kernel⟩).mpr ?_
  intro path path' named named'
  rw [inbox] at named
  rw [work] at named'
  cases named
  cases named'
  decide

/-- Behind the last dot of a name a reference says nothing: both notes are `v1.md`. -/
theorem dotted_notes_meet :
    PlainRef "v1.2" ∧ PlainRef "v1.3" ∧ Path.endsWith "v1.2" ".md" = false ∧
      Path.endsWith "v1.3" ".md" = false ∧
      ¬(LeavesAlone vaultRoot "v1.2" "v1.3" ∧ LeavesAlone vaultRoot "v1.3" "v1.2") := by
  have older : notePath vaultRoot "v1.2" = .ok ["vault", "v1.md"] := by decide +kernel
  have newer : notePath vaultRoot "v1.3" = .ok ["vault", "v1.md"] := by decide +kernel
  refine ⟨⟨by decide, by decide +kernel, by decide +kernel⟩,
    ⟨by decide, by decide +kernel, by decide +kernel⟩, by decide, by decide, ?_⟩
  rintro ⟨alone, -⟩
  exact not_leavesAlone ⟨"v1.2", "", {}, .create⟩ ⟨"v1.3", "", {}, .create⟩ older newer rfl rfl
    (.inl List.prefix_rfl) alone

end Vaults

end MarkdownVault

end AgentOs
