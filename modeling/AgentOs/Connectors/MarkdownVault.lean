import AgentOs.Lib.Path
import AgentOs.Policy.MemoryGate
import Mathlib.Logic.Function.Basic

/-!
The Markdown vault (`MarkdownVaultConnector`, `connectors.py`).

A note is a file under the vault's root. Which file a reference names is
`notePath`: the reference is read as a path below the root, or from `/` where it
is absolute; its last name gets the suffix `.md`; `..` is resolved; and what ends
outside the root is refused. Directories and links are not modelled: `blocked`
says which paths cannot be opened, and why.
-/

namespace AgentOs

open AgentOs.Lib

/-- The root of a vault, resolved. -/
structure VaultRoot where
  parts : List String
  plain : ∀ name ∈ parts, name ≠ ".."

structure FileSystem where
  files : List String → Option String := fun _ => none
  blocked : List String → Option String := fun _ => none

/-- The last name of a path, with the suffix of a note. -/
def noteName (name : String) : String :=
  if Path.endsWith name ".md" then name else Path.withSuffix name ".md"

/-- A name of the reference holds a NUL. What the suffix takes the place of is not looked at. -/
def hasNul (ref : String) : Bool :=
  ((Path.parts ref).dropLast ++ ((Path.parts ref).getLast?.map noteName).toList).any
    (·.toList.contains '\x00')

/-- The file a reference names. -/
def notePath (root : VaultRoot) (ref : String) : Except String (List String) :=
  let path := Path.join root.parts ref
  match path.getLast? with
  | none => .error "PosixPath('/') has an empty name"
  | some name =>
      let path := Path.resolve (path.dropLast ++ [noteName name])
      -- The file system refuses a name with a NUL before it looks at the root.
      if hasNul ref || !root.parts.isPrefixOf path then
        .error ("Path traversal detected: " ++ ref)
      else .ok path

/-- `open` and `write` on a path. -/
def writeFile (path : List String) (text : String) (fs : FileSystem) : Except String Nat × FileSystem :=
  match fs.blocked path with
  | some e => (.error e, fs)
  | none => (.ok text.toList.length,
      { fs with files := Function.update fs.files path (some text) })

/-- The text of a path below the root. -/
def asPosix (names : List String) : String :=
  if names.isEmpty then "." else Text.join "/" names

/-- `MarkdownVaultConnector.write_note`, without front matter. -/
def vaultWriteNote (root : VaultRoot) (ref content : String) (mode : MemoryWriteMode)
    (fs : FileSystem) : Except String MemoryWriteResult × FileSystem :=
  match notePath root ref with
  | .error e => (.error e, fs)
  | .ok path =>
      let result := fun (written : Except String Nat × FileSystem) (offset : Nat) =>
        (written.1.map fun n =>
          { ref := asPosix (path.drop root.parts.length), mode := mode.text,
            bytesWritten := some (n - offset), committed := true : MemoryWriteResult },
          written.2)
      match mode with
      | .create =>
          if (fs.files path).isSome then (.error ("Note already exists: " ++ ref), fs)
          else result (writeFile path content fs) 0
      | .overwrite => result (writeFile path content fs) 0
      | .append =>
          -- What is written is the new text; the file keeps what it had before it.
          let old := (fs.files path).getD ""
          if old ≠ "" then
            result (writeFile path (old ++ "\n" ++ content) fs) old.toList.length
          else result (writeFile path content fs) 0

/-- `MarkdownVaultConnector`. -/
def markdownVault (root : VaultRoot) : MemoryConnector FileSystem where
  name := "markdown_vault"
  supportedWriteModes := [.append, .create, .overwrite]
  describeWriteSideEffect ref mode := .ok <|
    match mode with
    | .append => "append to note '" ++ ref ++ "' (creates if missing)"
    | .overwrite => "OVERWRITE note '" ++ ref ++ "' — existing content lost"
    | .create => "create note '" ++ ref ++ "'"
  writeNote := vaultWriteNote root

/-! ### Where a note goes -/

/-- The directories a reference goes through. -/
def directories (ref : String) : List String :=
  (Path.parts ref).dropLast

/-- The directory the names of a reference lead to. -/
def noteDirectory (root : VaultRoot) (ref : String) : List String :=
  Path.resolve ((if Path.isAbsolute ref then [] else root.parts) ++ directories ref)

theorem noteName_ne_up (name : String) : noteName name ≠ ".." := by
  have suffixed : ∀ stem : String, stem ++ ".md" ≠ ".." := by
    intro stem h
    have := congrArg (fun s => s.toList.getLast?) h
    simp at this
  intro h
  unfold noteName at h
  split at h
  · rename_i ends
    rw [h] at ends
    revert ends
    decide
  · exact suffixed _ h

/-- A note lies in its directory, under its suffixed name. -/
theorem notePath_eq {root : VaultRoot} {ref name : String}
    (last : (Path.parts ref).getLast? = some name) :
    notePath root ref =
      if hasNul ref || !root.parts.isPrefixOf (noteDirectory root ref ++ [noteName name]) then
        .error ("Path traversal detected: " ++ ref)
      else .ok (noteDirectory root ref ++ [noteName name]) := by
  have names : Path.join root.parts ref =
      (if Path.isAbsolute ref then [] else root.parts) ++ directories ref ++ [name] := by
    have parts : Path.parts ref = directories ref ++ [name] := by
      rw [directories, List.dropLast_append_getLast?]
      exact last
    unfold Path.join
    split <;> simp [← parts]
  have resolved : Path.resolve
      ((if Path.isAbsolute ref then [] else root.parts) ++ directories ref ++ [noteName name]) =
        noteDirectory root ref ++ [noteName name] := by
    rw [Path.resolve_append, List.foldl_cons, List.foldl_nil, Path.enter,
      if_neg (noteName_ne_up name)]
    rfl
  unfold notePath
  rw [names]
  dsimp only
  rw [List.getLast?_concat]
  dsimp only
  rw [List.dropLast_concat, resolved]

section

variable {root : VaultRoot} {ref content : String} {mode : MemoryWriteMode} {fs : FileSystem}

/-- A write that is refused its path changes no file. -/
theorem vaultWriteNote_of_error {e : String} (h : notePath root ref = .error e) :
    (vaultWriteNote root ref content mode fs).2 = fs := by
  simp only [vaultWriteNote, h]

theorem writeFile_other {path other : List String} {text : String} (h : other ≠ path) :
    (writeFile path text fs).2.files other = fs.files other := by
  unfold writeFile
  split
  · rfl
  · exact Function.update_of_ne h ..

/-- A write changes no file but the note's. -/
theorem vaultWriteNote_other {path other : List String} (h : notePath root ref = .ok path)
    (ne : other ≠ path) :
    (vaultWriteNote root ref content mode fs).2.files other = fs.files other := by
  unfold vaultWriteNote
  rw [h]
  dsimp only
  cases mode with
  | create =>
      dsimp only
      split
      · rfl
      · exact writeFile_other ne
  | overwrite => exact writeFile_other ne
  | append =>
      dsimp only
      split <;> exact writeFile_other ne

/-- On an empty file system a write creates the note. -/
theorem vaultWriteNote_creates {path : List String} (h : notePath root ref = .ok path) :
    (vaultWriteNote root ref content mode {}).2.files path = some content := by
  unfold vaultWriteNote
  rw [h]
  cases mode <;> simp [writeFile]

/-- The files a write to a reference can change are those its path names. -/
theorem changes_iff {P : List String → Prop} :
    (∀ (fs : FileSystem) (content : String) (path : List String),
      (vaultWriteNote root ref content mode fs).2.files path ≠ fs.files path → P path) ↔
    ∀ path, notePath root ref = .ok path → P path := by
  constructor
  · intro h path hpath
    apply h {} "" path
    rw [vaultWriteNote_creates hpath]
    nofun
  · intro h fs content path changed
    cases hpath : notePath root ref with
    | error e => exact absurd (by rw [vaultWriteNote_of_error hpath]) changed
    | ok note =>
        by_cases same : path = note
        · exact h path (same ▸ hpath)
        · exact absurd (vaultWriteNote_other hpath same) changed

end

end AgentOs
