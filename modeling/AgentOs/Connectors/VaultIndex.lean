import AgentOs.Connectors.VaultNotes
import AgentOs.Lib.Refresh

/-!
The index of a vault (`MarkdownVaultConnector.index`, `connectors.py`).

The index file holds an entry for each note. `index` refreshes the notes it finds, or those it is
given, and `reindex` removes the file first. A note that cannot be read keeps the entry it had.
`indexRefs_docs` and `indexAll_docs` say what becomes of the entries.
-/

namespace AgentOs

open AgentOs.Lib

namespace MarkdownVault

/-! ### Notes of a vault -/

/-- A name that a directory can hold. -/
structure ProperName (name : String) : Prop where
  nonempty : name ≠ ""
  noDot : name ≠ "."
  noUp : name ≠ ".."
  noSlash : '/' ∉ name.toList
  noNul : '\x00' ∉ name.toList

/-- A vault as `index` finds it. -/
structure VaultState (root : VaultRoot) (μ : Type) where
  tree : VaultTree
  rooted : ∀ text, tree.node root.parts ≠ some (.file text)
  access : VaultAccess := {}
  mtime : List String → μ
  /-- what is below the root, as `rglob` walks it -/
  listing : List (List String)
  once : listing.Nodup
  listed : ∀ names, names ∈ listing ↔ names ≠ [] ∧ tree.node (root.parts ++ names) ≠ none
  proper : ∀ names ∈ listing, ∀ name ∈ names, ProperName name

/-- `path.suffix` -/
def nameSuffix (name : String) : String := Text.drop name (Path.stem name).toList.length

/-- `_is_indexable_note_path` -/
def isIndexableNotePath (root : VaultRoot) (path : List String) : Bool :=
  root.parts.isPrefixOf path &&
    (path.drop root.parts.length).all (fun part => !Text.startsWith part ".") &&
    Text.lower (nameSuffix (path.getLast?.getD "")) == ".md"

/-! ### Entries -/

structure IndexedNote (μ : Type) where
  mtime : μ
  docLen : ℕ
  title : Option String
  termFreqs : Dictionary String ℕ
deriving DecidableEq

/-- A character of a line. -/
def isLineChar (c : Char) : Bool := c != '\n'

/-- `^#\s+(.+)$`, with `MULTILINE` -/
def headingRegex : Regex :=
  .seq (.boundary isLineChar) (.seq (.one (· == '#')) (.seq (.many Text.isSpace)
    (.seq (.group (.many isLineChar)) (.boundary isLineChar))))

/-- `re.search` -/
def firstMatch (r : Regex) : List Char → List Char → Option Matched
  | left, [] => (r.tries ⟨left, []⟩).head?
  | left, c :: right =>
      (r.tries ⟨left, c :: right⟩).head?.orElse fun _ => firstMatch r (c :: left) right

def headingTitle (content : String) : Option String :=
  ((firstMatch headingRegex [] content.toList).bind (·.groups.head?)).map fun heading =>
    Text.strip (.ofList heading)

/-- The title of a note: that of its front matter, or else its first heading. -/
def noteTitle (content : String) : Option String :=
  match (parseFrontmatter content).get? "title" with
  | some title => if title = "" then headingTitle content else some title
  | none => headingTitle content

/-- What a note is indexed as. -/
def describeNote {μ : Type} (tokenize : String → List String) (mtime : μ) (content : String) :
    IndexedNote μ where
  mtime
  docLen := (tokenize content).length
  title := noteTitle content
  termFreqs := (tokenize content).foldl (fun tf t => tf.set t ((tf.get? t).getD 0 + 1)) {}

section

variable {root : VaultRoot} {μ : Type}

/-- `path.read_text()` -/
def VaultState.readText (state : VaultState root μ) (path : List String) :
    Except NoteError String :=
  ((state.tree.openFrom [] path).mapError NoteError.system).bind (noteText state.access)

/-- A note is read and described. -/
def VaultState.readDoc (state : VaultState root μ) (tokenize : String → List String)
    (path : List String) : Except NoteError (IndexedNote μ) :=
  (state.readText path).map (describeNote tokenize (state.mtime path))

/-- `path.is_file()`, below a root without a NUL. -/
def VaultState.isFile (state : VaultState root μ) (path : List String) : Bool :=
  !(path.drop root.parts.length).any (·.toList.contains '\x00') &&
    (state.tree.openFrom [] path).toBool

/-! ### Indexing -/

inductive IndexError where
  | note (ref : String) (error : NoteError)
  | save
deriving DecidableEq, Repr

/-- `index`, as far as it has got. -/
structure Indexing (μ : Type) where
  docs : Dictionary String (IndexedNote μ)
  indexedCount : ℕ := 0
  deletedCount : ℕ := 0
  errors : List IndexError := []

structure IndexResult where
  indexedCount : ℕ
  deletedCount : ℕ
  errors : List IndexError
  docCount : ℕ
deriving DecidableEq

/-- A note is indexed, or an error noted. -/
def VaultState.indexNote (state : VaultState root μ) (tokenize : String → List String)
    (ref key : String) (path : List String) (run : Indexing μ) : Indexing μ :=
  match state.readDoc tokenize path with
  | .ok doc => { run with docs := run.docs.set key doc, indexedCount := run.indexedCount + 1 }
  | .error e => { run with errors := run.errors ++ [.note ref e] }

/-- The path of a reference that is to be indexed. -/
def indexPath (root : VaultRoot) (ref : String) : Except NoteError (List String) :=
  match unresolvedPath root ref with
  | none => .error (.valueError "PosixPath('/') has an empty name")
  | some path =>
      if root.parts.isPrefixOf path then .ok path
      else .error (.valueError ("'/" ++ Text.join "/" path ++ "' is not in the subpath of '/" ++
        Text.join "/" root.parts ++ "'"))

/-- A reference is indexed. -/
def VaultState.indexRef (state : VaultState root μ) (tokenize : String → List String)
    (run : Indexing μ) (ref : String) : Except NoteError (Indexing μ) :=
  (indexPath root ref).map fun path =>
    let key := asPosix (path.drop root.parts.length)
    if !state.isFile path || !isIndexableNotePath root path then
      if (run.docs.get? key).isSome then
        { run with docs := run.docs.erase key, deletedCount := run.deletedCount + 1 }
      else run
    else state.indexNote tokenize ref key path run

/-- `rglob("*.md")`, without what is not indexed. -/
def VaultState.foundNotes (state : VaultState root μ) : List (List String) :=
  state.listing.filter fun names =>
    Path.endsWith (names.getLast?.getD "") ".md" && isIndexableNotePath root (root.parts ++ names)

/-- All notes are indexed, and the other entries dropped. -/
def VaultState.indexAll (state : VaultState root μ) (tokenize : String → List String)
    (docs : Dictionary String (IndexedNote μ)) : Indexing μ :=
  let foundRefs := state.foundNotes.map asPosix
  let run := state.foundNotes.foldl (fun run names =>
    state.indexNote tokenize (asPosix names) (asPosix names) (root.parts ++ names) run) { docs }
  { run with
    docs := run.docs.keep fun key => decide (key ∈ foundRefs)
    deletedCount := run.deletedCount +
      (run.docs.entries.filter fun entry => !decide (entry.1 ∈ foundRefs)).length }

/-- A vault and its index file. -/
structure VaultWorld (root : VaultRoot) (μ : Type) where
  state : VaultState root μ
  /-- the `docs` of the index file, where there is one that can be read -/
  stored : Option (Dictionary String (IndexedNote μ))
  /-- the index file can be written -/
  saves : Bool := true
  /-- and removed -/
  unlinks : Bool := true

/-- The entries of the index file. -/
def VaultWorld.docs (world : VaultWorld root μ) : Dictionary String (IndexedNote μ) :=
  world.stored.getD {}

/-- The index file is written. -/
def VaultWorld.saveIndex (world : VaultWorld root μ) (run : Indexing μ) :
    IndexResult × VaultWorld root μ :=
  ({ indexedCount := run.indexedCount
     deletedCount := run.deletedCount
     errors := run.errors ++ if world.saves then [] else [.save]
     docCount := run.docs.entries.length },
    if world.saves then { world with stored := some run.docs } else world)

/-- `MarkdownVaultConnector.index` -/
def VaultWorld.index (world : VaultWorld root μ) (tokenize : String → List String)
    (refs : Option (List String)) : Except NoteError IndexResult × VaultWorld root μ :=
  let indexed :=
    match refs with
    | some refs => refs.foldlM (world.state.indexRef tokenize) { docs := world.docs }
    | none => .ok (world.state.indexAll tokenize world.docs)
  match indexed with
  | .error e => (.error e, world)
  | .ok run => (.ok (world.saveIndex run).1, (world.saveIndex run).2)

/-- `MarkdownVaultConnector.reindex` -/
def VaultWorld.reindex (world : VaultWorld root μ) (tokenize : String → List String) :
    Except NoteError IndexResult × VaultWorld root μ :=
  VaultWorld.index { world with stored := if world.unlinks then none else world.stored } tokenize
    none

end

/-! ### Paths and keys -/

/-- The names of a path are read back from its text. -/
theorem parts_asPosix {names : List String} (clean : ∀ name ∈ names, Path.CleanName name) :
    Path.parts (asPosix names) = names := by
  unfold asPosix
  cases names with
  | nil => decide +kernel
  | cons first rest =>
      rw [if_neg (by simp)]
      induction rest generalizing first with
      | nil =>
          rw [Text.join, String.intercalate_singleton]
          exact (clean first List.mem_cons_self).parts_eq
      | cons next rest ih =>
          have cut : (Text.join "/" (first :: next :: rest)).toList =
              first.toList ++ '/' :: (Text.join "/" (next :: rest)).toList := by
            rw [Text.join, String.intercalate_cons_cons, String.toList_append,
              String.toList_append, List.append_assoc]
            rfl
          rw [Path.parts_append cut, String.ofList_toList, String.ofList_toList,
            (clean first List.mem_cons_self).parts_eq,
            ih next fun name mem => clean name (List.mem_cons_of_mem _ mem)]
          rfl

/-- The name of a note ends in its suffix. -/
theorem endsWith_noteName (name : String) : Path.endsWith (noteName name) ".md" = true := by
  unfold noteName
  split
  · assumption
  · rw [Path.withSuffix, Path.endsWith, String.toList_append]
    exact List.isSuffixOf_iff_suffix.mpr (List.suffix_append _ _)

theorem cleanName_noteName {name : String} (clean : Path.CleanName name) :
    Path.CleanName (noteName name) := by
  have ends := List.isSuffixOf_iff_suffix.mp (endsWith_noteName name)
  refine ⟨?_, ?_, ?_⟩
  · intro empty
    rw [empty] at ends
    exact absurd ends (by decide)
  · intro dot
    rw [dot] at ends
    exact absurd ends (by decide)
  · unfold noteName
    split
    · exact clean.noSlash
    · rw [Path.withSuffix, String.toList_append, List.mem_append, not_or]
      exact ⟨fun mem => clean.noSlash (Path.mem_of_mem_stem mem), by decide⟩

theorem ProperName.clean {name : String} (proper : ProperName name) : Path.CleanName name :=
  ⟨proper.nonempty, proper.noDot, proper.noSlash⟩

/-- The names of a reference below the root, in its path, are clean. -/
theorem cleanName_of_unresolvedPath {root : VaultRoot} {ref : String} {path : List String}
    (named : unresolvedPath root ref = some path) :
    ∀ name ∈ path.drop root.parts.length, Path.CleanName name := by
  have noted : ∀ {names : List String} {last : String}, (∀ name ∈ names, Path.CleanName name) →
      names.getLast? = some last →
        ∀ name ∈ names.dropLast ++ [noteName last], Path.CleanName name := by
    intro names last clean isLast name mem
    rcases List.mem_append.mp mem with inner | end_
    · exact clean name (List.dropLast_subset _ inner)
    · rw [List.mem_singleton.mp end_]
      exact cleanName_noteName (clean last (List.mem_of_getLast? isLast))
  obtain ⟨last, isLast, rfl⟩ := Option.map_eq_some_iff.mp named
  intro name mem
  unfold Path.join at isLast mem
  split at isLast
  · rename_i absolute
    rw [if_pos absolute] at mem
    exact noted (fun _ => Path.cleanName_of_mem_parts) isLast name (List.mem_of_mem_drop mem)
  · rename_i relative
    rw [if_neg relative] at mem
    rcases eq_or_ne (Path.parts ref) [] with none | some_
    · -- the root itself, under another name
      rw [none, List.append_nil] at isLast mem
      have long : (root.parts.dropLast ++ [noteName last]).length = root.parts.length := by
        have := List.length_pos_of_mem (List.mem_of_getLast? isLast)
        rw [List.length_append, List.length_dropLast, List.length_singleton]
        omega
      rw [← long, List.drop_length] at mem
      cases mem
    · rw [List.dropLast_append_of_ne_nil some_, List.append_assoc, List.drop_left] at mem
      rw [List.getLast?_append_of_ne_nil _ some_] at isLast
      exact noted (fun _ => Path.cleanName_of_mem_parts) isLast name mem

/-- A path below the root is read back from its key. -/
theorem parts_key {root : VaultRoot} {ref : String} {path : List String}
    (named : unresolvedPath root ref = some path) (inside : root.parts <+: path) :
    root.parts ++ Path.parts (asPosix (path.drop root.parts.length)) = path := by
  rw [parts_asPosix (cleanName_of_unresolvedPath named)]
  obtain ⟨rest, rfl⟩ := inside
  rw [List.drop_left]

/-- What is indexed goes through no hidden name. -/
theorem plain_of_indexable {root : VaultRoot} {names : List String}
    (indexable : isIndexableNotePath root (root.parts ++ names) = true) :
    ∀ name ∈ root.parts ++ names, name ≠ ".." := by
  simp only [isIndexableNotePath, List.drop_left, Bool.and_eq_true, List.all_eq_true] at indexable
  intro name mem
  rcases List.mem_append.mp mem with inRoot | below
  · exact root.plain name inRoot
  · rintro rfl
    exact absurd (indexable.1.2 ".." below) (by decide)

/-! ### What becomes of the entries -/

section

variable {root : VaultRoot} {μ : Type} {state : VaultState root μ}
  {tokenize : String → List String} {run run' : Indexing μ} {key ref : String}
  {docs : Dictionary String (IndexedNote μ)}

/-- What `index` finds at a key. -/
def VaultState.walked (state : VaultState root μ) (tokenize : String → List String) (key : String) :
    Option (Except NoteError (IndexedNote μ)) :=
  some (state.readDoc tokenize (root.parts ++ Path.parts key))

/-- What `index(refs)` finds at a key: nothing where no file is, or none that is indexed. -/
def VaultState.looked (state : VaultState root μ) (tokenize : String → List String) (key : String) :
    Option (Except NoteError (IndexedNote μ)) :=
  if !state.isFile (root.parts ++ Path.parts key) ||
      !isIndexableNotePath root (root.parts ++ Path.parts key) then none
  else state.walked tokenize key

/-- The key of a reference. -/
def indexKey (root : VaultRoot) (ref : String) : Except NoteError String :=
  (indexPath root ref).map fun path => asPosix (path.drop root.parts.length)

theorem indexNote_docs (ref key : String) (run : Indexing μ) :
    (state.indexNote tokenize ref key (root.parts ++ Path.parts key) run).docs =
      run.docs.refresh (state.walked tokenize) key := by
  unfold VaultState.indexNote Dictionary.refresh VaultState.walked
  cases state.readDoc tokenize (root.parts ++ Path.parts key) <;> rfl

theorem indexPath_ok_iff {path : List String} : indexPath root ref = .ok path ↔
    unresolvedPath root ref = some path ∧ root.parts <+: path := by
  unfold indexPath
  cases unresolvedPath root ref with
  | none => simp
  | some names =>
      dsimp only
      split
      · rename_i inside
        rw [List.isPrefixOf_iff_prefix] at inside
        constructor
        · intro ok
          cases ok
          exact ⟨rfl, inside⟩
        · rintro ⟨same, -⟩
          rw [Option.some.inj same]
      · rename_i outside
        rw [List.isPrefixOf_iff_prefix] at outside
        constructor
        · intro ok
          cases ok
        · rintro ⟨same, inside⟩
          cases same
          exact absurd inside outside

/-- **What a reference does** to the entries. -/
theorem indexRef_docs (done : state.indexRef tokenize run ref = .ok run') :
    ∃ key, indexKey root ref = .ok key ∧
      run'.docs = run.docs.refresh (state.looked tokenize) key := by
  unfold VaultState.indexRef at done
  cases named : indexPath root ref with
  | error e =>
      rw [named] at done
      cases done
  | ok path =>
      rw [named] at done
      obtain ⟨there, inside⟩ := indexPath_ok_iff.mp named
      refine ⟨asPosix (path.drop root.parts.length), by rw [indexKey, named]; rfl, ?_⟩
      have back := parts_key there inside
      have same := Except.ok.inj done
      subst same
      dsimp only
      generalize asPosix (path.drop root.parts.length) = key at back ⊢
      subst back
      split
      · rename_i skipped
        have absent : state.looked tokenize key = none := if_pos skipped
        rw [Dictionary.refresh, absent]
        split
        · rfl
        · rename_i unknown
          rw [Option.not_isSome_iff_eq_none] at unknown
          exact (Dictionary.erase_of_absent unknown).symm
      · rename_i looks
        have there : state.looked tokenize key = state.walked tokenize key := if_neg looks
        rw [indexNote_docs, Dictionary.refresh, Dictionary.refresh, there]

/-- The entries after references, one by one. -/
theorem indexRefs_docs {refs : List String}
    (done : refs.foldlM (state.indexRef tokenize) run = .ok run') :
    ∃ keys, List.Forall₂ (fun ref key => indexKey root ref = .ok key) refs keys ∧
      run'.docs = keys.foldl (Dictionary.refresh (state.looked tokenize)) run.docs := by
  induction refs generalizing run with
  | nil =>
      cases done
      exact ⟨[], .nil, rfl⟩
  | cons ref refs ih =>
      rw [List.foldlM_cons] at done
      cases first : state.indexRef tokenize run ref with
      | error e =>
          rw [first] at done
          cases done
      | ok next =>
          rw [first] at done
          obtain ⟨key, here, step⟩ := indexRef_docs first
          obtain ⟨keys, there, rest⟩ := ih done
          exact ⟨key :: keys, .cons here there, by rw [rest, step]; rfl⟩

/-- The keys of the notes that are found. -/
def VaultState.foundRefs (state : VaultState root μ) : List String :=
  state.foundNotes.map asPosix

theorem parts_of_mem_foundNotes {names : List String} (found : names ∈ state.foundNotes) :
    Path.parts (asPosix names) = names :=
  parts_asPosix fun name mem =>
    (state.proper names (List.mem_filter.mp found).1 name mem).clean

theorem indexAll_docs : (state.indexAll tokenize docs).docs =
    Dictionary.refreshAll (state.walked tokenize) state.foundRefs docs := by
  have walks : ∀ (notes : List (List String)) (run : Indexing μ),
      (∀ names ∈ notes, names ∈ state.foundNotes) →
      (notes.foldl (fun run names => state.indexNote tokenize (asPosix names) (asPosix names)
        (root.parts ++ names) run) run).docs =
        (notes.map asPosix).foldl (Dictionary.refresh (state.walked tokenize)) run.docs := by
    intro notes
    induction notes with
    | nil => exact fun _ _ => rfl
    | cons names notes ih =>
        intro run found
        have here := @indexNote_docs _ _ state tokenize (asPosix names)
          (asPosix names) run
        rw [parts_of_mem_foundNotes (found names List.mem_cons_self)] at here
        rw [List.foldl_cons, ih _ fun other mem => found other (List.mem_cons_of_mem _ mem), here]
        rfl
  unfold VaultState.indexAll
  dsimp only
  rw [walks _ _ fun _ mem => mem]
  rfl

end

end MarkdownVault

end AgentOs
