import AgentOs.Connectors.VaultIndex

/-!
Indexing against indexing anew (`connectors.py`).

`index_agrees_iff`: `index` leaves the entries that `reindex` leaves exactly when no note that is
found and cannot be read has an entry, and so does `index(refs)`, from entries that agreed with a
former vault, when this holds of the notes it is given. `unreadable_note_stays` is a note that
can no longer be read.
-/

namespace AgentOs

open AgentOs.Lib

namespace MarkdownVault

variable {root : VaultRoot} {μ : Type}

/-! ### Agreement -/

/-- The index files have the same entries. -/
def SameDocs (world world' : VaultWorld root μ) : Prop :=
  ∀ key, world.docs.get? key = world'.docs.get? key

/-- A note that is found and cannot be read. -/
def VaultState.Unread (state : VaultState root μ) (key : String) : Prop :=
  key ∈ state.foundRefs ∧ ∃ e, state.readText (root.parts ++ Path.parts key) = .error e

/-- What a note is: its text, when it was changed, and whether it can be read. -/
def VaultState.noteAt (state : VaultState root μ) (names : List String) :
    Option (Option String × μ × Option String) :=
  match state.tree.node (root.parts ++ names) with
  | some (.file text) =>
      some (text, state.mtime (root.parts ++ names), state.access.unreadable (root.parts ++ names))
  | _ => none

/-- The path of a note that is indexed. -/
def IsNotePath (root : VaultRoot) (names : List String) : Prop :=
  Path.endsWith (names.getLast?.getD "") ".md" = true ∧
    isIndexableNotePath root (root.parts ++ names) = true

/-- The references contain each note that was made, changed or removed. -/
def Covers (former state : VaultState root μ) (refs : List String) : Prop :=
  ∀ names, IsNotePath root names → former.noteAt names ≠ state.noteAt names →
    asPosix names ∈ refs

/-- The entries are those of a vault that is indexed anew. -/
def AgreesWith (tokenize : String → List String) (former : VaultState root μ)
    (docs : Dictionary String (IndexedNote μ)) : Prop :=
  ∀ key, docs.get? key = (former.indexAll tokenize {}).docs.get? key

/-- No note that is found and cannot be read has an entry. Where the index file can be removed and
not written, there are no entries. -/
def ForgetsUnread (world : VaultWorld root μ) : Prop :=
  world.unlinks = true → ∀ key, (world.saves = true → world.state.Unread key) →
    world.docs.get? key = none

/-- None of the references is to such a note. Where the index file cannot be removed, it is the
directories named like notes that have no entries. -/
def ForgetsUnreadAmong (world : VaultWorld root μ) (refs : List String) : Prop :=
  (world.saves = true → ∀ ref ∈ refs, ∀ key, indexKey root ref = .ok key →
    world.state.Unread key →
      world.state.isFile (root.parts ++ Path.parts key) = world.unlinks →
        world.docs.get? key = none) ∧
  (world.saves = false → world.unlinks = true → ∀ key, world.docs.get? key = none)

/-! ### The notes that are found -/

section

variable {state former : VaultState root μ} {tokenize : String → List String} {key ref : String}
  {names : List String}

/-- Below the root there is no `..`. -/
theorem plain_of_proper (proper : ∀ name ∈ names, ProperName name) :
    ∀ name ∈ root.parts ++ names, name ≠ ".." := by
  intro name mem
  rcases List.mem_append.mp mem with inRoot | below
  · exact root.plain name inRoot
  · exact (proper name below).noUp

theorem mem_foundNotes_iff : names ∈ state.foundNotes ↔
    names ≠ [] ∧ state.tree.node (root.parts ++ names) ≠ none ∧ IsNotePath root names := by
  rw [VaultState.foundNotes, List.mem_filter, state.listed, Bool.and_eq_true, IsNotePath,
    and_assoc]

theorem mem_foundRefs_iff : key ∈ state.foundRefs ↔
    Path.parts key ∈ state.foundNotes ∧ asPosix (Path.parts key) = key := by
  constructor
  · intro mem
    obtain ⟨names, found, rfl⟩ := List.mem_map.mp mem
    rw [parts_of_mem_foundNotes found]
    exact ⟨found, rfl⟩
  · rintro ⟨found, same⟩
    exact List.mem_map.mpr ⟨_, found, same⟩

theorem proper_of_mem_foundNotes (found : names ∈ state.foundNotes) :
    ∀ name ∈ names, ProperName name :=
  state.proper names (List.mem_filter.mp found).1

theorem nonempty_of_isNotePath (note : IsNotePath root names) : names ≠ [] := by
  rintro rfl
  exact absurd note.1 (by decide)

theorem noteAt_eq_some_iff {note : Option String × μ × Option String} :
    state.noteAt names = some note ↔ ∃ text,
      state.tree.node (root.parts ++ names) = some (.file text) ∧
        note = (text, state.mtime (root.parts ++ names),
          state.access.unreadable (root.parts ++ names)) := by
  unfold VaultState.noteAt
  split
  · rename_i text file
    constructor
    · intro same
      exact ⟨text, file, (Option.some.inj same).symm⟩
    · rintro ⟨text', file', rfl⟩
      rw [file] at file'
      cases file'
      rfl
  · rename_i other
    constructor
    · intro same
      cases same
    · rintro ⟨text, file, -⟩
      exact absurd file (other text)

/-- What a note is indexed as, when it can be read. -/
def docOf (tokenize : String → List String) (note : Option String × μ × Option String) :
    Option (IndexedNote μ) :=
  ((noteText ⟨fun _ => note.2.2, fun _ => none⟩ ([], note.1)).map
    (describeNote tokenize note.2.1)).toOption

/-- A file of a vault is read. -/
theorem readDoc_of_file {text : Option String} (proper : ∀ name ∈ names, ProperName name)
    (file : state.tree.node (root.parts ++ names) = some (.file text)) :
    state.readDoc tokenize (root.parts ++ names) =
      (noteText state.access (root.parts ++ names, text)).map
        (describeNote tokenize (state.mtime (root.parts ++ names))) := by
  have opens := (DirectoryTree.openFrom_plain_iff (plain_of_proper proper)).mpr ⟨rfl, file⟩
  rw [VaultState.readDoc, VaultState.readText, opens]
  rfl

/-- What is no file is not read. -/
theorem readText_of_not_file (proper : ∀ name ∈ names, ProperName name)
    (none : state.noteAt names = none) :
    ∃ e, state.readText (root.parts ++ names) = .error e := by
  cases opens : state.tree.openFrom [] (root.parts ++ names) with
  | error e => exact ⟨.system e, by rw [VaultState.readText, opens]; rfl⟩
  | ok file =>
      obtain ⟨path, text⟩ := file
      have here := ((DirectoryTree.openFrom_plain_iff (plain_of_proper proper)).mp opens).2
      have some_ := noteAt_eq_some_iff.mpr ⟨text, here, rfl⟩
      rw [none] at some_
      cases some_

theorem readDoc_of_error {path : List String} {e : NoteError}
    (fails : state.readText path = .error e) : state.readDoc tokenize path = .error e := by
  rw [VaultState.readDoc, fails]
  rfl

theorem error_of_readDoc {path : List String} {e : NoteError}
    (fails : state.readDoc tokenize path = .error e) : state.readText path = .error e := by
  rw [VaultState.readDoc] at fails
  cases read : state.readText path with
  | error e' =>
      rw [read] at fails
      cases fails
      rfl
  | ok text =>
      rw [read] at fails
      cases fails

/-- Where a refreshed entry was not, there is what was read. -/
theorem refreshed_none {ε ν : Type} (read : Except ε ν) :
    Dictionary.refreshed (some read) none = read.toOption := by
  cases read <;> rfl

/-- **The entry of a note** in an index made anew is what the note is. -/
theorem entry_of_isNotePath (note : IsNotePath root names) (back : Path.parts key = names)
    (text : asPosix names = key) :
    (state.indexAll tokenize {}).docs.get? key = (state.noteAt names).bind (docOf tokenize) := by
  have mem : key ∈ state.foundRefs ↔ names ∈ state.foundNotes := by
    rw [mem_foundRefs_iff, back, and_iff_left text]
  rw [indexAll_docs, Dictionary.get?_refreshAll, Dictionary.get?_empty, VaultState.walked, back,
    refreshed_none]
  cases at_ : state.noteAt names with
  | none =>
      by_cases found : names ∈ state.foundNotes
      · obtain ⟨e, fails⟩ := readText_of_not_file (proper_of_mem_foundNotes found) at_
        rw [if_pos (mem.mpr found), readDoc_of_error fails]
        rfl
      · rw [if_neg fun h => found (mem.mp h)]
        rfl
  | some held =>
      obtain ⟨text, file, rfl⟩ := noteAt_eq_some_iff.mp at_
      have found : names ∈ state.foundNotes := mem_foundNotes_iff.mpr
        ⟨nonempty_of_isNotePath note, by rw [file]; exact Option.some_ne_none _, note⟩
      rw [if_pos (mem.mpr found), readDoc_of_file (proper_of_mem_foundNotes found) file]
      rfl

/-- What is no note path has no entry. -/
theorem entry_of_not_note
    (other : ¬(IsNotePath root (Path.parts key) ∧ asPosix (Path.parts key) = key)) :
    (state.indexAll tokenize {}).docs.get? key = none := by
  rw [indexAll_docs, Dictionary.get?_refreshAll, if_neg]
  intro mem
  obtain ⟨found, text⟩ := mem_foundRefs_iff.mp mem
  exact other ⟨(mem_foundNotes_iff.mp found).2.2, text⟩

theorem isAbsolute_asPosix (clean : ∀ name ∈ names, Path.CleanName name) :
    Path.isAbsolute (asPosix names) = false := by
  unfold asPosix
  cases names with
  | nil => decide
  | cons first rest =>
      have starts : ∃ further, (Text.join "/" (first :: rest)).toList =
          first.toList ++ further := by
        cases rest with
        | nil => exact ⟨[], by rw [Text.join, String.intercalate_singleton, List.append_nil]⟩
        | cons next rest =>
            exact ⟨_, by rw [Text.join, String.intercalate_cons_cons, String.toList_append,
              String.toList_append, List.append_assoc]⟩
      obtain ⟨further, text⟩ := starts
      have first_clean := clean first List.mem_cons_self
      rw [if_neg (by simp), Path.isAbsolute, text]
      cases letters : first.toList with
      | nil => exact absurd (String.toList_eq_nil_iff.mp letters) first_clean.nonempty
      | cons c cs =>
          refine decide_eq_false fun slash => first_clean.noSlash ?_
          rw [letters, Option.some.inj slash]
          exact List.mem_cons_self

/-- The key of a note path is its text. -/
theorem indexKey_asPosix (note : IsNotePath root (Path.parts key))
    (text : asPosix (Path.parts key) = key) : indexKey root key = .ok key := by
  have relative : Path.isAbsolute key = false := by
    rw [← text]
    exact isAbsolute_asPosix fun name => Path.cleanName_of_mem_parts
  obtain ⟨last, isLast⟩ := Option.ne_none_iff_exists'.mp
    (List.getLast?_eq_none_iff.not.mpr (nonempty_of_isNotePath note))
  have ends := note.1
  rw [isLast, Option.getD_some] at ends
  have named : unresolvedPath root key = some (root.parts ++ Path.parts key) := by
    rw [unresolvedPath, Path.join, relative, if_neg Bool.false_ne_true,
      List.getLast?_append_of_ne_nil _ (nonempty_of_isNotePath note), isLast, Option.map_some,
      noteName, if_pos ends, List.dropLast_append_of_ne_nil (nonempty_of_isNotePath note),
      List.append_assoc, List.dropLast_append_getLast? last isLast]
  rw [indexKey, indexPath_ok_iff.mpr ⟨named, List.prefix_append _ _⟩]
  show Except.ok (asPosix ((root.parts ++ Path.parts key).drop root.parts.length)) = _
  rw [List.drop_left, text]

/-- **What the references leave out** has the entry of an index made anew. -/
theorem entry_of_covers {refs : List String} (covers : Covers former state refs)
    (left : ∀ ref ∈ refs, indexKey root ref ≠ .ok key) :
    (former.indexAll tokenize {}).docs.get? key = (state.indexAll tokenize {}).docs.get? key := by
  by_cases note : IsNotePath root (Path.parts key) ∧ asPosix (Path.parts key) = key
  · obtain ⟨isNote, text⟩ := note
    have same : former.noteAt (Path.parts key) = state.noteAt (Path.parts key) := by
      by_contra changed
      have mem := covers _ isNote changed
      rw [text] at mem
      exact left key mem (indexKey_asPosix isNote text)
    rw [entry_of_isNotePath isNote rfl text, entry_of_isNotePath isNote rfl text, same]
  · rw [entry_of_not_note note, entry_of_not_note note]

/-- The path of a reference is that of its key. -/
theorem unresolvedPath_of_indexKey (given : indexKey root ref = .ok key) :
    unresolvedPath root ref = some (root.parts ++ Path.parts key) ∧
      asPosix (Path.parts key) = key := by
  unfold indexKey at given
  cases named : indexPath root ref with
  | error e =>
      rw [named] at given
      cases given
  | ok path =>
      rw [named] at given
      obtain ⟨there, inside⟩ := indexPath_ok_iff.mp named
      have back := parts_key there inside
      have same : asPosix (path.drop root.parts.length) = key := Except.ok.inj given
      rw [same] at back
      subst back
      rw [List.drop_left] at same
      exact ⟨there, same⟩

/-- A file with the key of a reference, that is indexed, is found. -/
theorem found_of_isFile (given : indexKey root ref = .ok key)
    (isFile : state.isFile (root.parts ++ Path.parts key) = true)
    (indexable : isIndexableNotePath root (root.parts ++ Path.parts key) = true) :
    key ∈ state.foundRefs := by
  obtain ⟨named, text⟩ := unresolvedPath_of_indexKey given
  rw [VaultState.isFile, Bool.and_eq_true] at isFile
  cases opens : state.tree.openFrom [] (root.parts ++ Path.parts key) with
  | error e =>
      rw [opens] at isFile
      cases isFile.2
  | ok opened =>
      obtain ⟨path, content⟩ := opened
      have file := ((DirectoryTree.openFrom_plain_iff (plain_of_indexable indexable)).mp opens).2
      have some_ : Path.parts key ≠ [] := by
        intro none
        rw [none, List.append_nil] at file
        exact state.rooted content file
      obtain ⟨name, -, path_eq⟩ := Option.map_eq_some_iff.mp named
      have last : (Path.parts key).getLast? = some (noteName name) := by
        rw [← List.getLast?_append_of_ne_nil root.parts some_, ← path_eq, List.getLast?_concat]
      refine mem_foundRefs_iff.mpr ⟨mem_foundNotes_iff.mpr
        ⟨some_, by rw [file]; exact Option.some_ne_none _, ?_, indexable⟩, text⟩
      rw [last, Option.getD_some]
      exact endsWith_noteName name

/-- What is found and is no file cannot be read. -/
theorem unread_of_not_isFile (found : key ∈ state.foundRefs)
    (isFile : state.isFile (root.parts ++ Path.parts key) = false) : state.Unread key := by
  have proper := proper_of_mem_foundNotes (mem_foundRefs_iff.mp found).1
  refine ⟨found, ?_⟩
  have noNul : (Path.parts key).any (·.toList.contains '\x00') = false := by
    rw [List.any_eq_false]
    intro name mem
    have absent := (proper name mem).noNul
    simpa using absent
  rw [VaultState.isFile, List.drop_left, noNul, Bool.not_false, Bool.true_and] at isFile
  cases opens : state.tree.openFrom [] (root.parts ++ Path.parts key) with
  | error e => exact ⟨.system e, by rw [VaultState.readText, opens]; rfl⟩
  | ok opened =>
      rw [opens] at isFile
      cases isFile

/-- **A reference that is given** is looked at as `index` walks it, when it is a file that is
indexed. -/
theorem looked_cases (tokenize : String → List String) (given : indexKey root ref = .ok key) :
    (state.looked tokenize key = none ∧ (key ∈ state.foundRefs →
        state.Unread key ∧ state.isFile (root.parts ++ Path.parts key) = false)) ∨
      (state.looked tokenize key = state.walked tokenize key ∧ key ∈ state.foundRefs ∧
        state.isFile (root.parts ++ Path.parts key) = true) := by
  unfold VaultState.looked
  cases isFile : state.isFile (root.parts ++ Path.parts key) with
  | false =>
      exact .inl ⟨rfl, fun found => ⟨unread_of_not_isFile found isFile, rfl⟩⟩
  | true =>
      cases indexable : isIndexableNotePath root (root.parts ++ Path.parts key) with
      | false =>
          refine .inl ⟨rfl, fun found => ?_⟩
          have passes := (mem_foundNotes_iff.mp (mem_foundRefs_iff.mp found).1).2.2.2
          rw [indexable] at passes
          cases passes
      | true => exact .inr ⟨rfl, found_of_isFile given isFile indexable, rfl⟩

end

/-! ### Both ways to index -/

section

variable {world : VaultWorld root μ} {tokenize : String → List String} {refs : List String}

theorem index_docs : (world.index tokenize none).2.docs =
    if world.saves then (world.state.indexAll tokenize world.docs).docs else world.docs := by
  unfold VaultWorld.index VaultWorld.saveIndex
  dsimp only
  split
  · rfl
  · rfl

theorem reindex_docs : (world.reindex tokenize).2.docs =
    if world.saves then
      (world.state.indexAll tokenize (if world.unlinks then {} else world.docs)).docs
    else if world.unlinks then {} else world.docs := by
  have base : VaultWorld.docs { world with stored := if world.unlinks then none else world.stored } =
      if world.unlinks then {} else world.docs := by
    unfold VaultWorld.docs
    dsimp only
    split <;> rfl
  rw [VaultWorld.reindex, index_docs, base]

theorem indexRefs_saved {result : IndexResult}
    (done : (world.index tokenize (some refs)).1 = .ok result) :
    ∃ keys, List.Forall₂ (fun ref key => indexKey root ref = .ok key) refs keys ∧
      (world.index tokenize (some refs)).2.docs =
        if world.saves then
          keys.foldl (Dictionary.refresh (world.state.looked tokenize)) world.docs
        else world.docs := by
  unfold VaultWorld.index at done ⊢
  dsimp only at done ⊢
  cases run : refs.foldlM (world.state.indexRef tokenize) { docs := world.docs } with
  | error e =>
      rw [run] at done
      cases done
  | ok after =>
      obtain ⟨keys, given, docs⟩ := indexRefs_docs run
      refine ⟨keys, given, ?_⟩
      unfold VaultWorld.saveIndex
      dsimp only
      split
      · exact docs
      · rfl

/-- The entries of an index file that may be removed first. -/
theorem get?_base (key : String) :
    (if world.unlinks then {} else world.docs : Dictionary String (IndexedNote μ)).get? key =
      if world.unlinks then none else world.docs.get? key := by
  split <;> rfl

/-- An index file that cannot be written has the entries of one that may be removed when it cannot
be removed, or has none. -/
theorem same_base_iff : (∀ key, world.docs.get? key =
      (if world.unlinks then {} else world.docs : Dictionary String (IndexedNote μ)).get? key) ↔
    (world.unlinks = true → ∀ key, world.docs.get? key = none) := by
  simp only [get?_base]
  cases world.unlinks <;> simp

/-- One entry, after all notes are indexed on both sides. -/
theorem index_entry_iff (key : String) :
    ((world.state.indexAll tokenize world.docs).docs.get? key =
        (world.state.indexAll tokenize (if world.unlinks then {} else world.docs)).docs.get? key) ↔
      (world.unlinks = true → world.state.Unread key → world.docs.get? key = none) := by
  rw [indexAll_docs, indexAll_docs, Dictionary.refreshAll_eq_iff, get?_base]
  constructor
  · rintro same unlinks ⟨found, e, error⟩
    have entry := same found e (congrArg some (readDoc_of_error error))
    rwa [if_pos unlinks] at entry
  · intro gone found e error
    cases unlinks : world.unlinks with
    | false => rfl
    | true => exact gone unlinks ⟨found, e, error_of_readDoc (Option.some.inj error)⟩

theorem mem_keys_iff {keys : List String} {key : String}
    (given : List.Forall₂ (fun ref key => indexKey root ref = .ok key) refs keys) :
    key ∈ keys ↔ ∃ ref ∈ refs, indexKey root ref = .ok key := by
  induction given with
  | nil => simp
  | @cons ref first refs keys here _ ih =>
      rw [List.mem_cons, ih, List.exists_mem_cons_iff, here]
      exact or_congr ⟨fun same => congrArg _ same.symm, fun same => (Except.ok.inj same).symm⟩ Iff.rfl

/-- One entry, after references are indexed on one side and all notes on the other. -/
theorem indexRefs_entry_iff {former : VaultState root μ} {keys : List String} (key : String)
    (given : List.Forall₂ (fun ref key => indexKey root ref = .ok key) refs keys)
    (agrees : AgreesWith tokenize former world.docs) (covers : Covers former world.state refs) :
    ((keys.foldl (Dictionary.refresh (world.state.looked tokenize)) world.docs).get? key =
        (world.state.indexAll tokenize (if world.unlinks then {} else world.docs)).docs.get? key) ↔
      ((∃ ref ∈ refs, indexKey root ref = .ok key) → world.state.Unread key →
        world.state.isFile (root.parts ++ Path.parts key) = world.unlinks →
          world.docs.get? key = none) := by
  have fails : ∀ {e}, world.state.readText (root.parts ++ Path.parts key) = .error e →
      world.state.walked tokenize key = some (.error e) := fun error =>
    congrArg some (readDoc_of_error error)
  rw [Dictionary.get?_refresh, ← mem_keys_iff given, indexAll_docs, Dictionary.get?_refreshAll,
    get?_base]
  by_cases mem : key ∈ keys
  · obtain ⟨ref, -, here⟩ := (mem_keys_iff given).mp mem
    rw [if_pos mem, forall_prop_of_true mem]
    rcases looked_cases tokenize here with ⟨looked, unread⟩ | ⟨looked, found, isFile⟩
    · rw [looked]
      by_cases found : key ∈ world.state.foundRefs
      · -- a directory
        obtain ⟨broken, isFile⟩ := unread found
        obtain ⟨e, error⟩ := broken.2
        rw [if_pos found, fails error, isFile, forall_prop_of_true broken]
        cases world.unlinks <;> simp [Dictionary.refreshed, eq_comm]
      · rw [if_neg found]
        exact iff_of_true rfl fun broken => absurd broken.1 found
    · rw [looked, if_pos found, isFile, VaultState.Unread]
      cases read : world.state.readText (root.parts ++ Path.parts key) with
      | error e =>
          rw [fails read]
          cases world.unlinks <;> simp [Dictionary.refreshed, found]
      | ok text => simp [VaultState.walked, VaultState.readDoc, read, Except.map, Dictionary.refreshed]
  · -- the note is what it was
    have left : ∀ ref ∈ refs, indexKey root ref ≠ .ok key := fun ref there same =>
      mem ((mem_keys_iff given).mpr ⟨ref, there, same⟩)
    have anew := (agrees key).trans (@entry_of_covers _ _ _ _ tokenize _ _ covers left)
    rw [indexAll_docs, Dictionary.get?_refreshAll, Dictionary.get?_empty] at anew
    rw [if_neg mem]
    refine iff_of_true ?_ fun there => absurd there mem
    by_cases found : key ∈ world.state.foundRefs
    · rw [if_pos found] at anew ⊢
      rw [anew]
      rcases world.state.walked tokenize key with _ | _ | _
      · rfl
      · cases world.unlinks <;> rfl
      · rfl
    · rw [if_neg found] at anew ⊢
      exact anew

end

/-- **Indexing is indexing anew** when no note that is found and cannot be read has an entry. -/
theorem index_agrees_iff (tokenize : String → List String) (world : VaultWorld root μ) :
    (SameDocs (world.index tokenize none).2 (world.reindex tokenize).2 ↔ ForgetsUnread world) ∧
    ∀ (former : VaultState root μ) (refs : List String) (result : IndexResult),
      AgreesWith tokenize former world.docs → Covers former world.state refs →
      (world.index tokenize (some refs)).1 = .ok result →
      (SameDocs (world.index tokenize (some refs)).2 (world.reindex tokenize).2 ↔
        ForgetsUnreadAmong world refs) := by
  constructor
  · unfold SameDocs ForgetsUnread
    rw [index_docs, reindex_docs]
    cases saves : world.saves with
    | true =>
        simp only [if_true, index_entry_iff]
        exact ⟨fun h unlinks key unread => h key unlinks (unread trivial),
          fun h key unlinks unread => h unlinks key fun _ => unread⟩
    | false => simp only [Bool.false_eq_true, if_false, same_base_iff, false_implies, true_implies]
  · intro former refs result agrees covers done
    obtain ⟨keys, given, docs⟩ := indexRefs_saved done
    unfold SameDocs ForgetsUnreadAmong
    rw [docs, reindex_docs]
    cases saves : world.saves with
    | true =>
        simp only [if_true, indexRefs_entry_iff _ given agrees covers]
        constructor
        · exact fun h => ⟨fun _ ref there key here => h key ⟨ref, there, here⟩,
            fun never => absurd never (by simp)⟩
        · rintro ⟨h, -⟩ key ⟨ref, there, here⟩
          exact h trivial ref there key here
    | false =>
        simp only [Bool.false_eq_true, if_false, same_base_iff, false_implies, true_and,
          true_implies]

section Vaults

/-- A vault with one note. -/
def oneNoteTree (text : Option String) : VaultTree :=
  (emptyTree.put ["vault"] .directory).put ["vault", "a.md"] (.file text)

theorem oneNoteTree_node (text : Option String) : (oneNoteTree text).node =
    Function.update (Function.update emptyTree.node ["vault"] (some .directory))
      ["vault", "a.md"] (some (.file text)) := by
  have vault : (emptyTree.put ["vault"] .directory).node =
      Function.update emptyTree.node ["vault"] (some .directory) :=
    DirectoryTree.put_node rfl (by decide) .directory
  rw [oneNoteTree, DirectoryTree.put_node, vault]
  · rw [vault]
    rfl
  · rw [vault]
    decide

def oneNote (text : Option String) : VaultState vaultRoot ℕ where
  tree := oneNoteTree text
  rooted := by
    intro other
    rw [oneNoteTree_node]
    exact fun same => absurd same (by simp [vaultRoot])
  mtime _ := 0
  listing := [["a.md"]]
  once := List.nodup_singleton _
  listed := by
    intro names
    rw [oneNoteTree_node]
    rcases names with _ | ⟨name, _ | ⟨next, names⟩⟩ <;>
      simp [vaultRoot, Function.update_apply, emptyTree]
  proper := by
    intro names mem name inNames
    rw [List.mem_singleton.mp mem, List.mem_singleton] at inNames
    rw [inNames]
    exact ⟨by decide, by decide, by decide, by decide, by decide⟩

/-- The words of a text in ASCII. -/
def asciiWords (content : String) : List String := Text.words (Text.lower content)

/-- A vault that has been indexed with one text, and has another. -/
def editedNote (text : Option String) : VaultWorld vaultRoot ℕ :=
  { (VaultWorld.index { state := oneNote (some "hello"), stored := none } asciiWords none).2 with
    state := oneNote text }

/-- A note is changed: what is indexed anew is indexed either way. -/
theorem index_agrees_changed :
    SameDocs ((editedNote (some "bye")).index asciiWords none).2
        ((editedNote (some "bye")).reindex asciiWords).2 ∧
      SameDocs ((editedNote (some "bye")).index asciiWords (some ["a.md"])).2
        ((editedNote (some "bye")).reindex asciiWords).2 := by
  have readable : ∀ key, ¬(editedNote (some "bye")).state.Unread key := by
    rintro key ⟨found, e, fails⟩
    have one : (editedNote (some "bye")).state.foundRefs = ["a.md"] := by decide +kernel
    rw [one, List.mem_singleton] at found
    subst found
    have reads : ((editedNote (some "bye")).state.readText
        (vaultRoot.parts ++ Path.parts "a.md")).toBool = true := by decide +kernel
    rw [fails] at reads
    cases reads
  have covers : Covers (oneNote (some "hello")) (editedNote (some "bye")).state ["a.md"] := by
    intro names _ changed
    by_cases here : vaultRoot.parts ++ names = ["vault", "a.md"]
    · have name : names = ["a.md"] := List.append_cancel_left here
      rw [name]
      decide
    · have same : (oneNote (some "hello")).tree.node (vaultRoot.parts ++ names) =
          (editedNote (some "bye")).state.tree.node (vaultRoot.parts ++ names) := by
        show (oneNoteTree (some "hello")).node _ = (oneNoteTree (some "bye")).node _
        rw [oneNoteTree_node, oneNoteTree_node, Function.update_of_ne here,
          Function.update_of_ne here]
      refine absurd ?_ changed
      rw [VaultState.noteAt, VaultState.noteAt, same]
      rfl
  obtain ⟨all, some_⟩ := index_agrees_iff asciiWords (editedNote (some "bye"))
  have done : ((editedNote (some "bye")).index asciiWords (some ["a.md"])).1.toBool = true := by
    decide +kernel
  refine ⟨all.mpr fun _ key unread => absurd (unread rfl) (readable key), ?_⟩
  cases indexed : ((editedNote (some "bye")).index asciiWords (some ["a.md"])).1 with
  | error e =>
      rw [indexed] at done
      cases done
  | ok result =>
      refine (some_ (oneNote (some "hello")) ["a.md"] result (fun _ => rfl) covers indexed).mpr ?_
      exact ⟨fun _ _ _ key _ unread => absurd unread (readable key),
        fun never => absurd never (by decide)⟩

/-- **A note that can no longer be decoded** keeps its entry, which `reindex` drops. -/
theorem unreadable_note_stays :
    ¬SameDocs ((editedNote none).index asciiWords none).2
      ((editedNote none).reindex asciiWords).2 := by
  intro same
  have entry := congrArg Option.isSome (same "a.md")
  revert entry
  decide +kernel

end Vaults

end MarkdownVault

end AgentOs
