import AgentOs.Connectors.VaultIndex
import Mathlib.Data.List.Infix

/-!
Reading and indexing inside the root of a vault (`connectors.py`).

`write_note` resolves a reference before it looks where it leads; `read_note` and `index` do not.
`closed_for_reading_iff` says for which references they agree all the same: those that go through no
other directories than the note's own, and those that every operation refuses. `reads_secret` is a
reference that is read from outside.
-/

namespace AgentOs

open AgentOs.Lib

namespace MarkdownVault

/-- A file that `index` opens for a reference. -/
def VaultState.Opens {root : VaultRoot} {μ : Type} (state : VaultState root μ) (ref : String)
    (file : List String) : Prop :=
  ∃ path text, indexPath root ref = .ok path ∧ state.isFile path = true ∧
    isIndexableNotePath root path = true ∧ state.tree.openFrom [] path = .ok (file, text)

/-- A reference is read and indexed as it is written. -/
structure ClosedForReading (root : VaultRoot) (ref : String) : Prop where
  /-- where `write_note` stays inside, so does `read_note` -/
  reads_inside : ∀ path, notePath root ref = .ok path → ∀ (t : VaultTree) file text,
    noteFile root t ref = .ok (file, text) → root.parts <+: file
  /-- and `index` -/
  indexes_inside : ∀ path, notePath root ref = .ok path → ∀ (state : VaultState root Unit) file,
    state.Opens ref file → root.parts <+: file
  /-- where `write_note` refuses, so does `read_note` -/
  refuses_reading : ∀ e, notePath root ref = .error e → ∀ access t,
    ∃ message, readNote access root t ref = .error (.valueError message)
  /-- and `index` -/
  refuses_indexing : ∀ e, notePath root ref = .error e →
    ∀ tokenize (world : VaultWorld root Unit) refs, ref ∈ refs →
      ∃ message, (world.index tokenize (some refs)).1 = .error (.valueError message)
  /-- what has been written is what is read -/
  reads_written : ∀ path, notePath root ref = .ok path → ∀ access (t : VaultTree) (write : NoteWrite),
    write.ref = ref → Committed (writeNote access root t write) →
      noteFile root (writeNote access root t write).2 ref =
        .ok (path, (write.text (t.node path)).1)

/-- The way to the note goes through no directory but those that the note is in. -/
def Direct (names path : List String) : Prop :=
  ∀ way, way <+: names.dropLast → Path.resolve way <+: path.dropLast

/-- The reference leads straight to a note, or has no name, or holds a NUL and does not begin at the
root. -/
def StaysClosed (root : VaultRoot) (ref : String) : Prop :=
  (∃ names path, unresolvedPath root ref = some names ∧ notePath root ref = .ok path ∧
      Direct names path) ∨
    unresolvedPath root ref = none ∨
    hasNul ref = true ∧ ∀ names, unresolvedPath root ref = some names → ¬root.parts <+: names

section

variable {root : VaultRoot} {ref : String} {names path file : List String} {t : VaultTree}

theorem noteFile_of_named (named : unresolvedPath root ref = some names) (nul : hasNul ref = false) :
    noteFile root t ref = (t.openFrom [] names).mapError NoteError.system := by
  rw [noteFile, named]
  dsimp only
  rw [nul, if_neg Bool.false_ne_true]

/-- What is opened lies where the reference resolves to. -/
theorem noteFile_ok_iff {text : Option String} (named : unresolvedPath root ref = some names)
    (nul : hasNul ref = false) : noteFile root t ref = .ok (file, text) ↔
      Path.resolve names = file ∧ t.node file = some (.file text) ∧
        ∀ way, way <+: names.dropLast → t.node (Path.resolve way) = some .directory := by
  have opened : noteFile root t ref = .ok (file, text) ↔ t.openFrom [] names = .ok (file, text) := by
    rw [noteFile_of_named named nul]
    cases t.openFrom [] names <;> simp [Except.mapError]
  obtain ⟨name, concat, -⟩ := resolve_unresolvedPath named
  have ways : ∀ way, way <+: names ∧ way ≠ names ↔ way <+: names.dropLast := by
    intro way
    constructor
    · rintro ⟨short, ne⟩
      rw [concat, List.prefix_concat_iff, ← concat] at short
      exact short.resolve_left ne
    · intro short
      refine ⟨short.trans (List.dropLast_prefix names), ?_⟩
      rintro rfl
      have shorter := short.length_le
      rw [concat, List.dropLast_concat, List.length_append, List.length_singleton] at shorter
      omega
  rw [opened, DirectoryTree.openFrom_ok_iff]
  refine and_congr Iff.rfl (and_congr Iff.rfl (forall_congr' fun way => ?_))
  rw [← ways way, and_imp]
  rfl

/-- **`index` opens files of the vault only.** -/
theorem VaultState.Opens.inside {μ : Type} {state : VaultState root μ}
    (opens : state.Opens ref file) : root.parts <+: file := by
  obtain ⟨path, text, named, -, indexable, opened⟩ := opens
  obtain ⟨rest, rfl⟩ := (indexPath_ok_iff.mp named).2
  obtain ⟨rfl, -⟩ :=
    (DirectoryTree.openFrom_plain_iff (plain_of_indexable indexable)).mp opened
  exact List.prefix_append _ _

/-- Every reference that `index` refuses is refused with a `ValueError`. -/
theorem indexPath_error {e : NoteError} (refused : indexPath root ref = .error e) :
    ∃ message, e = .valueError message := by
  unfold indexPath at refused
  split at refused
  · cases refused
    exact ⟨_, rfl⟩
  · split at refused
    · cases refused
    · cases refused
      exact ⟨_, rfl⟩

/-- One such reference, and `index` fails. -/
theorem index_refuses {μ : Type} {world : VaultWorld root μ} {tokenize : String → List String}
    {refs : List String} {e : NoteError} (refused : indexPath root ref = .error e)
    (mem : ref ∈ refs) :
    ∃ message, (world.index tokenize (some refs)).1 = .error (.valueError message) := by
  have fails : ∀ (refs : List String) (run : Indexing μ), ref ∈ refs →
      ∃ message, refs.foldlM (world.state.indexRef tokenize) run =
        .error (.valueError message) := by
    intro refs
    induction refs with
    | nil => exact fun _ mem => absurd mem List.not_mem_nil
    | cons first refs ih =>
        intro run mem
        rw [List.foldlM_cons]
        cases named : indexPath root first with
        | error e' =>
            obtain ⟨message, rfl⟩ := indexPath_error named
            exact ⟨message, by rw [VaultState.indexRef, named]; rfl⟩
        | ok path =>
            have later : ref ∈ refs := by
              refine (List.mem_cons.mp mem).resolve_left ?_
              rintro rfl
              rw [refused] at named
              cases named
            rw [VaultState.indexRef, named]
            exact ih _ later
  obtain ⟨message, failed⟩ := fails refs { docs := world.docs } mem
  exact ⟨message, by rw [VaultWorld.index, failed]⟩

/-! ### A reference that leads to a note -/

/-- A note that is reached directly is read after it has been written. -/
theorem reads_written_of_direct {access : VaultAccess} {write : NoteWrite}
    (named : unresolvedPath root write.ref = some names)
    (note : notePath root write.ref = .ok path) (direct : Direct names path)
    (done : Committed (writeNote access root t write)) :
    noteFile root (writeNote access root t write).2 write.ref =
      .ok (path, (write.text (t.node path)).1) := by
  obtain ⟨nul, -, names', named', resolved⟩ := notePath_ok_iff.mp note
  rw [named] at named'
  cases named'
  obtain ⟨file, directories⟩ := done.node note
  exact (noteFile_ok_iff named nul).mpr
    ⟨resolved, file, fun way short => directories _ (direct way short)⟩

/-- In a tree with nothing but the directories of a note, that is the only way to it. -/
theorem direct_of_reads_written {write : NoteWrite}
    (named : unresolvedPath root write.ref = some names)
    (note : notePath root write.ref = .ok path) {text : Option String}
    (reads : noteFile root (writeNote {} root emptyTree write).2 write.ref = .ok (path, text)) :
    Direct names path := by
  intro way short
  obtain ⟨-, file, ways⟩ := (noteFile_ok_iff named (notePath_ok_iff.mp note).1).mp reads
  have directory := ways way short
  have ne : Path.resolve way ≠ path := by
    intro same
    rw [same, file] at directory
    cases directory
  rcases @writeNote_other {} _ emptyTree _ _ _ note ne with stays | ⟨-, -, above⟩
  · rw [stays] at directory
    by_cases top : Path.resolve way = []
    · rw [top]
      exact List.nil_prefix
    · rw [show emptyTree.node (Path.resolve way) = none from if_neg top] at directory
      cases directory
  · exact above

/-! ### A reference that leads nowhere in the vault -/

/-- The path is on the way that names take. -/
def onTheWay (names path : List String) : Bool :=
  names.inits.any fun way => path.isPrefixOf (Path.resolve way)

theorem onTheWay_iff : onTheWay names path = true ↔
    ∃ way, way <+: names ∧ path <+: Path.resolve way := by
  simp [onTheWay, List.mem_inits]

/-- The directories on a way. -/
def wayTree (names : List String) : VaultTree where
  node path := if onTheWay names path then some .directory else none
  top := if_pos (onTheWay_iff.mpr ⟨[], List.nil_prefix, List.nil_prefix⟩)
  within := by
    intro path name there
    obtain ⟨way, short, above⟩ := onTheWay_iff.mp (by_contra fun off => there (if_neg off))
    exact if_pos (onTheWay_iff.mpr ⟨way, short, (List.prefix_append _ _).trans above⟩)

/-- Where a reference leads there may be a directory. -/
theorem reads_directory (named : unresolvedPath root ref = some names) (nul : hasNul ref = false) :
    readNote {} root (wayTree names) ref = .error (.system .isADirectory) := by
  have opened : (wayTree names).openFrom [] names = .error .isADirectory :=
    DirectoryTree.openFrom_directories fun way short =>
      if_pos (onTheWay_iff.mpr ⟨way, short, List.prefix_rfl⟩)
  rw [readNote, noteFile_of_named named nul, opened]
  rfl

/-- A vault without notes. -/
def emptyState (root : VaultRoot) : VaultState root Unit where
  tree := emptyTree
  rooted := by
    intro text there
    by_cases top : root.parts = []
    · rw [top, emptyTree.top] at there
      cases there
    · rw [show emptyTree.node root.parts = none from if_neg top] at there
      cases there
  mtime _ := ()
  listing := []
  once := List.nodup_nil
  listed := by
    intro names
    refine iff_of_false List.not_mem_nil ?_
    rintro ⟨some_, there⟩
    exact there (if_neg fun none => some_ (List.append_eq_nil_iff.mp none).2)
  proper := fun _ mem => absurd mem List.not_mem_nil

/-- A reference that begins at the root is not refused by `index`. -/
theorem index_accepts (named : unresolvedPath root ref = some names) (inside : root.parts <+: names) :
    ∃ result, (VaultWorld.index { state := emptyState root, stored := none } (fun _ => [])
      (some [ref])).1 = .ok result := by
  have path := indexPath_ok_iff.mpr ⟨named, inside⟩
  rw [VaultWorld.index]
  dsimp only
  rw [List.foldlM_cons, VaultState.indexRef, path]
  exact ⟨_, rfl⟩

/-- A reference that is refused everywhere. -/
theorem closed_of_refused {e : String} {e' : NoteError} (refused : notePath root ref = .error e)
    (unread : ∀ t, ∃ message, noteFile root t ref = .error (.valueError message))
    (unindexed : indexPath root ref = .error e') : ClosedForReading root ref where
  reads_inside path note := by
    rw [refused] at note
    cases note
  indexes_inside path note := by
    rw [refused] at note
    cases note
  refuses_reading _ _ access t := by
    obtain ⟨message, failed⟩ := unread t
    exact ⟨message, by rw [readNote, failed]; rfl⟩
  refuses_indexing _ _ tokenize world refs mem := index_refuses unindexed mem
  reads_written path note := by
    rw [refused] at note
    cases note

theorem exists_error {ε α : Type} {x : Except ε α} (never : ∀ a, x ≠ .ok a) : ∃ e, x = .error e := by
  cases x with
  | error e => exact ⟨e, rfl⟩
  | ok a => exact absurd rfl (never a)

theorem closed_of_unnamed (unnamed : unresolvedPath root ref = none) :
    ClosedForReading root ref := by
  obtain ⟨e, refused⟩ : ∃ e, notePath root ref = .error e := exists_error fun path note => by
    obtain ⟨-, -, names, named, -⟩ := notePath_ok_iff.mp note
    rw [unnamed] at named
    cases named
  have unindexed : indexPath root ref = .error (.valueError "PosixPath('/') has an empty name") := by
    rw [indexPath, unnamed]
  exact closed_of_refused refused (fun t => ⟨_, by rw [noteFile, unnamed]⟩) unindexed

theorem closed_of_nul (named : unresolvedPath root ref = some names) (nul : hasNul ref = true)
    (outside : ¬root.parts <+: names) : ClosedForReading root ref := by
  obtain ⟨e, refused⟩ : ∃ e, notePath root ref = .error e := exists_error fun path note => by
    rw [(notePath_ok_iff.mp note).1] at nul
    cases nul
  obtain ⟨e', unindexed⟩ : ∃ e', indexPath root ref = .error e' := exists_error fun path there => by
    obtain ⟨named', inside⟩ := indexPath_ok_iff.mp there
    rw [named] at named'
    cases named'
    exact outside inside
  refine closed_of_refused refused (fun t => ⟨"embedded null byte", ?_⟩) unindexed
  rw [noteFile, named]
  exact if_pos nul

end

/-- **A reference is read and indexed as it is written** exactly when it leads straight to its note
or every operation refuses it. -/
theorem closed_for_reading_iff (root : VaultRoot) (ref : String) :
    ClosedForReading root ref ↔ StaysClosed root ref := by
  constructor
  · intro closed
    cases note : notePath root ref with
    | ok path =>
        obtain ⟨write, rfl, create⟩ : ∃ write : NoteWrite, write.ref = ref ∧ write.mode = .create :=
          ⟨⟨ref, "", {}, .create⟩, rfl, rfl⟩
        obtain ⟨-, -, names, named, -⟩ := notePath_ok_iff.mp note
        have created := create_emptyTree write note create
        have reads := closed.reads_written path note {} emptyTree write rfl created
        exact .inl ⟨names, path, named, note, direct_of_reads_written named note reads⟩
    | error e =>
        cases named : unresolvedPath root ref with
        | none => exact .inr (.inl named)
        | some names =>
            cases nul : hasNul ref with
            | false =>
                obtain ⟨message, failed⟩ := closed.refuses_reading e note {} (wayTree names)
                rw [reads_directory named nul] at failed
                cases failed
            | true =>
                refine .inr (.inr ⟨nul, fun names' named' inside => ?_⟩)
                obtain ⟨result, accepted⟩ := index_accepts named' inside
                obtain ⟨message, failed⟩ :=
                  closed.refuses_indexing e note _ _ [ref] (List.mem_singleton_self ref)
                rw [accepted] at failed
                cases failed
  · rintro (⟨names, path, named, note, direct⟩ | unnamed | ⟨nul, outside⟩)
    · obtain ⟨nul, inside, names', named', resolved⟩ := notePath_ok_iff.mp note
      rw [named] at named'
      cases named'
      exact
        { reads_inside := fun path' note' t file text reads => by
            rw [note] at note'
            cases note'
            obtain ⟨rfl, -⟩ := (noteFile_ok_iff named nul).mp reads
            rwa [resolved]
          indexes_inside := fun _ _ _ _ opens => opens.inside
          refuses_reading := fun e refused => by
            rw [note] at refused
            cases refused
          refuses_indexing := fun e refused => by
            rw [note] at refused
            cases refused
          reads_written := by
            rintro path' note' access t write rfl done
            rw [note] at note'
            cases note'
            exact reads_written_of_direct named note direct done }
    · exact closed_of_unnamed unnamed
    · cases named : unresolvedPath root ref with
      | none => exact closed_of_unnamed named
      | some names => exact closed_of_nul named nul (outside names named)

section Vaults

/-- A note in a directory is read and indexed as it is written. -/
theorem closed_for_reading_daily : ClosedForReading vaultRoot "daily/./today" := by
  have named : unresolvedPath vaultRoot "daily/./today" = some ["vault", "daily", "today.md"] := by
    decide +kernel
  have note : notePath vaultRoot "daily/./today" = .ok ["vault", "daily", "today.md"] := by
    decide +kernel
  refine (closed_for_reading_iff vaultRoot "daily/./today").mpr
    (.inl ⟨_, _, named, note, fun way short => ?_⟩)
  have plain : ∀ name ∈ way, name ≠ ".." := by
    rintro name mem rfl
    exact absurd (short.subset mem) (by decide)
  rwa [Path.resolve_of_plain plain]

/-- A file beside the vault. -/
def secretTree : VaultTree :=
  (emptyTree.put ["vault"] .directory).put ["secret.md"] (.file (some "key"))

/-- **A file outside is read**, under a reference that `write_note` refuses. -/
theorem reads_secret :
    (readNote {} vaultRoot secretTree "../secret").toOption.map (·.content) = some "key" ∧
      ¬ClosedForReading vaultRoot "../secret" := by
  have read : (readNote {} vaultRoot secretTree "../secret").toOption.map (·.content) =
      some "key" := by decide +kernel
  have refused : (notePath vaultRoot "../secret").toBool = false := by decide +kernel
  refine ⟨read, fun closed => ?_⟩
  cases note : notePath vaultRoot "../secret" with
  | ok path =>
      rw [note] at refused
      cases refused
  | error e =>
      obtain ⟨message, failed⟩ := closed.refuses_reading e note {} secretTree
      rw [failed] at read
      cases read

end Vaults

end MarkdownVault

end AgentOs
