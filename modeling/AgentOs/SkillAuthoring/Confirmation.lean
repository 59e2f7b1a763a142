import AgentOs.Lib.Machine
import AgentOs.SkillAuthoring.Drafts
import AgentOs.SkillAuthoring.Registration

/-!
One `confirm_registration` against edits of the draft (`skill_authoring.py`).

The call reads the draft in three passes: a digest that is compared with the request's,
the validation with a digest of its own, and the copy. Each listing of a directory and
each read or copy of an entry is one step, and between any two of them another process
may replace the draft. What a link leads to, and whether an operation raises, is in the
labels.

Nothing reads the copy again, so what is registered is what was validated where the
copy's steps still find what the validation has read (`StillValidated`).
-/

namespace AgentOs

open AgentOs.Lib

namespace Package

variable (package : Package)

/-- What is at a path; the package itself is a directory. -/
def at? (path : RelPath) : Option PackageEntry :=
  if path = [] then some .directory else package.entries.lookup path

/-- `scandir`. -/
def children (path : RelPath) : List (RelPath × PackageEntry) :=
  package.entries.filter fun entry => entry.1.dropLast = path

end Package

/-! ### The passes -/

/-- Where a `package_digest` is. -/
inductive DigestPass where
  /-- `rglob`: the directories still to list, and what was found -/
  | listing (dirs found : List RelPath)
  /-- the paths still to read, and what was read -/
  | hashing (todo : List RelPath) (read : List (RelPath × PackageEntry))

/-- Paths in their order. -/
def sortPaths (paths : List RelPath) : List RelPath :=
  paths.insertionSort fun a b => a.sortKey ≤ b.sortKey

/-- The next operation of a pass on the draft: it goes on, or it has read its entries. -/
def DigestPass.next (packageDir : List FileName) (draft : Package) :
    DigestPass → Except String (DigestPass ⊕ List (RelPath × PackageEntry))
  | .listing [] found => .ok (.inl (.hashing (sortPaths found) []))
  | .listing (dir :: dirs) found =>
      match draft.at? dir with
      | some .directory =>
          let children := draft.children dir
          let below := (children.filter (·.2 = .directory)).map Prod.fst
          .ok (.inl (.listing (below ++ dirs) (children.map Prod.fst ∪ found)))
      | _ => .error "FileNotFoundError"
  | .hashing [] read => .ok (.inr read)
  | .hashing (path :: todo) read =>
      match draft.at? path with
      | none => .ok (.inl (.hashing todo read))
      | some entry =>
          match hashEntry packageDir path entry with
          | .error e => .error e
          | .ok _ => .ok (.inl (.hashing todo (read ++ [(path, entry)])))

/-- What `copytree` has still to copy: a directory, or an entry of a listed one and
whether it was a link then. -/
inductive CopyTask where
  | tree (path : RelPath)
  | entry (path : RelPath) (link : Bool)

def CopyTask.path : CopyTask → RelPath
  | tree path => path
  | entry path _ => path

/-- The copying of a listed entry. -/
def copyTask (entry : RelPath × PackageEntry) : CopyTask :=
  match entry.2 with
  | .directory => .tree entry.1
  | .file _ => .entry entry.1 false
  | .symlink => .entry entry.1 true

/-- What is at a path is written anew. -/
def putEntry (entries : List (RelPath × PackageEntry)) (path : RelPath) (entry : PackageEntry) :
    List (RelPath × PackageEntry) :=
  entries.filter (·.1 ≠ path) ++ [(path, entry)]

/-- Files are written one after another. -/
def putFiles (entries : List (RelPath × PackageEntry)) (files : List (RelPath × List UInt8)) :
    List (RelPath × PackageEntry) :=
  files.foldl (fun entries file => putEntry entries file.1 (.file file.2)) entries

/-! ### The call -/

/-- Where the call is. -/
inductive ConfirmStage where
  /-- the digest that is compared with the request's -/
  | checking (pass : DigestPass)
  /-- the digest of the validation -/
  | revalidating (pass : DigestPass)
  /-- the subprocess runs -/
  | preflight
  | copying (todo : List CopyTask) (failed : Bool)
  | copied
  /-- the copy loads -/
  | loaded
  | registered
  | raised (error : String)

/-- The draft, the request, what the validation has read, the copy, and the call. -/
structure Confirmation where
  draft : Package
  row : AuthoringRequest
  validated : List (RelPath × PackageEntry) := []
  promoted : List (RelPath × PackageEntry) := []
  stage : ConfirmStage := .checking (.listing [[]] [])

structure ConfirmSetup where
  sha256 : List UInt8 → String
  packageDir : List FileName
  destination : List FileName
  now : ℤ

inductive ConfirmEvent where
  /-- another process changes the draft -/
  | edit (draft : Package)
  | next
  /-- what the subprocess finds -/
  | preflight (passed : Bool) (summary : Dict)
  /-- a link is copied: the files it leads to, by their paths below it -/
  | follow (files : List (RelPath × List UInt8))
  /-- a copy raises, and `copytree` goes on -/
  | skip
  /-- the handler is imported, and what the import writes -/
  | load (compiled : List (RelPath × List UInt8))
  | fail (error : String)

section

variable (setup : ConfirmSetup) (s : Confirmation)

/-- The text of a directory's path. -/
def dirText (path : List FileName) : String :=
  String.join (path.map fun name => "/" ++ .ofList (name.chars.filterMap NameChar.char?))

namespace Confirmation

def raise (error : String) : Confirmation := { s with stage := .raised error }

/-- `package_digest` returns in `confirm_registration`. -/
def checked (read : List (RelPath × PackageEntry)) : Confirmation :=
  match hashEntries setup.packageDir read with
  | .error e => s.raise e
  | .ok stream =>
      if some (setup.sha256 stream) ≠ s.row.draftDigest then
        s.raise "Draft changed after validation; submit it for validation again"
      else { s with stage := .revalidating (.listing [[]] []) }

/-- The subprocess returns in `validate_staged_package`. -/
def audited (passed : Bool) (summary : Dict) : Confirmation :=
  match hashEntries setup.packageDir s.validated with
  | .error e => s.raise e
  | .ok stream =>
      if !passed ∨ some (setup.sha256 stream) ≠ s.row.draftDigest then
        { s with
            row := s.row.withValidation .validationFailed (dirText setup.packageDir)
              ⟨setup.sha256 stream, summary, passed⟩ (some "Revalidation failed before registration")
            stage := .raised
              "Revalidation failed; registry and workspace configuration were left unchanged" }
      else { s with stage := .copying [.tree []] false }

/-- The next operation of `copytree`. -/
def copyNext (task : CopyTask) (todo : List CopyTask) (failed : Bool) : Option Confirmation :=
  match task, s.draft.at? task.path with
  | _, some .symlink => none
  | .tree path, some .directory =>
      if path ∈ s.promoted.map Prod.fst then some { s with stage := .copying todo true }
      else some
        { s with
            promoted := if path = [] then s.promoted else s.promoted ++ [(path, .directory)]
            stage := .copying ((s.draft.children path).map copyTask ++ todo) failed }
  | .entry path false, some (.file content) =>
      some
        { s with
            promoted := putEntry s.promoted path (.file content)
            stage := .copying todo failed }
  | _, _ => some { s with stage := .copying todo true }

/-- The next step of the call. -/
def advance : ConfirmEvent → Option Confirmation
  | .edit draft => some { s with draft }
  | .next =>
      match s.stage with
      | .checking pass =>
          match pass.next setup.packageDir s.draft with
          | .error e => some (s.raise e)
          | .ok (.inl pass) => some { s with stage := .checking pass }
          | .ok (.inr read) => some (s.checked setup read)
      | .revalidating pass =>
          match pass.next setup.packageDir s.draft with
          | .error e => some (s.raise e)
          | .ok (.inl pass) => some { s with stage := .revalidating pass }
          | .ok (.inr read) => some { s with validated := read, stage := .preflight }
      | .copying [] failed =>
          if failed then some (s.raise "shutil.Error") else some { s with stage := .copied }
      | .copying (task :: todo) failed => s.copyNext task todo failed
      | .loaded =>
          some
            { s with
                row := s.row.withRegistration setup.now setup.now
                  ⟨dirText setup.destination, s.row.suggestedSkillName⟩
                stage := .registered }
      | _ => none
  | .preflight passed summary =>
      match s.stage with
      | .preflight => some (s.audited setup passed summary)
      | _ => none
  | .follow files =>
      match s.stage with
      | .copying (task :: todo) failed =>
          if s.draft.at? task.path = some .symlink then
            some
              { s with
                  promoted := putFiles s.promoted (files.map fun f => (task.path ++ f.1, f.2))
                  stage := .copying todo failed }
          else none
      | _ => none
  | .skip =>
      match s.stage with
      | .copying (_ :: todo) _ => some { s with stage := .copying todo true }
      | _ => none
  | .load compiled =>
      match s.stage with
      | .copied =>
          if compiled.all fun f => isArtifact [] f.1 then
            some { s with promoted := putFiles s.promoted compiled, stage := .loaded }
          else none
      | _ => none
  | .fail error =>
      match s.stage with
      | .registered | .raised _ => none
      | _ => some (s.raise error)

end Confirmation

end

/-- The machine of one call. -/
def confirmMachine (setup : ConfirmSetup) : Machine Confirmation ConfirmEvent where
  step s event := s.advance setup event

/-! ### What a copy keeps -/

section Copy

variable {packageDir : List FileName} {validated promoted : List (RelPath × PackageEntry)}
  {path path' : RelPath} {content content' : List UInt8} {entry entry' : PackageEntry}
  {files : List (RelPath × List UInt8)} {todo : List CopyTask}

/-- A file that counts for the digest. -/
def Hashed (packageDir : List FileName) (entries : List (RelPath × PackageEntry)) (path : RelPath)
    (content : List UInt8) : Prop :=
  (path, .file content) ∈ entries ∧ isArtifact packageDir path = false

/-- What is copied so far holds no hashed file that the validation has not read. -/
structure Sound (packageDir : List FileName) (validated promoted : List (RelPath × PackageEntry)) :
    Prop where
  nodup : (promoted.map Prod.fst).Nodup
  linkless : ∀ entry ∈ promoted, entry.2 ≠ .symlink
  read : ∀ path content, Hashed packageDir promoted path content →
    (path, .file content) ∈ validated

theorem mem_putEntry : (path, entry) ∈ putEntry promoted path' entry' ↔
    path ≠ path' ∧ (path, entry) ∈ promoted ∨ path = path' ∧ entry = entry' := by
  simp only [putEntry, List.mem_append, List.mem_filter, List.mem_singleton, Prod.mk.injEq,
    decide_eq_true_eq]
  exact or_congr_left and_comm

/-- A file that the validation has read is written. -/
theorem Sound.put (sound : Sound packageDir validated promoted)
    (read : isArtifact packageDir path = false → (path, .file content) ∈ validated) :
    Sound packageDir validated (putEntry promoted path (.file content)) where
  nodup := by
    have kept := (List.filter_sublist (p := fun e : RelPath × PackageEntry => e.1 ≠ path)).map Prod.fst
      |>.nodup sound.nodup
    rw [putEntry, List.map_append]
    refine List.Nodup.append kept (List.nodup_singleton _) ?_
    intro p hp there
    obtain ⟨e, he, rfl⟩ := List.mem_map.mp hp
    have other := (List.mem_filter.mp he).2
    simp at there other
    exact other there
  linkless := by
    rintro ⟨p, e⟩ mem
    rcases mem_putEntry.mp mem with ⟨-, mem⟩ | ⟨-, rfl⟩
    · exact sound.linkless _ mem
    · intro same
      cases same
  read := by
    rintro p c ⟨mem, hashed⟩
    rcases mem_putEntry.mp mem with ⟨-, mem⟩ | ⟨rfl, same⟩
    · exact sound.read p c ⟨mem, hashed⟩
    · cases same
      exact read hashed

/-- A file that was read and copied stays. -/
theorem kept_put (once : (validated.map Prod.fst).Nodup)
    (read : isArtifact packageDir path = false → (path, .file content) ∈ validated)
    (was : Hashed packageDir validated path' content') (copied : (path', .file content') ∈ promoted) :
    (path', .file content') ∈ putEntry promoted path (.file content) := by
  rw [mem_putEntry]
  by_cases other : path' = path
  · subst other
    have same := List.inj_on_of_nodup_map once was.1 (read was.2) rfl
    exact .inr ⟨rfl, congrArg Prod.snd same⟩
  · exact .inl ⟨other, copied⟩

/-- The same for files in turn. -/
theorem Sound.putFiles (once : (validated.map Prod.fst).Nodup)
    (read : ∀ file ∈ files, isArtifact packageDir file.1 = false →
      (file.1, .file file.2) ∈ validated)
    (sound : Sound packageDir validated promoted) :
    Sound packageDir validated (putFiles promoted files) ∧
      ∀ path content, Hashed packageDir validated path content →
        (path, .file content) ∈ promoted ∨ (path, content) ∈ files →
          (path, .file content) ∈ AgentOs.putFiles promoted files := by
  induction files generalizing promoted with
  | nil => exact ⟨sound, fun path content _ h => h.elim id (by simp)⟩
  | cons file files ih =>
      have first := read file (List.mem_cons_self ..)
      obtain ⟨sound', kept⟩ := ih (fun f hf => read f (List.mem_cons_of_mem _ hf)) (sound.put first)
      refine ⟨sound', fun path content was h => kept path content was ?_⟩
      rcases h with copied | written
      · exact .inl (kept_put once first was copied)
      · rcases List.mem_cons.mp written with rfl | written
        · exact .inl (mem_putEntry.mpr (.inr ⟨rfl, rfl⟩))
        · exact .inr written

end Copy

/-! ### What a pass reads -/

section Pass

variable {packageDir : List FileName} {draft : Package} {pass : DigestPass}
  {read : List (RelPath × PackageEntry)}

/-- Entries that were read in the order of their paths, with the rest to come. -/
structure ReadInOrder (packageDir : List FileName) (todo : List RelPath)
    (read : List (RelPath × PackageEntry)) : Prop where
  ordered : (read.map Prod.fst ++ todo).Pairwise fun a b => a.sortKey < b.sortKey
  hashable : ∃ stream, hashEntries packageDir read = .ok stream

/-- What a pass has in hand: the paths found are different, and they are read in order. -/
def DigestPass.Ordered (packageDir : List FileName) : DigestPass → Prop
  | .listing _ found => found.Nodup
  | .hashing todo read => ReadInOrder packageDir todo read

theorem pairwise_sortPaths {paths : List RelPath} (once : paths.Nodup) :
    (sortPaths paths).Pairwise fun a b => a.sortKey < b.sortKey := by
  have total : ∀ a b : RelPath, a.sortKey ≤ b.sortKey ∨ b.sortKey ≤ a.sortKey :=
    fun a b => le_total _ _
  have trans : ∀ a b c : RelPath, a.sortKey ≤ b.sortKey → b.sortKey ≤ c.sortKey →
      a.sortKey ≤ c.sortKey := fun a b c => le_trans
  have : Std.Total fun a b : RelPath => a.sortKey ≤ b.sortKey := ⟨total⟩
  have : IsTrans RelPath fun a b => a.sortKey ≤ b.sortKey := ⟨trans⟩
  have sorted : (sortPaths paths).Pairwise fun a b => a.sortKey ≤ b.sortKey :=
    List.pairwise_insertionSort _ _
  have distinct : (sortPaths paths).Nodup := (List.perm_insertionSort _ _).nodup_iff.mpr once
  refine (sorted.and distinct).imp ?_
  rintro a b ⟨le, ne⟩
  exact lt_of_le_of_ne le fun same => ne (RelPath.sortKey_injective same)

theorem hashEntries_concat {path : RelPath} {entry : PackageEntry} {bytes : List UInt8}
    (h : ∃ stream, hashEntries packageDir read = .ok stream)
    (last : hashEntry packageDir path entry = .ok bytes) :
    ∃ stream, hashEntries packageDir (read ++ [(path, entry)]) = .ok stream := by
  induction read with
  | nil => exact ⟨bytes ++ [], hashEntries_cons_eq_ok.mpr ⟨bytes, [], last, rfl, rfl⟩⟩
  | cons first read ih =>
      obtain ⟨stream, h⟩ := h
      obtain ⟨head, rest, one, others, -⟩ := hashEntries_cons_eq_ok.mp h
      obtain ⟨more, ih⟩ := ih ⟨rest, others⟩
      exact ⟨head ++ more, hashEntries_cons_eq_ok.mpr ⟨head, more, one, ih, rfl⟩⟩

/-- A pass goes on in order. -/
theorem DigestPass.Ordered.next {pass' : DigestPass} (ordered : pass.Ordered packageDir)
    (h : pass.next packageDir draft = .ok (.inl pass')) : pass'.Ordered packageDir := by
  cases pass with
  | listing dirs found =>
      cases dirs with
      | nil =>
          cases h
          exact ⟨by simpa using pairwise_sortPaths ordered, [], rfl⟩
      | cons dir dirs =>
          simp only [DigestPass.next] at h
          split at h
          · cases h
            exact List.Nodup.union _ ordered
          · cases h
  | hashing todo read =>
      cases todo with
      | nil => cases h
      | cons path todo =>
          simp only [DigestPass.next] at h
          split at h
          · cases h
            refine ⟨ordered.ordered.sublist ?_, ordered.hashable⟩
            exact (List.sublist_cons_self path todo).append_left _
          · split at h
            · cases h
            · rename_i bytes hashed
              cases h
              exact ⟨by simpa using ordered.ordered, hashEntries_concat ordered.hashable hashed⟩

/-- A pass ends with what it has read. -/
theorem DigestPass.Ordered.done (ordered : pass.Ordered packageDir)
    (h : pass.next packageDir draft = .ok (.inr read)) : ReadInOrder packageDir [] read := by
  cases pass with
  | listing dirs found =>
      cases dirs with
      | nil => cases h
      | cons dir dirs =>
          simp only [DigestPass.next] at h
          split at h <;> cases h
  | hashing todo entries =>
      cases todo with
      | nil =>
          cases h
          exact ordered
      | cons path todo =>
          simp only [DigestPass.next] at h
          split at h
          · cases h
          · split at h <;> cases h

end Pass

/-! ### What is registered -/

section Registered

variable (setup : ConfirmSetup)

/-- What is copied and still to copy makes up what the validation has read. -/
structure Copying (validated promoted : List (RelPath × PackageEntry)) (todo : List RelPath) : Prop where
  sound : Sound setup.packageDir validated promoted
  complete : ∀ path content, Hashed setup.packageDir validated path content →
    (path, .file content) ∈ promoted ∨ ∃ task ∈ todo, task <+: path

/-- The request's digest is of what the validation has read. -/
structure Validated (draftDigest : Option String) (validated : List (RelPath × PackageEntry)) : Prop where
  read : ReadInOrder setup.packageDir [] validated
  digest : ∀ stream, hashEntries setup.packageDir validated = .ok stream →
    draftDigest = some (setup.sha256 stream)

/-- What holds at each stage of the call. -/
def ConfirmInv (s : Confirmation) : Prop :=
  match s.stage with
  | .checking _ => s.row.status ≠ .registered ∧ s.promoted = []
  | .revalidating pass =>
      s.row.status ≠ .registered ∧ s.promoted = [] ∧ pass.Ordered setup.packageDir
  | .preflight =>
      s.row.status ≠ .registered ∧ s.promoted = [] ∧ ReadInOrder setup.packageDir [] s.validated
  | .copying todo failed =>
      s.row.status ≠ .registered ∧ Validated setup s.row.draftDigest s.validated ∧
        (failed = false → Copying setup s.validated s.promoted (todo.map CopyTask.path))
  | .copied | .loaded =>
      s.row.status ≠ .registered ∧ Validated setup s.row.draftDigest s.validated ∧
        Copying setup s.validated s.promoted []
  | .registered =>
      Validated setup s.row.draftDigest s.validated ∧ Copying setup s.validated s.promoted []
  | .raised _ => s.row.status ≠ .registered

/-- What the next step of the copy finds: where, the files it copies, and what it will
copy next. -/
def Confirmation.finds (s : Confirmation) :
    ConfirmEvent → Option (RelPath × List (RelPath × List UInt8) × List RelPath)
  | .next =>
      match s.stage with
      | .copying (task :: _) false =>
          match task, s.draft.at? task.path with
          | .tree path, some .directory => some (path, [], (s.draft.children path).map Prod.fst)
          | .entry path false, some (.file content) => some (path, [(path, content)], [])
          | _, _ => none
      | _ => none
  | .follow files =>
      match s.stage with
      | .copying (task :: _) false =>
          some (task.path, files.map fun f => (task.path ++ f.1, f.2), [])
      | _ => none
  | _ => none

/-- What is found under a path is what the validation has read there: each hashed file of
`files`, and all of its hashed files among `files` or below `more`. -/
def Agrees (validated : List (RelPath × PackageEntry)) (path : RelPath)
    (files : List (RelPath × List UInt8)) (more : List RelPath) : Prop :=
  (∀ file ∈ files, isArtifact setup.packageDir file.1 = false → (file.1, .file file.2) ∈ validated) ∧
    ∀ entry ∈ hashedEntries setup.packageDir validated, path <+: entry.1 →
      (∃ file ∈ files, (file.1, .file file.2) = entry) ∨ ∃ next ∈ more, next <+: entry.1

instance (validated : List (RelPath × PackageEntry)) (path : RelPath)
    (files : List (RelPath × List UInt8)) (more : List RelPath) :
    Decidable (Agrees setup validated path files more) := inferInstanceAs (Decidable (_ ∧ _))

/-- The step finds in the draft what the validation has read. -/
def StillValidated (s : Confirmation) (event : ConfirmEvent) : Prop :=
  match s.finds event with
  | none => True
  | some (path, files, more) => Agrees setup s.validated path files more

instance (s : Confirmation) (event : ConfirmEvent) : Decidable (StillValidated setup s event) :=
  match found : s.finds event with
  | none => .isTrue (by simp [StillValidated, found])
  | some (path, files, more) =>
      decidable_of_iff (Agrees setup s.validated path files more) (by simp [StillValidated, found])

variable {setup} {validated promoted : List (RelPath × PackageEntry)}

/-- A step that finds what the validation has read goes on towards it. -/
theorem Copying.step {path : RelPath} {todo more : List RelPath}
    {files : List (RelPath × List UInt8)} (once : (validated.map Prod.fst).Nodup)
    (copying : Copying setup validated promoted (path :: todo))
    (agrees : Agrees setup validated path files more) :
    Copying setup validated (putFiles promoted files) (more ++ todo) := by
  obtain ⟨sound, kept⟩ := Sound.putFiles once agrees.1 copying.sound
  refine ⟨sound, fun path' content was => ?_⟩
  rcases copying.complete path' content was with copied | ⟨task, mem, covers⟩
  · exact .inl (kept path' content was (.inl copied))
  · rcases List.mem_cons.mp mem with rfl | mem
    · have hashed : (path', .file content) ∈ hashedEntries setup.packageDir validated :=
        List.mem_filter.mpr ⟨was.1, by simp [was.2]⟩
      rcases agrees.2 _ hashed covers with ⟨file, written, same⟩ | ⟨next, mem, covers⟩
      · cases same
        exact .inl (kept _ _ was (.inr written))
      · exact .inr ⟨next, List.mem_append_left _ mem, covers⟩
    · exact .inr ⟨task, List.mem_append_right _ mem, covers⟩

variable {s t : Confirmation}

theorem ReadInOrder.nodup {packageDir : List FileName} {read : List (RelPath × PackageEntry)}
    (h : ReadInOrder packageDir [] read) : (read.map Prod.fst).Nodup := by
  have ordered := h.ordered
  rw [List.append_nil] at ordered
  exact ordered.imp fun lt same => absurd (same ▸ lt) (lt_irrefl _)

/-- The first digest decides whether the validation starts. -/
theorem ConfirmInv.checked (h : s.row.status ≠ .registered ∧ s.promoted = [])
    (read : List (RelPath × PackageEntry)) : ConfirmInv setup (s.checked setup read) := by
  unfold Confirmation.checked
  split
  · exact h.1
  · split
    · exact h.1
    · exact ⟨h.1, h.2, List.nodup_nil⟩

/-- The validation decides whether the copy starts: nothing is copied, and everything is
below the package. -/
theorem ConfirmInv.audited (h : s.row.status ≠ .registered ∧ s.promoted = [] ∧
      ReadInOrder setup.packageDir [] s.validated) (passed : Bool) (summary : Dict) :
    ConfirmInv setup (s.audited setup passed summary) := by
  obtain ⟨status, promoted, read⟩ := h
  unfold Confirmation.audited
  split
  · exact status
  · rename_i stream hashed
    split
    · simp [ConfirmInv, AuthoringRequest.withValidation]
    · rename_i passes
      have digest : s.row.draftDigest = some (setup.sha256 stream) := by
        by_contra other
        exact passes (.inr fun same => other same.symm)
      refine ⟨status, ⟨read, fun stream' hashed' => ?_⟩, fun _ => ⟨?_, ?_⟩⟩
      · rw [hashed] at hashed'
        cases hashed'
        exact digest
      · rw [promoted]
        exact ⟨List.nodup_nil, by simp, by simp [Hashed]⟩
      · exact fun path content _ => .inr ⟨[], by simp [CopyTask.path], List.nil_prefix⟩

/-- A directory is made where nothing was. -/
theorem Copying.mkdir {path : RelPath} {todo : List RelPath}
    (fresh : path ∉ promoted.map Prod.fst) (copying : Copying setup validated promoted todo) :
    Copying setup validated (promoted ++ [(path, .directory)]) todo where
  sound :=
    { nodup := by
        rw [List.map_append]
        refine List.Nodup.append copying.sound.nodup (List.nodup_singleton _) ?_
        intro p hp there
        rw [List.map_singleton, List.mem_singleton] at there
        subst there
        exact fresh hp
      linkless := by
        intro entry mem
        rcases List.mem_append.mp mem with mem | mem
        · exact copying.sound.linkless _ mem
        · rw [List.mem_singleton.mp mem]
          simp
      read := by
        rintro p c ⟨mem, hashed⟩
        refine copying.sound.read p c ⟨?_, hashed⟩
        simpa using mem }
  complete path content was :=
    (copying.complete path content was).imp_left fun mem => List.mem_append_left _ mem

theorem map_path_copyTask (entries : List (RelPath × PackageEntry)) :
    (entries.map copyTask).map CopyTask.path = entries.map Prod.fst := by
  rw [List.map_map]
  refine List.map_congr_left fun entry _ => ?_
  obtain ⟨path, entry⟩ := entry
  cases entry <;> rfl

/-- A step of the copy. -/
theorem ConfirmInv.copyNext {task : CopyTask} {todo : List CopyTask} {failed : Bool}
    (stage : s.stage = .copying (task :: todo) failed) (condition : StillValidated setup s .next)
    (h : ConfirmInv setup s) (step : s.copyNext task todo failed = some t) :
    ConfirmInv setup t := by
  simp only [ConfirmInv, stage] at h
  obtain ⟨status, validated, copying⟩ := h
  have once := validated.read.nodup
  -- a copy that has failed will raise
  have fails : ConfirmInv setup { s with stage := .copying todo true } :=
    ⟨status, validated, nofun⟩
  cases task with
  | tree path =>
      cases found : s.draft.at? path with
      | none =>
          simp only [Confirmation.copyNext, CopyTask.path, found] at step
          cases step
          exact fails
      | some entry =>
          cases entry with
          | symlink => simp [Confirmation.copyNext, CopyTask.path, found] at step
          | file content =>
              simp only [Confirmation.copyNext, CopyTask.path, found] at step
              cases step
              exact fails
          | directory =>
              simp only [Confirmation.copyNext, CopyTask.path, found] at step
              split at step
              · cases step
                exact fails
              · rename_i fresh
                cases step
                refine ⟨status, validated, fun fine => ?_⟩
                obtain rfl : failed = false := fine
                simp only [StillValidated, Confirmation.finds, stage, CopyTask.path, found] at condition
                have next := (copying rfl).step once condition
                rw [← map_path_copyTask, ← List.map_append] at next
                dsimp only
                split
                · exact next
                · exact next.mkdir fresh
  | entry path link =>
      cases found : s.draft.at? path with
      | none =>
          simp only [Confirmation.copyNext, CopyTask.path, found] at step
          cases step
          exact fails
      | some entry =>
          cases entry with
          | symlink => simp [Confirmation.copyNext, CopyTask.path, found] at step
          | directory =>
              simp only [Confirmation.copyNext, CopyTask.path, found] at step
              cases step
              exact fails
          | file content =>
              cases link with
              | true =>
                  simp only [Confirmation.copyNext, CopyTask.path, found] at step
                  cases step
                  exact fails
              | false =>
                  simp only [Confirmation.copyNext, CopyTask.path, found] at step
                  cases step
                  refine ⟨status, validated, fun fine => ?_⟩
                  obtain rfl : failed = false := fine
                  simp only [StillValidated, Confirmation.finds, stage, CopyTask.path, found] at condition
                  exact (copying rfl).step once condition

/-- What an import writes does not count. -/
theorem Copying.load {compiled : List (RelPath × List UInt8)}
    (once : (validated.map Prod.fst).Nodup)
    (artifacts : ∀ file ∈ compiled, isArtifact [] file.1 = true)
    (copying : Copying setup validated promoted []) :
    Copying setup validated (putFiles promoted compiled) [] := by
  have left : ∀ file ∈ compiled, isArtifact setup.packageDir file.1 = false →
      (file.1, .file file.2) ∈ validated := by
    intro file mem hashed
    have artifact := artifacts file mem
    simp only [isArtifact, inCache, List.any_append, List.any_nil, Bool.false_or,
      Bool.or_eq_false_iff] at artifact hashed
    rw [hashed.1.2, hashed.2] at artifact
    cases artifact
  obtain ⟨sound, kept⟩ := Sound.putFiles once left copying.sound
  refine ⟨sound, fun path content was => ?_⟩
  rcases copying.complete path content was with copied | ⟨task, mem, -⟩
  · exact .inl (kept path content was (.inl copied))
  · cases mem

theorem ConfirmInv.advance {event : ConfirmEvent} (condition : StillValidated setup s event)
    (h : ConfirmInv setup s) (step : s.advance setup event = some t) : ConfirmInv setup t := by
  cases event with
  | edit draft =>
      cases step
      exact h
  | next =>
      cases stage : s.stage with
      | checking pass =>
          simp only [ConfirmInv, stage] at h
          simp only [Confirmation.advance, stage] at step
          split at step
          · cases step
            exact h.1
          · cases step
            exact h
          · cases step
            exact ConfirmInv.checked h _
      | revalidating pass =>
          simp only [ConfirmInv, stage] at h
          simp only [Confirmation.advance, stage] at step
          obtain ⟨status, promoted, ordered⟩ := h
          split at step
          · cases step
            exact status
          · rename_i pass' goes
            cases step
            exact ⟨status, promoted, ordered.next goes⟩
          · rename_i read goes
            cases step
            exact ⟨status, promoted, ordered.done goes⟩
      | copying todo failed =>
          cases todo with
          | nil =>
              simp only [ConfirmInv, stage] at h
              simp only [Confirmation.advance, stage] at step
              split at step
              · cases step
                exact h.1
              · rename_i fine
                cases step
                exact ⟨h.1, h.2.1, h.2.2 (by simpa using fine)⟩
          | cons task todo =>
              simp only [Confirmation.advance, stage] at step
              exact ConfirmInv.copyNext stage condition h step
      | loaded =>
          simp only [ConfirmInv, stage] at h
          simp only [Confirmation.advance, stage] at step
          cases step
          exact h.2
      | preflight | copied | registered | raised error => simp [Confirmation.advance, stage] at step
  | preflight passed summary =>
      cases stage : s.stage with
      | preflight =>
          simp only [ConfirmInv, stage] at h
          simp only [Confirmation.advance, stage] at step
          cases step
          exact ConfirmInv.audited h passed summary
      | _ => simp [Confirmation.advance, stage] at step
  | follow files =>
      cases stage : s.stage with
      | copying todo failed =>
          cases todo with
          | nil => simp [Confirmation.advance, stage] at step
          | cons task todo =>
              simp only [ConfirmInv, stage] at h
              simp only [Confirmation.advance, stage] at step
              split at step
              · cases step
                obtain ⟨status, validated, copying⟩ := h
                refine ⟨status, validated, fun fine => ?_⟩
                obtain rfl : failed = false := fine
                simp only [StillValidated, Confirmation.finds, stage] at condition
                exact (copying rfl).step validated.read.nodup condition
              · cases step
      | _ => simp [Confirmation.advance, stage] at step
  | skip =>
      cases stage : s.stage with
      | copying todo failed =>
          cases todo with
          | nil => simp [Confirmation.advance, stage] at step
          | cons task todo =>
              simp only [ConfirmInv, stage] at h
              simp only [Confirmation.advance, stage] at step
              cases step
              exact ⟨h.1, h.2.1, nofun⟩
      | _ => simp [Confirmation.advance, stage] at step
  | load compiled =>
      cases stage : s.stage with
      | copied =>
          simp only [ConfirmInv, stage] at h
          simp only [Confirmation.advance, stage] at step
          split at step
          · rename_i artifacts
            cases step
            obtain ⟨status, validated, copying⟩ := h
            exact ⟨status, validated, copying.load validated.read.nodup
              (fun file mem => List.all_eq_true.mp artifacts file mem)⟩
          · cases step
      | _ => simp [Confirmation.advance, stage] at step
  | fail error =>
      have raised : s.row.status ≠ .registered → ConfirmInv setup (s.raise error) := id
      cases stage : s.stage with
      | registered | raised other => simp [Confirmation.advance, stage] at step
      | checking pass | revalidating pass | preflight | copying todo failed | copied | loaded =>
          simp only [ConfirmInv, stage] at h
          simp only [Confirmation.advance, stage] at step
          cases step
          exact raised h.1

/-- `confirm_registration` has read a validated request. -/
def Confirmation.Starts (s : Confirmation) : Prop :=
  s.stage = .checking (.listing [[]] []) ∧ s.promoted = [] ∧ s.row.status = .validated

variable (setup) in
/-- `package_digest` of the promoted package. -/
def promotedDigest (s : Confirmation) : Except String String :=
  (hashEntries setup.destination (sortEntries s.promoted)).map setup.sha256

variable (setup) in
/-- What is registered has the request's digest, and is what the validation has read. -/
def RegistersValidated (s : Confirmation) : Prop :=
  s.row.status = .registered → (promotedDigest setup s).toOption = s.row.draftDigest ∧
    ∀ path content, Hashed setup.packageDir s.promoted path content ↔
      Hashed setup.packageDir s.validated path content

theorem Copying.hashed_iff (copying : Copying setup validated promoted []) (path : RelPath)
    (content : List UInt8) : Hashed setup.packageDir promoted path content ↔
      Hashed setup.packageDir validated path content := by
  constructor
  · exact fun was => ⟨copying.sound.read path content was, was.2⟩
  · intro was
    rcases copying.complete path content was with copied | ⟨task, mem, -⟩
    · exact ⟨copied, was.2⟩
    · cases mem

/-- A whole copy has the digest of what the validation has read. -/
theorem Copying.stream (places : inCache setup.packageDir = inCache setup.destination)
    (read : ReadInOrder setup.packageDir [] validated)
    (copying : Copying setup validated promoted []) {stream : List UInt8}
    (h : hashEntries setup.packageDir validated = .ok stream) :
    hashEntries setup.destination (sortEntries promoted) = .ok stream := by
  have alike : ∀ path, isArtifact setup.packageDir path = isArtifact setup.destination path := by
    intro path
    simp only [isArtifact, inCache, List.any_append] at places ⊢
    rw [places]
  have linkless : ∀ entry ∈ validated, entry.2 ≠ .symlink := by
    obtain ⟨records, said, -⟩ := hashEntries_eq_ok.mp h
    exact said.linkless
  have sorted : sortEntries validated = validated := by
    have ordered := read.ordered
    rw [List.append_nil] at ordered
    exact ((List.pairwise_map.mp ordered).imp le_of_lt).insertionSort_eq
  rw [← sorted] at h
  refine hashEntries_of_hashed ?_ (hashedEntries_sort_unique read.nodup copying.sound.nodup ?_) h
  · exact fun entry mem => copying.sound.linkless entry (mem_sortEntries.mp mem)
  · rintro ⟨path, entry⟩
    rw [mem_hashedEntries linkless, mem_hashedEntries copying.sound.linkless, ← alike]
    refine and_congr_right fun hashed => exists_congr fun content => and_congr_right fun _ => ?_
    have same := copying.hashed_iff path content
    exact ⟨fun mem => (same.mpr ⟨mem, hashed⟩).1, fun mem => (same.mp ⟨mem, hashed⟩).1⟩

/-- **What is registered is what was validated**, where the copy finds it. -/
theorem registersValidated_of_stillValidated {events : List ConfirmEvent}
    (places : inCache setup.packageDir = inCache setup.destination) (starts : s.Starts)
    (run : Machine.Path (confirmMachine setup) (StillValidated setup) s events t) :
    RegistersValidated setup t := by
  have start : ConfirmInv setup s := by
    obtain ⟨stage, promoted, status⟩ := starts
    simp [ConfirmInv, stage, promoted, status]
  have inv : ConfirmInv setup t :=
    run.invariant (fun _ _ _ condition h step => h.advance condition step) start
  intro registered
  cases stage : t.stage with
  | registered =>
      simp only [ConfirmInv, stage] at inv
      obtain ⟨validated, copying⟩ := inv
      obtain ⟨stream, hashed⟩ := validated.read.hashable
      refine ⟨?_, copying.hashed_iff⟩
      rw [promotedDigest, copying.stream places validated.read hashed, validated.digest stream hashed]
      rfl
  | raised error =>
      simp only [ConfirmInv, stage] at inv
      exact absurd registered inv
  | checking pass | revalidating pass | preflight | copying todo failed | copied | loaded =>
      simp only [ConfirmInv, stage] at inv
      exact absurd registered inv.1

end Registered

/-! ### An edit after the validation -/

section EditedDraft

/-- `/agents/skill-packages/report`. -/
def reportDestination : List FileName :=
  [agentsName, ⟨"skill-packages".toList.map .char, by decide, by decide⟩, reportName]

/-- Bytes are their own digest. -/
def reportSetup : ConfirmSetup where
  sha256 bytes := .ofList (bytes.map fun byte => .ofNat byte.toNat)
  packageDir := reportDraft
  destination := reportDestination
  now := 0

/-- A package with one handler. -/
def handlerDraft (handler : String) : Package where
  entries := [([handlerName], .file (utf8 handler.toList))]
  nodup := by simp
  named := by simp
  rooted := by simp

def reviewedDraft : Package := handlerDraft "run()"

def editedDraft : Package := handlerDraft "steal()"

def validatedReport : Confirmation where
  draft := reviewedDraft
  row :=
    { requestId := "r1", workspaceId := "/agents", candidateId := "c1"
      suggestedSkillName := "report", status := .validated, preparedAt := 0
      draftPath := some "/agents/skill-drafts/report"
      draftDigest := ((hashEntries reportDraft reviewedDraft.sortedEntries).map
        reportSetup.sha256).toOption }

/-- Both digests are made, the subprocess passes, and the draft is copied. -/
def undisturbedConfirmation : List ConfirmEvent :=
  .replicate 8 .next ++ [.preflight true [], .next, .next, .next, .load [], .next]

/-- The handler is edited before it is copied. -/
def editBeforeCopy : List ConfirmEvent :=
  .replicate 8 .next ++ [.preflight true [], .edit editedDraft, .next, .next, .next, .load [], .next]

/-- Undisturbed, the validated package is registered. -/
theorem registers_reviewed : ∃ t,
    Machine.Path (confirmMachine reportSetup) (StillValidated reportSetup) validatedReport
      undisturbedConfirmation t ∧ t.row.status = .registered ∧ RegistersValidated reportSetup t := by
  have ends : (((confirmMachine reportSetup).restrict (StillValidated reportSetup)).run
      validatedReport undisturbedConfirmation).map (fun t => t.row.status) =
      some .registered := by decide +kernel
  obtain ⟨t, run, registered⟩ := Option.map_eq_some_iff.mp ends
  have path := Machine.run_restrict_iff.mp run
  exact ⟨t, path, registered,
    registersValidated_of_stillValidated (by decide) ⟨rfl, rfl, rfl⟩ path⟩

/-- What was registered is not what was validated. -/
theorem registers_edited : validatedReport.Starts ∧ ∃ t,
    (confirmMachine reportSetup).run validatedReport editBeforeCopy = some t ∧
      ¬RegistersValidated reportSetup t := by
  have ends : ((confirmMachine reportSetup).run validatedReport editBeforeCopy).map (fun t =>
      (decide (t.row.status = .registered),
        decide ((promotedDigest reportSetup t).toOption = t.row.draftDigest))) =
      some (true, false) := by decide +kernel
  obtain ⟨t, run, seen⟩ := Option.map_eq_some_iff.mp ends
  obtain ⟨registered, differs⟩ := Prod.mk.inj seen
  refine ⟨⟨rfl, rfl, rfl⟩, t, run, fun validated => ?_⟩
  exact of_decide_eq_false differs (validated (of_decide_eq_true registered)).1

end EditedDraft

end AgentOs
