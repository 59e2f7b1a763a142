import AgentOs.Lib.WriteAheadLog
import AgentOs.Stores.MigrationRunner

/-!
The backup that is made before migrations (`migrations.py`).

A database in WAL mode is a main file and the log beside it. `backup_database` checkpoints the log
and copies the main file, and the files beside it only where the checkpoint raised. What the
checkpoint and the copies do is the `Surroundings`; nobody writes to the database meanwhile.

`backup_complete_iff`: the backup has every transaction exactly where the checkpoint raised and the
log is still there, or the log that the checkpoint left and the one that an earlier backup left
beside the new file come to the same.
-/

namespace AgentOs

open AgentOs.Lib.WriteAheadLog

inductive StoredFile (P : Type) where
  | database (main : ℕ → Option P)
  | log (transactions : Log P)
  | index
  | directory

/-- The files of a volume, by their resolved paths. -/
abbrev Volume (P : Type) := String → Option (StoredFile P)

/-- What `PRAGMA wal_checkpoint(TRUNCATE)` does. -/
inductive Checkpoint where
  /-- every frame is moved, and the log is cut to nothing -/
  | all
  /-- another connection is in the way of the transactions behind the first; the row that says so
  is not read -/
  | busy (moved : ℕ)
  /-- it raises, with some pages written -/
  | raised (error : String) (written : ℕ → Bool)

/-- What `backup_database` does not decide. -/
structure Surroundings (P : Type) where
  resolve : String → String
  /-- `PRAGMA user_version` -/
  readVersion : Except String ℤ
  checkpoint : Checkpoint
  /-- nobody else has the database open when the connection is closed -/
  lastToClose : Bool
  /-- the copy to a path fails, and leaves something there -/
  copyFails : String → Option (String × Option (StoredFile P))

section

variable {P : Type} (s : Surroundings P)

/-- The log of a database. -/
def logAt (d : Volume P) (path : String) : Log P :=
  match d (path ++ "-wal") with
  | some (.log transactions) => transactions
  | _ => []

/-- What a connection to a path sees. -/
def readAt (d : Volume P) (path : String) : Option (ℕ → Option P) :=
  match d path with
  | some (.database main) => some (replay (logAt d path) main)
  | _ => none

/-- The main file and its log after the checkpoint. -/
def Checkpoint.run (path : String) (main : ℕ → Option P) (d : Volume P) : Checkpoint → Volume P
  | .all =>
      let d := Function.update d path (some (.database (replay (logAt d path) main)))
      Function.update d (path ++ "-wal") ((d (path ++ "-wal")).map fun _ => .log [])
  | .busy moved =>
      Function.update d path (some (.database (replay ((logAt d path).take moved) main)))
  | .raised _ written =>
      Function.update d path (some (.database fun n =>
        if written n then replay (logAt d path) main n else main n))

/-- The last connection moves what is left, and takes the files beside the database with it. -/
def closeLast (path : String) (d : Volume P) : Volume P :=
  match d path with
  | some (.database main) =>
      let d' := Function.update d path (some (.database (replay (logAt d path) main)))
      Function.update (Function.update d' (path ++ "-wal") none) (path ++ "-shm") none
  | _ => d

/-- The connection that checkpoints, from its opening to its closing. -/
def checkpointed (path : String) (d : Volume P) : Volume P :=
  match d path with
  | some (.database main) =>
      let d := s.checkpoint.run path main d
      if s.lastToClose then closeLast path d else d
  | _ => d

/-- `shutil.copy2` -/
def copyFile (source target : String) (d : Volume P) : Except String Unit × Volume P :=
  match s.copyFails target with
  | some (error, left) => (.error error, Function.update d target left)
  | none => (.ok (), Function.update d target (d source))

/-- A file beside the database, where there is one. -/
def copyBeside (suffix path backupPath : String) (d : Volume P) : Except String Unit × Volume P :=
  if (d (path ++ suffix)).isSome then copyFile s (path ++ suffix) (backupPath ++ suffix) d
  else (.ok (), d)

def Checkpoint.raises : Checkpoint → Bool
  | .raised _ _ => true
  | _ => false

/-- The copies in turn. -/
def copyFiles (path backupPath : String) (d : Volume P) : Except String Unit × Volume P :=
  match copyFile s path backupPath d with
  | (.error error, d) => (.error error, d)
  | (.ok (), d) =>
      if !s.checkpoint.raises then (.ok (), d)
      else
        match copyBeside s "-wal" path backupPath d with
        | (.error error, d) => (.error error, d)
        | (.ok (), d) => copyBeside s "-shm" path backupPath d

/-- `backup_database` -/
def backupDatabase (dbPath : String) (version : Option ℤ) (d : Volume P) :
    Except MigrationError (Option String) × Volume P :=
  if dbPath = ":memory:" ∨ "file::memory:".toList <+: dbPath.toList then (.ok none, d)
  else
    let path := s.resolve dbPath
    match d path with
    | none | some .directory => (.ok none, d)
    | some _ =>
        let version := version.getD (s.readVersion.toOption.getD 1)
        let backupPath := path ++ (".bak-" ++ toString version)
        match copyFiles s path backupPath (checkpointed s path d) with
        | (.error error, d) =>
            (.error ⟨"Failed to create pre-migration backup for " ++ path ++ ": " ++ error⟩, d)
        | (.ok (), d) => (.ok (some backupPath), d)

/-- What the copied main file misses is copied with it, or is nothing: the log that the checkpoint
left comes to the same as the one that an earlier backup left beside the new file. -/
def CopyIsWhole (path backupPath : String) (d : Volume P) : Prop :=
  (s.checkpoint.raises = true ∧ (checkpointed s path d (path ++ "-wal")).isSome = true) ∨
    ∀ main, checkpointed s path d path = some (.database main) →
      replay (logAt d backupPath) main = replay (logAt (checkpointed s path d) path) main

/-! ### The checkpoint -/

variable {s} {d d' : Volume P} {path backupPath : String} {main : ℕ → Option P}

theorem beside_ne {suffix : String} (some : suffix ≠ "") : path ++ suffix ≠ path :=
  fun same => some (String.append_eq_left_iff.mp same)

/-- A file that is not the database and not its log. -/
theorem logAt_update {target : String} {file : Option (StoredFile P)} (other : path ++ "-wal" ≠ target) :
    logAt (Function.update d target file) path = logAt d path := by
  rw [logAt, Function.update_of_ne other, ← logAt]

theorem readAt_of_database (isDatabase : d path = some (.database main)) :
    readAt d path = some (replay (logAt d path) main) := by
  rw [readAt, isDatabase]

theorem logAt_run_all : logAt (Checkpoint.all.run path main d) path = [] := by
  rw [Checkpoint.run, logAt, Function.update_self]
  cases Function.update d path _ (path ++ "-wal") with
  | none => rfl
  | some file => rfl

theorem logAt_closeLast (isDatabase : d path = some (.database main)) :
    logAt (closeLast path d) path = [] := by
  have apart : path ++ "-wal" ≠ path ++ "-shm" := fun same =>
    absurd (String.append_right_inj path |>.mp same) (by decide)
  rw [closeLast, isDatabase]
  dsimp only
  rw [logAt_update apart, logAt, Function.update_self]

/-- A checkpoint leaves a database, in which a reader sees what was there. -/
theorem run_reads (main : ℕ → Option P) (outcome : Checkpoint) :
    ∃ main', outcome.run path main d path = some (.database main') ∧
      replay (logAt (outcome.run path main d) path) main' = replay (logAt d path) main := by
  have other : path ++ "-wal" ≠ path := beside_ne (by decide)
  cases outcome with
  | all =>
      refine ⟨replay (logAt d path) main, ?_, ?_⟩
      · rw [Checkpoint.run, Function.update_of_ne other.symm, Function.update_self]
      · rw [logAt_run_all, replay_nil]
  | busy moved =>
      refine ⟨_, Function.update_self .., ?_⟩
      rw [Checkpoint.run, logAt_update other, replay_moved]
  | raised error written =>
      refine ⟨_, Function.update_self .., ?_⟩
      rw [Checkpoint.run, logAt_update other, replay_some_pages]

/-- The last connection does so too. -/
theorem closeLast_reads (isDatabase : d path = some (.database main)) :
    ∃ main', closeLast path d path = some (.database main') ∧
      replay (logAt (closeLast path d) path) main' = replay (logAt d path) main := by
  have wal : path ++ "-wal" ≠ path := beside_ne (by decide)
  have shm : path ++ "-shm" ≠ path := beside_ne (by decide)
  refine ⟨replay (logAt d path) main, ?_, ?_⟩
  · rw [closeLast, isDatabase]
    dsimp only
    rw [Function.update_of_ne shm.symm, Function.update_of_ne wal.symm, Function.update_self]
  · rw [logAt_closeLast isDatabase, replay_nil]

theorem checkpointed_reads (isDatabase : d path = some (.database main)) :
    ∃ main', checkpointed s path d path = some (.database main') ∧
      replay (logAt (checkpointed s path d) path) main' = replay (logAt d path) main := by
  obtain ⟨main', there, reads⟩ := run_reads main s.checkpoint
  unfold checkpointed
  rw [isDatabase]
  dsimp only
  split_ifs
  · obtain ⟨main'', there', reads'⟩ := closeLast_reads there
    exact ⟨main'', there', reads'.trans reads⟩
  · exact ⟨main', there, reads⟩

/-- A checkpoint writes to no other file. -/
theorem checkpointed_of_ne (isDatabase : d path = some (.database main)) {other : String}
    (noMain : other ≠ path) (noLog : other ≠ path ++ "-wal") (noIndex : other ≠ path ++ "-shm") :
    checkpointed s path d other = d other := by
  have run : s.checkpoint.run path main d other = d other := by
    cases s.checkpoint with
    | all => rw [Checkpoint.run, Function.update_of_ne noLog, Function.update_of_ne noMain]
    | busy | raised => exact Function.update_of_ne noMain _ _
  obtain ⟨main', there, _⟩ := @run_reads P d path main s.checkpoint
  unfold checkpointed
  rw [isDatabase]
  dsimp only
  split_ifs
  · unfold closeLast
    rw [there]
    dsimp only
    rw [Function.update_of_ne noIndex, Function.update_of_ne noLog, Function.update_of_ne noMain,
      run]
  · exact run

/-! ### The copies -/

theorem copyFile_ok {source target : String} (copied : (copyFile s source target d).1 = .ok ()) :
    (copyFile s source target d).2 = Function.update d target (d source) := by
  unfold copyFile at copied ⊢
  split at copied
  · cases copied
  · rfl

theorem copyBeside_ok {suffix : String}
    (copied : (copyBeside s suffix path backupPath d).1 = .ok ()) :
    (copyBeside s suffix path backupPath d).2 =
      if (d (path ++ suffix)).isSome then
        Function.update d (backupPath ++ suffix) (d (path ++ suffix))
      else d := by
  unfold copyBeside at copied ⊢
  split_ifs at copied ⊢
  · exact copyFile_ok copied
  · rfl

/-- What the copies leave, by the checkpoint. -/
theorem copyFiles_ok (copied : (copyFiles s path backupPath d).1 = .ok ()) :
    ∃ d₁, d₁ = Function.update d backupPath (d path) ∧
      if s.checkpoint.raises then
        ∃ d₂, d₂ = (if (d₁ (path ++ "-wal")).isSome then
            Function.update d₁ (backupPath ++ "-wal") (d₁ (path ++ "-wal")) else d₁) ∧
          (copyFiles s path backupPath d).2 = if (d₂ (path ++ "-shm")).isSome then
            Function.update d₂ (backupPath ++ "-shm") (d₂ (path ++ "-shm")) else d₂
      else (copyFiles s path backupPath d).2 = d₁ := by
  refine ⟨_, rfl, ?_⟩
  unfold copyFiles at copied ⊢
  have first := @copyFile_ok P s d path backupPath
  cases main : copyFile s path backupPath d with
  | mk reply d₁ =>
      rw [main] at copied first
      cases reply with
      | error e => cases copied
      | ok _ =>
          have same := first rfl
          dsimp only at same copied ⊢
          subst same
          cases raises : s.checkpoint.raises with
          | false => rfl
          | true =>
              rw [raises, Bool.not_true, if_neg Bool.false_ne_true] at copied
              rw [Bool.not_true, if_neg Bool.false_ne_true, if_pos rfl]
              have second := @copyBeside_ok P s (Function.update d backupPath (d path)) path
                backupPath "-wal"
              cases wal : copyBeside s "-wal" path backupPath
                  (Function.update d backupPath (d path)) with
              | mk reply d₂ =>
                  rw [wal] at copied second
                  cases reply with
                  | error e => cases copied
                  | ok _ => exact ⟨d₂, second rfl, copyBeside_ok copied⟩

/-- What stands at the new path, and the log beside it. -/
theorem copyFiles_leave (noLog : backupPath ≠ path ++ "-wal")
    (copied : (copyFiles s path backupPath d).1 = .ok ()) :
    (copyFiles s path backupPath d).2 backupPath = d path ∧
      logAt (copyFiles s path backupPath d).2 backupPath =
        if s.checkpoint.raises = true ∧ (d (path ++ "-wal")).isSome = true then logAt d path
        else logAt d backupPath := by
  have wal : backupPath ++ "-wal" ≠ backupPath := beside_ne (by decide)
  have shm : backupPath ++ "-shm" ≠ backupPath := beside_ne (by decide)
  have apart : backupPath ++ "-wal" ≠ backupPath ++ "-shm" := fun same =>
    absurd (String.append_right_inj backupPath |>.mp same) (by decide)
  obtain ⟨d₁, rfl, leaves⟩ := copyFiles_ok copied
  have main : ∀ log : Option (StoredFile P), Function.update (Function.update d backupPath (d path))
      (backupPath ++ "-wal") log backupPath = d path := by
    intro log
    rw [Function.update_of_ne wal.symm, Function.update_self]
  cases raises : s.checkpoint.raises with
  | false =>
      rw [raises, if_neg Bool.false_ne_true] at leaves
      rw [leaves, if_neg fun both => Bool.false_ne_true both.1, logAt_update wal]
      exact ⟨Function.update_self .., rfl⟩
  | true =>
      rw [raises, if_pos rfl, Function.update_of_ne noLog.symm] at leaves
      obtain ⟨d₂, is, leaves⟩ := leaves
      have unindexed : (copyFiles s path backupPath d).2 backupPath = d₂ backupPath ∧
          logAt (copyFiles s path backupPath d).2 backupPath = logAt d₂ backupPath := by
        rw [leaves]
        split_ifs
        · exact ⟨Function.update_of_ne shm.symm _ _, logAt_update apart⟩
        · exact ⟨rfl, rfl⟩
      rw [unindexed.1, unindexed.2, is]
      by_cases there : (d (path ++ "-wal")).isSome = true
      · rw [if_pos there, if_pos ⟨rfl, there⟩, main]
        refine ⟨rfl, ?_⟩
        rw [logAt, Function.update_self, logAt]
      · rw [if_neg there, if_neg fun both => there both.2, logAt_update wal]
        exact ⟨Function.update_self .., rfl⟩

/-! ### The backup -/

/-- The files of a backup are not those of the database. -/
theorem backup_apart (path tail : String) :
    path ++ (".bak-" ++ tail) ≠ path ∧ path ++ (".bak-" ++ tail) ≠ path ++ "-wal" ∧
      path ++ (".bak-" ++ tail) ≠ path ++ "-shm" := by
  have begins : (".bak-" ++ tail).toList.head? = some '.' := by
    rw [String.toList_append]
    rfl
  have differs : ∀ other : String, other.toList.head? ≠ some '.' →
      path ++ (".bak-" ++ tail) ≠ path ++ other := by
    intro other noDot same
    rw [← String.append_right_inj path |>.mp same] at noDot
    exact noDot begins
  refine ⟨beside_ne fun none => ?_, differs _ (by decide), differs _ (by decide)⟩
  rw [none] at begins
  cases begins

/-- What a call that makes a backup has done. -/
theorem backupDatabase_made {dbPath : String} {version : Option ℤ}
    (made : (backupDatabase s dbPath version d).1 = .ok (some backupPath)) :
    (∃ suffix : String, backupPath = s.resolve dbPath ++ (".bak-" ++ suffix)) ∧
      (copyFiles s (s.resolve dbPath) backupPath (checkpointed s (s.resolve dbPath) d)).1 =
        .ok () ∧
      (backupDatabase s dbPath version d).2 =
        (copyFiles s (s.resolve dbPath) backupPath (checkpointed s (s.resolve dbPath) d)).2 := by
  unfold backupDatabase at made ⊢
  split_ifs at made ⊢ with memory
  · cases made
  dsimp only at made ⊢
  split at made
  · cases made
  · cases made
  · split at made
    · cases made
    · rename_i d₁ copies
      cases made
      rw [copies]
      exact ⟨⟨_, rfl⟩, rfl, rfl⟩

/-- **The backup has every transaction** exactly where the copies are whole. -/
theorem backup_complete_iff (s : Surroundings P) (dbPath : String) (version : Option ℤ)
    (d : Volume P) (main : ℕ → Option P) (backupPath : String)
    (isDatabase : d (s.resolve dbPath) = some (.database main))
    (made : (backupDatabase s dbPath version d).1 = .ok (some backupPath)) :
    readAt (backupDatabase s dbPath version d).2 backupPath = readAt d (s.resolve dbPath) ↔
      CopyIsWhole s (s.resolve dbPath) backupPath d := by
  obtain ⟨⟨suffix, named⟩, copied, ends⟩ := backupDatabase_made made
  rw [ends]
  generalize s.resolve dbPath = path at isDatabase named copied ⊢
  obtain ⟨noMain, noLog, noIndex⟩ := backup_apart path suffix
  rw [← named] at noMain noLog noIndex
  have stale : logAt (checkpointed s path d) backupPath = logAt d backupPath := by
    obtain ⟨noMain', noLog', noIndex'⟩ := backup_apart path (suffix ++ "-wal")
    have beside : path ++ (".bak-" ++ (suffix ++ "-wal")) = backupPath ++ "-wal" := by
      rw [named, String.append_assoc, String.append_assoc]
    rw [beside] at noMain' noLog' noIndex'
    rw [logAt, checkpointed_of_ne isDatabase noMain' noLog' noIndex', ← logAt]
  obtain ⟨copy, log⟩ := copyFiles_leave noLog copied
  obtain ⟨main', there, reads⟩ := checkpointed_reads (s := s) isDatabase
  rw [there] at copy
  rw [readAt_of_database copy, readAt_of_database isDatabase, Option.some_inj, log, stale, ← reads]
  constructor
  · intro whole
    by_cases beside : s.checkpoint.raises = true ∧
        (checkpointed s path d (path ++ "-wal")).isSome = true
    · exact .inl beside
    · rw [if_neg beside] at whole
      refine .inr fun main'' there' => ?_
      cases there.symm.trans there'
      exact whole
  · rintro (beside | same)
    · rw [if_pos beside]
    · split_ifs
      · rfl
      · exact same main' there

/-- A full checkpoint is enough where no earlier backup left a log. -/
theorem copyIsWhole_all (isDatabase : d path = some (.database main))
    (outcome : s.checkpoint = .all) (noOlder : logAt d backupPath = []) :
    CopyIsWhole s path backupPath d := by
  refine .inr fun main' there => ?_
  have left : logAt (checkpointed s path d) path = [] := by
    obtain ⟨main'', there', _⟩ := @run_reads P d path main .all
    rw [checkpointed, isDatabase]
    dsimp only
    rw [outcome]
    split_ifs
    · exact logAt_closeLast there'
    · exact logAt_run_all
  rw [noOlder, left]

/-- Where other connections are in the way, it is not: what was not moved is missing. -/
theorem copyIsWhole_busy_iff {moved : ℕ} (isDatabase : d path = some (.database main))
    (outcome : s.checkpoint = .busy moved) (others : s.lastToClose = false)
    (noOlder : logAt d backupPath = []) :
    CopyIsWhole s path backupPath d ↔
      replay ((logAt d path).take moved) main = replay (logAt d path) main := by
  have after : checkpointed s path d =
      Function.update d path (some (.database (replay ((logAt d path).take moved) main))) := by
    rw [checkpointed, isDatabase]
    dsimp only
    rw [others, outcome, if_neg Bool.false_ne_true, Checkpoint.run]
  have log : logAt (checkpointed s path d) path = logAt d path := by
    rw [after, logAt_update (beside_ne (by decide))]
  have quiet : s.checkpoint.raises = false := by rw [outcome]; rfl
  constructor
  · rintro (⟨raises, _⟩ | same)
    · exact nomatch quiet.symm.trans raises
    · have whole := same _ (by rw [after, Function.update_self])
      rw [noOlder, replay_nil, log, replay_moved] at whole
      exact whole
  · intro whole
    refine .inr fun main' there => ?_
    rw [after, Function.update_self] at there
    cases there
    rw [noOlder, replay_nil, log, replay_moved]
    exact whole

end

/-! ### A reader in the way -/

/-- A run that is in the log only. -/
def loggedRun : Volume ℕ := fun path =>
  if path = "/data/runs.db" then some (.database fun _ => none)
  else if path = "/data/runs.db-wal" then some (.log [[⟨2, some 7⟩]])
  else none

/-- Nothing but the checkpoint goes wrong. -/
def surroundings (checkpoint : Checkpoint) : Surroundings ℕ where
  resolve path := path
  readVersion := .ok 1
  checkpoint := checkpoint
  lastToClose := false
  copyFails _ := none

theorem backup_complete_iff_all :
    readAt (backupDatabase (surroundings .all) "/data/runs.db" (some 1) loggedRun).2
        "/data/runs.db.bak-1" = readAt loggedRun "/data/runs.db" ↔
      CopyIsWhole (surroundings .all) "/data/runs.db" "/data/runs.db.bak-1" loggedRun :=
  backup_complete_iff (surroundings .all) "/data/runs.db" (some 1) loggedRun (fun _ => none)
    "/data/runs.db.bak-1" rfl (by rfl)

/-- The reader holds the log, and the backup is made without the run. -/
theorem busy_backup_misses_run :
    (backupDatabase (surroundings (.busy 0)) "/data/runs.db" (some 1) loggedRun).1 =
        .ok (some "/data/runs.db.bak-1") ∧
      readAt (backupDatabase (surroundings (.busy 0)) "/data/runs.db" (some 1) loggedRun).2
        "/data/runs.db.bak-1" ≠ readAt loggedRun "/data/runs.db" := by
  refine ⟨by rfl, fun same => ?_⟩
  have missing : (readAt (backupDatabase (surroundings (.busy 0)) "/data/runs.db" (some 1)
      loggedRun).2 "/data/runs.db.bak-1").map (· 2) = some none := by rfl
  rw [same] at missing
  have there : (readAt loggedRun "/data/runs.db").map (· 2) = some (some 7) := by rfl
  exact nomatch missing.symm.trans there

end AgentOs
