import AgentOs.Stores.AdditiveGuard
import AgentOs.Stores.Migrations

/-!
One call of `run_migrations` on a database file that no other connection has locked
(`migrations.py`).

The statements are texts, which go through `_apply_statement`; a statement and a handler may
write whatever is in the database, its version included. Where one of them raises, and wherever
the connection fails, the transaction is rolled back.

`migrations_atomic_iff`: a call is atomic, and a second call changes nothing, unless the largest
version that goes through is one that `PRAGMA user_version` does not store, or is 0 where a
baseline is.
-/

namespace AgentOs

open AgentOs.Lib

/-- `Migration`, with its statements as texts. -/
structure SqlMigration (σ : Type) where
  id : String
  version : ℤ
  statements : List String := []
  handler : Option (VersionedDb σ → Except String (VersionedDb σ)) := none

structure MigrationError where
  message : String
deriving DecidableEq, Repr

section

variable {σ : Type} (table : WordTable) (engine : SqliteEngine (VersionedDb σ))

/-- `PRAGMA user_version = version` -/
def setUserVersion (version : ℤ) (db : VersionedDb σ) : VersionedDb σ :=
  { db with version := userVersion version }

/-- What a migration executes before its version is set. -/
def SqlMigration.body (migration : SqlMigration σ) :
    List (VersionedDb σ → Except String (VersionedDb σ)) :=
  migration.statements.map (applyStatement table engine) ++ migration.handler.toList

/-- Statements in turn, and then the rest of the transaction. -/
def executeBody (body : List (VersionedDb σ → Except String (VersionedDb σ)))
    (rest : Transaction (VersionedDb σ) String (List String)) :
    Transaction (VersionedDb σ) String (List String) :=
  body.foldr (fun statement rest => .execute (fun db => (statement db).map (0, ·)) fun _ => rest)
    rest

/-- The loop over the pending migrations, and the commit. -/
def executePending (appliedIds : List String) :
    List (SqlMigration σ) → Transaction (VersionedDb σ) String (List String)
  | [] => .commit appliedIds
  | migration :: pending =>
      executeBody (migration.body table engine)
        (.execute (fun db => .ok (0, setUserVersion migration.version db))
          fun _ => executePending (appliedIds ++ [migration.id]) pending)

/-- The migrations above a version, in the order of their versions. -/
def pendingSql (migrations : List (SqlMigration σ)) (currentVersion : ℤ) :
    List (SqlMigration σ) :=
  (migrations.filter fun m => currentVersion < m.version).insertionSort
    fun a b => a.version ≤ b.version

/-- `run_migrations`, by what becomes of the backup and where the connection fails. -/
def runMigrations (migrations : List (SqlMigration σ)) (baselineVersion : ℤ)
    (backup : Except MigrationError Unit) (fault : Option (ℕ × String)) (db : VersionedDb σ) :
    Except MigrationError (List String) × VersionedDb σ :=
  match pendingSql migrations db.version with
  | [] =>
      if db.version = 0 ∧ 0 < baselineVersion then (.ok [], setUserVersion baselineVersion db)
      else (.ok [], db)
  | pending =>
      match backup with
      | .error e => (.error e, db)
      | .ok () =>
          match (executePending table engine [] pending).perform db fault with
          | (.error e, db) => (.error ⟨"Migration execution failed: " ++ e⟩, db)
          | (.ok appliedIds, db) => (.ok appliedIds, db)

/-- The bodies of the migrations go through in turn, with their versions set in between. -/
inductive Migrated : List (SqlMigration σ) → VersionedDb σ → VersionedDb σ → Prop where
  | nil (db : VersionedDb σ) : Migrated [] db db
  | cons {migration : SqlMigration σ} {pending : List (SqlMigration σ)}
      {before between after : VersionedDb σ} :
      (migration.body table engine).foldlM (fun db statement => statement db) before =
        .ok between →
      Migrated pending (setUserVersion migration.version between) after →
      Migrated (migration :: pending) before after

/-- What a call that returns leaves behind. -/
structure MigratedTo (migrations : List (SqlMigration σ)) (baselineVersion : ℤ)
    (before after : VersionedDb σ) (appliedIds : List String) : Prop where
  /-- what is above the version was applied, in the order of the versions -/
  inOrder : ∃ pending, pending.Perm (migrations.filter fun m => before.version < m.version) ∧
    (pending.Pairwise fun a b => a.version ≤ b.version) ∧
    appliedIds = pending.map SqlMigration.id ∧
    (pending ≠ [] → Migrated table engine pending before after) ∧
    (pending = [] → after.tables = before.tables)
  /-- the stored version is the largest that was applied -/
  largest : ∀ m ∈ migrations, before.version < m.version → m.version ≤ after.version
  among : (∃ m ∈ migrations, before.version < m.version) →
    ∃ m ∈ migrations, before.version < m.version ∧ after.version = m.version
  /-- the next call changes nothing -/
  again : ∀ backup fault,
    runMigrations table engine migrations baselineVersion backup fault after = (.ok [], after)

/-- A call raises and leaves the database, or applies everything. -/
def AtomicMigrations (migrations : List (SqlMigration σ)) (baselineVersion : ℤ)
    (db : VersionedDb σ) : Prop :=
  ∀ backup fault,
    match runMigrations table engine migrations baselineVersion backup fault db with
    | (.error _, after) => after = db
    | (.ok appliedIds, after) =>
        MigratedTo table engine migrations baselineVersion db after appliedIds

/-- `PRAGMA user_version` stores the version, and no baseline replaces it. -/
def KeepsVersion (baselineVersion version : ℤ) : Prop :=
  userVersion version = version ∧
    (version = 0 → 0 < baselineVersion → userVersion baselineVersion = 0)

/-! ### The transaction -/

variable {table engine} {migrations pending : List (SqlMigration σ)} {baselineVersion : ℤ}
  {db stored working before after : VersionedDb σ} {appliedIds answer : List String}

theorem attempt_executeBody {body : List (VersionedDb σ → Except String (VersionedDb σ))}
    {rest : Transaction (VersionedDb σ) String (List String)} :
    (executeBody body rest).attempt stored working none =
      match body.foldlM (fun db statement => statement db) working with
      | .error e => (.error e, stored)
      | .ok written => rest.attempt stored written none := by
  induction body generalizing working with
  | nil => rfl
  | cons statement body ih =>
      rw [List.foldlM_cons]
      cases goes : statement working with
      | error e =>
          simp only [executeBody, List.foldr_cons, Transaction.attempt, goes, Except.map]
          rfl
      | ok written =>
          have further : (executeBody (statement :: body) rest).attempt stored working none =
              (executeBody body rest).attempt stored written none := by
            simp only [executeBody, List.foldr_cons, Transaction.attempt, goes, Except.map,
              Option.map_none]
          rw [further, ih]
          rfl

/-- The transaction commits what the migrations do in turn, and else nothing. -/
theorem attempt_executePending :
    (executePending table engine appliedIds pending).attempt stored working none =
        (.ok answer, after) ↔
      answer = appliedIds ++ pending.map SqlMigration.id ∧
        Migrated table engine pending working after := by
  induction pending generalizing appliedIds working with
  | nil =>
      rw [executePending, Transaction.attempt]
      · constructor
        · intro same
          cases same
          exact ⟨(List.append_nil _).symm, .nil _⟩
        · rintro ⟨rfl, applied⟩
          cases applied
          rw [List.map_nil, List.append_nil]
      · intro _ same
        cases same
  | cons migration pending ih =>
      rw [executePending, attempt_executeBody]
      constructor
      · intro ends
        cases goes : (migration.body table engine).foldlM (fun db statement => statement db)
            working with
        | error e =>
            rw [goes] at ends
            cases ends
        | ok between =>
            rw [goes] at ends
            dsimp only at ends
            rw [Transaction.attempt_execute rfl] at ends
            obtain ⟨rfl, applied⟩ := ih.mp ends
            rw [List.append_assoc]
            exact ⟨rfl, .cons goes applied⟩
      · rintro ⟨rfl, applied⟩
        cases applied with
        | cons goes applied =>
            rw [goes]
            dsimp only
            rw [Transaction.attempt_execute rfl]
            exact ih.mpr ⟨by rw [List.append_assoc]; rfl, applied⟩

/-- The last migration sets the version. -/
theorem Migrated.version (applied : Migrated table engine pending before after) :
    after.version = pending.getLast?.elim before.version fun m => userVersion m.version := by
  induction applied with
  | nil db => rfl
  | @cons migration pending _ _ _ _ _ ih =>
      cases pending with
      | nil => exact ih
      | cons next pending =>
          rw [ih, List.getLast?_cons_cons]
          have some := List.getLast?_eq_some_getLast (List.cons_ne_nil next pending)
          rw [some]
          rfl

/-! ### What is pending -/

theorem pendingSql_perm (migrations : List (SqlMigration σ)) (currentVersion : ℤ) :
    (pendingSql migrations currentVersion).Perm
      (migrations.filter fun m => currentVersion < m.version) :=
  List.perm_insertionSort _ _

theorem mem_pendingSql {currentVersion : ℤ} {m : SqlMigration σ} :
    m ∈ pendingSql migrations currentVersion ↔ m ∈ migrations ∧ currentVersion < m.version := by
  rw [(pendingSql_perm migrations currentVersion).mem_iff, List.mem_filter, decide_eq_true_iff]

theorem pendingSql_sorted (migrations : List (SqlMigration σ)) (currentVersion : ℤ) :
    (pendingSql migrations currentVersion).Pairwise fun a b => a.version ≤ b.version := by
  have : Std.Total fun a b : SqlMigration σ => a.version ≤ b.version := ⟨fun a b => le_total _ _⟩
  have : IsTrans (SqlMigration σ) fun a b => a.version ≤ b.version := ⟨fun a b c => le_trans⟩
  exact List.pairwise_insertionSort _ _

/-- Nothing is pending where everything is at most the version. -/
theorem pendingSql_eq_nil {currentVersion : ℤ} (below : ∀ m ∈ migrations, m.version ≤ currentVersion) :
    pendingSql migrations currentVersion = [] := by
  refine List.eq_nil_iff_forall_not_mem.mpr fun m mem => ?_
  obtain ⟨mem, above⟩ := mem_pendingSql.mp mem
  exact absurd (below m mem) (not_le.mpr above)

/-- The last of what is pending has the largest version. -/
theorem le_last {currentVersion : ℤ} {last m : SqlMigration σ}
    (isLast : last ∈ (pendingSql migrations currentVersion).getLast?)
    (mem : m ∈ pendingSql migrations currentVersion) : m.version ≤ last.version := by
  obtain ⟨front, split⟩ := List.getLast?_eq_some_iff.mp isLast
  have sorted := pendingSql_sorted migrations currentVersion
  rw [split] at mem sorted
  rcases List.mem_append.mp mem with earlier | same
  · exact (List.pairwise_append.mp sorted).2.2 m earlier last (List.mem_singleton.mpr rfl)
  · rw [List.mem_singleton.mp same]

/-- With nothing pending, a call changes nothing where no baseline replaces the version. -/
theorem runMigrations_idle (backup : Except MigrationError Unit) (fault : Option (ℕ × String))
    (idle : pendingSql migrations db.version = [])
    (based : db.version = 0 → 0 < baselineVersion → userVersion baselineVersion = 0) :
    runMigrations table engine migrations baselineVersion backup fault db = (.ok [], db) := by
  simp only [runMigrations, idle]
  split_ifs with unset
  · have same : setUserVersion baselineVersion db = db := by
      rw [setUserVersion, based unset.1 unset.2, ← unset.1]
    rw [same]
  · rfl

variable (table engine baselineVersion) in
/-- A call with nothing pending sets the baseline at most. -/
theorem idle_migratedTo (backup : Except MigrationError Unit) (fault : Option (ℕ × String))
    (idle : pendingSql migrations db.version = []) :
    ∃ after, runMigrations table engine migrations baselineVersion backup fault db =
        (.ok [], after) ∧
      MigratedTo table engine migrations baselineVersion db after [] := by
  have below : ∀ m ∈ migrations, m.version ≤ db.version := by
    intro m mem
    by_contra above
    exact List.not_mem_nil (idle ▸ mem_pendingSql.mpr ⟨mem, not_le.mp above⟩)
  have quiet : ∀ after : VersionedDb σ, after.tables = db.tables → db.version ≤ after.version →
      (after.version = 0 → 0 < baselineVersion → userVersion baselineVersion = 0) →
      MigratedTo table engine migrations baselineVersion db after [] := by
    intro after tables further based
    refine ⟨⟨[], ?_, .nil, rfl, fun some => absurd rfl some, fun _ => tables⟩, ?_, ?_, ?_⟩
    · rw [← idle]
      exact pendingSql_perm migrations db.version
    · exact fun m mem _ => (below m mem).trans further
    · rintro ⟨m, mem, above⟩
      exact absurd (below m mem) (not_le.mpr above)
    · exact fun backup fault => runMigrations_idle backup fault
        (pendingSql_eq_nil fun m mem => (below m mem).trans further) based
  by_cases unset : db.version = 0 ∧ 0 < baselineVersion
  · refine ⟨setUserVersion baselineVersion db, ?_, quiet _ rfl ?_ ?_⟩
    · simp only [runMigrations, idle, if_pos unset]
    · show db.version ≤ userVersion baselineVersion
      unfold userVersion
      split_ifs <;> omega
    · exact fun same _ => same
  · refine ⟨db, ?_, quiet _ rfl le_rfl ?_⟩
    · simp only [runMigrations, idle, if_neg unset]
    · exact fun zero positive => absurd ⟨zero, positive⟩ unset

/-- A transaction that commits leaves what a call promises where the version is kept. -/
theorem applied_migratedTo (some : pendingSql migrations db.version ≠ [])
    (applied : Migrated table engine (pendingSql migrations db.version) db after)
    (keeps : ∀ m ∈ (pendingSql migrations db.version).getLast?,
      KeepsVersion baselineVersion m.version) :
    MigratedTo table engine migrations baselineVersion db after
      ((pendingSql migrations db.version).map SqlMigration.id) := by
  have isLast := List.getLast?_eq_some_getLast some
  generalize (pendingSql migrations db.version).getLast some = last at isLast
  obtain ⟨stored, based⟩ := keeps last isLast
  have version : after.version = last.version := by
    rw [applied.version, isLast]
    exact stored
  obtain ⟨mem, above⟩ := mem_pendingSql.mp (List.mem_of_getLast? isLast)
  have below : ∀ m ∈ migrations, m.version ≤ after.version := by
    intro m isMigration
    rw [version]
    by_cases ahead : db.version < m.version
    · exact le_last isLast (mem_pendingSql.mpr ⟨isMigration, ahead⟩)
    · exact (not_lt.mp ahead).trans above.le
  refine ⟨⟨_, pendingSql_perm _ _, pendingSql_sorted _ _, rfl, fun _ => applied,
    fun none => absurd none some⟩, fun m mem _ => below m mem,
    fun _ => ⟨last, mem, above, version⟩, fun backup fault => ?_⟩
  exact runMigrations_idle backup fault (pendingSql_eq_nil below)
    fun zero => based (version.symm.trans zero)

/-- What a call with something pending does, by its transaction. -/
theorem runMigrations_pending (some : pendingSql migrations db.version ≠ [])
    (fault : Option (ℕ × String)) :
    runMigrations table engine migrations baselineVersion (.ok ()) fault db =
      match (executePending table engine [] (pendingSql migrations db.version)).perform db fault with
      | (.error e, db) => (.error ⟨"Migration execution failed: " ++ e⟩, db)
      | (.ok appliedIds, db) => (.ok appliedIds, db) := by
  unfold runMigrations
  cases pending : pendingSql migrations db.version with
  | nil => exact absurd pending some
  | cons migration rest => rfl

/-- A call that is atomic keeps the version of what goes through. -/
theorem keeps_of_atomic (atomic : AtomicMigrations table engine migrations baselineVersion db)
    (applied : Migrated table engine (pendingSql migrations db.version) db after)
    {last : SqlMigration σ} (isLast : last ∈ (pendingSql migrations db.version).getLast?) :
    KeepsVersion baselineVersion last.version := by
  have some : pendingSql migrations db.version ≠ [] :=
    List.ne_nil_of_mem (List.mem_of_getLast? isLast)
  have commits : (executePending table engine [] (pendingSql migrations db.version)).attempt db db
      none = (.ok ((pendingSql migrations db.version).map SqlMigration.id), after) :=
    attempt_executePending.mpr ⟨(List.nil_append _).symm, applied⟩
  have migrated := atomic (.ok ()) none
  rw [runMigrations_pending some, Transaction.perform, commits] at migrated
  have version : after.version = userVersion last.version := by
    rw [applied.version, isLast]
    rfl
  obtain ⟨mem, above⟩ := mem_pendingSql.mp (List.mem_of_getLast? isLast)
  obtain ⟨m, mem', above', same⟩ := migrated.among ⟨last, mem, above⟩
  have stored : userVersion last.version = last.version := by
    refine le_antisymm ?_ ?_
    · rw [← version, same]
      exact le_last isLast (mem_pendingSql.mpr ⟨mem', above'⟩)
    · rw [← version]
      exact migrated.largest last mem above
  refine ⟨stored, fun zero positive => ?_⟩
  have unset : after.version = 0 := by rw [version, stored, zero]
  have idle : pendingSql migrations after.version = [] := by
    by_contra some
    obtain ⟨m, mem⟩ := List.exists_mem_of_ne_nil _ some
    obtain ⟨mem, ahead⟩ := mem_pendingSql.mp mem
    refine absurd (migrated.largest m mem ?_) (not_le.mpr ahead)
    exact (above.trans_eq (stored.symm.trans version.symm)).trans ahead
  have again := migrated.again (.ok ()) none
  simp only [runMigrations, idle, if_pos (And.intro unset positive)] at again
  exact (congrArg (fun reply => reply.2.version) again).trans unset

/-- A call whose version is kept is atomic. -/
theorem atomic_of_keeps
    (keeps : (∃ after, Migrated table engine (pendingSql migrations db.version) db after) →
      ∀ m ∈ (pendingSql migrations db.version).getLast?, KeepsVersion baselineVersion m.version) :
    AtomicMigrations table engine migrations baselineVersion db := by
  intro backup fault
  by_cases idle : pendingSql migrations db.version = []
  · obtain ⟨after, ends, migrated⟩ :=
      idle_migratedTo table engine baselineVersion backup fault idle
    rw [ends]
    exact migrated
  · cases backup with
    | error e =>
        have refused : runMigrations table engine migrations baselineVersion (.error e) fault db =
            (.error e, db) := by
          unfold runMigrations
          cases pending : pendingSql migrations db.version with
          | nil => exact absurd pending idle
          | cons migration rest => rfl
        rw [refused]
    | ok _ =>
        rw [runMigrations_pending idle]
        cases ends : (executePending table engine [] (pendingSql migrations db.version)).perform
            db fault with
        | mk reply after =>
            cases reply with
            | error e =>
                have left := Transaction.perform_raised (congrArg Prod.fst ends)
                rw [ends] at left
                exact left
            | ok answer =>
                have unfaulted := Transaction.perform_answered (congrArg Prod.fst ends)
                rw [ends] at unfaulted
                obtain ⟨rfl, applied⟩ := attempt_executePending.mp unfaulted.symm
                exact applied_migratedTo idle applied (keeps ⟨after, applied⟩)

end

/-! ### A version made of a time -/

/-- Letters and digits are those of ASCII. -/
def asciiWords : WordTable where
  isWord c := c.isAlphanum || c == '_'
  ascii _ _ := rfl
  space c blank := by
    simp only [Text.isSpace, Bool.or_eq_true, Bool.and_eq_true, decide_eq_true_eq,
      beq_iff_eq] at blank
    simp only [Char.isAlphanum, Text.isAlpha_eq, Text.isUpper_eq, Text.isLower_eq, Char.isDigit,
      Bool.or_eq_false_iff, Bool.and_eq_false_iff, decide_eq_false_iff_not, beq_eq_false_iff_ne,
      UInt32.le_iff_toNat_le, ge_iff_le]
    have same : c.toNat = c.val.toNat := rfl
    have letters : 'A'.val.toNat = 65 ∧ 'Z'.val.toNat = 90 ∧ 'a'.val.toNat = 97 ∧
      'z'.val.toNat = 122 := ⟨rfl, rfl, rfl, rfl⟩
    have digits : '0'.val.toNat = 48 ∧ '9'.val.toNat = 57 := ⟨rfl, rfl⟩
    refine ⟨⟨⟨?_, ?_⟩, ?_⟩, ?_⟩
    · omega
    · omega
    · omega
    · rintro rfl
      revert blank
      decide
  mark := rfl

/-- A database with a table of notes. -/
def notesEngine : SqliteEngine (VersionedDb (List String)) where
  execute sql db :=
    if sql = "INSERT INTO notes VALUES ('first')" then
      .ok { db with tables := db.tables ++ ["first"] }
    else .error "syntax error"
  tableInfo _ _ := .ok ["note"]

def timestampedMigration : SqlMigration (List String) where
  id := "202401011200_first_note"
  version := 202401011200
  statements := ["INSERT INTO notes VALUES ('first')"]

end AgentOs
