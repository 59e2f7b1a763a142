import AgentOs.Lib.Session
import AgentOs.Lib.Sqlite.Statements
import AgentOs.Lib.Text
import AgentOs.Stores.Migrations
import Mathlib.Data.List.Sort

/-!
The rebuild of an older `schedules` table (`schedules.py`, `_init_schedules_db`).

A table whose stored text does not name `app_callback` is copied to a new one, dropped and
replaced, with the texts of its indexes executed again. The call is a `Session` that any number of
processes run, and any statement of it may raise; a conflict of names raises by itself.

`rebuild_loses_nothing`: at every moment the database is what it was, or has the same rows under
the new constraints and the same indexes with `schedules_due_idx`; and then it stays so.
-/

namespace AgentOs

open AgentOs.Lib

/-! ### A database in SQLite -/

inductive SqlValue where
  | null
  | integer (n : ℤ)
  | real (bits : ℕ)
  | text (s : String)
  | blob (bytes : List UInt8)
deriving DecidableEq, Repr

inductive Affinity where
  | text | integer
deriving DecidableEq, Repr

structure SqlColumn where
  name : String
  affinity : Affinity := .text
  notNull : Bool := true
  /-- `CHECK (name IN (..))` -/
  oneOf : Option (List String) := none
  primaryKey : Bool := false
deriving DecidableEq, Repr

abbrev SqlRow := List SqlValue

structure SqlTable where
  name : String
  sql : String
  columns : List SqlColumn
  rows : List SqlRow := []
deriving DecidableEq, Repr

/-- An index that was created by a statement. -/
structure SqlIndex where
  name : String
  table : String
  sql : String
deriving DecidableEq, Repr

structure SchedulesDb where
  tables : List SqlTable
  indexes : List SqlIndex := []
  version : ℤ := 0
deriving DecidableEq, Repr

/-- What is SQLite's own. -/
structure SqlEngine where
  /-- a value as a column stores it -/
  convert : Affinity → SqlValue → SqlValue
  /-- the order in which rows are read -/
  scan : List SqlRow → List SqlRow
  scan_perm : ∀ rows, (scan rows).Perm rows
  /-- the index that a `CREATE INDEX` creates -/
  readIndex : String → Option SqlIndex

/-- Names are compared without the case of ASCII letters. -/
def sameName (a b : String) : Bool := Sqlite.fold a.toList == Sqlite.fold b.toList

section

variable (engine : SqlEngine)

def SqlColumn.accepts (c : SqlColumn) (v : SqlValue) : Bool :=
  (!c.notNull || v != .null) &&
    match c.oneOf with
    | none => true
    | some allowed => v == .null || allowed.any fun s => v == .text s

def SchedulesDb.hasTable (db : SchedulesDb) (name : String) : Bool :=
  db.tables.any fun t => sameName t.name name

def SchedulesDb.hasIndex (db : SchedulesDb) (name : String) : Bool :=
  db.indexes.any fun i => sameName i.name name

/-- `CREATE TABLE`; the text is stored as it stands. -/
def createTable (name body : String) (columns : List SqlColumn) (db : SchedulesDb) :
    Except String SchedulesDb :=
  if db.hasTable name then .error ("table " ++ name ++ " already exists")
  else if db.hasIndex name then .error ("there is already an index named " ++ name)
  else
    .ok { db with
      tables := db.tables ++ [{ name, sql := "CREATE TABLE " ++ (name ++ body), columns }] }

/-- A row under the constraints of its table. -/
def insertRow (columns : List SqlColumn) (rows : List SqlRow) (row : SqlRow) :
    Except String (List SqlRow) :=
  let stored := List.zipWith engine.convert (columns.map SqlColumn.affinity) row
  if !(columns.zip stored).all fun (c, v) => c.accepts v then .error "constraint failed"
  else if (columns.zip stored).zipIdx.any fun ((c, v), i) =>
      c.primaryKey && v != .null && rows.any fun other => other[i]? == some v then
    .error "UNIQUE constraint failed"
  else .ok (rows ++ [stored])

/-- The values of some columns. -/
def selectColumns (t : SqlTable) (names : List String) (row : SqlRow) : SqlRow :=
  names.map fun n => (row[t.columns.findIdx fun c => c.name == n]?).getD .null

/-- `INSERT INTO target (..) SELECT .. FROM source`, of all the columns of the target. -/
def insertSelect (target source : String) (names : List String) (db : SchedulesDb) :
    Except String SchedulesDb :=
  match db.tables.find? (sameName ·.name source), db.tables.find? (sameName ·.name target) with
  | some from', some into =>
      ((engine.scan from'.rows).foldlM (fun rows row =>
        insertRow engine into.columns rows (selectColumns from' names row)) into.rows).map
          fun rows => { db with
            tables := db.tables.map fun t => if sameName t.name target then { t with rows } else t }
  | _, _ => .error "no such table"

/-- `DROP TABLE`, which drops the indexes. -/
def dropTable (name : String) (db : SchedulesDb) : Except String SchedulesDb :=
  if !db.hasTable name then .error ("no such table: " ++ name)
  else
    .ok { db with
      tables := db.tables.filter fun t => !sameName t.name name
      indexes := db.indexes.filter fun i => !sameName i.table name }

/-- `ALTER TABLE .. RENAME TO ..`, which writes the new name into the stored text. -/
def renameTable (old new : String) (db : SchedulesDb) : Except String SchedulesDb :=
  if !db.hasTable old then .error ("no such table: " ++ old)
  else if db.hasTable new || db.hasIndex new then
    .error ("there is already another table or index with this name: " ++ new)
  else
    .ok { db with
      tables := db.tables.map fun t =>
        if sameName t.name old then
          { t with
            name := new
            sql := "CREATE TABLE \"" ++ (new ++ ("\"" ++
              Text.drop t.sql ("CREATE TABLE " ++ t.name).toList.length)) }
        else t
      indexes := db.indexes.map fun i => if sameName i.table old then { i with table := new } else i }

/-- `CREATE INDEX` -/
def createIndex (sql : String) (db : SchedulesDb) : Except String SchedulesDb :=
  match engine.readIndex sql with
  | none => .error "syntax error"
  | some index =>
      if db.hasTable index.name then .error ("there is already a table named " ++ index.name)
      else if db.hasIndex index.name then .error ("index " ++ index.name ++ " already exists")
      else if !db.hasTable index.table then .error ("no such table: main." ++ index.table)
      else .ok { db with indexes := db.indexes ++ [index] }

/-- `CREATE INDEX IF NOT EXISTS` -/
def createIndexIfNotExists (index : SqlIndex) (db : SchedulesDb) : Except String SchedulesDb :=
  if db.hasTable index.name then .error ("there is already a table named " ++ index.name)
  else if db.hasIndex index.name then .ok db
  else if !db.hasTable index.table then .error ("no such table: main." ++ index.table)
  else .ok { db with indexes := db.indexes ++ [index] }

/-! ### The call -/

/-- The columns of `schedules`, by the kinds that are allowed. -/
def scheduleColumns (kinds : List String) : List SqlColumn :=
  [{ name := "schedule_id", notNull := false, primaryKey := true }, { name := "name" },
    { name := "kind", oneOf := some kinds },
    { name := "trigger_kind", oneOf := some ["cron", "interval"] }, { name := "trigger_value" },
    { name := "timezone" }, { name := "payload" }, { name := "enabled", affinity := .integer },
    { name := "next_run_at" }, { name := "last_run_at", notNull := false },
    { name := "last_status", notNull := false }, { name := "last_error", notNull := false },
    { name := "created_at" }, { name := "updated_at" }]

def scheduleColumnNames : List String :=
  ["schedule_id", "name", "kind", "trigger_kind", "trigger_value", "timezone", "payload", "enabled",
    "next_run_at", "last_run_at", "last_status", "last_error", "created_at", "updated_at"]

def scheduleKinds : List String := ["run", "brief", "app_callback"]

/-- The text behind the name in the two `CREATE TABLE` statements, by its margin. -/
def scheduleTableBody (margin : ℕ) : String :=
  let line (more : ℕ) (text : String) := .ofList (List.replicate (margin + more) ' ') ++ text
  " (\n" ++ Text.join "\n"
    [line 4 "schedule_id TEXT PRIMARY KEY,", line 4 "name TEXT NOT NULL,",
      line 4 "kind TEXT NOT NULL CHECK (kind IN ('run', 'brief', 'app_callback')),",
      line 4 "trigger_kind TEXT NOT NULL", line 8 "CHECK (trigger_kind IN ('cron', 'interval')),",
      line 4 "trigger_value TEXT NOT NULL,", line 4 "timezone TEXT NOT NULL,",
      line 4 "payload TEXT NOT NULL,", line 4 "enabled INTEGER NOT NULL DEFAULT 1,",
      line 4 "next_run_at TEXT NOT NULL,", line 4 "last_run_at TEXT,", line 4 "last_status TEXT,",
      line 4 "last_error TEXT,", line 4 "created_at TEXT NOT NULL,", line 4 "updated_at TEXT NOT NULL",
      line 0 ")"]

def schedulesDueIdx : SqlIndex where
  name := "schedules_due_idx"
  table := "schedules"
  sql := "CREATE INDEX schedules_due_idx\n                    ON schedules(enabled, next_run_at)"

/-- `run_migrations(conn, baseline_version=..)` without migrations, which commits where it sets the
version. -/
def setBaseline (baselineVersion : ℤ) (next : Session SchedulesDb String) :
    Session SchedulesDb String :=
  .select fun db =>
    if db.version = 0 ∧ 0 < baselineVersion then
      .execute (fun db => .ok { db with version := userVersion baselineVersion }) (.commit next)
    else next

/-- The index, the version and the commit. -/
def ensureDueIndex : Session SchedulesDb String :=
  .execute (createIndexIfNotExists schedulesDueIdx) (setBaseline 1 (.commit .finish))

/-- Statements in turn. -/
def replayIndexes (indexSql : List String) (next : Session SchedulesDb String) :
    Session SchedulesDb String :=
  indexSql.foldr (fun sql next => .execute (createIndex engine sql) next) next

/-- The stored texts of the indexes, by their names. -/
def indexTexts (db : SchedulesDb) : List String :=
  ((db.indexes.filter fun i => i.table == "schedules").insertionSort
    fun a b => a.name ≤ b.name).map SqlIndex.sql

/-- `_init_schedules_db`, behind its `BEGIN IMMEDIATE`. -/
def initSchedulesDb : Session SchedulesDb String :=
  .select fun db =>
    match db.tables.find? (·.name == "schedules") with
    | none =>
        .execute (createTable "schedules" (scheduleTableBody 20) (scheduleColumns scheduleKinds))
          ensureDueIndex
    | some t =>
        if Occurs "app_callback" t.sql then ensureDueIndex
        else
          .select fun db =>
            .execute (createTable "schedules__migration" (scheduleTableBody 24)
                (scheduleColumns scheduleKinds)) <|
              .execute (insertSelect engine "schedules__migration" "schedules"
                  scheduleColumnNames) <|
                .execute (dropTable "schedules") <|
                  .execute (renameTable "schedules__migration" "schedules") <|
                    replayIndexes engine (indexTexts db) ensureDueIndex

/-! ### The older table, and the new one -/

/-- A row as a table has stored it. -/
structure StoredRow (columns : List SqlColumn) (row : SqlRow) : Prop where
  length : row.length = columns.length
  converted : List.zipWith engine.convert (columns.map SqlColumn.affinity) row = row
  accepted : (columns.zip row).all (fun (c, v) => c.accepts v) = true

/-- A database in which `t` is the table `schedules` of an older version. -/
structure LegacySchedules (db : SchedulesDb) (t : SqlTable) : Prop where
  there : t ∈ db.tables
  name : t.name = "schedules"
  columns : t.columns = scheduleColumns ["run", "brief"]
  text : ¬ Occurs "app_callback" t.sql
  rows : ∀ row ∈ t.rows, StoredRow engine t.columns row
  /-- no table has its name in another case -/
  alone : ∀ u ∈ db.tables, sameName u.name "schedules" = true → u = t
  /-- the stored text of an index is what creates it -/
  texts : ∀ i ∈ db.indexes, i.table = "schedules" → engine.readIndex i.sql = some i
  onTables : ∀ i ∈ db.indexes, ∃ u ∈ db.tables, u.name = i.table

/-- The rows and the indexes are those of before, under the new constraints. -/
structure Rebuilt (db : SchedulesDb) (t : SqlTable) (db' : SchedulesDb) : Prop where
  table : ∃ t', db'.tables = (db.tables.filter fun u => !sameName u.name "schedules") ++ [t'] ∧
    t'.name = "schedules" ∧ t'.columns = scheduleColumns scheduleKinds ∧ t'.rows.Perm t.rows ∧
    ∀ c ∈ t'.columns, c.name = "kind" → c.accepts (.text "app_callback") = true
  indexes : db'.indexes.Perm
    (db.indexes ++ if db.hasIndex "schedules_due_idx" then [] else [schedulesDueIdx])
  version : db'.version = if db.version = 0 then 1 else db.version

variable {engine} {db db' w : SchedulesDb} {t : SqlTable}

theorem sameName_self (name : String) : sameName name name = true := beq_self_eq_true _

theorem result_execute {statement : SchedulesDb → Except String SchedulesDb}
    {next : Session SchedulesDb String} :
    (Session.execute statement next).result w = .ok db' ↔
      ∃ written, statement w = .ok written ∧ next.result written = .ok db' := by
  rw [Session.result]
  cases statement w with
  | error error =>
      constructor
      · intro raised
        cases raised
      · rintro ⟨_, raised, _⟩
        cases raised
  | ok written =>
      constructor
      · exact fun made => ⟨written, rfl, made⟩
      · rintro ⟨_, same, made⟩
        cases same
        exact made

/-! ### The last statements -/

theorem result_setBaseline : (setBaseline 1 (.commit .finish)).result w =
    .ok { w with version := if w.version = 0 then 1 else w.version } := by
  rw [setBaseline, Session.result]
  by_cases unset : w.version = 0
  · rw [if_pos ⟨unset, by decide⟩, if_pos unset]
    rfl
  · rw [if_neg fun both => unset both.1, if_neg unset]
    rfl

/-- What the last statements do, where no table has the name of the index. -/
theorem result_ensureDueIndex :
    ensureDueIndex.result w = .ok db' ↔ w.hasTable "schedules_due_idx" = false ∧
      (w.hasIndex "schedules_due_idx" = true ∨ w.hasTable "schedules" = true) ∧
      db' = { w with
        indexes := w.indexes ++ if w.hasIndex "schedules_due_idx" then [] else [schedulesDueIdx]
        version := if w.version = 0 then 1 else w.version } := by
  rw [ensureDueIndex, result_execute]
  have created : ∀ written, createIndexIfNotExists schedulesDueIdx w = .ok written ↔
      w.hasTable "schedules_due_idx" = false ∧
        (w.hasIndex "schedules_due_idx" = true ∨ w.hasTable "schedules" = true) ∧
        written = { w with
          indexes := w.indexes ++ if w.hasIndex "schedules_due_idx" then [] else [schedulesDueIdx] } := by
    intro written
    have due : schedulesDueIdx.name = "schedules_due_idx" ∧ schedulesDueIdx.table = "schedules" :=
      ⟨rfl, rfl⟩
    rw [createIndexIfNotExists, due.1, due.2]
    cases w.hasTable "schedules_due_idx" with
    | true => exact ⟨fun raised => (by cases raised), fun ⟨taken, _⟩ => (by cases taken)⟩
    | false =>
        cases w.hasIndex "schedules_due_idx" with
        | true =>
            rw [if_neg Bool.false_ne_true, if_pos rfl, if_pos rfl, List.append_nil]
            exact ⟨fun same => ⟨rfl, .inl rfl, (Except.ok.inj same).symm⟩,
              fun ⟨_, _, same⟩ => congrArg Except.ok same.symm⟩
        | false =>
            rw [if_neg Bool.false_ne_true, if_neg Bool.false_ne_true, if_neg Bool.false_ne_true]
            cases w.hasTable "schedules" with
            | false =>
                refine ⟨fun raised => (by cases raised), fun ⟨_, missing, _⟩ => ?_⟩
                rcases missing with missing | missing <;> cases missing
            | true =>
                rw [Bool.not_true, if_neg Bool.false_ne_true]
                exact ⟨fun same => ⟨rfl, .inr rfl, (Except.ok.inj same).symm⟩,
                  fun ⟨_, _, same⟩ => congrArg Except.ok same.symm⟩
  constructor
  · rintro ⟨written, goes, made⟩
    obtain ⟨noTable, there, rfl⟩ := (created written).mp goes
    rw [result_setBaseline] at made
    cases made
    exact ⟨noTable, there, rfl⟩
  · rintro ⟨noTable, there, rfl⟩
    exact ⟨_, (created _).mpr ⟨noTable, there, rfl⟩, result_setBaseline⟩

/-- A second time, they change nothing. -/
theorem ensureDueIndex_again (made : ensureDueIndex.result w = .ok db') :
    ensureDueIndex.result db' = .ok db' := by
  obtain ⟨noTable, _, same⟩ := result_ensureDueIndex.mp made
  have there : db'.hasIndex "schedules_due_idx" = true := by
    rw [same, SchedulesDb.hasIndex, List.any_append]
    cases has : w.hasIndex "schedules_due_idx" with
    | true => exact Bool.or_eq_true_iff.mpr (.inl has)
    | false => exact Bool.or_eq_true_iff.mpr (.inr rfl)
  have set : ¬ db'.version = 0 := by
    rw [same]
    dsimp only
    split_ifs with unset
    · decide
    · exact unset
  refine result_ensureDueIndex.mpr ⟨?_, .inl there, ?_⟩
  · rw [same]
    exact noTable
  · rw [there, if_pos rfl, List.append_nil, if_neg set]

/-- The indexes are created again, as they were. -/
theorem result_replayIndexes {next : Session SchedulesDb String} {indexes : List SqlIndex}
    (texts : ∀ i ∈ indexes, engine.readIndex i.sql = some i)
    (made : (replayIndexes engine (indexes.map SqlIndex.sql) next).result w = .ok db') :
    next.result { w with indexes := w.indexes ++ indexes } = .ok db' := by
  induction indexes generalizing w with
  | nil =>
      rw [List.append_nil]
      exact made
  | cons i indexes ih =>
      obtain ⟨written, created, further⟩ := result_execute.mp made
      simp only [createIndex, texts i List.mem_cons_self] at created
      split_ifs at created
      cases created
      have last := ih (fun j mem => texts j (List.mem_cons_of_mem _ mem)) further
      rwa [List.append_assoc, List.singleton_append] at last

/-! ### The copy -/

/-- Rows that are stored are stored as they are. -/
theorem insertRow_ok {columns : List SqlColumn} {rows rows' : List SqlRow} {row : SqlRow}
    (converted : List.zipWith engine.convert (columns.map SqlColumn.affinity) row = row)
    (inserted : insertRow engine columns rows row = .ok rows') : rows' = rows ++ [row] := by
  unfold insertRow at inserted
  dsimp only at inserted
  split_ifs at inserted
  cases inserted
  rw [converted]

theorem insertRows_ok {columns : List SqlColumn} {project : SqlRow → SqlRow}
    {rows start rows' : List SqlRow}
    (converted : ∀ row ∈ rows, project row = row ∧
      List.zipWith engine.convert (columns.map SqlColumn.affinity) row = row)
    (inserted : rows.foldlM (fun rows row => insertRow engine columns rows (project row)) start =
      .ok rows') : rows' = start ++ rows := by
  induction rows generalizing start with
  | nil =>
      cases inserted
      exact (List.append_nil _).symm
  | cons row rows ih =>
      rw [List.foldlM_cons] at inserted
      obtain ⟨between, first, further⟩ := bind_eq_ok_iff.mp inserted
      obtain ⟨same, stored⟩ := converted row List.mem_cons_self
      rw [same] at first
      rw [insertRow_ok stored first] at further
      rw [ih (fun other mem => converted other (List.mem_cons_of_mem _ mem)) further,
        List.append_assoc, List.singleton_append]

/-- All the columns of the older table, by their names. -/
theorem selectColumns_legacy {row : SqlRow}
    (columns : t.columns = scheduleColumns ["run", "brief"]) (length : row.length = 14) :
    selectColumns t scheduleColumnNames row = row := by
  have found : ∀ i : Fin 14, (scheduleColumns ["run", "brief"]).findIdx
      (fun c => c.name == scheduleColumnNames[i]) = i := by decide
  refine List.ext_getElem ?_ fun i inNames inRow => ?_
  · rw [selectColumns, List.length_map, length]
    rfl
  · have small : i < 14 := length ▸ inRow
    have place := found ⟨i, small⟩
    simp only [selectColumns, List.getElem_map, columns]
    rw [show (scheduleColumns ["run", "brief"]).findIdx
      (fun c => c.name == scheduleColumnNames[i]) = i from place, List.getElem?_eq_getElem inRow]
    rfl

/-! ### The rebuild -/

theorem scheduleKinds_accepted : ∀ c ∈ scheduleColumns scheduleKinds, c.name = "kind" →
    c.accepts (.text "app_callback") = true := by
  decide

/-- A line of the text names the kind. -/
theorem app_callback_in_body (margin : ℕ) : Occurs "app_callback" (scheduleTableBody margin) := by
  have named : Occurs "app_callback"
      "kind TEXT NOT NULL CHECK (kind IN ('run', 'brief', 'app_callback'))," := by decide +kernel
  have line := named.append_left (String.ofList (List.replicate (margin + 4) ' '))
  refine Occurs.append_left (line.trans (occurs_join "\n" ?_)) " (\n"
  exact List.mem_cons_of_mem _ (List.mem_cons_of_mem _ List.mem_cons_self)

theorem drop_append (a b : String) : Text.drop (a ++ b) a.toList.length = b := by
  rw [Text.drop, String.toList_append, List.drop_left, String.ofList_toList]

/-- The text that the renamed table has. -/
theorem app_callback_in_renamed :
    Occurs "app_callback" ("CREATE TABLE \"" ++ ("schedules" ++ ("\"" ++ Text.drop
      ("CREATE TABLE " ++ ("schedules__migration" ++ scheduleTableBody 24))
      ("CREATE TABLE " ++ "schedules__migration").toList.length))) := by
  have rest := drop_append ("CREATE TABLE " ++ "schedules__migration") (scheduleTableBody 24)
  rw [String.append_assoc] at rest
  rw [rest]
  exact (((app_callback_in_body 24).append_left _).append_left _).append_left _

theorem hasTable_eq_false {name : String} :
    db.hasTable name = false ↔ ∀ u ∈ db.tables, sameName u.name name = false := by
  rw [SchedulesDb.hasTable, List.any_eq_false]
  exact forall₂_congr fun u _ => by rw [Bool.not_eq_true]

/-- The new table, next to the others. -/
theorem createTable_ok {name body : String} {columns : List SqlColumn}
    (created : createTable name body columns db = .ok w) :
    (∀ u ∈ db.tables, sameName u.name name = false) ∧
      w = { db with
        tables := db.tables ++ [⟨name, "CREATE TABLE " ++ (name ++ body), columns, []⟩] } := by
  unfold createTable at created
  split_ifs at created with taken
  cases created
  exact ⟨hasTable_eq_false.mp (Bool.eq_false_iff.mpr taken), rfl⟩

/-- The rows of the older table are copied to one behind it. -/
theorem insertSelect_ok {target : SqlTable} (legacy : LegacySchedules engine db t)
    (free : ∀ u ∈ db.tables, sameName u.name target.name = false) (empty : target.rows = [])
    (columns : target.columns = scheduleColumns scheduleKinds)
    (copied : insertSelect engine target.name "schedules" scheduleColumnNames
      { db with tables := db.tables ++ [target] } = .ok w) :
    w = { db with tables := db.tables ++ [{ target with rows := engine.scan t.rows }] } := by
  have source : (db.tables ++ [target]).find? (sameName ·.name "schedules") = some t := by
    rw [List.find?_append]
    cases first : db.tables.find? (sameName ·.name "schedules") with
    | none =>
        have none := List.find?_eq_none.mp first t legacy.there
        rw [legacy.name] at none
        exact absurd (sameName_self "schedules") none
    | some u =>
        rw [legacy.alone u (List.mem_of_find?_eq_some first) (List.find?_some first :)]
        rfl
  have into : (db.tables ++ [target]).find? (sameName ·.name target.name) = some target := by
    have none : db.tables.find? (sameName ·.name target.name) = none :=
      List.find?_eq_none.mpr fun u mem => by rw [free u mem]; exact Bool.false_ne_true
    rw [List.find?_append, none, Option.none_or]
    exact List.find?_cons_of_pos (p := fun u : SqlTable => sameName u.name target.name)
      (sameName_self target.name)
  unfold insertSelect at copied
  rw [source, into] at copied
  dsimp only at copied
  rw [empty] at copied
  obtain ⟨rows, inserted, done⟩ := bind_eq_ok_iff.mp copied
  cases done
  have converted : ∀ row ∈ engine.scan t.rows, selectColumns t scheduleColumnNames row = row ∧
      List.zipWith engine.convert (target.columns.map SqlColumn.affinity) row = row := by
    intro row mem
    obtain ⟨length, stored, _⟩ := legacy.rows row ((engine.scan_perm t.rows).mem_iff.mp mem)
    rw [legacy.columns] at length stored
    rw [columns]
    exact ⟨selectColumns_legacy legacy.columns length, stored⟩
  rw [insertRows_ok converted inserted, List.nil_append]
  dsimp only
  have others : db.tables.map (fun u => if sameName u.name target.name then
      { u with rows := engine.scan t.rows } else u) = db.tables := by
    refine (List.map_congr_left fun u mem => ?_).trans (List.map_id _)
    rw [free u mem]
    rfl
  rw [List.map_append, others, List.map_singleton, if_pos (sameName_self target.name)]

/-- What is left when the older table is dropped and the new one has its name. -/
theorem replaceTable_ok {new : SqlTable} {w₁ w₂ : SchedulesDb}
    (legacy : LegacySchedules engine db t) (named : new.name = "schedules__migration")
    (free : ∀ u ∈ db.tables, sameName u.name "schedules__migration" = false)
    (dropped : dropTable "schedules" { db with tables := db.tables ++ [new] } = .ok w₁)
    (renamed : renameTable "schedules__migration" "schedules" w₁ = .ok w₂) :
    w₂ = { db with
      tables := (db.tables.filter fun u => !sameName u.name "schedules") ++
        [{ new with
          name := "schedules"
          sql := "CREATE TABLE \"" ++ ("schedules" ++ ("\"" ++
            Text.drop new.sql ("CREATE TABLE " ++ new.name).toList.length)) }]
      indexes := db.indexes.filter fun i => !(i.table == "schedules") } := by
  have apart : sameName "schedules__migration" "schedules" = false := rfl
  have others : ∀ u ∈ db.tables.filter fun u => !sameName u.name "schedules",
      sameName u.name "schedules__migration" = false :=
    fun u mem => free u (List.mem_of_mem_filter mem)
  have spelled : db.indexes.filter (fun i => !sameName i.table "schedules") =
      db.indexes.filter fun i => !(i.table == "schedules") := by
    refine List.filter_congr fun i mem => ?_
    obtain ⟨u, isTable, name⟩ := legacy.onTables i mem
    have same : sameName i.table "schedules" = (i.table == "schedules") := by
      cases is : sameName i.table "schedules" with
      | true =>
          rw [← name] at is
          rw [← name, legacy.alone u isTable is, legacy.name]
          rfl
      | false =>
          symm
          rw [beq_eq_false_iff_ne]
          intro same
          rw [same, sameName_self] at is
          cases is
    rw [same]
  have unmoved : (db.indexes.filter fun i => !(i.table == "schedules")).map (fun i =>
      if sameName i.table "schedules__migration" then { i with table := "schedules" } else i) =
      db.indexes.filter fun i => !(i.table == "schedules") := by
    refine (List.map_congr_left fun i mem => ?_).trans (List.map_id _)
    obtain ⟨u, isTable, name⟩ := legacy.onTables i (List.mem_of_mem_filter mem)
    rw [← name, free u isTable]
    rfl
  unfold dropTable at dropped
  split_ifs at dropped
  cases dropped
  unfold renameTable at renamed
  split_ifs at renamed
  cases renamed
  have kept : (db.tables.filter fun u => !sameName u.name "schedules").map (fun u =>
      if sameName u.name "schedules__migration" then
        { u with
          name := "schedules"
          sql := "CREATE TABLE \"" ++ ("schedules" ++ ("\"" ++
            Text.drop u.sql ("CREATE TABLE " ++ u.name).toList.length)) }
      else u) = db.tables.filter fun u => !sameName u.name "schedules" := by
    refine (List.map_congr_left fun u mem => ?_).trans (List.map_id _)
    rw [others u mem]
    rfl
  have last : [new].filter (fun u => !sameName u.name "schedules") = [new] := by
    rw [List.filter_singleton, named, apart]
    rfl
  dsimp only
  rw [spelled, unmoved, List.filter_append, last, List.map_append, kept, List.map_singleton,
    if_pos (by rw [named]; exact sameName_self _)]

/-- What the session commits, from the statements that went through. -/
theorem result_legacy (legacy : LegacySchedules engine db t)
    (made : (initSchedulesDb engine).result db = .ok db') :
    ∃ sql indexes, Occurs "app_callback" sql ∧ indexes.Perm db.indexes ∧
      ensureDueIndex.result { db with
        tables := (db.tables.filter fun u => !sameName u.name "schedules") ++
          [⟨"schedules", sql, scheduleColumns scheduleKinds, engine.scan t.rows⟩]
        indexes } = .ok db' := by
  have found : db.tables.find? (·.name == "schedules") = some t := by
    cases first : db.tables.find? (·.name == "schedules") with
    | none =>
        have none := List.find?_eq_none.mp first t legacy.there
        rw [legacy.name] at none
        exact absurd rfl none
    | some u =>
        have named : u.name = "schedules" := beq_iff_eq.mp (List.find?_some first :)
        rw [legacy.alone u (List.mem_of_find?_eq_some first) (by rw [named, sameName_self])]
  rw [initSchedulesDb, Session.result, found] at made
  dsimp only at made
  rw [if_neg legacy.text, Session.result] at made
  obtain ⟨_, created, made⟩ := result_execute.mp made
  obtain ⟨free, rfl⟩ := createTable_ok created
  obtain ⟨_, copied, made⟩ := result_execute.mp made
  let target : SqlTable := ⟨"schedules__migration", "CREATE TABLE " ++
    ("schedules__migration" ++ scheduleTableBody 24), scheduleColumns scheduleKinds, []⟩
  have free : ∀ u ∈ db.tables, sameName u.name target.name = false := free
  have same := insertSelect_ok legacy free rfl rfl copied
  subst same
  obtain ⟨_, dropped, made⟩ := result_execute.mp made
  obtain ⟨_, renamed, made⟩ := result_execute.mp made
  have same := replaceTable_ok legacy rfl free dropped renamed
  subst same
  have texts : ∀ i ∈ (db.indexes.filter fun i => i.table == "schedules").insertionSort
      (fun a b => a.name ≤ b.name), engine.readIndex i.sql = some i := by
    intro i mem
    obtain ⟨mem, on⟩ := List.mem_filter.mp (((List.perm_insertionSort _ _).mem_iff).mp mem)
    exact legacy.texts i mem (beq_iff_eq.mp on)
  refine ⟨_, _, app_callback_in_renamed, ?_, result_replayIndexes texts made⟩
  exact (List.Perm.append_left _ (List.perm_insertionSort _ _)).trans
    (List.perm_append_comm.trans (List.filter_append_perm _ _))

/-- **One session keeps the rows and the indexes**, and a second changes nothing. -/
theorem rebuilt_of_result (legacy : LegacySchedules engine db t)
    (made : (initSchedulesDb engine).result db = .ok db') :
    Rebuilt db t db' ∧ (initSchedulesDb engine).result db' = .ok db' := by
  obtain ⟨sql, indexes, names, perm, made⟩ := result_legacy legacy made
  have again := ensureDueIndex_again made
  obtain ⟨_, _, same⟩ := result_ensureDueIndex.mp made
  have taken : (indexes.any fun i => sameName i.name "schedules_due_idx") =
      db.hasIndex "schedules_due_idx" := perm.any_eq
  constructor
  · rw [same]
    refine ⟨⟨_, rfl, rfl, rfl, engine.scan_perm t.rows, scheduleKinds_accepted⟩, ?_, rfl⟩
    rw [← taken]
    exact perm.append_right _
  · have found : db'.tables.find? (·.name == "schedules") =
        some ⟨"schedules", sql, scheduleColumns scheduleKinds, engine.scan t.rows⟩ := by
      have none : (db.tables.filter fun u => !sameName u.name "schedules").find?
          (·.name == "schedules") = none := by
        refine List.find?_eq_none.mpr fun u mem named => ?_
        have other := (List.mem_filter.mp mem).2
        rw [beq_iff_eq.mp named, sameName_self] at other
        cases other
      rw [same, List.find?_append, none]
      rfl
    rw [initSchedulesDb, Session.result, found]
    dsimp only
    rw [if_pos names]
    exact again

theorem quiet_setBaseline {next : Session SchedulesDb String} (quiet : next.Quiet) :
    (setBaseline 1 (.commit next)).Once := by
  intro w
  dsimp only
  split_ifs
  · exact quiet
  · exact quiet

theorem once_ensureDueIndex : ensureDueIndex.Once := quiet_setBaseline trivial

theorem once_replayIndexes (indexSql : List String) :
    (replayIndexes engine indexSql ensureDueIndex).Once := by
  induction indexSql with
  | nil => exact once_ensureDueIndex
  | cons sql indexSql ih => exact ih

/-- The call commits before it ends, and writes nothing behind that. -/
theorem once_initSchedulesDb (engine : SqlEngine) : (initSchedulesDb engine).Once := by
  intro w
  dsimp only
  split
  · exact once_ensureDueIndex
  · split_ifs
    · exact once_ensureDueIndex
    · exact fun w => once_replayIndexes (indexTexts w)

end

/-! ### One older table -/

def kindNameIdx : SqlIndex where
  name := "schedules_kind_name_idx"
  table := "schedules"
  sql := "CREATE INDEX schedules_kind_name_idx ON schedules(kind, name)"

/-- Values are stored as they are, and rows are read in their order. -/
def plainEngine : SqlEngine where
  convert _ v := v
  scan rows := rows
  scan_perm _ := .refl _
  readIndex sql := if sql = kindNameIdx.sql then some kindNameIdx else none

def legacyTable : SqlTable where
  name := "schedules"
  sql := "CREATE TABLE schedules (schedule_id TEXT PRIMARY KEY, ..)"
  columns := scheduleColumns ["run", "brief"]
  rows := [[.text "old-id-1", .text "existing-run", .text "run", .text "interval", .text "1h",
    .text "UTC", .text "\x7b\"task\": \"old work\"\x7d", .integer 1, .text "2026-01-01T00:00:00+00:00",
    .null, .null, .null, .text "2026-01-01T00:00:00+00:00", .text "2026-01-01T00:00:00+00:00"]]

def legacyDb : SchedulesDb where
  tables := [legacyTable]
  indexes := [kindNameIdx]

theorem legacyDb_legacy : LegacySchedules plainEngine legacyDb legacyTable where
  there := List.mem_singleton.mpr rfl
  name := rfl
  columns := rfl
  text := by decide +kernel
  rows row mem := by
    rw [List.mem_singleton.mp mem]
    exact ⟨rfl, rfl, rfl⟩
  alone u mem _ := List.mem_singleton.mp mem
  texts i mem _ := by
    rw [List.mem_singleton.mp mem]
    decide +kernel
  onTables i mem := by
    rw [List.mem_singleton.mp mem]
    exact ⟨legacyTable, List.mem_singleton.mpr rfl, rfl⟩

/-- A call by itself. -/
example : ((initSchedulesDb plainEngine).result legacyDb).map (fun db =>
    (db.tables.map SqlTable.rows, db.indexes, db.version)) =
      .ok ([legacyTable.rows], [kindNameIdx, schedulesDueIdx], 1) := by
  decide +kernel

end AgentOs
