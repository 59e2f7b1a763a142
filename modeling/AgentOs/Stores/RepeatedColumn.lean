import AgentOs.Stores.GuardSoundness

/-!
A statement that adds a column, applied twice (`migrations.py`).

`_apply_statement` skips an added column that `PRAGMA table_info` lists.

`appliesTwice_iff`: applying it again succeeds and changes nothing exactly where the pattern reads
the table, the column and the kind of the column as SQLite does, or what it reads is there already.
-/

namespace AgentOs

open AgentOs.Lib AgentOs.Lib.Sqlite

section

variable {V : Type} [DecidableEq V] {table : WordTable} {e : Evaluator V}
  {others : String → Database V → Except String (Database V)} {db db₁ : Database V} {sql : String}
  {q : Name} {column : List Char} {definition : List Token}

/-- A statement succeeds twice, and the second time changes nothing. -/
def AppliesTwice (table : WordTable) (e : Evaluator V)
    (others : String → Database V → Except String (Database V)) (sql : String) (db : Database V) :
    Prop :=
  ∃ once, applyStatement table (sqlite e others) sql db = .ok once ∧
    applyStatement table (sqlite e others) sql once = .ok once

/-- The name that the pattern read is looked up as the table of the statement. -/
def SameTable (name : String) (q : Name) (db : Database V) : Prop :=
  db.findBy { name := name.toList } (Name.calls { name := name.toList }) = db.findBy q q.calls

/-- The table of the statement gets the column, at its end. -/
theorem exec_addColumn (accepted : exec e (.addColumn q column definition) db = .ok db₁) :
    ∃ s t t', db.findBy q q.calls = some (s, t) ∧ internal t.name = false ∧
      t.hasColumn column = false ∧ t'.name = t.name ∧
      t'.columns = t.columns ++ [⟨column, isGenerated 0 definition⟩] ∧
      db₁ = db.putBy q q.calls [t'] := by
  unfold exec at accepted
  cases found : db.findBy q q.calls with
  | none =>
      have missing : db.findBy (Statement.addColumn q column definition).target.1
          (Statement.addColumn q column definition).finds = none := found
      rw [missing] at accepted
      cases accepted
  | some place =>
      obtain ⟨s, t⟩ := place
      have there : db.findBy (Statement.addColumn q column definition).target.1
          (Statement.addColumn q column definition).finds = some (s, t) := found
      rw [there] at accepted
      obtain ⟨new, done, rfl⟩ := exists_of_map_ok accepted
      simp only [execOn] at done
      split_ifs at done with system there'
      cases done
      refine ⟨s, t, _, rfl, Bool.eq_false_iff.mpr system, Bool.eq_false_iff.mpr there', ?_, ?_, rfl⟩
      · rfl
      · rfl

/-- SQLite refuses the second time. -/
theorem exec_addColumn_again (accepted : exec e (.addColumn q column definition) db = .ok db₁)
    (db₂ : Database V) : exec e (.addColumn q column definition) db₁ ≠ .ok db₂ := by
  obtain ⟨s, t, t', found, _, _, name, columns, rfl⟩ := exec_addColumn accepted
  intro again
  have called : q.calls t' = true := by
    rw [Name.calls, name, findBy_calls found, beq_self_eq_true]
  obtain ⟨s', found'⟩ := findBy_putBy found called
  obtain ⟨s'', t'', _, found'', _, free, _⟩ := exec_addColumn again
  rw [found'] at found''
  cases found''
  rw [Table.hasColumn, columns, List.any_append, List.any_cons, beq_self_eq_true, Bool.true_or,
    Bool.or_true] at free
  cases free

/-- What `PRAGMA table_info` lists afterwards. -/
theorem mem_pragmaColumns_added (accepted : exec e (.addColumn q column definition) db = .ok db₁)
    (name c : String) :
    c ∈ pragmaColumns name db₁ ↔ c ∈ pragmaColumns name db ∨
      SameTable name q db ∧ c = .ofList column ∧ isGenerated 0 definition = false := by
  obtain ⟨s, t, t', found, _, _, same, columns, rfl⟩ := exec_addColumn accepted
  obtain ⟨hit, missed⟩ := find_putBy (m := { name := name.toList }) rfl found same
  by_cases is : SameTable name q db
  · have before : db.find { name := name.toList } = some t := by
      rw [Database.find, show db.findBy _ _ = some (s, t) from is.trans found]
      rfl
    rw [pragmaColumns, hit (is.trans found), pragmaColumns, before]
    dsimp only
    rw [columns, List.filter_append, List.map_append, List.mem_append]
    refine or_congr_right ?_
    cases isGenerated 0 definition with
    | true => simp
    | false => simp [is]
  · rw [pragmaColumns, missed fun same => is (same.trans found.symm), ← pragmaColumns]
    exact (or_iff_left fun both => is both.1).symm

/-- **Adding a column twice is adding it once** exactly where the text has no forbidden spelling and
the pattern reads what the table lists, before or afterwards. -/
theorem appliesTwice_iff (table : WordTable) (e : Evaluator V)
    (others : String → Database V → Except String (Database V)) (sql : String) (q : Name)
    (column : List Char) (definition : List Token) (db db₁ : Database V)
    (parsed : parseStatement (Text.strip sql).toList = some (.addColumn q column definition))
    (accepted : exec e (.addColumn q column definition) db = .ok db₁) :
    AppliesTwice table e others sql db ↔
      ¬ HasForbiddenSpelling table (Text.strip sql).toList ∧
        ∃ t c, addedColumn table (Text.strip sql) = some (t, c) ∧ isPragmaName t = true ∧
          (c ∈ pragmaColumns t db ∨
            SameTable t q db ∧ c = .ofList column ∧ isGenerated 0 definition = false) := by
  constructor
  · rintro ⟨once, first, second⟩
    obtain ⟨safe, unread, asked⟩ := (applyStatement_ok_iff parsed).mp first
    obtain ⟨_, unread', asked'⟩ := (applyStatement_ok_iff parsed).mp second
    refine ⟨safe, ?_⟩
    cases added : addedColumn table (Text.strip sql) with
    | none =>
        have same := Except.ok.inj (accepted.symm.trans (unread added))
        subst same
        exact absurd (unread' added) (exec_addColumn_again accepted _)
    | some read =>
        obtain ⟨t, c⟩ := read
        obtain ⟨named, goes⟩ := asked t c added
        obtain ⟨_, goes'⟩ := asked' t c added
        refine ⟨t, c, rfl, named, ?_⟩
        split_ifs at goes with there
        · exact .inl there
        · have same := Except.ok.inj (accepted.symm.trans goes)
          subst same
          split_ifs at goes' with there'
          · exact (mem_pragmaColumns_added accepted t c).mp there'
          · exact absurd goes' (exec_addColumn_again accepted _)
  · rintro ⟨safe, t, c, added, named, listed⟩
    have runs : ∀ before after,
        (if c ∈ pragmaColumns t before then before = after
          else exec e (.addColumn q column definition) before = .ok after) →
        applyStatement table (sqlite e others) sql before = .ok after := by
      intro before after goes
      refine (applyStatement_ok_iff parsed).mpr ⟨safe, fun none => ?_, fun t' c' same => ?_⟩
      · rw [none] at added
        cases added
      · rw [added] at same
        cases same
        exact ⟨named, goes⟩
    by_cases there : c ∈ pragmaColumns t db
    · exact ⟨db, runs db db (by rw [if_pos there]), runs db db (by rw [if_pos there])⟩
    · have there' := (mem_pragmaColumns_added accepted t c).mpr listed
      exact ⟨db₁, runs db db₁ (by rw [if_neg there]; exact accepted),
        runs db₁ db₁ (by rw [if_pos there'])⟩

end

/-- A database with one table, of these columns. -/
def runsWith (columns : List String) : Database ℕ :=
  ⟨[⟨"main".toList, [⟨"runs".toList, columns.map fun c => ⟨c.toList, false⟩, [], [], []⟩]⟩]⟩

theorem appliesTwice_typed :
    AppliesTwice asciiWords everyRow (fun _ => .ok) "ALTER TABLE runs ADD COLUMN note TEXT"
        (runsWith ["run_id"]) ↔
      ¬ HasForbiddenSpelling asciiWords "ALTER TABLE runs ADD COLUMN note TEXT".toList ∧
        ∃ t c, addedColumn asciiWords "ALTER TABLE runs ADD COLUMN note TEXT" = some (t, c) ∧
          isPragmaName t = true ∧
            (c ∈ pragmaColumns t (runsWith ["run_id"]) ∨
              SameTable t { name := "runs".toList } (runsWith ["run_id"]) ∧
                c = .ofList "note".toList ∧
                isGenerated 0 [⟨[' '], "TEXT".toList, .word⟩] = false) :=
  appliesTwice_iff asciiWords everyRow (fun _ => .ok) "ALTER TABLE runs ADD COLUMN note TEXT"
    { name := "runs".toList } "note".toList [⟨[' '], "TEXT".toList, .word⟩] (runsWith ["run_id"])
    (runsWith ["run_id", "note"]) (by decide +kernel) (by decide +kernel)

/-- A column without a type is not read, and the second time there are two of it. -/
theorem untyped_not_appliesTwice :
    ¬ ∀ db db₁ : Database ℕ,
      exec everyRow (.addColumn { name := "runs".toList } "note".toList []) db = .ok db₁ →
        AppliesTwice asciiWords everyRow (fun _ => .ok) "ALTER TABLE runs ADD note" db := by
  intro twice
  obtain ⟨once, first, second⟩ := twice (runsWith ["run_id"]) (runsWith ["run_id", "note"])
    (by decide +kernel)
  have executed : applyStatement asciiWords (sqlite everyRow fun _ => .ok)
      "ALTER TABLE runs ADD note" (runsWith ["run_id"]) = .ok (runsWith ["run_id", "note"]) := by
    decide +kernel
  have same := Except.ok.inj (executed.symm.trans first)
  subst same
  have refused : applyStatement asciiWords (sqlite everyRow fun _ => .ok)
      "ALTER TABLE runs ADD note" (runsWith ["run_id", "note"]) =
        .error "duplicate column name" := by
    decide +kernel
  rw [refused] at second
  cases second

end AgentOs
