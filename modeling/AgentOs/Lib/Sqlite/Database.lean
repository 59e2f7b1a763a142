import AgentOs.Lib.Sqlite.Statements
import Mathlib.Algebra.GroupWithZero.Nat
import Mathlib.Data.List.Perm.Subperm

/-!
What the `ALTER TABLE`, `DROP`, `DELETE` and `UPDATE` statements do to a database.

A database has the schemas in the order in which an unqualified name is looked up. A view and a
trigger are not in it, and neither is what refers to a table by its text, so a statement that
SQLite refuses for such a reason goes through here. The value of an expression is the
`Evaluator`'s.

`exec_keeps_iff`: a statement never takes a table, a column, an index or a row from a database
exactly where it is `Harmless`.
-/

namespace AgentOs.Lib.Sqlite

/-! ### Databases -/

structure Column where
  name : List Char
  /-- computed from others; `PRAGMA table_info` does not list it -/
  generated : Bool := false
deriving DecidableEq, Repr

structure Row (V : Type) where
  id : ℕ
  values : List (Option V)
deriving DecidableEq, Repr

/-- The columns that are unique together, and what a conflict does. -/
structure Key where
  columns : List ℕ
  onConflict : Conflict := .abort
deriving DecidableEq, Repr

structure Table (V : Type) where
  name : List Char
  columns : List Column
  keys : List Key := []
  indexes : List (List Char) := []
  rows : List (Row V) := []
deriving DecidableEq, Repr

structure Schema (V : Type) where
  name : List Char
  tables : List (Table V)
deriving DecidableEq, Repr

structure Database (V : Type) where
  schemas : List (Schema V)
deriving DecidableEq, Repr

/-- What a database has, under folded names. -/
inductive Thing where
  | table (schema table : List Char)
  | column (schema table column : List Char)
  | index (schema index : List Char)
  | row (schema table : List Char) (id : ℕ)
deriving DecidableEq, Repr

/-- The first element with `p` gives way to others. -/
def updateFirst {α : Type} (p : α → Bool) (f : α → List α) : List α → List α
  | [] => []
  | a :: as => if p a then f a ++ as else a :: updateFirst p f as

section

variable {V : Type}

def Table.things (schema : List Char) (t : Table V) : List Thing :=
  .table (fold schema) (fold t.name) ::
    (t.columns.map (fun c => .column (fold schema) (fold t.name) (fold c.name)) ++
      (t.indexes.map (fun i => .index (fold schema) (fold i)) ++
        t.rows.map fun r => .row (fold schema) (fold t.name) r.id))

def Schema.things (s : Schema V) : List Thing := s.tables.flatMap (Table.things s.name)

def Database.things (db : Database V) : List Thing := db.schemas.flatMap Schema.things

/-- Nothing is lost. -/
def Keeps (db db' : Database V) : Prop := db.things.Subperm db'.things

/-- A schema that a name is looked up in. -/
def Name.inSchema (n : Name) (s : Schema V) : Bool :=
  n.schema.all fun schema => fold s.name == fold schema

def Name.calls (n : Name) (t : Table V) : Bool := fold t.name == fold n.name

def Name.indexes (n : Name) (t : Table V) : Bool := t.indexes.any fun i => fold i == fold n.name

/-- The first table with `p` in the schemas of a name, and its schema. -/
def Database.findBy (db : Database V) (n : Name) (p : Table V → Bool) :
    Option (Schema V × Table V) :=
  (db.schemas.find? fun s => n.inSchema s && s.tables.any p).bind fun s =>
    (s.tables.find? p).map (s, ·)

/-- The first table with `p` in the schemas of a name gives way to others. -/
def Database.putBy (db : Database V) (n : Name) (p : Table V → Bool) (new : List (Table V)) :
    Database V :=
  ⟨updateFirst (fun s => n.inSchema s && s.tables.any p)
    (fun s => [{ s with tables := updateFirst p (fun _ => new) s.tables }]) db.schemas⟩

def Database.find (db : Database V) (n : Name) : Option (Table V) :=
  (db.findBy n n.calls).map Prod.snd

/-- Is this the name of a table or an index of the schema? -/
def Schema.uses (s : Schema V) (name : List Char) : Bool :=
  s.tables.any fun t => fold t.name == fold name || t.indexes.any fun i => fold i == fold name

theorem updateFirst_split {α : Type} {p : α → Bool} {l : List α} {a : α}
    (found : l.find? p = some a) :
    ∃ before after, l = before ++ a :: after ∧ (∀ b ∈ before, p b = false) ∧
      ∀ f, updateFirst p f l = before ++ (f a ++ after) := by
  induction l with
  | nil => cases found
  | cons b l ih =>
      rw [List.find?_cons] at found
      split at found
      · rename_i has
        cases found
        exact ⟨[], l, rfl, fun _ mem => absurd mem List.not_mem_nil,
          fun f => by rw [updateFirst, if_pos has]; rfl⟩
      · rename_i hasNot
        obtain ⟨before, after, split, none, put⟩ := ih found
        refine ⟨b :: before, after, congrArg (b :: ·) split,
          List.forall_mem_cons.mpr ⟨hasNot, none⟩, fun f => ?_⟩
        rw [updateFirst, if_neg (by rw [hasNot]; decide), put]
        rfl

/-- What a database has besides a table stays where the table gives way to others. -/
theorem things_putBy {db : Database V} {n : Name} {p : Table V → Bool} {s : Schema V} {t : Table V}
    (found : db.findBy n p = some (s, t)) :
    ∃ before after, db.things = before ++ (t.things s.name ++ after) ∧
      ∀ new, (db.putBy n p new).things = before ++ (new.flatMap (Table.things s.name) ++ after) := by
  obtain ⟨s', inSchemas, inTables⟩ := Option.bind_eq_some_iff.mp found
  obtain ⟨t', inTables, same⟩ := Option.map_eq_some_iff.mp inTables
  cases same
  obtain ⟨front, back, split, _, put⟩ := updateFirst_split inSchemas
  obtain ⟨front', back', split', _, put'⟩ := updateFirst_split inTables
  refine ⟨front.flatMap Schema.things ++ front'.flatMap (Table.things s.name),
    back'.flatMap (Table.things s.name) ++ back.flatMap Schema.things, ?_, fun new => ?_⟩
  · simp only [Database.things, split, List.flatMap_append, List.flatMap_cons, Schema.things, split',
      List.append_assoc]
  · simp only [Database.things, Database.putBy, put, List.flatMap_append, List.flatMap_cons,
      List.flatMap_nil, Schema.things, put', List.append_assoc, List.nil_append]

theorem keeps_putBy_iff {db : Database V} {n : Name} {p : Table V → Bool} {s : Schema V}
    {t : Table V} {new : List (Table V)} (found : db.findBy n p = some (s, t)) :
    Keeps db (db.putBy n p new) ↔
      (t.things s.name).Subperm (new.flatMap (Table.things s.name)) := by
  obtain ⟨before, after, has, put⟩ := things_putBy found
  rw [Keeps, has, put, List.subperm_append_left, List.subperm_append_right]

/-- The table that is found is the one that a statement names. -/
theorem findBy_calls {db : Database V} {n : Name} {s : Schema V} {t : Table V}
    (found : db.findBy n n.calls = some (s, t)) : fold t.name = fold n.name := by
  obtain ⟨s', _, inTables⟩ := Option.bind_eq_some_iff.mp found
  obtain ⟨t', inTables, same⟩ := Option.map_eq_some_iff.mp inTables
  cases same
  have called : n.calls t = true := List.find?_some inTables
  exact beq_iff_eq.mp called

theorem findBy_mem {db : Database V} {n : Name} {p : Table V → Bool} {s : Schema V} {t : Table V}
    (found : db.findBy n p = some (s, t)) : t ∈ s.tables := by
  obtain ⟨s', _, inTables⟩ := Option.bind_eq_some_iff.mp found
  obtain ⟨t', inTables, same⟩ := Option.map_eq_some_iff.mp inTables
  cases same
  exact List.mem_of_find?_eq_some inTables

/-- Two names that call one table call the same tables. -/
theorem calls_congr {n m : Name} {t : Table V} (first : n.calls t = true) (second : m.calls t = true) :
    n.calls (V := V) = m.calls := by
  have same : fold n.name = fold m.name := (beq_iff_eq.mp first).symm.trans (beq_iff_eq.mp second)
  funext other
  rw [Name.calls, Name.calls, same]

/-- A name without a schema is looked up in every schema. -/
theorem findBy_open {db : Database V} {n : Name} (noSchema : n.schema = none)
    (p : Table V → Bool) :
    db.findBy n p = (db.schemas.find? fun s => s.tables.any p).bind fun s =>
      (s.tables.find? p).map (s, ·) := by
  simp only [Database.findBy, Name.inSchema, noSchema, Option.all_none, Bool.true_and]

/-- Where a table gives way to one of its name, a name without a schema finds the new one if it
found the old one, and else what it found before. -/
theorem find_putBy {db : Database V} {n m : Name} {s : Schema V} {t t' : Table V}
    (noSchema : m.schema = none) (found : db.findBy n n.calls = some (s, t))
    (name : t'.name = t.name) :
    (db.findBy m m.calls = some (s, t) → (db.putBy n n.calls [t']).find m = some t') ∧
      (db.findBy m m.calls ≠ some (s, t) →
        (db.putBy n n.calls [t']).find m = db.find m) := by
  obtain ⟨s₀, inSchemas, inTables⟩ := Option.bind_eq_some_iff.mp found
  obtain ⟨t₀, inTables', same⟩ := Option.map_eq_some_iff.mp inTables
  cases same
  have called : n.calls t = true := List.find?_some inTables'
  have alike : m.calls t' = m.calls t := by rw [Name.calls, Name.calls, name]
  obtain ⟨front, back, split, noneIn, put⟩ := updateFirst_split inSchemas
  obtain ⟨front', back', split', noneIn', put'⟩ := updateFirst_split inTables'
  let new : Schema V := { s with tables := front' ++ t' :: back' }
  have schemas : (db.putBy n n.calls [t']).schemas = front ++ new :: back := by
    simp only [Database.putBy, put, put']
    rfl
  have has : new.tables.any m.calls = s.tables.any m.calls := by
    simp only [new, split', List.any_append, List.any_cons, alike]
  rw [Database.find, Database.find, findBy_open noSchema, findBy_open noSchema, schemas, split,
    List.find?_append, List.find?_append]
  cases ahead : front.find? fun s => s.tables.any m.calls with
  | some x =>
      -- a schema in front has a table of that name
      have mem := List.mem_of_find?_eq_some ahead
      rw [Option.some_or, Option.some_or, Option.bind_some]
      refine ⟨fun hit => ?_, fun _ => rfl⟩
      obtain ⟨_, _, same⟩ := Option.map_eq_some_iff.mp hit
      cases same
      have isIn := List.find?_some inSchemas
      exact nomatch (noneIn _ mem).symm.trans isIn
  | none =>
      rw [Option.none_or, Option.none_or, List.find?_cons, List.find?_cons, has]
      cases here : s.tables.any m.calls with
      | false =>
          dsimp only
          refine ⟨fun hit => ?_, fun _ => rfl⟩
          obtain ⟨x, behind, inX⟩ := Option.bind_eq_some_iff.mp hit
          obtain ⟨_, _, same⟩ := Option.map_eq_some_iff.mp inX
          cases same
          have isIn := List.find?_some behind
          exact nomatch here.symm.trans isIn
      | true =>
          simp only [Option.bind_some, new, split', List.find?_append, List.find?_cons, alike]
          cases hit : m.calls t with
          | true =>
              have none : front'.find? m.calls = none := by
                rw [← calls_congr called hit, List.find?_eq_none]
                exact fun x mem => by rw [noneIn' x mem]; decide
              rw [none]
              exact ⟨fun _ => rfl, fun other => absurd rfl other⟩
          | false =>
              refine ⟨fun hit' => ?_, fun _ => ?_⟩
              · obtain ⟨_, first, same⟩ := Option.map_eq_some_iff.mp hit'
                cases same
                have isIn : m.calls t = true := by
                  have within : s.tables.find? m.calls = some t := by
                    rw [split', List.find?_append, List.find?_cons, hit]
                    exact first
                  exact List.find?_some within
                exact nomatch hit.symm.trans isIn
              · rw [Option.map_map, Option.map_map]
                rfl

/-- What takes a table's place is found in its place. -/
theorem findBy_putBy {db : Database V} {n : Name} {p : Table V → Bool} {s : Schema V}
    {t t' : Table V} (found : db.findBy n p = some (s, t)) (again : p t' = true) :
    ∃ s', (db.putBy n p [t']).findBy n p = some (s', t') := by
  obtain ⟨s₀, inSchemas, inTables⟩ := Option.bind_eq_some_iff.mp found
  obtain ⟨t₀, inTables', same⟩ := Option.map_eq_some_iff.mp inTables
  cases same
  obtain ⟨front, back, split, noneIn, put⟩ := updateFirst_split inSchemas
  obtain ⟨front', back', split', noneIn', put'⟩ := updateFirst_split inTables'
  let new : Schema V := { s with tables := front' ++ t' :: back' }
  have schemas : (db.putBy n p [t']).schemas = front ++ new :: back := by
    simp only [Database.putBy, put, put']
    rfl
  have isIn : n.inSchema new = true := by
    have both := List.find?_some inSchemas
    rw [Bool.and_eq_true] at both
    exact both.1
  have has : new.tables.any p = true :=
    List.any_eq_true.mpr ⟨t', List.mem_append_right _ List.mem_cons_self, again⟩
  have noFront : front.find? (fun s => n.inSchema s && s.tables.any p) = none := by
    rw [List.find?_eq_none]
    exact fun x mem => by rw [noneIn x mem]; decide
  have noFront' : front'.find? p = none := by
    rw [List.find?_eq_none]
    exact fun x mem => by rw [noneIn' x mem]; decide
  have first : new.tables.find? p = some t' := by
    rw [show new.tables = front' ++ t' :: back' from rfl, List.find?_append, noFront',
      Option.none_or, List.find?_cons_of_pos again]
  refine ⟨new, ?_⟩
  rw [Database.findBy, schemas, List.find?_append, noFront, Option.none_or,
    List.find?_cons_of_pos (by rw [isIn, has]; rfl), Option.bind_some, first]
  rfl

theorem length_things (schema : List Char) (t : Table V) :
    (t.things schema).length =
      1 + (t.columns.length + (t.indexes.length + t.rows.length)) := by
  simp only [Table.things, List.length_cons, List.length_append, List.length_map]
  omega

/-! ### Statements -/

/-- What the expressions in some clauses come to. -/
structure Evaluator (V : Type) where
  /-- does a row satisfy the `WHERE`? -/
  selects : List Token → Database V → Row V → Bool
  /-- the values that a `SET` gives a row -/
  assigns : List Token → Database V → Row V → List (Option V)
  /-- the value of an added column -/
  default : List Token → Option V

/-- `sqlite_` names belong to SQLite. -/
def internal (name : List Char) : Bool := "sqlite_".toList.isPrefixOf (fold name)

/-- A name whose table can be dropped. -/
def droppable (name : List Char) : Bool :=
  !internal name || "sqlite_stat".toList.isPrefixOf (fold name)

/-- Is there an `AS` outside parentheses? -/
def isGenerated : ℕ → List Token → Bool
  | _, [] => false
  | depth, t :: rest =>
      if t.isSign '(' then isGenerated (depth + 1) rest
      else if t.isSign ')' then isGenerated (depth - 1) rest
      else depth == 0 && t.isKeyword "AS" || isGenerated depth rest

def Table.hasColumn (t : Table V) (column : List Char) : Bool :=
  t.columns.any fun c => fold c.name == fold column

/-- Equal in the columns of a key, none of which is NULL. -/
def Key.clash (k : Key) (a b : List (Option V)) [DecidableEq V] : Bool :=
  k.columns ≠ [] && k.columns.all fun i =>
    (a[i]?.getD none).isSome && a[i]?.getD none == b[i]?.getD none

variable [DecidableEq V]

/-- One row gets new values. -/
def updateRow (onConflict : Option Conflict) (keys : List Key) (id : ℕ) (new : List (Option V))
    (rows : List (Row V)) : Except String (List (Row V)) :=
  let clashing := keys.filter fun k => rows.any fun other => other.id ≠ id && k.clash new other.values
  let resolutions := clashing.map fun k => onConflict.getD k.onConflict
  if resolutions.any fun c => c == .rollback || c == .abort || c == .fail then
    .error "UNIQUE constraint failed"
  else if resolutions.contains .ignore then .ok rows
  else
    .ok ((rows.filter fun other =>
      other.id == id || !clashing.any fun k => k.clash new other.values).map fun other =>
        if other.id = id then { other with values := new } else other)

/-- The selected rows in turn, as far as they are still there. -/
def updateRows (e : Evaluator V) (onConflict : Option Conflict) (clauses : List Token)
    (db : Database V) (t : Table V) : Except String (List (Row V)) :=
  (t.rows.filter (e.selects clauses db)).foldlM (fun rows row =>
    if rows.any fun other => other.id == row.id then
      updateRow onConflict t.keys row.id (e.assigns clauses db row) rows
    else .ok rows) t.rows

/-- A statement on a table of a schema. -/
def execOn (e : Evaluator V) (db : Database V) (s : Schema V) (t : Table V) :
    Statement → Except String (List (Table V))
  | .renameTable _ newName =>
      if internal t.name || internal newName then .error "table may not be altered"
      else if s.uses newName then
        .error "there is already another table or index with this name"
      else .ok [{ t with name := newName }]
  | .renameColumn _ column newName =>
      if internal t.name then .error "table may not be altered"
      else if !t.hasColumn column then .error "no such column"
      else if fold column ≠ fold newName && t.hasColumn newName then .error "duplicate column name"
      else
        .ok [{ t with
          columns := t.columns.map fun c =>
            if fold c.name = fold column then { c with name := newName } else c }]
  | .addColumn _ column definition =>
      if internal t.name then .error "table may not be altered"
      else if t.hasColumn column then .error "duplicate column name"
      else
        .ok [{ t with
          columns := t.columns ++ [⟨column, isGenerated 0 definition⟩]
          rows := t.rows.map fun r => { r with values := r.values ++ [e.default definition] } }]
  | .dropColumn _ column =>
      if internal t.name then .error "table may not be altered"
      else
        match t.columns.findIdx? fun c => fold c.name == fold column with
        | none => .error "no such column"
        | some i =>
            if t.columns.length ≤ 1 then .error "no other columns exist"
            else if t.keys.any (·.columns.contains i) then .error "cannot drop UNIQUE column"
            else
              .ok [{ t with
                columns := t.columns.eraseIdx i
                keys := t.keys.map fun k =>
                  { k with columns := k.columns.map fun j => if i < j then j - 1 else j }
                rows := t.rows.map fun r => { r with values := r.values.eraseIdx i } }]
  | .drop .table _ _ => if droppable t.name then .ok [] else .error "table may not be dropped"
  | .drop .index _ name =>
      if internal name.name then .error "index cannot be dropped"
      else .ok [{ t with indexes := t.indexes.eraseP fun i => fold i == fold name.name }]
  | .drop .view _ _ | .drop .trigger _ _ => .ok [t]
  | .delete _ clauses =>
      .ok [{ t with rows := t.rows.filter fun r => !e.selects clauses db r }]
  | .update onConflict _ clauses =>
      (updateRows e onConflict clauses db t).map fun rows => [{ t with rows }]

/-- The table that a statement is about, by its name and how it is found. -/
def Statement.target : Statement → Name × Bool
  | .renameTable table _ | .renameColumn table _ _ | .addColumn table _ _ | .dropColumn table _
  | .drop .table _ table | .delete table _ | .update _ table _ => (table, false)
  | .drop _ _ name => (name, true)

/-- Is a table with this name looked for, or one with this index? -/
def Statement.finds (stmt : Statement) : Table V → Bool :=
  match stmt.target with
  | (name, true) => name.indexes
  | (table, false) => table.calls

def Statement.alters : Statement → Bool
  | .renameTable _ _ | .renameColumn _ _ _ | .addColumn _ _ _ | .dropColumn _ _ => true
  | _ => false

/-- Is nothing said where the target is not there? -/
def Statement.lenient : Statement → Bool
  | .drop .view _ _ | .drop .trigger _ _ => true
  | .drop _ ifExists _ => ifExists
  | _ => false

/-- One statement on a database. -/
def exec (e : Evaluator V) (stmt : Statement) (db : Database V) : Except String (Database V) :=
  match db.findBy stmt.target.1 stmt.finds with
  | none => if stmt.lenient then .ok db else .error "no such table"
  | some (s, t) => (execOn e db s t stmt).map (db.putBy stmt.target.1 stmt.finds)

/-- The statements that take nothing: the kinds that only add, those that SQLite refuses for the
names in them, and those whose expressions hit no row. -/
def Harmless (e : Evaluator V) : Statement → Prop
  | .addColumn _ _ _ | .drop .view _ _ | .drop .trigger _ _ => True
  | .renameTable table newName =>
      fold table.name = fold newName ∨ internal table.name = true ∨ internal newName = true
  | .renameColumn table column newName => fold column = fold newName ∨ internal table.name = true
  | .dropColumn table _ => internal table.name = true
  | .drop .table _ table => droppable table.name = false
  | .drop .index _ name => internal name.name = true
  | .delete table clauses =>
      ∀ db : Database V, ∀ t, db.find table = some t → ∀ r ∈ t.rows, e.selects clauses db r = false
  | .update onConflict table clauses =>
      (∃ c, onConflict = some c ∧ c ≠ .replace) ∨
        ∀ db : Database V, ∀ t, db.find table = some t → ∀ rows,
          updateRows e onConflict clauses db t = .ok rows → rows.length = t.rows.length

theorem exists_of_map_ok {ε α β : Type} {x : Except ε α} {f : α → β} {b : β}
    (done : x.map f = .ok b) : ∃ a, x = .ok a ∧ f a = b := by
  cases x with
  | error e => cases done
  | ok a => exact ⟨a, rfl, Except.ok.inj done⟩

/-! ### What an update leaves -/

section

variable {e : Evaluator V} {onConflict : Option Conflict} {keys : List Key} {id : ℕ}
  {new : List (Option V)} {rows rows' : List (Row V)}

omit [DecidableEq V] in
theorem map_id_setValues (rows : List (Row V)) :
    (rows.map fun other => if other.id = id then { other with values := new } else other).map
      Row.id = rows.map Row.id := by
  rw [List.map_map]
  refine List.map_congr_left fun other _ => ?_
  dsimp only [Function.comp_apply]
  split_ifs <;> rfl

/-- New values keep the row and take others at most. -/
theorem updateRow_sublist (done : updateRow onConflict keys id new rows = .ok rows') :
    (rows'.map Row.id).Sublist (rows.map Row.id) := by
  unfold updateRow at done
  dsimp only at done
  split_ifs at done
  · cases done
    exact List.Sublist.refl _
  · cases done
    rw [map_id_setValues]
    exact List.filter_sublist.map _

/-- Without `REPLACE`, they take none. -/
theorem updateRow_keeps {c : Conflict} (notReplace : c ≠ .replace)
    (done : updateRow (some c) keys id new rows = .ok rows') :
    rows'.map Row.id = rows.map Row.id := by
  unfold updateRow at done
  dsimp only at done
  generalize keys.filter (fun k => rows.any fun other =>
    decide (other.id ≠ id) && k.clash new other.values) = clashing at done
  split_ifs at done with refused ignored
  · cases done
    rfl
  · cases done
    rw [map_id_setValues]
    cases clashing with
    | nil =>
        refine congrArg (List.map Row.id) (List.filter_eq_self.mpr fun other _ => ?_)
        rw [List.any_nil, Bool.not_false, Bool.or_true]
    | cons k clashing =>
        -- a conflict raises or leaves the row
        cases c with
        | rollback | abort | fail => exact absurd rfl refused
        | ignore => exact absurd rfl ignored
        | replace => exact absurd rfl notReplace

/-- What every change of one row keeps, an update keeps. -/
theorem updateRows_of {P : List (Row V) → List (Row V) → Prop} {clauses : List Token}
    {db : Database V} {t : Table V} (refl : ∀ rows, P rows rows)
    (trans : ∀ a b c, P a b → P b c → P a c)
    (step : ∀ id new rows rows', updateRow onConflict t.keys id new rows = .ok rows' → P rows rows')
    (done : updateRows e onConflict clauses db t = .ok rows) : P t.rows rows := by
  unfold updateRows at done
  generalize t.rows.filter (e.selects clauses db) = selected at done
  generalize t.rows = start at done ⊢
  induction selected generalizing start with
  | nil =>
      cases done
      exact refl _
  | cons row selected ih =>
      rw [List.foldlM_cons] at done
      split_ifs at done with there
      · cases one : updateRow onConflict t.keys row.id (e.assigns clauses db row) start with
        | error error =>
            rw [one] at done
            cases done
        | ok between =>
            rw [one] at done
            exact trans _ _ _ (step _ _ _ _ one) (ih _ done)
      · exact ih _ done

theorem updateRows_sublist {clauses : List Token} {db : Database V} {t : Table V}
    (done : updateRows e onConflict clauses db t = .ok rows) :
    (rows.map Row.id).Sublist (t.rows.map Row.id) :=
  updateRows_of (fun _ => .refl _) (fun _ _ _ first second => second.trans first)
    (fun _ _ _ _ one => updateRow_sublist one) done

theorem updateRows_keeps {c : Conflict} {clauses : List Token} {db : Database V} {t : Table V}
    (notReplace : c ≠ .replace) (done : updateRows e (some c) clauses db t = .ok rows) :
    rows.map Row.id = t.rows.map Row.id :=
  updateRows_of (P := fun rows rows' => rows'.map Row.id = rows.map Row.id) (fun _ => rfl)
    (fun _ _ _ first second => second.trans first)
    (fun _ _ _ _ one => updateRow_keeps notReplace one) done

end

/-! ### What a statement leaves -/

section

variable {e : Evaluator V} {db db' : Database V} {s : Schema V} {t : Table V}
  {new : List (Table V)} {stmt : Statement}

omit [DecidableEq V] in
/-- A table that has what the other has, under the same name. -/
theorem things_subperm {t t' : Table V} (schema : List Char) (name : fold t'.name = fold t.name)
    (columns : (t.columns.map fun c => fold c.name).Sublist (t'.columns.map fun c => fold c.name))
    (indexes : t'.indexes = t.indexes) (rows : t'.rows.map Row.id = t.rows.map Row.id) :
    (t.things schema).Subperm ([t'].flatMap (Table.things schema)) := by
  have folded : ∀ t : Table V, t.things schema = .table (fold schema) (fold t.name) ::
      ((t.columns.map fun c => fold c.name).map (Thing.column (fold schema) (fold t.name)) ++
        (t.indexes.map (fun i => Thing.index (fold schema) (fold i)) ++
          (t.rows.map Row.id).map (Thing.row (fold schema) (fold t.name)))) := by
    intro t
    simp only [Table.things, List.map_map]
    rfl
  rw [List.flatMap_singleton, folded, folded, name, indexes, rows]
  exact (List.Sublist.cons_cons _ ((columns.map _).append (List.Sublist.refl _))).subperm

theorem internal_congr {a b : List Char} (same : fold a = fold b) : internal a = internal b := by
  rw [internal, internal, same]

theorem droppable_congr {a b : List Char} (same : fold a = fold b) :
    droppable a = droppable b := by
  rw [droppable, droppable, internal_congr same, same]

/-- A harmless statement leaves what the table has. -/
theorem execOn_keeps (found : db.findBy stmt.target.1 stmt.finds = some (s, t))
    (harmless : Harmless e stmt) (done : execOn e db s t stmt = .ok new) :
    (t.things s.name).Subperm (new.flatMap (Table.things s.name)) := by
  cases stmt with
  | renameTable table newName =>
      have called : fold t.name = fold table.name := findBy_calls found
      simp only [execOn, internal_congr called, Bool.or_eq_true] at done
      split_ifs at done with system used
      rcases harmless with same | refused
      · refine absurd (List.any_eq_true.mpr ⟨t, findBy_mem found, ?_⟩) used
        rw [called, same, beq_self_eq_true, Bool.true_or]
      · exact absurd refused system
  | renameColumn table column newName =>
      have called : fold t.name = fold table.name := findBy_calls found
      simp only [execOn, internal_congr called] at done
      split_ifs at done with system there twice
      cases done
      rcases harmless with same | refused
      · have names : (t.columns.map fun c =>
            if fold c.name = fold column then { c with name := newName } else c).map
              (fun c => fold c.name) = t.columns.map fun c => fold c.name := by
          rw [List.map_map]
          refine List.map_congr_left fun c _ => ?_
          dsimp only [Function.comp_apply]
          split_ifs with named
          · exact (named.trans same).symm
          · rfl
        exact things_subperm _ rfl (by rw [names]) rfl rfl
      · exact absurd refused system
  | addColumn table column definition =>
      simp only [execOn] at done
      split_ifs at done
      cases done
      refine things_subperm _ rfl ?_ rfl ?_
      · rw [List.map_append]
        exact List.sublist_append_left _ _
      · rw [List.map_map]
        rfl
  | dropColumn table column =>
      have called : fold t.name = fold table.name := findBy_calls found
      simp only [execOn, internal_congr called] at done
      rw [if_pos (show internal table.name = true from harmless)] at done
      cases done
  | drop kind ifExists name =>
      cases kind with
      | table =>
          have called : fold t.name = fold name.name := findBy_calls found
          simp only [execOn, droppable_congr called] at done
          rw [if_neg (by rw [show droppable name.name = false from harmless]; decide)] at done
          cases done
      | index =>
          simp only [execOn] at done
          rw [if_pos (show internal name.name = true from harmless)] at done
          cases done
      | view | trigger =>
          cases done
          exact things_subperm _ rfl (.refl _) rfl rfl
  | delete table clauses =>
      cases done
      have there : db.find table = some t := congrArg (Option.map Prod.snd) found
      refine things_subperm _ rfl (.refl _) rfl (congrArg (List.map Row.id) ?_)
      refine List.filter_eq_self.mpr fun r mem => ?_
      rw [harmless db t there r mem, Bool.not_false]
  | update onConflict table clauses =>
      obtain ⟨rows, updated, rfl⟩ := exists_of_map_ok done
      refine things_subperm _ rfl (.refl _) rfl ?_
      rcases harmless with ⟨c, rfl, notReplace⟩ | harmless
      · exact updateRows_keeps notReplace updated
      · have there : db.find table = some t := congrArg (Option.map Prod.snd) found
        refine (updateRows_sublist updated).eq_of_length ?_
        rw [List.length_map, List.length_map]
        exact harmless db t there rows updated

/-- **A harmless statement takes nothing.** -/
theorem exec_keeps (harmless : Harmless e stmt) (done : exec e stmt db = .ok db') :
    Keeps db db' := by
  unfold exec at done
  cases found : db.findBy stmt.target.1 stmt.finds with
  | none =>
      rw [found] at done
      dsimp only at done
      split_ifs at done
      cases done
      exact List.Subperm.refl _
  | some place =>
      obtain ⟨s, t⟩ := place
      rw [found] at done
      obtain ⟨new, goes, rfl⟩ := exists_of_map_ok done
      exact (keeps_putBy_iff found).mpr (execOn_keeps found harmless goes)

/-- A database with one table. -/
def alone (n : Name) (t : Table V) : Database V := ⟨[⟨n.schema.getD "main".toList, [t]⟩]⟩

omit [DecidableEq V] in
theorem findBy_alone {n : Name} {p : Table V → Bool} (has : p t = true) :
    (alone n t).findBy n p = some (⟨n.schema.getD "main".toList, [t]⟩, t) := by
  have inSchema : n.inSchema (⟨n.schema.getD "main".toList, [t]⟩ : Schema V) = true := by
    unfold Name.inSchema
    cases n.schema with
    | none => rfl
    | some schema => exact beq_self_eq_true (fold schema)
  simp only [Database.findBy, alone, List.find?_cons, inSchema, List.any_cons, has, Bool.true_or,
    Bool.true_and, Option.bind_some, Option.map_some]

/-- What a statement does to a table that it finds, it does to the database. -/
theorem exec_loses_of (stmt : Statement) (new : List (Table V))
    (found : db.findBy stmt.target.1 stmt.finds = some (s, t))
    (done : execOn e db s t stmt = .ok new)
    (lost : ¬ (t.things s.name).Subperm (new.flatMap (Table.things s.name))) :
    ∃ db', exec e stmt db = .ok db' ∧ ¬ Keeps db db' := by
  refine ⟨db.putBy stmt.target.1 stmt.finds new, ?_, fun keeps => lost ?_⟩
  · simp only [exec, found, done]
    rfl
  · exact (keeps_putBy_iff found).mp keeps

omit [DecidableEq V] in
/-- A table that has less afterwards. -/
theorem not_subperm_of_fewer {schema : List Char}
    (fewer : (new.map fun t => (t.things schema).length).sum < (t.things schema).length) :
    ¬ (t.things schema).Subperm (new.flatMap (Table.things schema)) := by
  intro within
  have le := within.length_le
  rw [List.length_flatMap] at le
  omega

/-- **Any other statement takes something** from some database; an `ALTER TABLE` does from one that
has no other table. -/
theorem exec_loses (harmful : ¬ Harmless e stmt) :
    ∃ db, (∃ db', exec e stmt db = .ok db' ∧ ¬ Keeps db db') ∧
      (stmt.alters = true → ∃ t, stmt.target.1.calls t = true ∧ db = alone stmt.target.1 t) := by
  cases stmt with
  | renameTable table newName =>
      obtain ⟨other, free, free'⟩ : fold table.name ≠ fold newName ∧
          internal table.name = false ∧ internal newName = false := by
        simpa only [Harmless, not_or, Bool.not_eq_true] using harmful
      have called : table.calls (⟨table.name, [], [], [], []⟩ : Table V) = true :=
        beq_self_eq_true (fold table.name)
      refine ⟨_, exec_loses_of (.renameTable table newName) [⟨newName, [], [], [], []⟩]
        (findBy_alone called) ?_ ?_, fun _ => ⟨_, called, rfl⟩⟩
      · have unused : (fold table.name == fold newName) = false := beq_eq_false_iff_ne.mpr other
        simp only [execOn, free, free', Schema.uses, List.any_cons, List.any_nil, unused,
          Bool.or_false, Bool.false_eq_true, if_false]
      · intro within
        have kept := within.subset List.mem_cons_self
        simp only [Table.things, List.flatMap_singleton, List.map_nil, List.append_nil,
          List.mem_singleton, Thing.table.injEq] at kept
        exact other kept.2
  | renameColumn table column newName =>
      obtain ⟨other, free⟩ : fold column ≠ fold newName ∧ internal table.name = false := by
        simpa only [Harmless, not_or, Bool.not_eq_true] using harmful
      have called : table.calls (⟨table.name, [⟨column, false⟩], [], [], []⟩ : Table V) = true :=
        beq_self_eq_true (fold table.name)
      refine ⟨_, exec_loses_of (.renameColumn table column newName)
        [⟨table.name, [⟨newName, false⟩], [], [], []⟩] (findBy_alone called) ?_ ?_,
        fun _ => ⟨_, called, rfl⟩⟩
      · have unused : (fold column == fold newName) = false := beq_eq_false_iff_ne.mpr other
        simp only [execOn, free, Table.hasColumn, List.any_cons, List.any_nil, unused,
          beq_self_eq_true, Bool.or_false, Bool.not_true, Bool.and_false, Bool.false_eq_true,
          if_false, List.map_cons, List.map_nil, if_true]
      · intro within
        have kept := within.subset (List.mem_cons_of_mem _ List.mem_cons_self)
        simp only [Table.things, List.flatMap_singleton, List.map_cons, List.map_nil,
          List.append_nil, List.mem_cons, List.not_mem_nil, or_false, reduceCtorEq, false_or,
          Thing.column.injEq] at kept
        exact other kept.2.2
  | addColumn table column definition => exact absurd trivial harmful
  | dropColumn table column =>
      have free : internal table.name = false := by
        simpa only [Harmless, Bool.not_eq_true] using harmful
      let column' : List Char := column ++ ['_']
      have called : table.calls
          (⟨table.name, [⟨column, false⟩, ⟨column', false⟩], [], [], []⟩ : Table V) = true :=
        beq_self_eq_true (fold table.name)
      refine ⟨_, exec_loses_of (.dropColumn table column)
        [⟨table.name, [⟨column', false⟩], [], [], []⟩] (findBy_alone called) ?_
        (not_subperm_of_fewer ?_), fun _ => ⟨_, called, rfl⟩⟩
      · simp [execOn, free, List.findIdx?_cons]
      · simp only [length_things, List.map_cons, List.map_nil, List.sum_cons, List.sum_nil,
          List.length_cons, List.length_nil]
        decide
  | drop kind ifExists name =>
      cases kind with
      | table =>
          have free : droppable name.name = true := by
            simpa only [Harmless, Bool.not_eq_false] using harmful
          have called : name.calls (⟨name.name, [], [], [], []⟩ : Table V) = true :=
            beq_self_eq_true (fold name.name)
          refine ⟨_, exec_loses_of (.drop .table ifExists name) [] (findBy_alone called) ?_
            (not_subperm_of_fewer ?_), fun alters => by cases alters⟩
          · simp only [execOn, free, if_true]
          · simp only [length_things, List.map_nil, List.sum_nil, List.length_nil]
            decide
      | index =>
          have free : internal name.name = false := by
            simpa only [Harmless, Bool.not_eq_true] using harmful
          have indexes : name.indexes (⟨['t'], [], [], [name.name], []⟩ : Table V) = true := by
            simp only [Name.indexes, List.any_cons, beq_self_eq_true, Bool.true_or]
          refine ⟨_, exec_loses_of (.drop .index ifExists name) [⟨['t'], [], [], [], []⟩]
            (findBy_alone indexes) ?_ (not_subperm_of_fewer ?_), fun alters => by cases alters⟩
          · simp only [execOn, free, Bool.false_eq_true, if_false, List.eraseP_cons,
              beq_self_eq_true, cond_true]
          · simp only [length_things, List.map_cons, List.map_nil, List.sum_cons, List.sum_nil,
              List.length_cons, List.length_nil]
            decide
      | view | trigger => exact absurd trivial harmful
  | delete table clauses =>
      simp only [Harmless, not_forall, Bool.not_eq_false] at harmful
      obtain ⟨db, t, there, r, mem, selected⟩ := harmful
      obtain ⟨⟨s, t'⟩, found, rfl⟩ := Option.map_eq_some_iff.mp there
      refine ⟨db, exec_loses_of (.delete table clauses) _ found rfl (not_subperm_of_fewer ?_),
        fun alters => by cases alters⟩
      have fewer : (t'.rows.filter fun r => !e.selects clauses db r).length < t'.rows.length :=
        List.length_filter_lt_length_iff_exists.mpr ⟨r, mem, by rw [selected]; decide⟩
      simp only [length_things, List.map_cons, List.map_nil, List.sum_cons, List.sum_nil]
      omega
  | update onConflict table clauses =>
      simp only [Harmless, not_or, not_forall] at harmful
      obtain ⟨_, db, t, there, rows, updated, differ⟩ := harmful
      obtain ⟨⟨s, t'⟩, found, rfl⟩ := Option.map_eq_some_iff.mp there
      refine ⟨db, exec_loses_of (.update onConflict table clauses) [{ t' with rows }] found ?_
        (not_subperm_of_fewer ?_), fun alters => by cases alters⟩
      · rw [execOn, updated]
        rfl
      · have le := (updateRows_sublist updated).length_le
        rw [List.length_map, List.length_map] at le
        have fewer : rows.length < t'.rows.length := Nat.lt_of_le_of_ne le differ
        simp only [length_things, List.map_cons, List.map_nil, List.sum_cons, List.sum_nil]
        omega

/-- A statement never takes anything exactly where it is harmless. -/
theorem exec_keeps_iff : (∀ db db', exec e stmt db = .ok db' → Keeps db db') ↔ Harmless e stmt := by
  constructor
  · intro keeps
    by_contra harmful
    obtain ⟨db, ⟨db', done, loses⟩, _⟩ := exec_loses harmful
    exact loses (keeps db db' done)
  · exact fun harmless db db' => exec_keeps harmless

end

end

end AgentOs.Lib.Sqlite
