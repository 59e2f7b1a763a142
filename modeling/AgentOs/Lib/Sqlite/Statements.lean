import AgentOs.Lib.Sqlite.Tokens

/-!
The `ALTER TABLE`, `DROP`, `DELETE` and `UPDATE` statements of SQLite.

`parseStatement` reads the tokens of one statement. Its clauses that hold expressions (a column's
definition, `SET`, `WHERE`, the common table expressions in front) are kept as tokens.
-/

namespace AgentOs.Lib.Sqlite

/-- A name under which SQLite finds what is called so: the case of ASCII letters is ignored. -/
def fold (name : List Char) : List Char := name.map Char.toLower

/-- A table, index, view or trigger, in a schema or in any. -/
structure Name where
  schema : Option (List Char) := none
  name : List Char
deriving DecidableEq, Repr

/-- What `OR` and `ON CONFLICT` say. -/
inductive Conflict where
  | rollback | abort | fail | ignore | replace
deriving DecidableEq, Repr

inductive Dropped where
  | table | index | view | trigger
deriving DecidableEq, Repr

inductive Statement where
  | renameTable (table : Name) (newName : List Char)
  | renameColumn (table : Name) (column newName : List Char)
  | addColumn (table : Name) (column : List Char) (definition : List Token)
  | dropColumn (table : Name) (column : List Char)
  | drop (kind : Dropped) (ifExists : Bool) (name : Name)
  | delete (table : Name) (clauses : List Token)
  | update (onConflict : Option Conflict) (table : Name) (clauses : List Token)
deriving DecidableEq, Repr

/-! ### Reading -/

/-- The words that no unquoted name is. -/
def reservedWords : List (List Char) :=
  ["add", "all", "alter", "and", "as", "autoincrement", "between", "case", "check", "collate",
    "commit", "constraint", "create", "default", "deferrable", "delete", "distinct", "drop", "else",
    "escape", "except", "exists", "foreign", "from", "group", "having", "in", "index", "insert",
    "intersect", "into", "is", "isnull", "join", "limit", "not", "nothing", "notnull", "null", "on",
    "or", "order", "primary", "references", "returning", "select", "set", "table", "then", "to",
    "transaction", "union", "unique", "update", "using", "values", "when",
    "where"].map String.toList

def Token.isKeyword (t : Token) (word : String) : Bool :=
  t.kind == .word && fold t.text == fold word.toList

def Token.isSign (t : Token) (c : Char) : Bool := t.kind == .sign && t.text == [c]

/-- The tokens behind a keyword. -/
def keyword (word : String) : List Token → Option (List Token)
  | t :: rest => if t.isKeyword word then some rest else none
  | [] => none

/-- An identifier. -/
def readName : List Token → Option (List Char × List Token)
  | t :: rest =>
      match t.kind with
      | .word => if fold t.text ∈ reservedWords then none else some (t.text, rest)
      | .quoted inside => some (inside, rest)
      | _ => none
  | [] => none

/-- An identifier, with that of its schema in front or not. -/
def readQualified (tokens : List Token) : Option (Name × List Token) := do
  let (first, rest) ← readName tokens
  match rest with
  | dot :: rest =>
      if dot.isSign '.' then
        let (name, rest) ← readName rest
        return ({ schema := some first, name }, rest)
      else return ({ name := first }, dot :: rest)
  | [] => return ({ name := first }, [])

/-- Nothing more is said. -/
def finished (statement : Statement) : List Token → Option Statement
  | [] => some statement
  | _ :: _ => none

/-- The tokens behind a word that may be left out. -/
def skipKeyword (word : String) (tokens : List Token) : List Token :=
  (keyword word tokens).getD tokens

/-- `RENAME TO ..` and `RENAME [COLUMN] .. TO ..`, behind `RENAME`. -/
def parseRename (table : Name) (tokens : List Token) : Option Statement :=
  match keyword "TO" tokens with
  | some rest => do
      let (newName, rest) ← readName rest
      finished (.renameTable table newName) rest
  | none => do
      let (column, rest) ← readName (skipKeyword "COLUMN" tokens)
      let rest ← keyword "TO" rest
      let (newName, rest) ← readName rest
      finished (.renameColumn table column newName) rest

/-- `ALTER TABLE`, behind `ALTER`. -/
def parseAlter (tokens : List Token) : Option Statement := do
  let rest ← keyword "TABLE" tokens
  let (table, rest) ← readQualified rest
  match rest with
  | [] => none
  | t :: rest =>
      if t.isKeyword "RENAME" then parseRename table rest
      else if t.isKeyword "ADD" then do
        let (column, definition) ← readName (skipKeyword "COLUMN" rest)
        return .addColumn table column definition
      else if t.isKeyword "DROP" then do
        let (column, rest) ← readName (skipKeyword "COLUMN" rest)
        finished (.dropColumn table column) rest
      else none

/-- `DROP`, behind `DROP`. -/
def parseDrop : List Token → Option Statement
  | [] => none
  | t :: rest => do
      let kind ← if t.isKeyword "TABLE" then some .table
        else if t.isKeyword "INDEX" then some .index
        else if t.isKeyword "VIEW" then some .view
        else if t.isKeyword "TRIGGER" then some .trigger
        else none
      let (ifExists, rest) ← match keyword "IF" rest with
        | some rest => (keyword "EXISTS" rest).map (true, ·)
        | none => some (false, rest)
      let (name, rest) ← readQualified rest
      finished (.drop kind ifExists name) rest

/-- `DELETE`, behind `DELETE`, with what stands in front of it. -/
def parseDelete (front tokens : List Token) : Option Statement := do
  let rest ← keyword "FROM" tokens
  let (table, rest) ← readQualified rest
  return .delete table (front ++ rest)

def readConflict : List Token → Option (Conflict × List Token)
  | [] => none
  | t :: rest =>
      if t.isKeyword "ROLLBACK" then some (.rollback, rest)
      else if t.isKeyword "ABORT" then some (.abort, rest)
      else if t.isKeyword "FAIL" then some (.fail, rest)
      else if t.isKeyword "IGNORE" then some (.ignore, rest)
      else if t.isKeyword "REPLACE" then some (.replace, rest)
      else none

/-- `UPDATE`, behind `UPDATE`, with what stands in front of it. -/
def parseUpdate (front tokens : List Token) : Option Statement := do
  let (onConflict, rest) ← match keyword "OR" tokens with
    | some rest => (readConflict rest).map fun (conflict, rest) => (some conflict, rest)
    | none => some (none, tokens)
  let (table, rest) ← readQualified rest
  let _ ← (rest.find? fun t => t.isKeyword "SET")
  return .update onConflict table (front ++ rest)

/-- Behind `WITH`: the first keyword outside parentheses that begins a statement. -/
def parseWith (front : List Token) : ℕ → List Token → Option Statement
  | _, [] => none
  | depth, t :: rest =>
      if t.isSign '(' then parseWith (front ++ [t]) (depth + 1) rest
      else if t.isSign ')' then parseWith (front ++ [t]) (depth - 1) rest
      else if depth ≠ 0 then parseWith (front ++ [t]) depth rest
      else if t.isKeyword "DELETE" then parseDelete front rest
      else if t.isKeyword "UPDATE" then parseUpdate front rest
      else if t.isKeyword "SELECT" || t.isKeyword "INSERT" || t.isKeyword "VALUES" then none
      else parseWith (front ++ [t]) depth rest

/-- The statement of some tokens. -/
def parseBody : List Token → Option Statement
  | [] => none
  | t :: rest =>
      if t.isKeyword "ALTER" then parseAlter rest
      else if t.isKeyword "DROP" then parseDrop rest
      else if t.isKeyword "DELETE" then parseDelete [] rest
      else if t.isKeyword "UPDATE" then parseUpdate [] rest
      else if t.isKeyword "WITH" then parseWith [t] 0 rest
      else none

/-- One statement; a semicolon may end it. -/
def parseStatement (text : List Char) : Option Statement := do
  let (tokens, _) ← tokenize text
  let body := match tokens.getLast? with
    | some last => if last.isSign ';' then tokens.dropLast else tokens
    | none => tokens
  if body.any (·.isSign ';') then none else parseBody body

end AgentOs.Lib.Sqlite
