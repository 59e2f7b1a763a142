import AgentOs.Lib.Regex
import AgentOs.Lib.Text

/-!
The guard of the migration runner (`migrations.py`).

`_apply_statement` raises for a statement in whose text one of the forbidden patterns is found,
skips an added column that the table has, and executes everything else. What SQLite does with a
text is the `SqliteEngine`; which characters outside ASCII are letters and digits is the
`WordTable`.
-/

namespace AgentOs

open AgentOs.Lib

/-- The characters that `\w` matches: no white space, and no byte order mark. -/
structure WordTable where
  isWord : Char → Bool
  ascii : ∀ c : Char, c.toNat < 128 → isWord c = (c.isAlphanum || c == '_')
  space : ∀ c : Char, Text.isSpace c = true → isWord c = false
  mark : isWord '\uFEFF' = false

/-- An ASCII letter of a pattern under `re.IGNORECASE`. -/
def ignoreCase (pattern c : Char) : Bool :=
  c.toLower == pattern.toLower ||
    match pattern.toLower with
    | 'i' => c == 'İ' || c == 'ı'
    | 's' => c == 'ſ'
    | 'k' => c == '\u212A'
    | _ => false

section

variable (table : WordTable)

/-- `\bA\s+B\b`, which ignores the case. -/
def ddlPattern (words : List String) : Regex :=
  .phrase ignoreCase Text.isSpace table.isWord (words.map String.toList)

/-- The words of `_FORBIDDEN_DDL_PATTERNS`. -/
def forbiddenDdl : List (List String) :=
  [["DROP", "TABLE"], ["DROP", "COLUMN"], ["DROP", "INDEX"], ["RENAME", "TO"],
    ["RENAME", "COLUMN"], ["TRUNCATE"], ["DELETE", "FROM"]]

/-- A name with at most one quote on each side. -/
def namePattern : Regex :=
  .group (.seq (.optional (.one fun c => c == '\u0060' || c == '"' || c == '['))
    (.seq (.many table.isWord)
      (.optional (.one fun c => c == '\u0060' || c == '"' || c == ']'))))

/-- `_ALTER_ADD_COLUMN_PATTERN`. -/
def alterAddColumnPattern : Regex :=
  .seq (.literal ignoreCase "ALTER".toList)
    (.seq (.many Text.isSpace)
      (.seq (.literal ignoreCase "TABLE".toList)
        (.seq (.many Text.isSpace)
          (.seq (namePattern table)
            (.seq (.many Text.isSpace)
              (.seq (.literal ignoreCase "ADD".toList)
                (.seq (.many Text.isSpace)
                  (.seq (.optional
                      (.seq (.literal ignoreCase "COLUMN".toList) (.many Text.isSpace)))
                    (.seq (namePattern table)
                      (.seq (.many Text.isSpace) (.group (.many fun c => c != ';'))))))))))))

/-- `_is_safe_statement` -/
def isSafeStatement (sql : String) : Bool :=
  let clean := Text.strip sql
  clean == "" || forbiddenDdl.all fun words => !(ddlPattern table words).searches clean.toList

def isNameQuote (c : Char) : Bool := c == '\u0060' || c == '"' || c == '[' || c == ']'

/-- Without the quotes and brackets at its ends. -/
def stripQuotes (name : List Char) : String :=
  .ofList ((name.dropWhile isNameQuote).rdropWhile isNameQuote)

/-- A connection to a database `σ`. -/
structure SqliteEngine (σ : Type) where
  /-- `execute`: one statement -/
  execute : String → σ → Except String σ
  /-- the names that `PRAGMA table_info(..)` lists -/
  tableInfo : String → σ → Except String (List String)

variable {σ : Type} (engine : SqliteEngine σ)

/-- `_table_columns` -/
def tableColumns (tableName : List Char) (db : σ) : Except String (List String) :=
  engine.tableInfo (stripQuotes tableName) db

/-- The table and the column that `_ALTER_ADD_COLUMN_PATTERN` reads, without their quotes. -/
def addedColumn (clean : String) : Option (String × String) :=
  match ((alterAddColumnPattern table).matchStart clean.toList).map Matched.groups with
  | some [tableName, colName, _] => some (stripQuotes tableName, stripQuotes colName)
  | _ => none

/-- `_apply_statement` -/
def applyStatement (sql : String) (db : σ) : Except String σ :=
  let clean := Text.strip sql
  if clean = "" then .ok db
  else if !isSafeStatement table clean then
    .error ("Disallowed destructive DDL detected: " ++ clean)
  else
    match addedColumn table clean with
    | none => engine.execute clean db
    | some (tableName, colName) =>
        match tableColumns engine tableName.toList db with
        | .error e => .error e
        | .ok existing => if colName ∈ existing then .ok db else engine.execute clean db

end

end AgentOs
