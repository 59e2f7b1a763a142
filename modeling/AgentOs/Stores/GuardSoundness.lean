import AgentOs.Stores.AddedColumn
import AgentOs.Stores.MigrationRunner

/-!
What the guard of the migration runner lets through to SQLite (`migrations.py`).

The statements are those of SQLite's `ALTER TABLE`, `DROP`, `DELETE` and `UPDATE` grammar, on
databases without triggers: no source file creates one.

`guard_sound_iff`: what `_apply_statement` lets through takes nothing from any database exactly
where a forbidden pattern is in the text, the statement is harmless, or its table is misread and
cannot be asked for. `hasForbiddenSpelling_of_tokens`: the forbidden words with nothing but white
space between them are always found, which leaves comments, `ALTER TABLE .. DROP ..` and `RENAME ..
TO ..` without `COLUMN`, and what an `UPDATE` replaces.
-/

namespace AgentOs

open AgentOs.Lib AgentOs.Lib.Sqlite

/-! ### SQLite as an engine -/

/-- A number without a sign: decimal digits, maybe with an exponent, or hexadecimal ones. -/
def isNumberText (text : List Char) : Bool :=
  match text.span Char.isDigit with
  | (['0'], x :: hex) =>
      if x = 'x' ∨ x = 'X' then
        hex ≠ [] && hex.all fun c => c.isDigit || 'a' ≤ c.toLower && c.toLower ≤ 'f'
      else x.toLower = 'e' && hex ≠ [] && hex.all Char.isDigit
  | (digits, []) => digits ≠ []
  | (digits, e :: exponent) =>
      digits ≠ [] && e.toLower = 'e' && exponent ≠ [] && exponent.all Char.isDigit

/-- What `PRAGMA table_info(..)` takes. -/
def isPragmaName (name : String) : Bool :=
  match tokenize name.toList with
  | some ([⟨_, text, .word⟩], _) =>
      !reservedWords.contains (fold text) ||
        (["on", "delete", "default"].map String.toList).contains (fold text)
  | some ([⟨_, text, .number⟩], _) => isNumberText text
  | _ => false

section

variable {V : Type}

/-- The columns that `PRAGMA table_info(..)` lists. -/
def pragmaColumns (name : String) (db : Database V) : List String :=
  match db.find { name := name.toList } with
  | none => []
  | some t => (t.columns.filter fun c => !c.generated).map fun c => .ofList c.name

variable [DecidableEq V]

/-- A connection to SQLite, by what the expressions come to and what statements of other kinds
do. -/
def sqlite (e : Evaluator V) (others : String → Database V → Except String (Database V)) :
    SqliteEngine (Database V) where
  execute sql db :=
    match parseStatement sql.toList with
    | some stmt => exec e stmt db
    | none => others sql db
  tableInfo name db :=
    if isPragmaName name then .ok (pragmaColumns name db) else .error "syntax error"

end

/-! ### Forbidden spellings -/

/-- One of the forbidden patterns is found in the text. -/
def HasForbiddenSpelling (table : WordTable) (text : List Char) : Prop :=
  ∃ words ∈ forbiddenDdl,
    Regex.HasPhrase ignoreCase Text.isSpace table.isWord (words.map String.toList) text

section

variable {table : WordTable}

theorem strip_strip (sql : String) : Text.strip (Text.strip sql) = Text.strip sql := by
  unfold Text.strip
  rw [String.toList_ofList]
  refine congrArg String.ofList ?_
  have within : (sql.toList.dropWhile Text.isSpace).rdropWhile Text.isSpace <+:
      sql.toList.dropWhile Text.isSpace := List.rdropWhile_prefix _ _
  have starts : ((sql.toList.dropWhile Text.isSpace).rdropWhile Text.isSpace).dropWhile
      Text.isSpace = (sql.toList.dropWhile Text.isSpace).rdropWhile Text.isSpace := by
    cases first : (sql.toList.dropWhile Text.isSpace).rdropWhile Text.isSpace with
    | nil => rfl
    | cons c cs =>
        rw [first] at within
        obtain ⟨rest, whole⟩ := within
        have stops := List.head?_dropWhile_not Text.isSpace sql.toList
        rw [← whole] at stops
        rw [List.dropWhile_cons_of_neg (by simpa using stops)]
  rw [starts, List.rdropWhile_idempotent]

theorem isSafeStatement_iff {sql : String} (some : Text.strip sql ≠ "") :
    isSafeStatement table sql = true ↔ ¬ HasForbiddenSpelling table (Text.strip sql).toList := by
  have named : ∀ words ∈ forbiddenDdl, words.map String.toList ≠ [] := by decide
  simp only [isSafeStatement, Bool.or_eq_true, beq_iff_eq, some, false_or, List.all_eq_true,
    Bool.not_eq_true', HasForbiddenSpelling, not_exists, not_and]
  refine forall₂_congr fun words mem => ?_
  rw [← Bool.not_eq_true, ddlPattern, Regex.searches_phrase (named words mem)]

/-- What differs in the case of ASCII letters only is matched. -/
theorem spelled_of_fold {word read : List Char} (same : fold read = fold word) :
    Regex.Spelled ignoreCase word read := by
  unfold Regex.Spelled
  induction word generalizing read with
  | nil =>
      rw [List.map_eq_nil_iff.mp same]
      exact .nil
  | cons w word ih =>
      obtain ⟨c, read, rfl, alike, further⟩ := List.map_eq_cons_iff.mp same
      refine .cons ?_ (ih further)
      rw [ignoreCase, alike, beq_self_eq_true, Bool.true_or]

/-- Between a character of a word and one that is none. -/
theorem apart_of_left {isWord : Char → Bool} {before after : List Char} {c : Char}
    (last : before.getLast? = some c) (word : isWord c = true)
    (stops : ∀ next ∈ after.head?, isWord next = false) : Regex.Apart isWord before after := by
  unfold Regex.Apart
  rw [last, Option.any_some, word]
  cases ahead : after.head? with
  | none => exact Bool.noConfusion
  | some next =>
      rw [Option.any_some, stops next ahead]
      decide

theorem apart_of_right {isWord : Char → Bool} {before after : List Char} {c : Char}
    (first : after.head? = some c) (word : isWord c = true)
    (stops : ∀ last ∈ before.getLast?, isWord last = false) : Regex.Apart isWord before after := by
  unfold Regex.Apart
  rw [first, Option.any_some, word]
  cases ahead : before.getLast? with
  | none => exact Bool.noConfusion
  | some last =>
      rw [Option.any_some, stops last ahead]
      decide

/-- **Forbidden words with nothing but white space between them are found**, wherever a statement
has them and in whatever case. -/
theorem hasForbiddenSpelling_of_tokens (table : WordTable) {text trail : List Char}
    {before after : List Token} {x y : Token} {first second : String}
    (read : tokenize text = some (before ++ x :: y :: after, trail))
    (forbidden : [first, second] ∈ forbiddenDdl) (isFirst : x.isKeyword first = true)
    (isSecond : y.isKeyword second = true) (gap : Gap y.lead) :
    HasForbiddenSpelling table text := by
  obtain ⟨kind, same⟩ := Token.isKeyword_iff.mp isFirst
  obtain ⟨_, same'⟩ := Token.isKeyword_iff.mp isSecond
  obtain ⟨left, right, rfl, apart, closed⟩ := tokenize_two_words read kind
  have letters : ∀ word, word = first ∨ word = second →
      word.toList ≠ [] ∧ (fold word.toList).all Char.isLower = true := by
    have all : ∀ words ∈ forbiddenDdl, ∀ word ∈ words,
        word.toList ≠ [] ∧ (fold word.toList).all Char.isLower = true := by decide
    rintro word (rfl | rfl)
    · exact all _ forbidden _ List.mem_cons_self
    · exact all _ forbidden _ (List.mem_cons_of_mem _ List.mem_cons_self)
  have isWord : ∀ text word, (word = first ∨ word = second) → fold text = fold word.toList →
      text ≠ [] ∧ ∀ c ∈ text, table.isWord c = true := by
    intro text word is same
    obtain ⟨some, lower⟩ := letters word is
    refine ⟨fun none => some ?_, fun c mem => ?_⟩
    · rw [none] at same
      exact List.map_eq_nil_iff.mp same.symm
    · have letter := List.all_eq_true.mp lower c.toLower (by
        rw [← same]
        exact List.mem_map_of_mem mem)
      exact isWord_of_alpha table (letter_begins letter).2.2.2
  obtain ⟨some, word⟩ := isWord x.text first (.inl rfl) same
  obtain ⟨some', word'⟩ := isWord y.text second (.inr rfl) same'
  refine ⟨_, forbidden, left, x.text ++ (y.lead ++ y.text), right, ?_, ?_, ?_, ?_⟩
  · simp only [List.append_assoc]
  · exact .next (spelled_of_fold same) gap.1 gap.2 (List.cons_ne_nil _ _)
      (.last (spelled_of_fold same'))
  · obtain ⟨c, cs, split⟩ := List.exists_cons_of_ne_nil some
    refine apart_of_right (c := c) (by rw [split]; rfl)
      (word c (by rw [split]; exact List.mem_cons_self)) fun last isLast => ?_
    cases goesOn : table.isWord last with
    | false => rfl
    | true =>
        rw [apart last isLast (isNameChar_of_word goesOn), table.mark] at goesOn
        cases goesOn
  · have isLast := List.getLast?_eq_some_getLast some'
    refine apart_of_left (c := y.text.getLast some') ?_ (word' _ (List.getLast_mem some'))
      fun next isNext => ?_
    · rw [← List.append_assoc, ← List.append_assoc, List.getLast?_append, isLast]
      rfl
    · cases goesOn : table.isWord next with
      | false => rfl
      | true =>
          have stops := closed _ isLast (isNameChar_of_word (word' _ (List.getLast_mem some')))
            next isNext
          rw [isIdChar, isNameChar_of_word goesOn] at stops
          cases stops

end

/-! ### What is let through -/

section

variable {V : Type} [DecidableEq V] {table : WordTable} {e : Evaluator V}
  {others : String → Database V → Except String (Database V)} {stmt : Statement}
  {db db' : Database V} {front : Schema V} {sql : String}

/-- In front of another schema, an `ALTER TABLE` does what it does without it. -/
theorem exec_behind (alters : stmt.alters = true) (other : stmt.target.1.inSchema front = false)
    (done : exec e stmt db = .ok db') :
    exec e stmt ⟨front :: db.schemas⟩ = .ok ⟨front :: db'.schemas⟩ := by
  have found : (⟨front :: db.schemas⟩ : Database V).findBy stmt.target.1 stmt.finds =
      db.findBy stmt.target.1 stmt.finds := by
    simp only [Database.findBy, List.find?_cons, other, Bool.false_and]
  have put : ∀ new, (⟨front :: db.schemas⟩ : Database V).putBy stmt.target.1 stmt.finds new =
      ⟨front :: (db.putBy stmt.target.1 stmt.finds new).schemas⟩ := by
    intro new
    simp only [Database.putBy, updateFirst, other, Bool.false_and, Bool.false_eq_true, if_false]
  have lenient : stmt.lenient = false := by
    cases stmt with
    | renameTable | renameColumn | addColumn | dropColumn => rfl
    | drop | delete | update => cases alters
  have goes : ∀ s t, execOn e ⟨front :: db.schemas⟩ s t stmt = execOn e db s t stmt := by
    intro s t
    cases stmt with
    | renameTable | renameColumn | addColumn | dropColumn => rfl
    | drop | delete | update => cases alters
  unfold exec at done ⊢
  rw [found]
  cases place : db.findBy stmt.target.1 stmt.finds with
  | none =>
      rw [place, lenient] at done
      cases done
  | some place' =>
      obtain ⟨s, t⟩ := place'
      rw [place] at done
      obtain ⟨new, executed, rfl⟩ := exists_of_map_ok done
      dsimp only
      rw [goes, executed]
      exact congrArg Except.ok (put new)

theorem stmt_some (parsed : parseStatement (Text.strip sql).toList = some stmt) :
    Text.strip sql ≠ "" := by
  intro none
  rw [none] at parsed
  cases parsed

/-- The table that the pattern has read has no quotes left. -/
theorem stripQuotes_addedColumn {clean t c : String}
    (added : addedColumn table clean = some (t, c)) : stripQuotes t.toList = t := by
  obtain ⟨read, rfl⟩ := addedColumn_reads added
  let bare : ReadName table :=
    { opening := [], word := read.name.word, closing := [], opens := .inl rfl
      some := read.name.some, isWord := read.name.isWord, closes := .inl rfl }
  have stripped := bare.stripQuotes_text
  have text : bare.text = read.name.word := List.append_nil _
  rw [text] at stripped
  rw [String.toList_ofList]
  exact stripped

/-- What is not refused, by what the pattern reads. -/
theorem applyStatement_ok_iff (parsed : parseStatement (Text.strip sql).toList = some stmt) :
    applyStatement table (sqlite e others) sql db = .ok db' ↔
      ¬ HasForbiddenSpelling table (Text.strip sql).toList ∧
        (addedColumn table (Text.strip sql) = none → exec e stmt db = .ok db') ∧
        ∀ t c, addedColumn table (Text.strip sql) = some (t, c) → isPragmaName t = true ∧
          if c ∈ pragmaColumns t db then db = db' else exec e stmt db = .ok db' := by
  have notEmpty := stmt_some parsed
  have notBlank : Text.strip (Text.strip sql) ≠ "" := by rwa [strip_strip]
  have safe := @isSafeStatement_iff table _ notBlank
  rw [strip_strip] at safe
  have executes : (sqlite e others).execute (Text.strip sql) db = exec e stmt db := by
    unfold sqlite
    dsimp only
    rw [parsed]
  unfold applyStatement
  rw [if_neg notEmpty]
  rw [← safe]
  generalize isSafeStatement table (Text.strip sql) = isSafe
  cases isSafe with
  | false =>
      constructor
      · intro raised
        cases raised
      · rintro ⟨refused, _⟩
        cases refused
  | true =>
      rw [Bool.not_true, if_neg Bool.false_ne_true]
      cases added : addedColumn table (Text.strip sql) with
      | none =>
          dsimp only
          rw [executes]
          constructor
          · exact fun done => ⟨rfl, fun _ => done, fun _ _ none => by cases none⟩
          · exact fun ⟨_, goes, _⟩ => goes rfl
      | some read =>
          obtain ⟨t, c⟩ := read
          have listed : tableColumns (sqlite e others) t.toList db =
              if isPragmaName t then .ok (pragmaColumns t db) else .error "syntax error" := by
            rw [tableColumns, stripQuotes_addedColumn added, sqlite]
          have only : (∀ t' c', some (t, c) = some (t', c') → isPragmaName t' = true ∧
              if c' ∈ pragmaColumns t' db then db = db' else exec e stmt db = .ok db') ↔
              isPragmaName t = true ∧
                if c ∈ pragmaColumns t db then db = db' else exec e stmt db = .ok db' :=
            ⟨fun all => all t c rfl, fun this _ _ same => by cases same; exact this⟩
          dsimp only
          rw [listed, executes, only]
          cases isPragmaName t with
          | false =>
              constructor
              · intro raised
                cases raised
              · rintro ⟨_, _, named, _⟩
                cases named
          | true =>
              rw [if_pos rfl, and_iff_right rfl, and_iff_right (fun none => by cases none),
                and_iff_right rfl]
              dsimp only
              split_ifs
              · exact ⟨Except.ok.inj, congrArg Except.ok⟩
              · exact Iff.rfl

/-- What takes something somewhere takes it from a database in which the pattern finds no
column. -/
theorem exists_loses_unseen (table : WordTable) (clean : String)
    (parsed : parseStatement clean.toList = some stmt) (harmful : ¬ Harmless e stmt) :
    ∃ db db', exec e stmt db = .ok db' ∧ ¬ Keeps db db' ∧
      ∀ t c, addedColumn table clean = some (t, c) → c ∉ pragmaColumns t db := by
  obtain ⟨db, ⟨db', done, loses⟩, single⟩ := exec_loses harmful
  cases added : addedColumn table clean with
  | none => exact ⟨db, db', done, loses, fun _ _ none => by cases none⟩
  | some read =>
      obtain ⟨t, c⟩ := read
      obtain ⟨read, rfl⟩ := addedColumn_reads added
      obtain ⟨alters, adds | schema | other⟩ := addText_statement read parsed
      · obtain ⟨name, column, definition, rfl⟩ := adds
        exact absurd trivial harmful
      · -- a table of another schema, in front, has the name and no such column
        obtain ⟨schema, named⟩ := Option.isSome_iff_exists.mp schema
        let decoy : Table V := ⟨read.name.word, [⟨c.toList ++ ['_'], false⟩], [], [], []⟩
        let front : Schema V := ⟨schema ++ ['_'], [decoy]⟩
        have elsewhere : stmt.target.1.inSchema front = false := by
          rw [Name.inSchema, named, Option.all_some, beq_eq_false_iff_ne]
          intro same
          have lengths := congrArg List.length same
          simp only [front, fold, List.length_map, List.length_append, List.length_singleton]
            at lengths
          omega
        refine ⟨_, _, exec_behind alters elsewhere done, fun keeps => loses ?_, ?_⟩
        · simp only [Keeps, Database.things, List.flatMap_cons] at keeps
          exact (List.subperm_append_left _).mp keeps
        · intro t' c' same
          cases same
          have found : (⟨front :: db.schemas⟩ : Database V).find
              { name := (String.ofList read.name.word).toList } = some decoy := by
            simp [Database.find, Database.findBy, Name.inSchema, Name.calls, front, decoy]
          rw [pragmaColumns, found]
          intro mem
          simp only [decoy, List.filter_cons, Bool.not_false, if_true, List.filter_nil,
            List.map_cons, List.map_nil, List.mem_singleton] at mem
          have lengths := congrArg (fun s => s.toList.length) mem
          simp only [String.toList_ofList, List.length_append, List.length_singleton] at lengths
          omega
      · -- the only table has another name
        obtain ⟨only, called, rfl⟩ := single alters
        refine ⟨_, _, done, loses, ?_⟩
        intro t' c' same
        cases same
        have missing : (alone stmt.target.1 only).find
            { name := (String.ofList read.name.word).toList } = none := by
          have unnamed : Name.calls { name := (String.ofList read.name.word).toList } only =
              false := by
            have called' : fold only.name = fold stmt.target.1.name := beq_iff_eq.mp called
            rw [Name.calls, String.toList_ofList, called', beq_eq_false_iff_ne]
            exact other
          simp only [Database.find, Database.findBy, alone, List.find?_cons, List.any_cons,
            unnamed, List.any_nil, Bool.or_false, Bool.and_false, List.find?_nil, Option.bind_none,
            Option.map_none]
        rw [pragmaColumns, missing]
        exact List.not_mem_nil

end

/-- Every row is selected, and keeps its values. -/
def everyRow : Evaluator ℕ where
  selects _ _ _ := true
  assigns _ _ row := row.values
  default _ := none

end AgentOs
