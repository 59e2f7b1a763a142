import AgentOs.Lib.Sqlite.Database
import AgentOs.Stores.AdditiveGuard

/-!
What `_ALTER_ADD_COLUMN_PATTERN` reads, beside what SQLite reads (`migrations.py`).

The pattern is matched at the start of a text, and SQLite cuts the same text into tokens. Where
the pattern matches, the statement is an `ALTER TABLE`; where it is not an `ADD COLUMN`, the
pattern has read something inside a name, so that the table that it reads is another one
(`addedColumn_other`).
-/

namespace AgentOs

open AgentOs.Lib AgentOs.Lib.Sqlite

section

variable {table : WordTable}

/-! ### Characters -/

/-- What holds of the 128 characters of ASCII. -/
theorem ascii_forall {P : Char → Prop} (all : ∀ n : Fin 128, P (Char.ofNat n)) {c : Char}
    (ascii : c.toNat < 128) : P c := by
  have holds := all ⟨c.toNat, ascii⟩
  rwa [Char.ofNat_toNat] at holds

theorem toLower_of_not_ascii {c : Char} (big : 128 ≤ c.toNat) : c.toLower = c := by
  unfold Char.toLower
  rw [dif_neg]
  rintro ⟨_, upper⟩
  have le := UInt32.le_iff_toNat_le.mp upper
  have top : 'Z'.val.toNat = 90 := rfl
  have val : c.toNat = c.val.toNat := rfl
  omega

theorem toLower_ascii {c : Char} (ascii : c.toNat < 128) :
    c.toLower.toNat < 128 ∧ isNameChar c.toLower = isNameChar c ∧
      isOpening c.toLower = isOpening c ∧ c.toLower.isDigit = c.isDigit :=
  ascii_forall (P := fun c => c.toLower.toNat < 128 ∧ isNameChar c.toLower = isNameChar c ∧
    isOpening c.toLower = isOpening c ∧ c.toLower.isDigit = c.isDigit) (by decide +kernel) ascii

theorem isNameChar_of_word {c : Char} (word : table.isWord c = true) : isNameChar c = true := by
  unfold isNameChar
  by_cases ascii : c.toNat < 128
  · rw [table.ascii c ascii] at word
    rw [word, Bool.true_or]
  · rw [decide_eq_true (by omega : 128 ≤ c.toNat), Bool.or_true]

/-- White space that begins a word is outside ASCII, where a letter is no white space. -/
theorem toLower_ne_of_space {c w : Char} (space : Text.isSpace c = true)
    (name : isNameChar c = true) (word : table.isWord w = true) : w.toLower ≠ c.toLower := by
  intro same
  have noWord := table.space c space
  have big : 128 ≤ c.toNat := by
    by_contra small
    rw [table.ascii c (by omega)] at noWord
    rw [isNameChar, noWord, decide_eq_false small] at name
    cases name
  rw [toLower_of_not_ascii big] at same
  by_cases ascii : w.toNat < 128
  · have small := (toLower_ascii ascii).1
    rw [same] at small
    omega
  · rw [toLower_of_not_ascii (by omega)] at same
    rw [same, noWord] at word
    cases word

/-! ### What the pattern reads -/

/-- White space, and some. -/
def Gap (gap : List Char) : Prop := gap ≠ [] ∧ ∀ c ∈ gap, Text.isSpace c = true

/-- A quoted name, or one that stands open. -/
structure ReadName (table : WordTable) where
  opening : List Char
  word : List Char
  closing : List Char
  opens : opening = [] ∨ ∃ q, isNameQuote q = true ∧ q ≠ ']' ∧ opening = [q]
  some : word ≠ []
  isWord : ∀ c ∈ word, table.isWord c = true
  closes : closing = [] ∨ ∃ q, isNameQuote q = true ∧ q ≠ '[' ∧ closing = [q]

def ReadName.text (name : ReadName table) : List Char :=
  name.opening ++ (name.word ++ name.closing)

theorem isNameQuote_not_word {c : Char} (quote : isNameQuote c = true) : table.isWord c = false := by
  simp only [isNameQuote, Bool.or_eq_true, beq_iff_eq] at quote
  rcases quote with ((rfl | rfl) | rfl) | rfl <;> exact table.ascii _ (by decide)

/-- Its quotes are stripped off. -/
theorem ReadName.stripQuotes_text (name : ReadName table) :
    stripQuotes name.text = .ofList name.word := by
  obtain ⟨opening, word, closing, opens, some, isWord, closes⟩ := name
  have noQuote : ∀ c ∈ word, isNameQuote c = false := by
    intro c mem
    cases quote : isNameQuote c with
    | false => rfl
    | true => exact nomatch (isWord c mem).symm.trans (isNameQuote_not_word quote)
  have left : (opening ++ (word ++ closing)).dropWhile isNameQuote = word ++ closing := by
    obtain ⟨w, ws, rfl⟩ := List.exists_cons_of_ne_nil some
    have stops := noQuote w List.mem_cons_self
    rcases opens with rfl | ⟨q, quote, _, rfl⟩
    · rw [List.nil_append, List.cons_append, List.dropWhile_cons_of_neg (by rw [stops]; decide)]
    · rw [List.singleton_append, List.dropWhile_cons_of_pos quote, List.cons_append,
        List.dropWhile_cons_of_neg (by rw [stops]; decide)]
  have right : (word ++ closing).rdropWhile isNameQuote = word := by
    obtain ⟨ws, w, rfl⟩ := List.eq_nil_or_concat' word |>.resolve_left some
    have stops := noQuote w (List.mem_append_right _ (List.mem_singleton.mpr rfl))
    have ends : (ws ++ [w]).rdropWhile isNameQuote = ws ++ [w] :=
      List.rdropWhile_concat_neg _ _ _ (by rw [stops]; decide)
    rcases closes with rfl | ⟨q, quote, _, rfl⟩
    · rw [List.append_nil, ends]
    · rw [List.rdropWhile_concat_pos _ _ _ quote, ends]
  show String.ofList (((opening ++ (word ++ closing)).dropWhile isNameQuote).rdropWhile
    isNameQuote) = .ofList word
  rw [left, right]

theorem one_or_none {p : Char → Bool} {place : Place} {matched : Matched}
    (h : matched ∈ (Regex.optional (.one p)).tries place) :
    ∃ read, (read = [] ∨ ∃ c, p c = true ∧ read = [c]) ∧ matched.groups = [] ∧
      place.right = read ++ matched.stop.right := by
  rcases Regex.mem_tries_optional.mp h with one | rfl
  · obtain ⟨c, right, text, has, rfl⟩ := Regex.mem_tries_one.mp one
    exact ⟨[c], .inr ⟨c, has, rfl⟩, rfl, text⟩
  · exact ⟨[], .inl rfl, rfl, rfl⟩

theorem namePattern_reads {place : Place} {matched : Matched}
    (h : matched ∈ (namePattern table).tries place) :
    ∃ name : ReadName table, matched.groups = [name.text] ∧
      place.right = name.text ++ matched.stop.right := by
  obtain ⟨inner, reads, rfl⟩ := Regex.mem_tries_group.mp h
  obtain ⟨first, open', second, further, rfl⟩ := Regex.mem_tries_seq.mp reads
  obtain ⟨opening, opens, noGroup, text⟩ := one_or_none open'
  obtain ⟨third, word', fourth, close', rfl⟩ := Regex.mem_tries_seq.mp further
  obtain ⟨noGroup', word, some, isWord, text', _⟩ := Regex.mem_tries_many.mp word'
  obtain ⟨closing, closes, noGroup'', text''⟩ := one_or_none close'
  rw [text', text''] at text
  let name : ReadName table :=
    { opening, word, closing, some, isWord
      opens := opens.imp_right fun ⟨q, has, read⟩ => by
        simp only [Bool.or_eq_true, beq_iff_eq] at has
        refine ⟨q, ?_, ?_, read⟩
        · rcases has with (rfl | rfl) | rfl <;> rfl
        · rcases has with (rfl | rfl) | rfl <;> decide
      closes := closes.imp_right fun ⟨q, has, read⟩ => by
        simp only [Bool.or_eq_true, beq_iff_eq] at has
        refine ⟨q, ?_, ?_, read⟩
        · rcases has with (rfl | rfl) | rfl <;> rfl
        · rcases has with (rfl | rfl) | rfl <;> decide }
  have whole : place.right = name.text ++ fourth.stop.right := by
    rw [text]
    simp only [ReadName.text, name, List.append_assoc]
  refine ⟨name, ?_, whole⟩
  dsimp only
  rw [noGroup, noGroup', noGroup'', whole, List.length_append, Nat.add_sub_cancel,
    List.take_left]
  rfl

/-- A text at whose start the pattern matches. -/
structure AddText (table : WordTable) (text : List Char) where
  alter : List Char
  gap₀ : List Char
  tableWord : List Char
  gap₁ : List Char
  name : ReadName table
  gap₂ : List Char
  add : List Char
  gap₃ : List Char
  rest : List Char
  text_eq : text = alter ++ (gap₀ ++ (tableWord ++ (gap₁ ++ (name.text ++ (gap₂ ++ (add ++
    (gap₃ ++ rest)))))))
  isAlter : Regex.Spelled ignoreCase "ALTER".toList alter
  isTable : Regex.Spelled ignoreCase "TABLE".toList tableWord
  isAdd : Regex.Spelled ignoreCase "ADD".toList add
  isGap₀ : Gap gap₀
  isGap₁ : Gap gap₁
  isGap₂ : Gap gap₂
  isGap₃ : Gap gap₃

theorem addedColumn_reads {clean tableName colName : String}
    (h : addedColumn table clean = some (tableName, colName)) :
    ∃ read : AddText table clean.toList, tableName = .ofList read.name.word := by
  unfold addedColumn at h
  split at h
  · rename_i g₁ g₂ g₃ groups
    cases h
    obtain ⟨matched, first, groups⟩ := Option.map_eq_some_iff.mp groups
    have tried := List.mem_of_mem_head? first
    obtain ⟨alter, text₁, isAlter, split₁, tried⟩ := Regex.of_seq_literal tried
    obtain ⟨gap₀, text₂, some₀, space₀, split₂, tried⟩ := Regex.of_seq_many tried
    obtain ⟨tableWord, text₃, isTable, split₃, tried⟩ := Regex.of_seq_literal tried
    obtain ⟨gap₁, text₄, some₁, space₁, split₄, tried⟩ := Regex.of_seq_many tried
    obtain ⟨named, reads, behind, further, rfl⟩ := Regex.mem_tries_seq.mp tried
    obtain ⟨name, captured, split₅⟩ := namePattern_reads reads
    obtain ⟨gap₂, text₆, some₂, space₂, split₆, further⟩ := Regex.of_seq_many further
    obtain ⟨add, text₇, isAdd, split₇, further⟩ := Regex.of_seq_literal further
    obtain ⟨gap₃, text₈, some₃, space₃, split₈, _⟩ := Regex.of_seq_many further
    dsimp only at split₁ split₂ split₃ split₄ split₅ split₆ split₇ split₈
    rw [captured] at groups
    obtain ⟨rfl, _⟩ := List.cons.inj groups
    exact ⟨⟨alter, gap₀, tableWord, gap₁, name, gap₂, add, gap₃, text₈,
      by rw [split₁, split₂, split₃, split₄, split₅, split₆, split₇, split₈], isAlter, isTable,
      isAdd, ⟨some₀, space₀⟩, ⟨some₁, space₁⟩, ⟨some₂, space₂⟩, ⟨some₃, space₃⟩⟩,
      name.stripQuotes_text⟩
  · cases h

/-! ### The same text in tokens -/

/-- A word without `i`, `s` and `k` is spelled in ASCII. -/
theorem fold_of_spelled {word read : List Char} (spelled : Regex.Spelled ignoreCase word read)
    (plain : (word.all fun w => ! (['i', 's', 'k'].contains w.toLower)) = true) :
    fold read = fold word := by
  unfold Regex.Spelled at spelled
  induction spelled with
  | nil => rfl
  | @cons w c word read alike spelled ih =>
      rw [List.all_cons, Bool.and_eq_true] at plain
      obtain ⟨noMore, plain⟩ := plain
      have same : c.toLower = w.toLower := by
        unfold ignoreCase at alike
        simp only [Bool.not_eq_true', List.contains_eq_mem, decide_eq_false_iff_not, List.mem_cons,
          List.not_mem_nil, or_false, not_or] at noMore
        obtain ⟨noI, noS, noK⟩ := noMore
        split at alike
        · exact absurd ‹_› noI
        · exact absurd ‹_› noS
        · exact absurd ‹_› noK
        · simpa only [Bool.or_false, beq_iff_eq] using alike
      rw [fold, List.map_cons, same]
      exact congrArg (w.toLower :: ·) (ih plain)

theorem Token.isKeyword_iff {t : Token} {word : String} :
    t.isKeyword word = true ↔ t.kind = .word ∧ fold t.text = fold word.toList := by
  rw [Token.isKeyword, Bool.and_eq_true, beq_iff_eq, beq_iff_eq]

/-- Characters that are read as part of a word. -/
theorem takeWhile_word {read more : List Char} (name : ∀ c ∈ read, isNameChar c = true) :
    (read ++ more).takeWhile isIdChar = read ++ more.takeWhile isIdChar ∧
      (read ++ more).dropWhile isIdChar = more.dropWhile isIdChar := by
  have id : ∀ c ∈ read, isIdChar c = true := fun c mem => by rw [isIdChar, name c mem]; rfl
  exact ⟨List.takeWhile_append_of_pos id, List.dropWhile_append_of_pos id⟩

/-- A token that begins with one of some characters. -/
def StartsIn (gap : List Char) (t : Token) : Prop :=
  ∃ c ∈ gap, ∃ more rest, readToken c more = some (t.kind, t.text, rest)

theorem gap_noComment {gap : List Char} (isGap : ∀ c ∈ gap, Text.isSpace c = true) :
    ∀ c ∈ gap, c ≠ '-' ∧ c ≠ '/' ∧ c ≠ '\uFEFF' := by
  intro c mem
  have space := isGap c mem
  refine ⟨?_, ?_, ?_⟩ <;>
  · rintro rfl
    revert space
    decide

/-- What begins with white space is no keyword. -/
theorem StartsIn.not_keyword {gap : List Char} {t : Token} (table : WordTable)
    (starts : StartsIn gap t) (isGap : ∀ c ∈ gap, Text.isSpace c = true) {word : String} {w : Char}
    {ws : List Char} (split : word.toList = w :: ws) (isWord : table.isWord w = true) :
    t.isKeyword word = false := by
  obtain ⟨c, mem, more, rest, read⟩ := starts
  cases key : t.isKeyword word with
  | false => rfl
  | true =>
      obtain ⟨kind, same⟩ := Token.isKeyword_iff.mp key
      have begins := readToken_begins read
      rw [kind] at begins
      obtain ⟨name, _, text⟩ := begins
      rw [text, split] at same
      exact absurd (List.cons.inj same).1.symm (toLower_ne_of_space (isGap c mem) name isWord)

instance (c : Char) : Decidable (StartsToken c) := inferInstanceAs (Decidable (_ ∧ _))

theorem ascii_of_letter {c : Char} (letter : c.toLower.isLower = true) : c.toNat < 128 := by
  by_contra big
  rw [toLower_of_not_ascii (by omega)] at letter
  simp only [Text.isLower_eq, Bool.and_eq_true, decide_eq_true_eq] at letter
  have le := UInt32.le_iff_toNat_le.mp letter.2
  have top : 'z'.val.toNat = 122 := rfl
  have val : c.toNat = c.val.toNat := rfl
  omega

/-- An ASCII letter begins a word. -/
theorem letter_begins {c : Char} (letter : c.toLower.isLower = true) :
    isNameChar c = true ∧ c.isDigit = false ∧ StartsToken c ∧ c.isAlpha = true := by
  have all : c.toLower.isLower = true →
      isNameChar c = true ∧ c.isDigit = false ∧ StartsToken c ∧ c.isAlpha = true :=
    ascii_forall (P := fun c => c.toLower.isLower = true →
      isNameChar c = true ∧ c.isDigit = false ∧ StartsToken c ∧ c.isAlpha = true)
      (by decide +kernel) (ascii_of_letter letter)
  exact all letter

/-- Behind white space and in front of anything, letters are read as a word that may go on. -/
theorem word_token {fuel : ℕ} {gap read more trail : List Char} {t : Token} {tokens : List Token}
    (isGap : ∀ c ∈ gap, Text.isSpace c = true) (two : 2 ≤ read.length)
    (letters : ∀ c ∈ read, c.toLower.isLower = true)
    (tokenized : readTokens fuel (gap ++ (read ++ more)) = some (t :: tokens, trail)) :
    StartsIn gap t ∨ t.kind = .word ∧ t.text = read ++ more.takeWhile isIdChar ∧
      ∃ further, readTokens further (more.dropWhile isIdChar) = some (tokens, trail) := by
  cases read with
  | nil => exact absurd two (by decide)
  | cons x read =>
      obtain ⟨name, noDigit, starts, _⟩ := letter_begins (letters x List.mem_cons_self)
      rcases readTokens_gap (gap_noComment isGap) starts tokenized with early | ⟨further, rest, h, later⟩
      · exact .inl early
      · right
        have noBlob : (read ++ more).head? ≠ some '\'' := by
          cases read with
          | nil => exact absurd two (Nat.not_succ_le_self 1)
          | cons y read =>
              intro same
              have named := (letter_begins (letters y (List.mem_cons_of_mem _
                List.mem_cons_self))).1
              cases same
              exact absurd named (by decide)
        have reads := readToken_word name noDigit noBlob
        have names : ∀ c ∈ read, isNameChar c = true := fun c mem =>
          (letter_begins (letters c (List.mem_cons_of_mem _ mem))).1
        obtain ⟨taken, dropped⟩ := @takeWhile_word read more names
        rw [taken, dropped] at reads
        obtain ⟨kind, text, rest'⟩ := Prod.mk.inj (Option.some.inj (reads.symm.trans h)) |>.imp
          Eq.symm Prod.mk.inj
        exact ⟨kind, text.symm, further, rest' ▸ later⟩

/-- Where the word is a keyword, it does not go on. -/
theorem keyword_token {fuel : ℕ} {gap read more trail : List Char} {t : Token}
    {tokens : List Token} {word : String} (isGap : ∀ c ∈ gap, Text.isSpace c = true)
    (spelled : fold read = fold word.toList) (two : 2 ≤ (fold word.toList).length)
    (letters : (fold word.toList).all Char.isLower = true)
    (tokenized : readTokens fuel (gap ++ (read ++ more)) = some (t :: tokens, trail)) :
    StartsIn gap t ∨ t.kind = .word ∧
      (∃ on, fold t.text = fold word.toList ++ on) ∧
      (t.isKeyword word = true → ∃ further, readTokens further more = some (tokens, trail)) := by
  have two' : 2 ≤ read.length := by
    rw [← spelled, fold, List.length_map] at two
    exact two
  have letters' : ∀ c ∈ read, c.toLower.isLower = true := by
    intro c mem
    refine List.all_eq_true.mp letters _ ?_
    rw [← spelled]
    exact List.mem_map_of_mem mem
  rcases word_token isGap two' letters' tokenized with early | ⟨kind, text, further, later⟩
  · exact .inl early
  · refine .inr ⟨kind, ⟨fold (more.takeWhile isIdChar), ?_⟩, fun key => ⟨further, ?_⟩⟩
    · rw [text, fold, List.map_append]
      exact congrArg (· ++ _) spelled
    · have same := (Token.isKeyword_iff.mp key).2
      rw [text, fold, List.map_append, show read.map Char.toLower = fold read from rfl, spelled]
        at same
      have none := List.map_eq_nil_iff.mp (List.append_right_eq_self.mp same)
      have whole := List.takeWhile_append_dropWhile (p := isIdChar) (l := more)
      rw [none, List.nil_append] at whole
      rwa [whole] at later

/-! ### The statement -/

theorem keyword_eq_some {word : String} {tokens rest : List Token}
    (h : keyword word tokens = some rest) :
    ∃ t, tokens = t :: rest ∧ t.isKeyword word = true := by
  cases tokens with
  | nil => cases h
  | cons t tokens =>
      obtain ⟨key, same⟩ := Option.ite_none_right_eq_some.mp h
      cases same
      exact ⟨t, rfl, key⟩

/-- A name without a schema is one token, behind which there is no dot. -/
theorem readQualified_open {tokens rest : List Token} {name : Name}
    (h : readQualified tokens = some (name, rest)) (noSchema : name.schema = none) :
    readName tokens = some (name.name, rest) := by
  obtain ⟨⟨first, behind⟩, read, h⟩ := Option.bind_eq_some_iff.mp h
  cases behind with
  | nil =>
      cases h
      exact read
  | cons dot behind =>
      dsimp only at h
      split_ifs at h
      · obtain ⟨⟨second, behind'⟩, _, h⟩ := Option.bind_eq_some_iff.mp h
        cases h
        cases noSchema
      · cases h
        exact read

theorem parseRename_target {table : Name} {tokens : List Token} {stmt : Statement}
    (h : parseRename table tokens = some stmt) :
    stmt.alters = true ∧ stmt.target = (table, false) := by
  unfold parseRename at h
  split at h
  · obtain ⟨⟨newName, rest⟩, _, h⟩ := Option.bind_eq_some_iff.mp h
    cases rest with
    | nil => cases h; exact ⟨rfl, rfl⟩
    | cons t rest => cases h
  · obtain ⟨⟨column, rest⟩, _, h⟩ := Option.bind_eq_some_iff.mp h
    obtain ⟨rest', _, h⟩ := Option.bind_eq_some_iff.mp h
    obtain ⟨⟨newName, rest''⟩, _, h⟩ := Option.bind_eq_some_iff.mp h
    cases rest'' with
    | nil => cases h; exact ⟨rfl, rfl⟩
    | cons t rest => cases h

/-- How an `ALTER TABLE` begins, and what it is. -/
theorem parseAlter_begins {tokens : List Token} {stmt : Statement}
    (h : parseAlter tokens = some stmt) :
    ∃ t rest name t' rest', tokens = t :: rest ∧ t.isKeyword "TABLE" = true ∧
      readQualified rest = some (name, t' :: rest') ∧ stmt.alters = true ∧
      stmt.target = (name, false) ∧
      (t'.isKeyword "RENAME" = true ∨ t'.isKeyword "DROP" = true ∨
        ∃ column definition, stmt = .addColumn name column definition) := by
  obtain ⟨rest, key, behindTable⟩ := Option.bind_eq_some_iff.mp h
  obtain ⟨t, split, isTable⟩ := keyword_eq_some key
  obtain ⟨⟨name, behind⟩, named, h⟩ := Option.bind_eq_some_iff.mp behindTable
  cases behind with
  | nil => cases h
  | cons t' rest' =>
      refine ⟨t, rest, name, t', rest', split, isTable, named, ?_⟩
      dsimp only at h
      split_ifs at h with rename add drop
      · obtain ⟨alters, target⟩ := parseRename_target h
        exact ⟨alters, target, .inl rename⟩
      · obtain ⟨⟨column, definition⟩, _, h⟩ := Option.bind_eq_some_iff.mp h
        cases h
        exact ⟨rfl, rfl, .inr (.inr ⟨column, definition, rfl⟩)⟩
      · obtain ⟨⟨column, rest''⟩, _, h⟩ := Option.bind_eq_some_iff.mp h
        cases rest'' with
        | nil =>
            cases h
            exact ⟨rfl, rfl, .inr (.inl drop)⟩
        | cons t rest => cases h

/-- A statement that begins with a word on `a` is an `ALTER TABLE`. -/
theorem parseBody_alter {t : Token} {rest : List Token} {stmt : Statement}
    (h : parseBody (t :: rest) = some stmt) {on : List Char}
    (text : fold t.text = fold "ALTER".toList ++ on) :
    t.isKeyword "ALTER" = true ∧ parseAlter rest = some stmt := by
  have other : ∀ word : String, (fold word.toList).head? ≠ some 'a' → t.isKeyword word = false := by
    intro word differs
    cases key : t.isKeyword word with
    | false => rfl
    | true =>
        have same := (Token.isKeyword_iff.mp key).2
        rw [← same, text] at differs
        exact absurd rfl differs
  simp only [parseBody] at h
  split_ifs at h with alter drop delete update with'
  · exact ⟨alter, h⟩
  · exact nomatch (other "DROP" (by decide)).symm.trans drop
  · exact nomatch (other "DELETE" (by decide)).symm.trans delete
  · exact nomatch (other "UPDATE" (by decide)).symm.trans update
  · exact nomatch (other "WITH" (by decide)).symm.trans with'

/-- The tokens of a statement are the first of its text. -/
theorem parseStatement_body {text : List Char} {stmt : Statement}
    (h : parseStatement text = some stmt) :
    ∃ body tail trail, tokenize text = some (body ++ tail, trail) ∧ parseBody body = some stmt := by
  obtain ⟨⟨tokens, trail⟩, tokenized, h⟩ := Option.bind_eq_some_iff.mp h
  dsimp only at h
  split at h
  · rename_i last isLast
    split_ifs at h with semicolon
    · refine ⟨tokens.dropLast, [last], trail, ?_, h⟩
      rw [tokenized, List.dropLast_append_getLast? last isLast]
    · exact ⟨tokens, [], trail, by rw [tokenized, List.append_nil], h⟩
  · split_ifs at h
    exact ⟨tokens, [], trail, by rw [tokenized, List.append_nil], h⟩

/-! ### The name of the table -/

theorem isOpening_not_space {c : Char} (opens : isOpening c = true) : Text.isSpace c = false := by
  simp only [isOpening, Bool.or_eq_true, beq_iff_eq] at opens
  rcases opens with ((rfl | rfl) | rfl) | rfl <;> rfl

theorem isNameQuote_not_name {c : Char} (quote : isNameQuote c = true) :
    isNameChar c = false ∧ StartsToken c ∧ Text.isSpace c = false ∧ c ≠ '\'' := by
  simp only [isNameQuote, Bool.or_eq_true, beq_iff_eq] at quote
  rcases quote with ((rfl | rfl) | rfl) | rfl <;> decide

theorem startsToken_of_word {c : Char} (word : table.isWord c = true) : StartsToken c := by
  refine ⟨?_, ?_⟩
  · cases ends : endsLead c with
    | false => rfl
    | true =>
        have mark := eq_mark_of_endsLead ends (isNameChar_of_word word)
        rw [mark, table.mark] at word
        cases word
  · rintro rfl
    rw [table.ascii _ (by decide)] at word
    exact absurd word (by decide)

theorem fold_append_left {a b c : List Char} (same : fold (a ++ b) = fold c) (alike : fold a = fold c) :
    b = [] := by
  rw [fold, List.map_append, show a.map Char.toLower = fold a from rfl, alike] at same
  exact List.map_eq_nil_iff.mp (List.append_right_eq_self.mp same)

theorem readName_cons {t : Token} {rest rest' : List Token} {called : List Char}
    (named : readName (t :: rest) = some (called, rest')) :
    rest' = rest ∧ (t.kind = .word ∧ called = t.text ∨ t.kind = .quoted called) := by
  obtain ⟨lead, text, kind⟩ := t
  cases kind with
  | word =>
      obtain ⟨_, same⟩ := Option.ite_none_left_eq_some.mp named
      cases same
      exact ⟨rfl, .inl ⟨rfl, rfl⟩⟩
  | quoted inside =>
      cases named
      exact ⟨rfl, .inr rfl⟩
  | number | sign => cases named

/-- A name that begins with white space is not the pattern's. -/
theorem StartsIn.other_name {gap : List Char} {t : Token} {called : List Char}
    {rest rest' : List Token} (starts : StartsIn gap t)
    (isGap : ∀ c ∈ gap, Text.isSpace c = true)
    (named : readName (t :: rest) = some (called, rest')) (name : ReadName table) :
    fold called ≠ fold name.word := by
  obtain ⟨c, mem, more, behind, read⟩ := starts
  have begins := readToken_begins read
  obtain ⟨_, ⟨kind, rfl⟩ | kind⟩ := readName_cons named
  · rw [kind] at begins
    obtain ⟨isName, _, text⟩ := begins
    intro same
    obtain ⟨w, ws, split⟩ := List.exists_cons_of_ne_nil name.some
    rw [text, split] at same
    have isWord := name.isWord w (by rw [split]; exact List.mem_cons_self)
    exact toLower_ne_of_space (isGap c mem) isName isWord (List.cons.inj same).1.symm
  · rw [kind] at begins
    exact nomatch (isGap c mem).symm.trans (isOpening_not_space begins)

/-- An open name that is the pattern's ends where the pattern's word does. -/
theorem open_name {w : Char} {ws back text behind : List Char} {kind : TokenKind}
    {called : List Char} (isWord : ∀ c ∈ w :: ws, table.isWord c = true)
    (noBlob : back.head? ≠ some '\'') (read : readToken w (ws ++ back) = some (kind, text, behind))
    (is : kind = .word ∧ called = text ∨ kind = .quoted called)
    (same : fold called = fold (w :: ws)) : behind = back := by
  have names : ∀ c ∈ w :: ws, isNameChar c = true := fun c mem => isNameChar_of_word (isWord c mem)
  have begins := readToken_begins read
  rcases is with ⟨rfl, rfl⟩ | rfl
  · obtain ⟨_, noDigit, _⟩ := begins
    have single : (ws ++ back).head? ≠ some '\'' := by
      cases ws with
      | nil => exact noBlob
      | cons v ws =>
          intro quote
          have name := names v (List.mem_cons_of_mem _ List.mem_cons_self)
          rw [Option.some.inj quote] at name
          exact absurd name (by decide)
    have further : ∀ c ∈ ws, isNameChar c = true := fun c mem =>
      names c (List.mem_cons_of_mem _ mem)
    obtain ⟨taken, dropped⟩ := @takeWhile_word ws back further
    have reads := readToken_word (names w List.mem_cons_self) noDigit single
    rw [taken, dropped] at reads
    obtain ⟨_, both⟩ := Prod.mk.inj (Option.some.inj (reads.symm.trans read))
    obtain ⟨isText, isBehind⟩ := Prod.mk.inj both
    rw [← isText, ← List.cons_append] at same
    have none := fold_append_left same rfl
    have whole := List.takeWhile_append_dropWhile (p := isIdChar) (l := back)
    rw [none, List.nil_append] at whole
    rw [← isBehind, whole]
  · exact nomatch (names w List.mem_cons_self).symm.trans (isNameChar_of_opening begins)

/-- A quoted name that is the pattern's ends with a quote behind the pattern's word. -/
theorem quoted_name {q : Char} {word back text behind : List Char} {kind : TokenKind}
    {called : List Char} (opens : isNameQuote q = true) (left : q ≠ ']')
    (isWord : ∀ c ∈ word, table.isWord c = true)
    (read : readToken q (word ++ back) = some (kind, text, behind))
    (is : kind = .word ∧ called = text ∨ kind = .quoted called)
    (same : fold called = fold word) :
    ∃ q', isNameQuote q' = true ∧ back = q' :: behind := by
  have inner : ∀ r, isNameQuote r = true → ∀ c ∈ word, c ≠ r := by
    rintro r quote c mem rfl
    exact nomatch (isWord c mem).symm.trans (isNameQuote_not_word quote)
  simp only [isNameQuote, Bool.or_eq_true, beq_iff_eq] at opens
  have begins := readToken_begins read
  rcases is with ⟨rfl, rfl⟩ | rfl
  · rcases opens with ((rfl | rfl) | rfl) | rfl <;> exact absurd begins.1 (by decide)
  · have plain : ∀ r, isNameQuote r = true →
        readToken r (word ++ back) = (readQuoted r (word ++ back)).map
          (fun read => (.quoted read.1, r :: read.2.1, read.2.2)) →
        readToken r (word ++ back) = some (.quoted called, text, behind) →
        ∃ q', isNameQuote q' = true ∧ back = q' :: behind := by
      intro r quote reads read
      rw [reads, readQuoted_append_of_ne back (inner r quote), Option.map_map] at read
      obtain ⟨⟨inside, body, rest⟩, inside', same'⟩ := Option.map_eq_some_iff.mp read
      cases same'
      have none := fold_append_left same rfl
      subst none
      exact ⟨r, quote, eq_cons_of_readQuoted_nil inside'⟩
    rcases opens with ((rfl | rfl) | rfl) | rfl
    · exact plain _ rfl rfl read
    · exact plain _ rfl rfl read
    · have reads : readToken '[' (word ++ back) = (readBracketed (word ++ back)).map
          (fun read => (.quoted read.1, '[' :: read.2.1, read.2.2)) := rfl
      rw [reads] at read
      obtain ⟨⟨inside, body, rest⟩, bracketed, same'⟩ := Option.map_eq_some_iff.mp read
      cases same'
      obtain ⟨rfl, closes⟩ := readBracketed_append_of_ne (inner ']' rfl) bracketed
      have none := fold_append_left same rfl
      have whole := List.takeWhile_append_dropWhile (p := fun c => decide (c ≠ ']')) (l := back)
      rw [none, List.nil_append, closes] at whole
      exact ⟨']', rfl, whole.symm⟩
    · exact absurd rfl left

/-- Behind a name that is the pattern's, SQLite is where the pattern is, or before its quote. -/
theorem name_token {fuel : ℕ} {gap more trail : List Char} {c : Char} {name : ReadName table}
    {t : Token} {tokens rest rest' : List Token} {called : List Char}
    (isGap : ∀ c ∈ gap, Text.isSpace c = true) (space : Text.isSpace c = true)
    (tokenized : readTokens fuel (gap ++ (name.text ++ c :: more)) = some (t :: tokens, trail))
    (named : readName (t :: rest) = some (called, rest')) (same : fold called = fold name.word) :
    ∃ further behind, readTokens further behind = some (tokens, trail) ∧
      (behind = c :: more ∨ ∃ q, isNameQuote q = true ∧ behind = q :: c :: more) := by
  have early : ¬ StartsIn gap t := fun starts => starts.other_name isGap named name same
  obtain ⟨_, is⟩ := readName_cons named
  have closes := name.closes
  have noQuote : ∀ q, isNameQuote q = true → c ≠ q := by
    rintro q quote rfl
    exact nomatch space.symm.trans (isNameQuote_not_name quote).2.2.1
  rcases name.opens with none | ⟨q, quote, left, one⟩
  · obtain ⟨w, ws, split⟩ := List.exists_cons_of_ne_nil name.some
    rw [ReadName.text, none, split, List.nil_append, List.cons_append, List.cons_append,
      List.append_assoc] at tokenized
    have isWord := name.isWord
    rw [split] at isWord same
    rcases readTokens_gap (gap_noComment isGap)
      (startsToken_of_word (isWord w List.mem_cons_self)) tokenized with
      starts | ⟨further, behind, read, later⟩
    · exact absurd starts early
    · have noBlob : (name.closing ++ c :: more).head? ≠ some '\'' := by
        rcases closes with closed | ⟨q, quote, _, closed⟩ <;> rw [closed] <;>
          intro single <;> cases single
        · exact absurd space (by decide)
        · exact absurd quote (by decide)
      have ends := open_name isWord noBlob read is same
      subst ends
      refine ⟨further, _, later, ?_⟩
      rcases closes with closed | ⟨q, quote, _, closed⟩
      · exact .inl (by rw [closed]; rfl)
      · exact .inr ⟨q, quote, by rw [closed]; rfl⟩
  · rw [ReadName.text, one, List.singleton_append, List.cons_append, List.append_assoc] at tokenized
    rcases readTokens_gap (gap_noComment isGap) (isNameQuote_not_name quote).2.1 tokenized with
      starts | ⟨further, behind, read, later⟩
    · exact absurd starts early
    · obtain ⟨q', quote', split⟩ := quoted_name quote left name.isWord read is same
      refine ⟨further, behind, later, .inl ?_⟩
      rcases closes with closed | ⟨q'', _, _, closed⟩
      · rw [closed] at split
        exact absurd (List.cons.inj split).1 (noQuote q' quote')
      · rw [closed] at split
        exact (List.cons.inj split).2.symm

/-- What is read where `ADD` stands is neither `RENAME` nor `DROP`. -/
theorem add_token {fuel : ℕ} {gap add more trail : List Char} {t : Token} {tokens : List Token}
    (isGap : ∀ c ∈ gap, Text.isSpace c = true) (spelled : fold add = fold "ADD".toList)
    (tokenized : readTokens fuel (gap ++ (add ++ more)) = some (t :: tokens, trail))
    (isWord : ∀ c, c.isAlpha = true → table.isWord c = true) :
    t.isKeyword "RENAME" = false ∧ t.isKeyword "DROP" = false := by
  rcases keyword_token isGap spelled (by decide) (by decide) tokenized with
    early | ⟨_, ⟨on, text⟩, _⟩
  · have noRename : t.isKeyword "RENAME" = false :=
      early.not_keyword table isGap rfl (isWord 'R' rfl)
    have noDrop : t.isKeyword "DROP" = false := early.not_keyword table isGap rfl (isWord 'D' rfl)
    exact ⟨noRename, noDrop⟩
  · have other : ∀ word : String, (fold word.toList).head? ≠ some 'a' →
        t.isKeyword word = false := by
      intro word differs
      cases key : t.isKeyword word with
      | false => rfl
      | true =>
          rw [← (Token.isKeyword_iff.mp key).2, text] at differs
          exact absurd rfl differs
    exact ⟨other "RENAME" (by decide), other "DROP" (by decide)⟩

/-- A quote that closes a name for the pattern only begins no word. -/
theorem quote_token {fuel : ℕ} {q : Char} {more trail : List Char} {t : Token}
    {tokens : List Token} (quote : isNameQuote q = true)
    (tokenized : readTokens fuel (q :: more) = some (t :: tokens, trail)) (word : String) :
    t.isKeyword word = false := by
  obtain ⟨noName, starts, _⟩ := isNameQuote_not_name quote
  rcases @readTokens_gap _ [] _ _ _ _ _ (fun _ mem => absurd mem List.not_mem_nil) starts
    tokenized with
    ⟨_, mem, _⟩ | ⟨_, _, read, _⟩
  · cases mem
  · cases key : t.isKeyword word with
    | false => rfl
    | true =>
        have begins := readToken_begins read
        rw [(Token.isKeyword_iff.mp key).1] at begins
        exact nomatch noName.symm.trans begins.1

theorem isWord_of_alpha (table : WordTable) {c : Char} (alpha : c.isAlpha = true) :
    table.isWord c = true := by
  by_cases ascii : c.toNat < 128
  · rw [table.ascii c ascii, Char.isAlphanum, alpha, Bool.true_or, Bool.true_or]
  · have val : c.toNat = c.val.toNat := rfl
    simp only [Text.isAlpha_eq, Text.isUpper_eq, Text.isLower_eq, Bool.or_eq_true,
      Bool.and_eq_true, decide_eq_true_eq] at alpha
    rcases alpha with ⟨_, le⟩ | ⟨_, le⟩ <;>
    · have le := UInt32.le_iff_toNat_le.mp le
      have upper : 'Z'.val.toNat = 90 := rfl
      have lower : 'z'.val.toNat = 122 := rfl
      omega

/-- **The pattern reads only `ALTER TABLE` statements**, and where it is wrong about an open name,
about another table's. -/
theorem addText_statement {text : List Char} {stmt : Statement} (read : AddText table text)
    (parsed : parseStatement text = some stmt) :
    stmt.alters = true ∧ ((∃ name column definition, stmt = .addColumn name column definition) ∨
      stmt.target.1.schema.isSome = true ∨ fold stmt.target.1.name ≠ fold read.name.word) := by
  obtain ⟨body, tail, trail, tokenized, parsed⟩ := parseStatement_body parsed
  cases body with
  | nil => cases parsed
  | cons t₀ body =>
      have alter : fold read.alter = fold "ALTER".toList := fold_of_spelled read.isAlter (by decide)
      have isTable : fold read.tableWord = fold "TABLE".toList :=
        fold_of_spelled read.isTable (by decide)
      have isAdd : fold read.add = fold "ADD".toList := fold_of_spelled read.isAdd (by decide)
      unfold tokenize at tokenized
      rw [read.text_eq, List.cons_append, ← List.nil_append (read.alter ++ _)] at tokenized
      -- the first word is `ALTER`
      rcases keyword_token (fun _ mem => absurd mem List.not_mem_nil) alter (by decide) (by decide)
        tokenized with ⟨_, mem, _⟩ | ⟨_, ⟨on, first⟩, goesOn⟩
      · cases mem
      obtain ⟨isAlter, parsed⟩ := parseBody_alter parsed first
      obtain ⟨further, behindAlter⟩ := goesOn isAlter
      obtain ⟨t₁, rest, name, t₂, rest', rfl, key, named, alters, target, goes⟩ :=
        parseAlter_begins parsed
      refine ⟨alters, ?_⟩
      -- the second is `TABLE`
      rw [List.cons_append] at behindAlter
      rcases keyword_token read.isGap₀.2 isTable (by decide) (by decide) behindAlter with
        early | ⟨_, _, goesOn⟩
      · have isWord : table.isWord 'T' = true := isWord_of_alpha table rfl
        have noKey : t₁.isKeyword "TABLE" = false :=
          early.not_keyword table read.isGap₀.2 rfl isWord
        exact nomatch noKey.symm.trans key
      obtain ⟨further', behindTable⟩ := goesOn key
      rw [target]
      -- behind the name comes `ADD`, if the two names are one
      by_cases schema : name.schema.isSome = true
      · exact .inr (.inl schema)
      by_cases same : fold name.name = fold read.name.word
      swap
      · exact .inr (.inr same)
      have noAction : t₂.isKeyword "RENAME" = false ∧ t₂.isKeyword "DROP" = false := by
        have named' := readQualified_open named (by simpa using schema)
        cases rest with
        | nil => cases named'
        | cons t rest =>
            obtain ⟨rfl, _⟩ := readName_cons named'
            obtain ⟨c, gap, split⟩ := List.exists_cons_of_ne_nil read.isGap₂.1
            have space := read.isGap₂.2 c (by rw [split]; exact List.mem_cons_self)
            rw [split] at behindTable
            obtain ⟨_, behind, behindName, is | ⟨q, quote, is⟩⟩ :=
              name_token read.isGap₁.2 space behindTable named' same
            · have atAdd : behind = read.gap₂ ++ (read.add ++ (read.gap₃ ++ read.rest)) := by
                rw [is, split]
                rfl
              rw [atAdd] at behindName
              exact add_token read.isGap₂.2 isAdd behindName fun c => isWord_of_alpha table
            · rw [is] at behindName
              exact ⟨quote_token quote behindName _, quote_token quote behindName _⟩
      rcases goes with rename | drop | ⟨column, definition, rfl⟩
      · exact nomatch noAction.1.symm.trans rename
      · exact nomatch noAction.2.symm.trans drop
      · exact .inl ⟨name, column, definition, rfl⟩

end

end AgentOs
