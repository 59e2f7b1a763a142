import Mathlib.Data.List.Basic

/-!
The tokens of an SQL text, as SQLite cuts it.

In front of a token stand white space, comments and byte order marks. A word is as long as it
can be, a name in quotes ends with its quote, and everything else is read as numbers and signs;
a character that begins no token ends the reading.

`tokenize_two_words`: where two words follow each other in the tokens, they stand in the text
with what is in front of the second between them.
-/

namespace AgentOs.Lib.Sqlite

inductive TokenKind where
  | word
  /-- in quotes or brackets -/
  | quoted (inside : List Char)
  | number
  | sign
deriving DecidableEq, Repr

structure Token where
  /-- the white space and the comments in front of it -/
  lead : List Char
  text : List Char
  kind : TokenKind
deriving DecidableEq, Repr

def isBlank (c : Char) : Bool :=
  c == ' ' || c == '\t' || c == '\n' || c == '\x0C' || c == '\r'

/-- Letters, digits and `_`, and every character outside ASCII. -/
def isNameChar (c : Char) : Bool := c.isAlphanum || c == '_' || 128 ≤ c.toNat

def isIdChar (c : Char) : Bool := isNameChar c || c == '$'

inductive LeadMode where
  /-- between tokens; in a run of white space, a vertical tab goes on with it -/
  | code (run : Bool)
  | line
  | block
deriving DecidableEq

/-- What stands in front of the next token, and what comes then. -/
def readLead : LeadMode → List Char → List Char × List Char
  | _, [] => ([], [])
  | .line, c :: cs => (readLead (if c = '\n' then .code true else .line) cs).map (c :: ·) id
  | .block, '*' :: '/' :: cs => (readLead (.code false) cs).map ('*' :: '/' :: ·) id
  | .block, c :: cs => (readLead .block cs).map (c :: ·) id
  | .code _, '-' :: '-' :: cs => (readLead .line cs).map ('-' :: '-' :: ·) id
  | .code _, '/' :: '*' :: c :: cs => (readLead .block (c :: cs)).map ('/' :: '*' :: ·) id
  | .code run, c :: cs =>
      if isBlank c = true ∨ c = '\x0B' ∧ run = true then
        (readLead (.code true) cs).map (c :: ·) id
      else if c = '\uFEFF' then (readLead (.code false) cs).map (c :: ·) id
      else ([], c :: cs)

/-- The rest of a text in quotes: its inside, its characters, and what comes then. A doubled quote
stands for one. -/
def readQuoted (quote : Char) : List Char → Option (List Char × List Char × List Char)
  | [] => none
  | [c] => if c = quote then some ([], [c], []) else none
  | c :: d :: cs =>
      if c = quote then
        if d = quote then
          (readQuoted quote cs).map fun (inside, text, rest) => (c :: inside, c :: d :: text, rest)
        else some ([], [c], d :: cs)
      else (readQuoted quote (d :: cs)).map fun (inside, text, rest) =>
        (c :: inside, c :: text, rest)

/-- A name in brackets. -/
def readBracketed (cs : List Char) : Option (List Char × List Char × List Char) :=
  match cs.dropWhile (· ≠ ']') with
  | [] => none
  | _ :: rest => some (cs.takeWhile (· ≠ ']'), cs.takeWhile (· ≠ ']') ++ [']'], rest)

/-- The signs of SQL, each for itself. -/
def isSign (c : Char) : Bool :=
  (";,()+-*/%=<>!|&~.?:@#$".toList).contains c

/-- The token that begins with `c`, its characters, and what comes then. -/
def readToken (c : Char) (cs : List Char) : Option (TokenKind × List Char × List Char) :=
  if c = '\'' ∨ c = '\x22' ∨ c = '\u0060' then
    (readQuoted c cs).map fun (inside, text, rest) => (.quoted inside, c :: text, rest)
  else if c = '[' then
    (readBracketed cs).map fun (inside, text, rest) => (.quoted inside, c :: text, rest)
  else if (c = 'x' ∨ c = 'X') ∧ cs.head? = some '\'' then
    (readQuoted '\'' cs.tail).map fun (_, text, rest) => (.sign, c :: '\'' :: text, rest)
  else if c.isDigit then
    some (.number, c :: cs.takeWhile (fun d => isIdChar d || d == '.'),
      cs.dropWhile fun d => isIdChar d || d == '.')
  else if isNameChar c then some (.word, c :: cs.takeWhile isIdChar, cs.dropWhile isIdChar)
  else if isSign c then some (.sign, [c], cs)
  else none

/-- The tokens of a text, and what stands behind the last. -/
def readTokens : ℕ → List Char → Option (List Token × List Char)
  | 0, _ => none
  | fuel + 1, cs =>
      match readLead (.code false) cs with
      | (lead, []) => some ([], lead)
      | (lead, c :: cs) =>
          (readToken c cs).bind fun (kind, text, rest) =>
            (readTokens fuel rest).map fun (tokens, trail) => (⟨lead, text, kind⟩ :: tokens, trail)

/-- Every token has a character, so as many steps are enough. -/
def tokenize (text : List Char) : Option (List Token × List Char) :=
  readTokens (text.length + 1) text

/-! ### Nothing is lost -/

theorem readLead_append (mode : LeadMode) (cs : List Char) :
    (readLead mode cs).1 ++ (readLead mode cs).2 = cs := by
  fun_induction readLead mode cs <;> simp_all [Prod.map]

/-- What may stand right in front of a token that does not follow another one. -/
def endsLead (c : Char) : Bool := isBlank c || c == '\x0B' || c == '\uFEFF' || c == '/'

theorem eq_mark_of_endsLead {c : Char} (ends : endsLead c = true) (name : isNameChar c = true) :
    c = '\uFEFF' := by
  simp only [endsLead, isBlank, Bool.or_eq_true, beq_iff_eq] at ends
  rcases ends with (((((((rfl | rfl) | rfl) | rfl) | rfl) | rfl) | rfl) | rfl)
  case inl.inr => rfl
  all_goals exact absurd name (by decide)

/-- What was read ends so, or nothing was, which happens only outside comments. -/
def LeadEnds (mode : LeadMode) (lead : List Char) : Prop :=
  match lead.getLast? with
  | some last => endsLead last = true
  | none => ∃ run, mode = .code run

theorem LeadEnds.cons {mode mode' : LeadMode} {lead : List Char} {c : Char}
    (ends : LeadEnds mode' lead) (enters : ∀ run, mode' = .code run → endsLead c = true) :
    LeadEnds mode (c :: lead) := by
  unfold LeadEnds at *
  rw [List.getLast?_cons]
  cases last : lead.getLast? with
  | some last' =>
      rw [last] at ends
      exact ends
  | none =>
      rw [last] at ends
      obtain ⟨run, same⟩ := ends
      exact enters run same

theorem readLead_ends (mode : LeadMode) (cs : List Char) (next : (readLead mode cs).2 ≠ []) :
    LeadEnds mode (readLead mode cs).1 := by
  fun_induction readLead mode cs with
  | case1 => exact absurd rfl next
  | case2 c cs ih =>
      refine (ih next).cons fun run same => ?_
      split at same
      · rename_i newline
        rw [newline]
        rfl
      · cases same
  | case3 cs ih =>
      have closed : LeadEnds .block ('/' :: (readLead (.code false) cs).1) :=
        (ih next).cons fun _ _ => rfl
      exact closed.cons fun _ same => by cases same
  | case4 c cs _ ih => exact (ih next).cons fun _ same => by cases same
  | case5 run cs ih =>
      have opened : LeadEnds .line ('-' :: (readLead .line cs).1) :=
        (ih next).cons fun _ same => by cases same
      exact opened.cons fun _ same => by cases same
  | case6 run c cs ih =>
      have opened : LeadEnds .block ('*' :: (readLead .block (c :: cs)).1) :=
        (ih next).cons fun _ same => by cases same
      exact opened.cons fun _ same => by cases same
  | case7 run c cs _ _ blank ih =>
      refine (ih next).cons fun _ _ => ?_
      rcases blank with blank | ⟨rfl, _⟩
      · simp only [endsLead, blank, Bool.true_or]
      · rfl
  | case8 run cs _ _ _ ih => exact (ih next).cons fun _ _ => rfl
  | case9 run c cs => exact ⟨run, rfl⟩

theorem readQuoted_append {quote : Char} {cs inside text rest : List Char}
    (read : readQuoted quote cs = some (inside, text, rest)) :
    cs = text ++ rest ∧ text.getLast? = some quote := by
  fun_induction readQuoted quote cs generalizing inside text with
  | case1 => cases read
  | case2 =>
      cases read
      exact ⟨rfl, rfl⟩
  | case3 => cases read
  | case4 cs ih =>
      obtain ⟨⟨inside', text', rest'⟩, further, same⟩ := Option.map_eq_some_iff.mp read
      cases same
      obtain ⟨rfl, last⟩ := ih further
      refine ⟨rfl, ?_⟩
      rw [List.getLast?_cons, List.getLast?_cons, last]
      rfl
  | case5 d cs other =>
      cases read
      exact ⟨rfl, rfl⟩
  | case6 c d cs other ih =>
      obtain ⟨⟨inside', text', rest'⟩, further, same⟩ := Option.map_eq_some_iff.mp read
      cases same
      obtain ⟨split, last⟩ := ih further
      exact ⟨congrArg (c :: ·) split, by rw [List.getLast?_cons, last]; rfl⟩

theorem readBracketed_append {cs inside text rest : List Char}
    (read : readBracketed cs = some (inside, text, rest)) :
    cs = text ++ rest ∧ text.getLast? = some ']' := by
  unfold readBracketed at read
  have whole := List.takeWhile_append_dropWhile (p := fun c => decide (c ≠ ']')) (l := cs)
  split at read
  · cases read
  · rename_i c rest' closes
    cases read
    have bracket : c = ']' := by
      have stops := List.head?_dropWhile_not (fun c => decide (c ≠ ']')) cs
      rw [closes] at stops
      simpa using stops
    rw [closes, bracket] at whole
    exact ⟨by rw [List.append_assoc]; exact whole.symm, List.getLast?_concat⟩

/-- Where the text on the left ends in a letter, a digit or `_`, no word goes on. -/
def Sealed (left right : List Char) : Prop :=
  ∀ last ∈ left.getLast?, isNameChar last = true → ∀ next ∈ right.head?, isIdChar next = false

theorem sealed_of_last {left right : List Char} {c : Char} (last : left.getLast? = some c)
    (noName : isNameChar c = false) : Sealed left right := by
  intro d is name
  rw [last] at is
  cases is
  rw [noName] at name
  cases name

theorem sealed_dropWhile (p : Char → Bool) (left cs : List Char)
    (wide : ∀ c, isIdChar c = true → p c = true) : Sealed left (cs.dropWhile p) := by
  intro _ _ _ next is
  have stops := List.head?_dropWhile_not p cs
  rw [is] at stops
  cases more : isIdChar next with
  | false => rfl
  | true => exact nomatch (wide next more).symm.trans stops

theorem isNameChar_of_sign : ∀ c, isSign c = true → isNameChar c = false := by
  intro c sign
  unfold isSign at sign
  have listed : (";,()+-*/%=<>!|&~.?:@#$".toList.all (!isNameChar ·)) = true := by decide +kernel
  have none := List.all_eq_true.mp listed c (List.contains_iff_mem.mp sign)
  rwa [Bool.not_eq_true'] at none

/-- A token takes its characters from the text, and no word goes on behind it. -/
theorem readToken_append {c : Char} {cs text rest : List Char} {kind : TokenKind}
    (read : readToken c cs = some (kind, text, rest)) :
    c :: cs = text ++ rest ∧ Sealed text rest ∧ text.head? = some c ∧
      (kind = .word → isNameChar c = true) := by
  unfold readToken at read
  split_ifs at read with quote bracket blob digit name sign
  · obtain ⟨⟨inside, body, rest'⟩, quoted, same⟩ := Option.map_eq_some_iff.mp read
    cases same
    obtain ⟨rfl, last⟩ := readQuoted_append quoted
    refine ⟨rfl, sealed_of_last (c := c) (by rw [List.getLast?_cons, last]; rfl) ?_, rfl,
      fun word => by cases word⟩
    rcases quote with rfl | rfl | rfl <;> rfl
  · obtain ⟨⟨inside, body, rest'⟩, bracketed, same⟩ := Option.map_eq_some_iff.mp read
    cases same
    obtain ⟨rfl, last⟩ := readBracketed_append bracketed
    exact ⟨rfl, sealed_of_last (c := ']') (by rw [List.getLast?_cons, last]; rfl) rfl, rfl,
      fun word => by cases word⟩
  · obtain ⟨⟨inside, body, rest'⟩, quoted, same⟩ := Option.map_eq_some_iff.mp read
    cases same
    obtain ⟨split, last⟩ := readQuoted_append quoted
    refine ⟨?_, sealed_of_last (c := '\'')
      (by rw [List.getLast?_cons, List.getLast?_cons, last]; rfl) rfl, rfl,
      fun word => by cases word⟩
    rw [← List.cons_head?_tail blob.2, split]
    rfl
  · cases read
    refine ⟨by rw [List.cons_append, List.takeWhile_append_dropWhile],
      sealed_dropWhile _ _ _ fun d id => by rw [id]; rfl, rfl, fun word => by cases word⟩
  · cases read
    exact ⟨by rw [List.cons_append, List.takeWhile_append_dropWhile],
      sealed_dropWhile _ _ _ fun d id => id, rfl, fun _ => name⟩
  · cases read
    exact ⟨rfl, sealed_of_last rfl (isNameChar_of_sign c sign), rfl, fun word => by cases word⟩

/-- The first token, and the reading of the others. -/
theorem readTokens_cons {fuel : ℕ} {cs trail : List Char} {t : Token} {tokens : List Token}
    (read : readTokens fuel cs = some (t :: tokens, trail)) :
    ∃ further c cs' rest, readLead (.code false) cs = (t.lead, c :: cs') ∧
      readToken c cs' = some (t.kind, t.text, rest) ∧
      readTokens further rest = some (tokens, trail) := by
  cases fuel with
  | zero => cases read
  | succ further =>
      rw [readTokens] at read
      rcases ahead : readLead (.code false) cs with ⟨lead, _ | ⟨c, cs'⟩⟩
      · rw [ahead] at read
        cases read
      · rw [ahead] at read
        obtain ⟨⟨kind, text, rest⟩, token, read⟩ := Option.bind_eq_some_iff.mp read
        obtain ⟨⟨others, trail'⟩, more, same⟩ := Option.map_eq_some_iff.mp read
        cases same
        exact ⟨further, c, cs', rest, rfl, token, more⟩

/-- A token stands in the text behind what is in front of it. -/
theorem readTokens_split {fuel : ℕ} {cs trail : List Char} {t : Token} {tokens : List Token}
    (read : readTokens fuel cs = some (t :: tokens, trail)) :
    ∃ further rest, cs = t.lead ++ (t.text ++ rest) ∧ t.text ≠ [] ∧ Sealed t.text rest ∧
      readTokens further rest = some (tokens, trail) := by
  obtain ⟨further, c, cs', rest, ahead, token, more⟩ := readTokens_cons read
  obtain ⟨split, closed, starts, _⟩ := readToken_append token
  have whole := readLead_append (.code false) cs
  rw [ahead, split] at whole
  exact ⟨further, rest, whole.symm, List.ne_nil_of_mem (List.mem_of_head? starts), closed, more⟩

/-- In front of a word there is no word that it would go on with. -/
theorem word_apart {fuel : ℕ} {done cs trail : List Char} {t : Token} {tokens : List Token}
    (read : readTokens fuel cs = some (t :: tokens, trail)) (word : t.kind = .word)
    (closed : Sealed done cs) :
    ∀ last ∈ (done ++ t.lead).getLast?, isNameChar last = true → last = '\uFEFF' := by
  obtain ⟨further, c, cs', rest, ahead, token, _⟩ := readTokens_cons read
  obtain ⟨_, _, _, name⟩ := readToken_append token
  have ends := readLead_ends (.code false) cs (by rw [ahead]; exact List.cons_ne_nil _ _)
  rw [ahead] at ends
  intro last is isName
  cases lead : t.lead.getLast? with
  | none =>
      have empty : t.lead = [] := List.getLast?_eq_none_iff.mp lead
      have whole := readLead_append (.code false) cs
      rw [ahead, empty] at whole
      rw [empty, List.append_nil] at is
      have stops := closed last is isName c (by rw [← whole]; rfl)
      rw [isIdChar, name word] at stops
      cases stops
  | some final =>
      rw [List.getLast?_append, lead] at is
      cases is
      unfold LeadEnds at ends
      dsimp only at ends
      rw [lead] at ends
      exact eq_mark_of_endsLead ends isName

/-- Two words that follow each other stand in the text with what is in front of the second
between them, and no word goes on before the first or behind the second. -/
theorem readTokens_two_words {fuel : ℕ} {cs trail : List Char} {before after : List Token}
    {x y : Token} (done : List Char)
    (read : readTokens fuel cs = some (before ++ x :: y :: after, trail))
    (closed : Sealed done cs) (first : x.kind = .word) :
    ∃ left right, cs = left ++ (x.text ++ (y.lead ++ (y.text ++ right))) ∧
      (∀ last ∈ (done ++ left).getLast?, isNameChar last = true → last = '\uFEFF') ∧
      Sealed y.text right := by
  induction before generalizing fuel done cs with
  | nil =>
      obtain ⟨further, rest, split, _, _, more⟩ := readTokens_split read
      obtain ⟨_, right, split', _, closed', _⟩ := readTokens_split more
      exact ⟨x.lead, right, by rw [split, split'], word_apart read first closed, closed'⟩
  | cons t before ih =>
      obtain ⟨further, rest, rfl, some, closed', more⟩ := readTokens_split read
      obtain ⟨left, right, rfl, apart, closed''⟩ := ih t.text more closed'
      refine ⟨t.lead ++ (t.text ++ left), right, by simp only [List.append_assoc], ?_, closed''⟩
      rw [← List.append_assoc, List.getLast?_append_of_ne_nil _ (List.append_ne_nil_of_left_ne_nil
        some left)]
      exact apart

/-- In a whole text. -/
theorem tokenize_two_words {text trail : List Char} {before after : List Token} {x y : Token}
    (read : tokenize text = some (before ++ x :: y :: after, trail)) (first : x.kind = .word) :
    ∃ left right, text = left ++ (x.text ++ (y.lead ++ (y.text ++ right))) ∧
      (∀ last ∈ left.getLast?, isNameChar last = true → last = '\uFEFF') ∧
      Sealed y.text right :=
  readTokens_two_words [] read (fun _ none => by cases none) first

/-! ### Kinds of tokens -/

def isOpening (c : Char) : Bool := c == '\'' || c == '\x22' || c == '\u0060' || c == '['

theorem isNameChar_of_opening {c : Char} (opens : isOpening c = true) : isNameChar c = false := by
  simp only [isOpening, Bool.or_eq_true, beq_iff_eq] at opens
  rcases opens with ((rfl | rfl) | rfl) | rfl <;> rfl

/-- What begins with a letter or a `_` is a word, or a number in hexadecimal digits. -/
theorem readToken_word {c : Char} {cs : List Char} (name : isNameChar c = true)
    (noDigit : c.isDigit = false) (noBlob : cs.head? ≠ some '\'') :
    readToken c cs = some (.word, c :: cs.takeWhile isIdChar, cs.dropWhile isIdChar) := by
  have closed : isOpening c = false := by
    cases opens : isOpening c with
    | false => rfl
    | true => exact nomatch name.symm.trans (isNameChar_of_opening opens)
  simp only [isOpening, Bool.or_eq_false_iff, beq_eq_false_iff_ne] at closed
  obtain ⟨⟨⟨single, double⟩, back⟩, bracket⟩ := closed
  unfold readToken
  rw [if_neg (by tauto), if_neg bracket, if_neg (by tauto), noDigit, if_neg (by decide), if_pos name]

/-- How a token of a kind begins. -/
def Begins (c : Char) (cs text : List Char) : TokenKind → Prop
  | .word => isNameChar c = true ∧ c.isDigit = false ∧ text = c :: cs.takeWhile isIdChar
  | .quoted _ => isOpening c = true
  | .number => c.isDigit = true
  | .sign => text.head? = some c

theorem readToken_begins {c : Char} {cs text rest : List Char} {kind : TokenKind}
    (read : readToken c cs = some (kind, text, rest)) : Begins c cs text kind := by
  unfold readToken at read
  split_ifs at read with quote bracket blob digit name sign
  · obtain ⟨_, _, same⟩ := Option.map_eq_some_iff.mp read
    cases same
    rcases quote with rfl | rfl | rfl <;> rfl
  · obtain ⟨_, _, same⟩ := Option.map_eq_some_iff.mp read
    cases same
    subst bracket
    rfl
  · obtain ⟨_, _, same⟩ := Option.map_eq_some_iff.mp read
    cases same
    rfl
  · cases read
    exact digit
  · cases read
    exact ⟨name, Bool.not_eq_true _ ▸ digit, rfl⟩
  · cases read
    rfl

/-- Characters in front of the closing quote are the inside. -/
theorem readQuoted_append_of_ne {quote : Char} {front : List Char} (back : List Char)
    (inner : ∀ c ∈ front, c ≠ quote) :
    readQuoted quote (front ++ back) =
      (readQuoted quote back).map fun (inside, text, rest) => (front ++ inside, front ++ text, rest)
    := by
  induction front with
  | nil => simp only [List.nil_append, Option.map_id']
  | cons c front ih =>
      have other := inner c List.mem_cons_self
      have further := ih fun d mem => inner d (List.mem_cons_of_mem _ mem)
      rw [List.cons_append]
      cases behind : front ++ back with
      | nil =>
          have single : readQuoted quote [c] = none := by rw [readQuoted, if_neg other]
          rw [(List.append_eq_nil_iff.mp behind).2, single]
          rfl
      | cons d rest =>
          rw [readQuoted, if_neg other, ← behind, further, Option.map_map]
          rfl

/-- Nothing in quotes: the closing quote is next. -/
theorem eq_cons_of_readQuoted_nil {quote : Char} {cs text rest : List Char}
    (read : readQuoted quote cs = some ([], text, rest)) : cs = quote :: rest := by
  cases cs with
  | nil => cases read
  | cons c cs =>
      cases cs with
      | nil =>
          obtain ⟨same, read⟩ := Option.ite_none_right_eq_some.mp read
          cases read
          rw [same]
      | cons d cs =>
          rw [readQuoted] at read
          split_ifs at read with closes doubled
          · obtain ⟨_, _, same⟩ := Option.map_eq_some_iff.mp read
            cases same
          · cases read
            rw [closes]
          · obtain ⟨_, _, same⟩ := Option.map_eq_some_iff.mp read
            cases same

/-- Characters in front of the closing bracket are the inside. -/
theorem readBracketed_append_of_ne {front back inside text rest : List Char}
    (inner : ∀ c ∈ front, c ≠ ']')
    (read : readBracketed (front ++ back) = some (inside, text, rest)) :
    inside = front ++ back.takeWhile (· ≠ ']') ∧ back.dropWhile (· ≠ ']') = ']' :: rest := by
  have taken : (front ++ back).takeWhile (· ≠ ']') = front ++ back.takeWhile (· ≠ ']') :=
    List.takeWhile_append_of_pos fun c mem => decide_eq_true (inner c mem)
  have dropped : (front ++ back).dropWhile (· ≠ ']') = back.dropWhile (· ≠ ']') :=
    List.dropWhile_append_of_pos fun c mem => decide_eq_true (inner c mem)
  obtain ⟨split, last⟩ := readBracketed_append read
  unfold readBracketed at read
  rw [taken, dropped] at read
  cases behind : back.dropWhile (· ≠ ']') with
  | nil =>
      rw [behind] at read
      cases read
  | cons c rest' =>
      have stops := List.head?_dropWhile_not (fun c => decide (c ≠ ']')) back
      rw [behind] at read stops
      cases read
      refine ⟨rfl, ?_⟩
      simpa using stops

/-! ### Reading ahead -/

/-- A character that begins a token where it stands. -/
def StartsToken (c : Char) : Prop := endsLead c = false ∧ c ≠ '-'

/-- Characters without a comment in front of a token are in front of it, or one of them begins a
token itself. -/
theorem readLead_gap {gap rest : List Char} {x : Char} (run : Bool)
    (noComment : ∀ c ∈ gap, c ≠ '-' ∧ c ≠ '/' ∧ c ≠ '\uFEFF') (starts : StartsToken x) :
    readLead (.code run) (gap ++ x :: rest) = (gap, x :: rest) ∨
      ∃ front c back, gap = front ++ c :: back ∧
        readLead (.code run) (gap ++ x :: rest) = (front, c :: (back ++ x :: rest)) := by
  induction gap generalizing run with
  | nil =>
      obtain ⟨noLead, noLine⟩ := starts
      simp only [endsLead, Bool.or_eq_false_iff, beq_eq_false_iff_ne] at noLead
      obtain ⟨⟨⟨noBlank, noTab⟩, noMark⟩, noBlock⟩ := noLead
      left
      rw [List.nil_append, readLead, if_neg, if_neg noMark]
      · rintro (blank | ⟨tab, _⟩)
        · exact nomatch noBlank.symm.trans blank
        · exact noTab tab
      · exact fun _ same _ => absurd same noLine
      · exact fun _ _ same _ => absurd same noBlock
  | cons c gap ih =>
      obtain ⟨noLine, noBlock, noMark⟩ := noComment c List.mem_cons_self
      have goesOn : ∀ run', readLead (.code run) (c :: gap ++ x :: rest) =
          (readLead (.code run') (gap ++ x :: rest)).map (c :: ·) id →
          readLead (.code run) (c :: gap ++ x :: rest) = (c :: gap, x :: rest) ∨
            ∃ front d back, c :: gap = front ++ d :: back ∧
              readLead (.code run) (c :: gap ++ x :: rest) = (front, d :: (back ++ x :: rest)) := by
        intro run' further
        rw [further]
        rcases ih run' fun d mem => noComment d (List.mem_cons_of_mem _ mem) with
          whole | ⟨front, d, back, split, part⟩
        · left
          rw [whole]
          rfl
        · right
          refine ⟨c :: front, d, back, congrArg (c :: ·) split, ?_⟩
          rw [part]
          rfl
      have reads : readLead (.code run) (c :: gap ++ x :: rest) =
          if isBlank c = true ∨ c = '\x0B' ∧ run = true then
            (readLead (.code true) (gap ++ x :: rest)).map (c :: ·) id
          else if c = '\uFEFF' then (readLead (.code false) (gap ++ x :: rest)).map (c :: ·) id
          else ([], c :: (gap ++ x :: rest)) := by
        rw [List.cons_append, readLead]
        · exact fun _ same _ => absurd same noLine
        · exact fun _ _ same _ => absurd same noBlock
      by_cases blank : isBlank c = true ∨ c = '\x0B' ∧ run = true
      · rw [if_pos blank] at reads
        exact goesOn true reads
      · rw [if_neg blank, if_neg noMark] at reads
        exact .inr ⟨[], c, gap, rfl, reads⟩

/-- The token behind such characters, or one that begins among them. -/
theorem readTokens_gap {fuel : ℕ} {gap rest trail : List Char} {x : Char} {t : Token}
    {tokens : List Token} (noComment : ∀ c ∈ gap, c ≠ '-' ∧ c ≠ '/' ∧ c ≠ '\uFEFF')
    (starts : StartsToken x)
    (read : readTokens fuel (gap ++ x :: rest) = some (t :: tokens, trail)) :
    (∃ c ∈ gap, ∃ more rest', readToken c more = some (t.kind, t.text, rest')) ∨
      ∃ further rest', readToken x rest = some (t.kind, t.text, rest') ∧
        readTokens further rest' = some (tokens, trail) := by
  obtain ⟨further, c, cs, rest', ahead, token, more⟩ := readTokens_cons read
  rcases @readLead_gap gap rest x false noComment starts with whole | ⟨front, d, back, split, part⟩
  · rw [whole] at ahead
    cases ahead
    exact .inr ⟨further, rest', token, more⟩
  · rw [part] at ahead
    cases ahead
    refine .inl ⟨c, ?_, _, rest', token⟩
    rw [split]
    exact List.mem_append_right _ List.mem_cons_self

end AgentOs.Lib.Sqlite
