import AgentOs.Lib.Json
import Mathlib.Data.List.Basic

/-!
What `Json.pretty` writes, `Json.loads` reads back.

A value is read from the front of a text, so each lemma speaks of the text of a value and of
what follows it. `Delimited` is what may follow: a number has no end of its own.
-/

namespace AgentOs.Lib.Json

/-! ### Strings -/

theorem hexValue_hexDigit {k : ℕ} (h : k < 16) : hexValue (hexDigit k) = some k := by
  have all : ∀ k : Fin 16, hexValue (hexDigit k) = some k.val := by decide
  exact all ⟨k, h⟩

theorem hex4_unicodeEscape {n : ℕ} (h : n < 65536) (rest : List Char) :
    hex4 ((unicodeEscape n).drop 2 ++ rest) = some (n, rest) := by
  unfold unicodeEscape
  simp only [List.drop_succ_cons, List.drop_zero, List.cons_append, List.nil_append, hex4]
  rw [hexValue_hexDigit (by omega), hexValue_hexDigit (by omega), hexValue_hexDigit (by omega),
    hexValue_hexDigit (by omega)]
  simp only [Option.pure_def, Option.bind_eq_bind, Option.bind_some, Option.some.injEq,
    Prod.mk.injEq, and_true]
  omega

/-- A character with an escape of its own is the one that its letter stands for. -/
theorem simpleEscape_of_shortEscape {c letter : Char} (h : shortEscape c = some letter) :
    simpleEscape letter = some c ∧ letter ≠ 'u' := by
  unfold shortEscape at h
  split_ifs at h with quote backslash newline ret tab back feed
  · cases h; exact ⟨by rw [quote]; rfl, by decide⟩
  · cases h; exact ⟨by rw [backslash]; rfl, by decide⟩
  · cases h; exact ⟨by rw [newline]; rfl, by decide⟩
  · cases h; exact ⟨by rw [ret]; rfl, by decide⟩
  · cases h; exact ⟨by rw [tab]; rfl, by decide⟩
  · cases h; exact ⟨by rw [← Char.ofNat_toNat c, back]; rfl, by decide⟩
  · cases h; exact ⟨by rw [← Char.ofNat_toNat c, feed]; rfl, by decide⟩

/-- The body of a string goes on behind an escaped character. -/
theorem stringBody_escapeChar (n : ℕ) (c : Char) (rest : List Char) :
    stringBody (n + 1) (escapeChar false c ++ rest) =
      (stringBody n rest).map fun p => (c :: p.1, p.2) := by
  unfold escapeChar
  cases short : shortEscape c with
  | some letter =>
      obtain ⟨plain, other⟩ := simpleEscape_of_shortEscape short
      rw [List.cons_append, List.cons_append, List.nil_append, stringBody]
      · rw [plain]
        cases stringBody n rest <;> rfl
      · exact other
  | none =>
      have quote : c ≠ '"' := by
        rintro rfl
        exact absurd short (by decide)
      have backslash : c ≠ '\\' := by
        rintro rfl
        exact absurd short (by decide)
      simp only [Bool.false_and, Bool.false_eq_true, if_false]
      split_ifs with control
      · have digits := hex4_unicodeEscape (n := c.toNat) (by omega) rest
        have begins : unicodeEscape c.toNat ++ rest =
            '\\' :: 'u' :: ((unicodeEscape c.toNat).drop 2 ++ rest) := rfl
        have plain : ¬ (0xd800 ≤ c.toNat) := by omega
        rw [begins, stringBody, digits]
        simp only [Option.bind_eq_bind, Option.bind_some, plain, decide_false, Bool.false_and,
          Bool.false_eq_true, if_false, Char.ofNat_toNat]
        cases stringBody n rest <;> rfl
      · rw [List.cons_append, List.nil_append, stringBody]
        · simp only [control, backslash, decide_false, Bool.or_self, Bool.false_eq_true, if_false]
          cases stringBody n rest <;> rfl
        · exact quote
        · exact fun _ same _ => backslash same
        · exact fun _ _ same _ => backslash same

/-- A string is read back. -/
theorem stringBody_escape (cs : List Char) {n : ℕ} (fuel : cs.length < n) (rest : List Char) :
    stringBody n (cs.flatMap (escapeChar false) ++ '"' :: rest) = some (cs, rest) := by
  induction cs generalizing n with
  | nil =>
      cases n with
      | zero => omega
      | succ n => rfl
  | cons c cs ih =>
      cases n with
      | zero => omega
      | succ n =>
          rw [List.flatMap_cons, List.append_assoc, stringBody_escapeChar,
            ih (by simpa using fuel)]
          rfl

theorem length_le_escape (cs : List Char) :
    cs.length ≤ (cs.flatMap (escapeChar false)).length := by
  induction cs with
  | nil => exact Nat.le_refl 0
  | cons c cs ih =>
      have : 1 ≤ (escapeChar false c).length := by
        unfold escapeChar
        split
        · exact Nat.le_add_left 1 1
        · split_ifs <;> simp [unicodeEscape]
      rw [List.flatMap_cons, List.length_append, List.length_cons]
      omega

/-! ### Numbers -/

/-- What may follow a value: nothing, a comma or the end of the line. -/
def Delimited (rest : List Char) : Prop :=
  ∀ c ∈ rest.head?, c = ',' ∨ c = '\n'

theorem digits_append (cs : List Char) {rest : List Char} (delimited : Delimited rest) :
    digits (cs ++ rest) = ((digits cs).1, (digits cs).2 ++ rest) := by
  induction cs with
  | nil =>
      cases rest with
      | nil => rfl
      | cons d rest =>
          rcases delimited d rfl with rfl | rfl
          · rfl
          · rfl
  | cons c cs ih =>
      unfold digits at ih ⊢
      rw [Prod.mk.injEq] at ih
      cases digit : c.isDigit with
      | true => simp [digit, ih.1, ih.2]
      | false => simp [digit]

theorem fraction_append (cs : List Char) {rest : List Char} (delimited : Delimited rest) :
    fraction (cs ++ rest) = ((fraction cs).1, (fraction cs).2 ++ rest) := by
  cases cs with
  | nil =>
      cases rest with
      | nil => rfl
      | cons d rest =>
          rcases delimited d rfl with rfl | rfl
          · rfl
          · rfl
  | cons c cs =>
      by_cases dot : c = '.'
      · subst dot
        simp only [List.cons_append, fraction, digits_append cs delimited]
        split_ifs <;> rfl
      · have none : ∀ cs, fraction (c :: cs) = ([], c :: cs) := fun cs => by
          rw [fraction]
          exact fun _ same => dot (List.cons.inj same).1
        rw [List.cons_append, none, none]
        rfl

/-- The sign of an exponent. -/
def expSign : List Char → List Char × List Char
  | '+' :: r => (['+'], r)
  | '-' :: r => (['-'], r)
  | r => ([], r)

theorem expSign_append (cs : List Char) {rest : List Char} (delimited : Delimited rest) :
    expSign (cs ++ rest) = ((expSign cs).1, (expSign cs).2 ++ rest) := by
  cases cs with
  | nil =>
      cases rest with
      | nil => rfl
      | cons d rest =>
          rcases delimited d rfl with rfl | rfl
          · rfl
          · rfl
  | cons c cs =>
      by_cases plus : c = '+'
      · subst plus
        rfl
      · by_cases minus : c = '-'
        · subst minus
          rfl
        · have none : ∀ cs, expSign (c :: cs) = ([], c :: cs) := fun cs => by
            rw [expSign]
            · exact fun _ same => plus (List.cons.inj same).1
            · exact fun _ same => minus (List.cons.inj same).1
          rw [List.cons_append, none, none]
          rfl

theorem exponent_cons (e : Char) (cs : List Char) : exponent (e :: cs) =
    if e = 'e' || e = 'E' then
      if (digits (expSign cs).2).1 = [] then ([], e :: cs)
      else (e :: (expSign cs).1 ++ (digits (expSign cs).2).1, (digits (expSign cs).2).2)
    else ([], e :: cs) := rfl

theorem exponent_append (cs : List Char) {rest : List Char} (delimited : Delimited rest) :
    exponent (cs ++ rest) = ((exponent cs).1, (exponent cs).2 ++ rest) := by
  cases cs with
  | nil =>
      cases rest with
      | nil => rfl
      | cons d rest =>
          rcases delimited d rfl with rfl | rfl
          · rfl
          · rfl
  | cons e cs =>
      rw [List.cons_append, exponent_cons, exponent_cons]
      simp only [expSign_append cs delimited, digits_append _ delimited]
      split_ifs <;> rfl

/-- The integer part of a number. -/
def integer : List Char → List Char × List Char
  | '0' :: r => (['0'], r)
  | r => digits r

theorem integer_append (cs : List Char) {rest : List Char} (delimited : Delimited rest) :
    integer (cs ++ rest) = ((integer cs).1, (integer cs).2 ++ rest) := by
  cases cs with
  | nil =>
      cases rest with
      | nil => rfl
      | cons d rest =>
          rcases delimited d rfl with rfl | rfl
          · rfl
          · rfl
  | cons c cs =>
      by_cases zero : c = '0'
      · subst zero
        rfl
      · have other : ∀ cs, integer (c :: cs) = digits (c :: cs) := fun cs => by
          rw [integer]
          exact fun _ same => zero (List.cons.inj same).1
        rw [List.cons_append, other, other, ← List.cons_append, digits_append (c :: cs) delimited]

/-- A number after its sign. -/
def magnitude (sign cs : List Char) : Option (Json × List Char) :=
  if (integer cs).1 = [] then none
  else
    some (.num (.ofList (sign ++ (integer cs).1 ++ (fraction (integer cs).2).1 ++
      (exponent (fraction (integer cs).2).2).1)), (exponent (fraction (integer cs).2).2).2)

theorem magnitude_append {sign cs : List Char} {j : Json} (reads : magnitude sign cs = some (j, []))
    {rest : List Char} (delimited : Delimited rest) :
    magnitude sign (cs ++ rest) = some (j, rest) := by
  unfold magnitude at reads ⊢
  simp only [integer_append cs delimited, fraction_append _ delimited,
    exponent_append _ delimited]
  split_ifs at reads ⊢
  rw [Option.some.injEq, Prod.mk.injEq] at reads
  rw [reads.1, reads.2]
  rfl

/-- The sign of a number. -/
def minusSign : List Char → List Char × List Char
  | '-' :: r => (['-'], r)
  | r => ([], r)

theorem number_eq (cs : List Char) : number cs = magnitude (minusSign cs).1 (minusSign cs).2 := rfl

theorem minusSign_append {cs : List Char} (some_ : cs ≠ []) (rest : List Char) :
    minusSign (cs ++ rest) = ((minusSign cs).1, (minusSign cs).2 ++ rest) := by
  cases cs with
  | nil => exact absurd rfl some_
  | cons c cs =>
      by_cases minus : c = '-'
      · subst minus
        rfl
      · have plain : ∀ cs, minusSign (c :: cs) = ([], c :: cs) := fun cs => by
          rw [minusSign]
          exact fun _ same => minus (List.cons.inj same).1
        rw [List.cons_append, plain, plain]
        rfl

/-- A number is read up to what delimits it. -/
theorem number_append {cs : List Char} {j : Json} (reads : number cs = some (j, []))
    {rest : List Char} (delimited : Delimited rest) : number (cs ++ rest) = some (j, rest) := by
  have some_ : cs ≠ [] := by
    rintro rfl
    cases reads
  rw [number_eq] at reads ⊢
  rw [minusSign_append some_]
  exact magnitude_append reads delimited

/-- A number begins with a digit, or with a minus sign and a digit. -/
theorem number_begins {cs : List Char} {p : Json × List Char} (reads : number cs = some p) :
    ∃ c rest, cs = c :: rest ∧
      (c.isDigit = true ∨ c = '-' ∧ ∃ d rest', rest = d :: rest' ∧ d.isDigit = true) := by
  have begins : ∀ {sign cs}, magnitude sign cs = some p →
      ∃ c rest, cs = c :: rest ∧ c.isDigit = true := by
    intro sign cs reads
    unfold magnitude at reads
    split_ifs at reads with empty
    cases cs with
    | nil => exact absurd rfl empty
    | cons c cs =>
        refine ⟨c, cs, rfl, ?_⟩
        by_contra other
        have zero : c ≠ '0' := by
          rintro rfl
          exact other rfl
        refine empty ?_
        rw [integer]
        · simp [digits, other]
        · exact fun _ same => zero (List.cons.inj same).1
  rw [number_eq] at reads
  obtain ⟨c, rest, after, digit⟩ := begins reads
  cases cs with
  | nil => cases after
  | cons d cs =>
      by_cases minus : d = '-'
      · subst minus
        exact ⟨'-', cs, rfl, .inr ⟨rfl, c, rest, after, digit⟩⟩
      · rw [minusSign] at after
        · cases after
          exact ⟨c, rest, rfl, .inl digit⟩
        · exact fun _ same => minus (List.cons.inj same).1

theorem isPrefixOf_cons_of_ne {a b : Char} (h : a ≠ b) (as bs : List Char) :
    (a :: as).isPrefixOf (b :: bs) = false := by
  rw [List.isPrefixOf_cons_cons, beq_eq_false_iff_ne.mpr h]
  rfl

theorem keyword_of_number {cs : List Char} {p : Json × List Char} (reads : number cs = some p)
    (rest : List Char) : keyword (cs ++ rest) = none := by
  have other : ∀ {c : Char}, c.isDigit = true → ∀ d ∈ ['n', 't', 'f', 'N', 'I', '-'], d ≠ c := by
    rintro c digit d mem rfl
    simp only [List.mem_cons, List.not_mem_nil, or_false] at mem
    rcases mem with rfl | rfl | rfl | rfl | rfl | rfl <;> exact absurd digit (by decide)
  have words : (∀ word ∈ ["null", "true", "false", "NaN", "Infinity", "-Infinity"],
      word.toList.isPrefixOf (cs ++ rest) = false) → keyword (cs ++ rest) = none := by
    intro none
    unfold keyword
    simp only [List.find?_cons, none "null" (by decide), none "true" (by decide),
      none "false" (by decide), none "NaN" (by decide), none "Infinity" (by decide),
      none "-Infinity" (by decide)]
    rfl
  refine words fun word mem => ?_
  simp only [List.mem_cons, List.not_mem_nil, or_false] at mem
  obtain ⟨c, tail, rfl, digit | ⟨rfl, d, tail', rfl, digit⟩⟩ := number_begins reads
  · rcases mem with rfl | rfl | rfl | rfl | rfl | rfl <;>
      exact isPrefixOf_cons_of_ne (other digit _ (by decide)) _ _
  · have second := isPrefixOf_cons_of_ne (other digit 'I' (by decide)) "nfinity".toList
      (tail' ++ rest)
    rcases mem with rfl | rfl | rfl | rfl | rfl | rfl
    · exact isPrefixOf_cons_of_ne (by decide) _ _
    · exact isPrefixOf_cons_of_ne (by decide) _ _
    · exact isPrefixOf_cons_of_ne (by decide) _ _
    · exact isPrefixOf_cons_of_ne (by decide) _ _
    · exact isPrefixOf_cons_of_ne (by decide) _ _
    · exact second

/-! ### Values -/

mutual
/-- The numbers of a value are number literals. -/
def Written : Json → Prop
  | .num text => number text.toList = some (.num text, [])
  | .arr items => WrittenItems items
  | .obj fields => WrittenFields fields
  | .null | .bool _ | .str _ => True

def WrittenItems : List Json → Prop
  | [] => True
  | item :: items => item.Written ∧ WrittenItems items

def WrittenFields : List (String × Json) → Prop
  | [] => True
  | (_, value) :: fields => value.Written ∧ WrittenFields fields
end

mutual
/-- A value with the members that a reader keeps: of a repeated key the last one. -/
def normal : Json → Json
  | .arr items => .arr (normalItems items)
  | .obj fields => .obj (normalFields [] fields)
  | .null => .null
  | .bool b => .bool b
  | .num text => .num text
  | .str s => .str s

def normalItems : List Json → List Json
  | [] => []
  | item :: items => item.normal :: normalItems items

def normalFields (seen : List (String × Json)) : List (String × Json) → List (String × Json)
  | [] => seen
  | (key, value) :: fields => normalFields (setField seen key value.normal) fields
end

/-- White space before a token is passed over. -/
theorem skipWs_append (space : List Char) (blank : ∀ c ∈ space, c = ' ' ∨ c = '\n')
    (cs : List Char) : skipWs (space ++ cs) = skipWs cs := by
  induction space with
  | nil => rfl
  | cons c space ih =>
      have rest := ih fun d mem => blank d (List.mem_cons_of_mem c mem)
      unfold skipWs at rest ⊢
      rcases blank c List.mem_cons_self with rfl | rfl
      · simpa using rest
      · simpa using rest

/-- A token that is not white space stays. -/
theorem skipWs_token {c : Char} (token : c ≠ ' ' ∧ c ≠ '\t' ∧ c ≠ '\n' ∧ c ≠ '\r')
    (cs : List Char) : skipWs (c :: cs) = c :: cs := by
  obtain ⟨space, tab, newline, ret⟩ := token
  simp [skipWs, space, tab, newline, ret]

theorem indentation_blank (depth : ℕ) : ∀ c ∈ (indentation depth).toList, c = ' ' ∨ c = '\n' := by
  intro c mem
  rw [indentation, String.toList_ofList] at mem
  exact .inl (List.eq_of_mem_replicate mem)

/-! ### The characters of a text -/

section

variable (depth : ℕ)

/-- The items, without the comma before the first. -/
def itemsText (items : List Json) : List Char :=
  (prettyItems depth items).toList.drop 1

/-- The members, without the comma before the first. -/
def fieldsText (fields : List (String × Json)) : List Char :=
  (prettyFields depth fields).toList.drop 1

theorem toList_quote (s : String) :
    (quote false s).toList = '"' :: (s.toList.flatMap (escapeChar false) ++ ['"']) := by
  simp only [quote, String.toList_append, String.toList_ofList, List.append_assoc]
  rfl

theorem toList_prettyItems (item : Json) (items : List Json) :
    (prettyItems depth (item :: items)).toList = ',' :: '\n' :: ((indentation depth).toList ++
      ((prettyAt depth item).toList ++ (prettyItems depth items).toList)) := by
  rw [prettyItems]
  simp only [String.toList_append, List.append_assoc]
  rfl

theorem toList_prettyFields (key : String) (value : Json) (fields : List (String × Json)) :
    (prettyFields depth ((key, value) :: fields)).toList = ',' :: '\n' ::
      ((indentation depth).toList ++ '"' :: (key.toList.flatMap (escapeChar false) ++ '"' :: ':' ::
        ' ' :: ((prettyAt depth value).toList ++ (prettyFields depth fields).toList))) := by
  rw [prettyFields]
  simp only [String.toList_append, toList_quote, List.append_assoc, List.cons_append,
    List.nil_append]
  rfl

theorem toList_arr (item : Json) (items : List Json) :
    (prettyAt depth (.arr (item :: items))).toList = '[' ::
      (itemsText (depth + 1) (item :: items) ++ '\n' :: ((indentation depth).toList ++ [']'])) := by
  rw [itemsText, toList_prettyItems, prettyAt]
  simp only [String.toList_append, List.append_assoc, List.cons_append, List.drop_succ_cons,
    List.drop_zero]
  rfl

theorem toList_obj (field : String × Json) (fields : List (String × Json)) :
    (prettyAt depth (.obj (field :: fields))).toList = '\x7b' ::
      (fieldsText (depth + 1) (field :: fields) ++
        '\n' :: ((indentation depth).toList ++ ['\x7d'])) := by
  obtain ⟨key, value⟩ := field
  rw [fieldsText, toList_prettyFields, prettyAt]
  simp only [String.toList_append, toList_quote, List.append_assoc, List.cons_append,
    List.drop_succ_cons, List.drop_zero, List.nil_append]
  rfl

end

/-- What a value's text begins with. -/
theorem pretty_begins (depth : ℕ) {j : Json} (written : j.Written) :
    ∃ c cs, (prettyAt depth j).toList = c :: cs ∧ c ≠ ']' ∧
      c ≠ ' ' ∧ c ≠ '\t' ∧ c ≠ '\n' ∧ c ≠ '\r' := by
  cases j with
  | null => exact ⟨'n', "ull".toList, by rw [prettyAt]; rfl, by decide⟩
  | bool b =>
      cases b with
      | true => exact ⟨'t', "rue".toList, by rw [prettyAt]; rfl, by decide⟩
      | false => exact ⟨'f', "alse".toList, by rw [prettyAt]; rfl, by decide⟩
  | num text =>
      rw [Written] at written
      obtain ⟨c, rest, begins, digit | ⟨rfl, _⟩⟩ := number_begins written
      · refine ⟨c, rest, by rw [prettyAt, begins], ?_, ?_, ?_, ?_, ?_⟩ <;>
          · rintro rfl
            exact absurd digit (by decide)
      · exact ⟨'-', rest, by rw [prettyAt, begins], by decide⟩
  | str s => exact ⟨'"', _, by rw [prettyAt, toList_quote], by decide⟩
  | arr items =>
      cases items with
      | nil => exact ⟨'[', [']'], by rw [prettyAt]; rfl, by decide⟩
      | cons item items => exact ⟨'[', _, toList_arr depth item items, by decide⟩
  | obj fields =>
      cases fields with
      | nil => exact ⟨'\x7b', ['\x7d'], by rw [prettyAt]; rfl, by decide⟩
      | cons field fields => exact ⟨'\x7b', _, toList_obj depth field fields, by decide⟩

/-! ### Reading -/

/-- What follows an item that is not the last, or the last one. -/
theorem delimited_items (depth : ℕ) (items : List Json) (rest : List Char) :
    Delimited ((prettyItems depth items).toList ++ '\n' :: rest) := by
  cases items with
  | nil =>
      rw [prettyItems]
      rintro c ⟨⟩
      exact .inr rfl
  | cons item items =>
      rw [toList_prettyItems]
      rintro c ⟨⟩
      exact .inl rfl

theorem delimited_fields (depth : ℕ) (fields : List (String × Json)) (rest : List Char) :
    Delimited ((prettyFields depth fields).toList ++ '\n' :: rest) := by
  cases fields with
  | nil =>
      rw [prettyFields]
      rintro c ⟨⟩
      exact .inr rfl
  | cons field fields =>
      rw [toList_prettyFields]
      rintro c ⟨⟩
      exact .inl rfl

theorem skipWs_blank {space : List Char} (blank : ∀ c ∈ space, c = ' ' ∨ c = '\n') {c : Char}
    (token : c ≠ ' ' ∧ c ≠ '\t' ∧ c ≠ '\n' ∧ c ≠ '\r') (cs : List Char) :
    skipWs ('\n' :: (space ++ c :: cs)) = c :: cs := by
  have blank' : ∀ d ∈ '\n' :: space, d = ' ' ∨ d = '\n' := by
    intro d mem
    rcases List.mem_cons.mp mem with rfl | mem
    · exact .inr rfl
    · exact blank d mem
  rw [← List.cons_append, skipWs_append _ blank', skipWs_token token]

theorem skipWs_skipWs (cs : List Char) : skipWs (skipWs cs) = skipWs cs :=
  List.dropWhile_idempotent _ cs

theorem items_skipWs (n : ℕ) (cs : List Char) : Json.items n (skipWs cs) = Json.items n cs := by
  cases n with
  | zero => rfl
  | succ n => rw [Json.items, Json.items, skipWs_skipWs]

theorem members_skipWs (n : ℕ) (seen : List (String × Json)) (cs : List Char) :
    members n seen (skipWs cs) = members n seen cs := by
  cases n with
  | zero => rfl
  | succ n => rw [members, members, skipWs_skipWs]

theorem value_arr {cs : List Char} (some_ : (skipWs cs).head? ≠ some ']') (n : ℕ) :
    value (n + 1) ('[' :: cs) = (Json.items n cs).map fun p => (.arr p.1, p.2) := by
  rw [value, ← items_skipWs]
  split
  · rename_i rest empty
    rw [empty] at some_
    exact absurd rfl some_
  · rfl

theorem value_obj {cs : List Char} (some_ : (skipWs cs).head? ≠ some '\x7d') (n : ℕ) :
    value (n + 1) ('\x7b' :: cs) = (members n [] cs).map fun p => (.obj p.1, p.2) := by
  rw [value, ← members_skipWs]
  split
  · rename_i rest empty
    rw [empty] at some_
    exact absurd rfl some_
  · rfl

theorem items_last {n : ℕ} {cs rest out : List Char} {item : Json}
    (reads : value n (skipWs cs) = some (item, rest)) (ends : skipWs rest = ']' :: out) :
    Json.items (n + 1) cs = some ([item], out) := by
  rw [Json.items, reads]
  simp only [Option.bind_eq_bind, Option.bind_some, ends]
  rfl

theorem items_more {n : ℕ} {cs rest out : List Char} {item : Json}
    (reads : value n (skipWs cs) = some (item, rest)) (goesOn : skipWs rest = ',' :: out) :
    Json.items (n + 1) cs = (Json.items n out).map fun p => (item :: p.1, p.2) := by
  rw [Json.items, reads]
  simp only [Option.bind_eq_bind, Option.bind_some, goesOn]
  cases Json.items n out <;> rfl

theorem members_last {n : ℕ} {seen : List (String × Json)}
    {cs body rest out out' final : List Char} {key : List Char} {item : Json}
    (opens : skipWs cs = '"' :: body)
    (names : stringBody n body = some (key, rest)) (colon : skipWs rest = ':' :: out)
    (reads : value n (skipWs out) = some (item, out')) (ends : skipWs out' = '\x7d' :: final) :
    members (n + 1) seen cs = some (setField seen (.ofList key) item, final) := by
  rw [members, opens]
  simp only [Option.bind_eq_bind, names, Option.bind_some, colon, reads, ends]
  rfl

theorem members_more {n : ℕ} {seen : List (String × Json)}
    {cs body rest out out' more : List Char} {key : List Char} {item : Json}
    (opens : skipWs cs = '"' :: body)
    (names : stringBody n body = some (key, rest)) (colon : skipWs rest = ':' :: out)
    (reads : value n (skipWs out) = some (item, out')) (goesOn : skipWs out' = ',' :: more) :
    members (n + 1) seen cs = members n (setField seen (.ofList key) item) more := by
  rw [members, opens]
  simp only [Option.bind_eq_bind, names, Option.bind_some, colon, reads, goesOn]

/-- Values are read with `n` steps. -/
def ReadsValues (n : ℕ) : Prop :=
  ∀ (depth : ℕ) (j : Json) (rest : List Char), j.Written → Delimited rest →
    (prettyAt depth j).toList.length ≤ n →
      value n ((prettyAt depth j).toList ++ rest) = some (j.normal, rest)

/-- The items of an array are read with `n` steps, up to its bracket. -/
def ReadsItems (n : ℕ) : Prop :=
  ∀ (depth : ℕ) (item : Json) (items : List Json) (close rest : List Char),
    WrittenItems (item :: items) → (∀ c ∈ close, c = ' ' ∨ c = '\n') →
    (itemsText depth (item :: items) ++ '\n' :: close).length < n →
      Json.items n (itemsText depth (item :: items) ++ '\n' :: (close ++ ']' :: rest)) =
        some (normalItems (item :: items), rest)

/-- The members of an object are read with `n` steps, up to its brace. -/
def ReadsMembers (n : ℕ) : Prop :=
  ∀ (depth : ℕ) (field : String × Json) (fields seen : List (String × Json))
    (close rest : List Char),
    WrittenFields (field :: fields) → (∀ c ∈ close, c = ' ' ∨ c = '\n') →
    (fieldsText depth (field :: fields) ++ '\n' :: close).length < n →
      members n seen (fieldsText depth (field :: fields) ++ '\n' :: (close ++ '\x7d' :: rest)) =
        some (normalFields seen (field :: fields), rest)

theorem value_num {text : String} (written : number text.toList = some (.num text, []))
    {rest : List Char} (delimited : Delimited rest) (n : ℕ) :
    value (n + 1) (text.toList ++ rest) = some (.num text, rest) := by
  have none := keyword_of_number written rest
  have reads := number_append written delimited
  obtain ⟨c, tail, begins, first⟩ := number_begins written
  have other : c ≠ '"' ∧ c ≠ '[' ∧ c ≠ '\x7b' := by
    refine ⟨?_, ?_, ?_⟩ <;>
      · rintro rfl
        rcases first with digit | ⟨minus, _⟩
        · exact absurd digit (by decide)
        · exact absurd minus (by decide)
  rw [begins, List.cons_append] at none reads ⊢
  rw [value]
  · rw [none, reads]
    rfl
  · exact fun _ same => other.1 (List.cons.inj same).1
  · exact fun _ same => other.2.1 (List.cons.inj same).1
  · exact fun _ same => other.2.2 (List.cons.inj same).1

theorem readsValues_succ {n : ℕ} (items : ReadsItems n) (members : ReadsMembers n) :
    ReadsValues (n + 1) := by
  intro depth j rest written delimited fuel
  cases j with
  | null =>
      rw [prettyAt]
      rfl
  | bool b =>
      rw [prettyAt]
      cases b <;> rfl
  | num text =>
      rw [Written] at written
      rw [prettyAt, value_num written delimited, normal]
  | str s =>
      rw [prettyAt, toList_quote] at fuel ⊢
      simp only [List.length_cons, List.length_append, List.length_nil] at fuel
      have := length_le_escape s.toList
      rw [List.cons_append, List.append_assoc, value, List.cons_append, List.nil_append,
        stringBody_escape s.toList (by omega), Option.map_some, String.ofList_toList, normal]
  | arr entries =>
      cases entries with
      | nil =>
          rw [prettyAt]
          rfl
      | cons item entries =>
          rw [toList_arr] at fuel ⊢
          rw [Written] at written
          simp only [List.length_cons, List.length_append, List.length_nil] at fuel
          have read := items (depth + 1) item entries _ rest written (indentation_blank depth)
            (by simp only [List.length_cons, List.length_append]; omega)
          have first : (skipWs (itemsText (depth + 1) (item :: entries) ++
              '\n' :: ((indentation depth).toList ++ ']' :: rest))).head? ≠ some ']' := by
            obtain ⟨c, cs, begins, other, token⟩ := pretty_begins (depth + 1) written.1
            rw [itemsText, toList_prettyItems, List.drop_succ_cons, List.drop_zero, begins]
            simp only [List.cons_append, List.append_assoc]
            rw [skipWs_blank (indentation_blank _) token]
            exact fun same => other (Option.some.inj same)
          simp only [List.cons_append, List.append_assoc, List.nil_append]
          rw [value_arr first, read, normal]
          rfl
  | obj entries =>
      cases entries with
      | nil =>
          rw [prettyAt]
          rfl
      | cons field entries =>
          rw [toList_obj] at fuel ⊢
          rw [Written] at written
          simp only [List.length_cons, List.length_append, List.length_nil] at fuel
          have read := members (depth + 1) field entries [] _ rest written
            (indentation_blank depth)
            (by simp only [List.length_cons, List.length_append]; omega)
          have first : (skipWs (fieldsText (depth + 1) (field :: entries) ++
              '\n' :: ((indentation depth).toList ++ '\x7d' :: rest))).head? ≠ some '\x7d' := by
            rw [fieldsText, toList_prettyFields, List.drop_succ_cons, List.drop_zero]
            simp only [List.cons_append, List.append_assoc]
            rw [skipWs_blank (indentation_blank _) (by decide)]
            simp
          simp only [List.cons_append, List.append_assoc, List.nil_append]
          rw [value_obj first, read, normal]
          rfl

theorem readsItems_succ {n : ℕ} (values : ReadsValues n) (others : ReadsItems n) :
    ReadsItems (n + 1) := by
  intro depth item items close rest written blank fuel
  rw [WrittenItems] at written
  rw [itemsText, toList_prettyItems, List.drop_succ_cons, List.drop_zero] at fuel ⊢
  simp only [List.length_cons, List.length_append] at fuel
  obtain ⟨c, cs, begins, _, token⟩ := pretty_begins depth written.1
  have read := values depth item _ written.1 (delimited_items depth items (close ++ ']' :: rest))
    (by omega)
  have starts_value : ∀ {rest p}, value n ((prettyAt depth item).toList ++ rest) = some p →
      value n (skipWs ('\n' :: ((indentation depth).toList ++
        ((prettyAt depth item).toList ++ rest)))) = some p := by
    intro rest p read
    rw [begins, List.cons_append, skipWs_blank (indentation_blank _) token, ← List.cons_append,
      ← begins, read]
  simp only [List.cons_append, List.append_assoc]
  cases items with
  | nil =>
      rw [prettyItems] at read ⊢
      refine items_last (starts_value read) ?_
      exact skipWs_blank blank (by decide) rest
  | cons next items =>
      have tail : (prettyItems depth (next :: items)).toList =
          ',' :: itemsText depth (next :: items) := by
        rw [itemsText, toList_prettyItems]
        rfl
      rw [tail] at fuel read ⊢
      have more := others depth next items close rest written.2 blank (by
        rw [List.length_cons] at fuel
        rw [List.length_append, List.length_cons]
        omega)
      refine (items_more (starts_value read) (skipWs_token (by decide) _)).trans ?_
      exact congrArg (Option.map fun p => (item.normal :: p.1, p.2)) more

theorem readsMembers_succ {n : ℕ} (values : ReadsValues n) (others : ReadsMembers n) :
    ReadsMembers (n + 1) := by
  intro depth field fields seen close rest written blank fuel
  obtain ⟨key, item⟩ := field
  rw [WrittenFields] at written
  rw [fieldsText, toList_prettyFields, List.drop_succ_cons, List.drop_zero] at fuel ⊢
  simp only [List.length_cons, List.length_append] at fuel
  have := length_le_escape key.toList
  obtain ⟨c, cs, begins, _, token⟩ := pretty_begins depth written.1
  have read := values depth item _ written.1
    (delimited_fields depth fields (close ++ '\x7d' :: rest)) (by omega)
  have opens : ∀ rest, skipWs ('\n' :: ((indentation depth).toList ++ '"' :: rest)) =
      '"' :: rest := fun rest => skipWs_blank (indentation_blank _) (by decide) rest
  have names : ∀ rest, stringBody n (key.toList.flatMap (escapeChar false) ++ '"' :: rest) =
      some (key.toList, rest) := fun rest => stringBody_escape key.toList (by omega) rest
  have starts_value : ∀ {rest p}, value n ((prettyAt depth item).toList ++ rest) = some p →
      value n (skipWs (' ' :: ((prettyAt depth item).toList ++ rest))) = some p := by
    intro rest p read
    have passed := skipWs_append [' '] (by simp) ((prettyAt depth item).toList ++ rest)
    rw [← List.singleton_append, passed, begins, List.cons_append, skipWs_token token,
      ← List.cons_append, ← begins, read]
  simp only [List.cons_append, List.append_assoc]
  cases fields with
  | nil =>
      rw [prettyFields] at read ⊢
      rw [members_last (opens _) (names _) (skipWs_token (by decide) _) (starts_value read)
        (skipWs_blank blank (by decide) rest), String.ofList_toList]
      rfl
  | cons next fields =>
      have tail : (prettyFields depth (next :: fields)).toList =
          ',' :: fieldsText depth (next :: fields) := by
        rw [fieldsText, toList_prettyFields]
        rfl
      rw [tail] at fuel read ⊢
      rw [members_more (opens _) (names _) (skipWs_token (by decide) _) (starts_value read)
        (skipWs_token (by decide) _), String.ofList_toList]
      exact others depth next fields _ close rest written.2 blank (by
        rw [List.length_cons] at fuel
        rw [List.length_append, List.length_cons]
        omega)

theorem reads (n : ℕ) : ReadsValues n ∧ ReadsItems n ∧ ReadsMembers n := by
  induction n with
  | zero =>
      refine ⟨fun depth j rest written _ fuel => ?_, fun _ _ _ _ _ _ _ fuel => ?_,
        fun _ _ _ _ _ _ _ _ fuel => ?_⟩
      · obtain ⟨c, cs, begins, _⟩ := pretty_begins depth written
        rw [begins] at fuel
        exact absurd fuel (by simp)
      · exact absurd fuel (Nat.not_lt_zero _)
      · exact absurd fuel (Nat.not_lt_zero _)
  | succ n ih =>
      obtain ⟨values, items, members⟩ := ih
      exact ⟨readsValues_succ items members, readsItems_succ values items,
        readsMembers_succ values members⟩

/-- The indented text of a value is read back. -/
theorem loads_pretty {j : Json} (written : j.Written) : loads j.pretty = some j.normal := by
  obtain ⟨c, cs, begins, _, token⟩ := pretty_begins 0 written
  have read := (reads (j.pretty.toList.length + 2)).1 0 j [] written (by rintro c ⟨⟩)
    (Nat.le_add_right _ 2)
  rw [List.append_nil] at read
  have start : skipWs j.pretty.toList = j.pretty.toList := by
    rw [pretty, begins, skipWs_token token]
  unfold loads
  rw [start, show j.pretty.toList = (prettyAt 0 j).toList from rfl] at *
  rw [read]
  rfl

end AgentOs.Lib.Json
