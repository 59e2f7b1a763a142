import AgentOs.Lib.JsonPretty

/-!
Where a JSON text ends.

`closing` looks for the bracket that closes the open ones and skips what stands in quotes. The
reader stops at the same bracket (`reads_closing`), and behind a text nothing can move it
(`closing_append`), so that no text of an object is the start of another one (`loads_prefix`).
-/

namespace AgentOs.Lib.Json

/-- Where a character of a text stands. -/
inductive Zone where
  | outside
  | string
  /-- behind the backslash of an escape -/
  | escape
deriving DecidableEq, Repr

/-- What stands behind the bracket that closes the last of `depth` open ones. -/
def closing : Zone → ℕ → List Char → Option (List Char)
  | _, 0, cs => some cs
  | _, _ + 1, [] => none
  | .escape, depth + 1, _ :: cs => closing .string (depth + 1) cs
  | .string, depth + 1, c :: cs =>
      if c = '"' then closing .outside (depth + 1) cs
      else if c = '\\' then closing .escape (depth + 1) cs
      else closing .string (depth + 1) cs
  | .outside, depth + 1, c :: cs =>
      if c = '"' then closing .string (depth + 1) cs
      else if c = '[' ∨ c = '\x7b' then closing .outside (depth + 2) cs
      else if c = ']' ∨ c = '\x7d' then closing .outside depth cs
      else closing .outside (depth + 1) cs

variable {cs rest more : List Char} {c : Char} {depth n : ℕ} {zone : Zone}

theorem closing_zero : closing zone 0 cs = some cs := by
  cases cs <;> cases zone <;> rfl

theorem closing_escape :
    closing .escape (depth + 1) (c :: cs) = closing .string (depth + 1) cs := rfl

theorem closing_string : closing .string (depth + 1) (c :: cs) =
    if c = '"' then closing .outside (depth + 1) cs
    else if c = '\\' then closing .escape (depth + 1) cs
    else closing .string (depth + 1) cs := rfl

theorem closing_outside : closing .outside (depth + 1) (c :: cs) =
    if c = '"' then closing .string (depth + 1) cs
    else if c = '[' ∨ c = '\x7b' then closing .outside (depth + 2) cs
    else if c = ']' ∨ c = '\x7d' then closing .outside depth cs
    else closing .outside (depth + 1) cs := rfl

/-- More text behind does not move the bracket. -/
theorem closing_append (closes : closing zone depth cs = some rest) :
    closing zone depth (cs ++ more) = some (rest ++ more) := by
  induction cs generalizing zone depth with
  | nil =>
      cases depth with
      | zero =>
          rw [closing_zero, Option.some.injEq] at closes
          rw [closing_zero, closes]
      | succ depth => cases zone <;> cases closes
  | cons c cs ih =>
      cases depth with
      | zero =>
          rw [closing_zero, Option.some.injEq] at closes
          rw [closing_zero, closes]
      | succ depth =>
          cases zone with
          | escape => exact ih closes
          | string =>
              rw [List.cons_append, closing_string] at *
              split_ifs at closes ⊢ <;> exact ih closes
          | outside =>
              rw [List.cons_append, closing_outside] at *
              split_ifs at closes ⊢ <;> exact ih closes

/-- Does a character outside of strings leave the brackets as they are? -/
def isPlain (c : Char) : Bool :=
  c ≠ '"' && c ≠ '[' && c ≠ '\x7b' && c ≠ ']' && c ≠ '\x7d'

theorem closing_plain (plain : isPlain c = true) :
    closing .outside (depth + 1) (c :: cs) = closing .outside (depth + 1) cs := by
  simp only [isPlain, Bool.and_eq_true, decide_eq_true_eq] at plain
  obtain ⟨⟨⟨⟨quote, bracket⟩, brace⟩, bracket'⟩, brace'⟩ := plain
  rw [closing_outside, if_neg quote, if_neg (by simp [bracket, brace]),
    if_neg (by simp [bracket', brace'])]

theorem closing_used {used : List Char} (plain : ∀ c ∈ used, isPlain c = true) :
    closing .outside (depth + 1) (used ++ cs) = closing .outside (depth + 1) cs := by
  induction used with
  | nil => rfl
  | cons c used ih =>
      rw [List.cons_append, closing_plain (plain c List.mem_cons_self),
        ih fun d mem => plain d (List.mem_cons_of_mem _ mem)]

/-! ### Tokens -/

/-- What a reader has used is plain. -/
def UsesPlain (cs rest : List Char) : Prop :=
  ∃ used, cs = used ++ rest ∧ ∀ c ∈ used, isPlain c = true

theorem UsesPlain.closing (uses : UsesPlain cs rest) :
    closing .outside (depth + 1) cs = closing .outside (depth + 1) rest := by
  obtain ⟨used, rfl, plain⟩ := uses
  exact closing_used plain

theorem UsesPlain.refl : UsesPlain cs cs := ⟨[], rfl, fun _ mem => by cases mem⟩

theorem UsesPlain.trans (uses : UsesPlain cs rest) (uses' : UsesPlain rest more) :
    UsesPlain cs more := by
  obtain ⟨used, rfl, plain⟩ := uses
  obtain ⟨used', rfl, plain'⟩ := uses'
  refine ⟨used ++ used', (List.append_assoc _ _ _).symm, fun c mem => ?_⟩
  rcases List.mem_append.mp mem with before | after
  · exact plain c before
  · exact plain' c after

theorem UsesPlain.cons (plain : isPlain c = true) (uses : UsesPlain cs rest) :
    UsesPlain (c :: cs) rest := by
  obtain ⟨used, rfl, all⟩ := uses
  refine ⟨c :: used, rfl, fun d mem => ?_⟩
  rcases List.mem_cons.mp mem with rfl | mem
  · exact plain
  · exact all d mem

theorem usesPlain_skipWs : UsesPlain cs (skipWs cs) := by
  refine ⟨cs.takeWhile fun c => c = ' ' || c = '\t' || c = '\n' || c = '\r',
    List.takeWhile_append_dropWhile.symm, fun c mem => ?_⟩
  have blank := List.mem_takeWhile_imp mem
  simp only [Bool.or_eq_true, decide_eq_true_eq] at blank
  rcases blank with ((rfl | rfl) | rfl) | rfl <;> decide

theorem isPlain_of_isDigit (digit : c.isDigit = true) : isPlain c = true := by
  by_contra special
  have other : ∀ d, d = '"' ∨ d = '[' ∨ d = '\x7b' ∨ d = ']' ∨ d = '\x7d' → c ≠ d := by
    rintro d (rfl | rfl | rfl | rfl | rfl) rfl <;> exact absurd digit (by decide)
  refine special ?_
  simp only [isPlain, Bool.and_eq_true, decide_eq_true_eq]
  exact ⟨⟨⟨⟨other _ (by decide), other _ (by decide)⟩, other _ (by decide)⟩,
    other _ (by decide)⟩, other _ (by decide)⟩

theorem usesPlain_digits : UsesPlain cs (digits cs).2 :=
  ⟨(digits cs).1, List.takeWhile_append_dropWhile.symm,
    fun _ mem => isPlain_of_isDigit (List.mem_takeWhile_imp mem)⟩

theorem usesPlain_fraction : UsesPlain cs (fraction cs).2 := by
  unfold fraction
  split
  · split
    · exact .refl
    · exact .cons (by decide) usesPlain_digits
  · exact .refl

theorem usesPlain_expSign : UsesPlain cs (expSign cs).2 := by
  unfold expSign
  split
  · exact .cons (by decide) .refl
  · exact .cons (by decide) .refl
  · exact .refl

theorem usesPlain_exponent : UsesPlain cs (exponent cs).2 := by
  cases cs with
  | nil => exact .refl
  | cons e cs =>
      rw [exponent_cons]
      split
      · rename_i letter
        split
        · exact .refl
        · refine .cons ?_ (usesPlain_expSign.trans usesPlain_digits)
          simp only [Bool.or_eq_true, decide_eq_true_eq] at letter
          rcases letter with rfl | rfl <;> decide
      · exact .refl

theorem usesPlain_integer : UsesPlain cs (integer cs).2 := by
  unfold integer
  split
  · exact .cons (by decide) .refl
  · exact usesPlain_digits

theorem usesPlain_number {j : Json} (reads : number cs = some (j, rest)) : UsesPlain cs rest := by
  rw [number_eq, magnitude] at reads
  split_ifs at reads
  rw [Option.some.injEq, Prod.mk.injEq] at reads
  obtain ⟨_, rfl⟩ := reads
  have sign : UsesPlain cs (minusSign cs).2 := by
    unfold minusSign
    split
    · exact .cons (by decide) .refl
    · exact .refl
  exact sign.trans (usesPlain_integer.trans (usesPlain_fraction.trans usesPlain_exponent))

theorem usesPlain_keyword {j : Json} (reads : keyword cs = some (j, rest)) : UsesPlain cs rest := by
  unfold keyword at reads
  obtain ⟨⟨word, value⟩, found, same⟩ := Option.map_eq_some_iff.mp reads
  obtain ⟨_, rfl⟩ := Prod.mk.inj same
  have starts := List.find?_some found
  have listed := List.mem_of_find?_eq_some found
  dsimp only at starts ⊢
  refine ⟨word.toList, (List.prefix_iff_eq_append.mp (List.isPrefixOf_iff_prefix.mp starts)).symm,
    List.all_eq_true.mp ?_⟩
  simp only [List.mem_cons, Prod.mk.injEq, List.not_mem_nil, or_false] at listed
  rcases listed with ⟨rfl, _⟩ | ⟨rfl, _⟩ | ⟨rfl, _⟩ | ⟨rfl, _⟩ | ⟨rfl, _⟩ | ⟨rfl, _⟩ <;> decide

/-! ### Values -/

theorem closing_string_plain (quote : c ≠ '"') (backslash : c ≠ '\\') :
    closing .string (depth + 1) (c :: cs) = closing .string (depth + 1) cs := by
  rw [closing_string, if_neg quote, if_neg backslash]

theorem closing_string_escape {d : Char} :
    closing .string (depth + 1) ('\\' :: d :: cs) = closing .string (depth + 1) cs := by
  rw [closing_string, if_neg (by decide), if_pos rfl, closing_escape]

theorem hexValue_plain {v : ℕ} (reads : hexValue c = some v) : c ≠ '"' ∧ c ≠ '\\' := by
  constructor <;>
    · rintro rfl
      cases reads

/-- The digits of a `\u` escape are no end of a string. -/
theorem hex4_closing {v : ℕ} (reads : hex4 cs = some (v, rest)) :
    closing .string (depth + 1) cs = closing .string (depth + 1) rest := by
  unfold hex4 at reads
  split at reads
  · rename_i a b c d cs
    simp only [Option.bind_eq_bind, Option.bind_eq_some_iff, Option.pure_def, Option.some.injEq,
      Prod.mk.injEq] at reads
    obtain ⟨_, ha, _, hb, _, hc, _, hd, _, rfl⟩ := reads
    rw [closing_string_plain (hexValue_plain ha).1 (hexValue_plain ha).2,
      closing_string_plain (hexValue_plain hb).1 (hexValue_plain hb).2,
      closing_string_plain (hexValue_plain hc).1 (hexValue_plain hc).2,
      closing_string_plain (hexValue_plain hd).1 (hexValue_plain hd).2]
  · cases reads

theorem lowSurrogate_closing {v : ℕ} (reads : lowSurrogate cs = some (v, rest)) :
    closing .string (depth + 1) cs = closing .string (depth + 1) rest := by
  unfold lowSurrogate at reads
  split at reads
  · rename_i cs
    split at reads
    · rename_i n rest' digits
      split_ifs at reads
      rw [Option.some.injEq, Prod.mk.injEq] at reads
      rw [closing_string_escape, hex4_closing digits, reads.2]
    · cases reads
  · cases reads

/-- A string ends where its quote is. -/
theorem stringBody_closing {out : List Char} (reads : stringBody n cs = some (out, rest)) :
    closing .string (depth + 1) cs = closing .outside (depth + 1) rest := by
  induction n generalizing cs out with
  | zero => cases reads
  | succ n ih =>
      unfold stringBody at reads
      split at reads
      · cases reads
      · cases reads
      · -- the closing quote
        cases reads
        rw [closing_string, if_pos rfl]
      · -- a code unit, perhaps with its low surrogate
        cases ‹n + 1 = Nat.succ _›
        simp only [Option.bind_eq_bind, Option.bind_eq_some_iff, Prod.exists] at reads
        obtain ⟨unit, cs', digits, reads⟩ := reads
        rw [closing_string_escape, hex4_closing digits]
        split at reads
        · rename_i low rest' pair
          simp only [Option.bind_eq_some_iff, Prod.exists, Option.pure_def, Option.some.injEq,
            Prod.mk.injEq] at reads
          obtain ⟨tail, _, read, _, rfl⟩ := reads
          split_ifs at pair
          rw [lowSurrogate_closing pair, ih read]
        · simp only [Option.bind_eq_some_iff, Prod.exists, Option.pure_def, Option.some.injEq,
            Prod.mk.injEq] at reads
          obtain ⟨tail, _, read, _, rfl⟩ := reads
          exact ih read
      · -- an escape of one letter
        cases ‹n + 1 = Nat.succ _›
        simp only [Option.bind_eq_bind, Option.bind_eq_some_iff, Prod.exists, Option.pure_def,
          Option.some.injEq, Prod.mk.injEq] at reads
        obtain ⟨_, _, tail, _, read, _, rfl⟩ := reads
        rw [closing_string_escape, ih read]
      · cases ‹n + 1 = Nat.succ _›
        rename_i quote _ _
        split_ifs at reads with refused
        simp only [Option.bind_eq_bind, Option.bind_eq_some_iff, Prod.exists, Option.pure_def,
          Option.some.injEq, Prod.mk.injEq] at reads
        obtain ⟨tail, _, read, _, rfl⟩ := reads
        simp only [Bool.or_eq_true, decide_eq_true_eq, not_or] at refused
        rw [closing_string_plain quote refused.2, ih read]

/-- A value leaves the brackets around it open. -/
def ClosesValues (n : ℕ) : Prop :=
  ∀ (depth : ℕ) (cs : List Char) (j : Json) (rest : List Char), value n cs = some (j, rest) →
    closing .outside (depth + 1) cs = closing .outside (depth + 1) rest

/-- The items of an array close its bracket. -/
def ClosesItems (n : ℕ) : Prop :=
  ∀ (depth : ℕ) (cs : List Char) (items : List Json) (rest : List Char),
    Json.items n cs = some (items, rest) →
      closing .outside (depth + 1) cs = closing .outside depth rest

/-- The members of an object close its brace. -/
def ClosesMembers (n : ℕ) : Prop :=
  ∀ (depth : ℕ) (seen : List (String × Json)) (cs : List Char) (fields : List (String × Json))
    (rest : List Char), members n seen cs = some (fields, rest) →
      closing .outside (depth + 1) cs = closing .outside depth rest

theorem closing_opens (bracket : c = '[' ∨ c = '\x7b') :
    closing .outside (depth + 1) (c :: cs) = closing .outside (depth + 2) cs := by
  have quote : c ≠ '"' := by
    rintro rfl
    rcases bracket with same | same <;> exact absurd same (by decide)
  rw [closing_outside, if_neg quote, if_pos bracket]

theorem closing_closes (bracket : c = ']' ∨ c = '\x7d') :
    closing .outside (depth + 1) (c :: cs) = closing .outside depth cs := by
  have quote : c ≠ '"' := by
    rintro rfl
    rcases bracket with same | same <;> exact absurd same (by decide)
  have other : ¬ (c = '[' ∨ c = '\x7b') := by
    rintro (rfl | rfl) <;> rcases bracket with same | same <;> exact absurd same (by decide)
  rw [closing_outside, if_neg quote, if_neg other, if_pos bracket]

theorem closing_quote :
    closing .outside (depth + 1) ('"' :: cs) = closing .string (depth + 1) cs := by
  rw [closing_outside, if_pos rfl]

theorem closing_skipWs :
    closing .outside (depth + 1) (skipWs cs) = closing .outside (depth + 1) cs :=
  usesPlain_skipWs.closing.symm

theorem of_orElse {α : Type} {x : Option α} {y : Unit → Option α} {a : α}
    (either : x.orElse y = some a) : x = some a ∨ y () = some a := by
  cases x with
  | none => exact .inr either
  | some b => exact .inl either

theorem closesValues_succ (items : ClosesItems n) (members : ClosesMembers n) :
    ClosesValues (n + 1) := by
  intro depth cs j rest reads
  unfold value at reads
  split at reads
  · cases reads
  · cases ‹n + 1 = Nat.succ _›
    obtain ⟨⟨s, rest'⟩, body, same⟩ := Option.map_eq_some_iff.mp reads
    obtain ⟨_, rfl⟩ := Prod.mk.inj same
    rw [closing_quote, stringBody_closing body]
  · cases ‹n + 1 = Nat.succ _›
    rw [closing_opens (.inl rfl), ← closing_skipWs]
    split at reads
    · rename_i empty
      cases reads
      rw [empty, closing_closes (.inl rfl)]
    · obtain ⟨⟨entries, rest'⟩, read, same⟩ := Option.map_eq_some_iff.mp reads
      obtain ⟨_, rfl⟩ := Prod.mk.inj same
      exact items (depth + 1) _ entries _ read
  · cases ‹n + 1 = Nat.succ _›
    rw [closing_opens (.inr rfl), ← closing_skipWs]
    split at reads
    · rename_i empty
      cases reads
      rw [empty, closing_closes (.inr rfl)]
    · obtain ⟨⟨entries, rest'⟩, read, same⟩ := Option.map_eq_some_iff.mp reads
      obtain ⟨_, rfl⟩ := Prod.mk.inj same
      exact members (depth + 1) [] _ entries _ read
  · rcases of_orElse reads with word | read
    · exact (usesPlain_keyword word).closing
    · exact (usesPlain_number read).closing

theorem closesItems_succ (values : ClosesValues n) (others : ClosesItems n) :
    ClosesItems (n + 1) := by
  intro depth cs items rest reads
  rw [Json.items] at reads
  simp only [Option.bind_eq_bind, Option.bind_eq_some_iff, Prod.exists] at reads
  obtain ⟨item, rest', read, reads⟩ := reads
  rw [← closing_skipWs, values depth _ item rest' read, ← closing_skipWs]
  split at reads
  · rename_i out ends
    cases reads
    rw [ends, closing_closes (.inl rfl)]
  · rename_i out goesOn
    simp only [Option.bind_eq_some_iff, Prod.exists, Option.pure_def, Option.some.injEq,
      Prod.mk.injEq] at reads
    obtain ⟨more, _, read, _, rfl⟩ := reads
    rw [goesOn, closing_plain (by decide), others depth _ more _ read]
  · cases reads

theorem closesMembers_succ (values : ClosesValues n) (others : ClosesMembers n) :
    ClosesMembers (n + 1) := by
  intro depth seen cs fields rest reads
  rw [members] at reads
  rw [← closing_skipWs]
  split at reads
  · rename_i body opens
    simp only [Option.bind_eq_bind, Option.bind_eq_some_iff, Prod.exists] at reads
    obtain ⟨key, rest', name, reads⟩ := reads
    rw [opens, closing_quote, stringBody_closing name, ← closing_skipWs]
    split at reads
    · rename_i out colon
      simp only [Option.bind_eq_some_iff, Prod.exists] at reads
      obtain ⟨item, out', read, reads⟩ := reads
      rw [colon, closing_plain (by decide), ← closing_skipWs, values depth _ item out' read,
        ← closing_skipWs]
      split at reads
      · rename_i final ends
        cases reads
        rw [ends, closing_closes (.inr rfl)]
      · rename_i more goesOn
        rw [goesOn, closing_plain (by decide), others depth _ more fields rest reads]
      · cases reads
    · cases reads
  · cases reads

/-- The reader stops at the bracket that closes what it reads. -/
theorem reads_closing (n : ℕ) : ClosesValues n ∧ ClosesItems n ∧ ClosesMembers n := by
  induction n with
  | zero =>
      refine ⟨fun _ _ _ _ reads => ?_, fun _ _ _ _ reads => ?_, fun _ _ _ _ _ reads => ?_⟩
      · cases reads
      · cases reads
      · cases reads
  | succ n ih =>
      obtain ⟨values, items, members⟩ := ih
      exact ⟨closesValues_succ items members, closesItems_succ values items,
        closesMembers_succ values members⟩

/-- An object is read up to where its brace closes. -/
theorem value_obj_closing {j : Json} (reads : value (n + 1) ('\x7b' :: cs) = some (j, rest)) :
    closing .outside 1 cs = some rest := by
  rw [← @closing_zero _ .outside, ← closing_skipWs, value] at *
  split at reads
  · rename_i empty
    cases reads
    rw [empty, closing_closes (.inr rfl)]
  · obtain ⟨⟨entries, rest'⟩, read, same⟩ := Option.map_eq_some_iff.mp reads
    obtain ⟨_, rfl⟩ := Prod.mk.inj same
    exact (reads_closing n).2.2 0 [] _ entries _ read

/-- A text that begins with a brace and is read ends, up to white space, where the brace closes. -/
theorem loads_closing {j : Json} (reads : loads (.ofList ('\x7b' :: cs)) = some j) :
    ∃ rest, closing .outside 1 cs = some rest ∧ skipWs rest = [] := by
  unfold loads at reads
  rw [String.toList_ofList, skipWs_token (by decide)] at reads
  split at reads
  · rename_i j' rest read
    split_ifs at reads with ends
    exact ⟨rest, value_obj_closing read, ends⟩
  · cases reads

/-- What follows a text that is read from a brace, in a longer one, is white space. -/
theorem loads_prefix {j j' : Json} (reads : loads (.ofList ('\x7b' :: cs)) = some j)
    (reads' : loads (.ofList ('\x7b' :: (cs ++ more))) = some j') : skipWs more = [] := by
  obtain ⟨rest, closes, _⟩ := loads_closing reads
  obtain ⟨rest', closes', ends⟩ := loads_closing reads'
  rw [closing_append closes, Option.some.injEq] at closes'
  have blank : ∀ c ∈ rest ++ more, (c = ' ' || c = '\t' || c = '\n' || c = '\r') = true := by
    rw [closes']
    exact List.dropWhile_eq_nil_iff.mp ends
  exact List.dropWhile_eq_nil_iff.mpr fun c mem => blank c (List.mem_append_right _ mem)

end AgentOs.Lib.Json
