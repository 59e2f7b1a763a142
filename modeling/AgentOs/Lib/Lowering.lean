import AgentOs.Lib.Text

/-!
Lower case under the full case mapping.

`lowerFrom` is `str.lower`. Every character has its own lower-case form, except the capital sigma,
which is final behind a cased character and in front of none; the characters that are neither
cased nor ignorable bound how far it looks. `lower_space` says that a text lowers piece by piece
between its white space. The case tables are a parameter.
-/

namespace AgentOs.Lib

/-- What lowering knows of the characters. -/
structure CaseTable where
  /-- the lower-case form of a character by itself -/
  small : Char → List Char
  cased : Char → Bool
  /-- passed over in the search for a cased character -/
  ignorable : Char → Bool
  some : ∀ c : Char, small c ≠ []
  ascii : ∀ c : Char, c.toNat < 128 → small c = [c.toLower]
  asciiCased : ∀ c : Char, c.toNat < 128 → cased c = c.isAlpha
  /-- Outside ASCII, only letters lower to letters of ASCII. -/
  letters : ∀ c : Char, 128 ≤ c.toNat → ∀ d ∈ small c, d.toNat < 128 → d.isAlpha = true
  space : ∀ c : Char, Text.isSpace c = true →
    small c = [c] ∧ cased c = false ∧ ignorable c = false

namespace CaseTable

variable (table : CaseTable)

/-- Is the first character that is not ignorable a cased one? -/
def casedNext (text : List Char) : Bool := (text.dropWhile table.ignorable).head?.any table.cased

/-- The lower-case form of a character between two texts, the left one last character first. -/
def lowerChar (left : List Char) (c : Char) (right : List Char) : List Char :=
  if c = 'Σ' then [if table.casedNext left && !table.casedNext right then 'ς' else 'σ']
  else table.small c

/-- `lower` of a text behind another one. -/
def lowerFrom : List Char → List Char → List Char
  | _, [] => []
  | left, c :: right => table.lowerChar left c right ++ lowerFrom (c :: left) right

/-- `str.lower` -/
def lower (text : List Char) : List Char := table.lowerFrom [] text

variable {table} {left right text : List Char} {c : Char}

theorem lowerFrom_nil : table.lowerFrom left [] = [] := rfl

theorem lowerFrom_cons : table.lowerFrom left (c :: right) =
    table.lowerChar left c right ++ table.lowerFrom (c :: left) right := rfl

theorem casedNext_cons : table.casedNext (c :: text) =
    if table.ignorable c = true then table.casedNext text else table.cased c := by
  unfold casedNext
  rw [List.dropWhile_cons]
  split <;> rfl

/-- What no cased character begins does not count. -/
theorem casedNext_append (apart : table.casedNext right = false) :
    table.casedNext (text ++ right) = table.casedNext text := by
  induction text with
  | nil => exact apart
  | cons c text ih => rw [List.cons_append, casedNext_cons, casedNext_cons, ih]

theorem casedNext_space (space : Text.isSpace c = true) : table.casedNext (c :: text) = false := by
  obtain ⟨_, notCased, notIgnorable⟩ := table.space c space
  rw [casedNext_cons, if_neg (by rw [notIgnorable]; exact Bool.false_ne_true), notCased]

theorem isSpace_ne_sigma (space : Text.isSpace c = true) : c ≠ 'Σ' := by
  rintro rfl
  exact absurd space (by decide)

theorem lowerChar_small (plain : c ≠ 'Σ') : table.lowerChar left c right = table.small c :=
  if_neg plain

theorem lowerChar_space (space : Text.isSpace c = true) :
    table.lowerChar left c right = [c] := by
  rw [lowerChar_small (isSpace_ne_sigma space), (table.space c space).1]

theorem lowerChar_ascii (ascii : c.toNat < 128) : table.lowerChar left c right = [c.toLower] := by
  have plain : c ≠ 'Σ' := by
    rintro rfl
    exact absurd ascii (by decide)
  rw [lowerChar_small plain, table.ascii c ascii]

theorem lowerChar_some : table.lowerChar left c right ≠ [] := by
  unfold lowerChar
  split
  · exact List.cons_ne_nil _ _
  · exact table.some c

theorem lower_some (some : text ≠ []) : table.lower text ≠ [] := by
  cases text with
  | nil => exact absurd rfl some
  | cons c text => exact fun none => lowerChar_some (List.append_eq_nil_iff.mp none).1

/-- Only the near part of what stands to the left counts. -/
theorem lowerFrom_left {near : List Char} (apart : table.casedNext left = false) :
    table.lowerFrom (near ++ left) text = table.lowerFrom near text := by
  induction text generalizing near with
  | nil => rfl
  | cons c text ih =>
      have further : table.lowerFrom (c :: (near ++ left)) text =
          table.lowerFrom (c :: near) text := @ih (c :: near)
      rw [lowerFrom_cons, lowerFrom_cons, further]
      unfold lowerChar
      rw [casedNext_append apart]

/-- A text lowers by itself in front of what no cased character begins. -/
theorem lowerFrom_append (apart : table.casedNext right = false) :
    table.lowerFrom left (text ++ right) =
      table.lowerFrom left text ++ table.lowerFrom (text.reverse ++ left) right := by
  induction text generalizing left with
  | nil => rfl
  | cons c text ih =>
      have here : table.lowerChar left c (text ++ right) = table.lowerChar left c text := by
        unfold lowerChar
        rw [casedNext_append apart]
      rw [List.cons_append, lowerFrom_cons, lowerFrom_cons, here, ih, List.reverse_cons,
        List.append_assoc, List.append_assoc]
      rfl

theorem lowerFrom_ascii (ascii : ∀ c ∈ text, c.toNat < 128) :
    table.lowerFrom left (text ++ right) =
      text.map Char.toLower ++ table.lowerFrom (text.reverse ++ left) right := by
  induction text generalizing left with
  | nil => rfl
  | cons c text ih =>
      rw [List.cons_append, lowerFrom_cons, lowerChar_ascii (ascii c List.mem_cons_self),
        ih fun d mem => ascii d (List.mem_cons_of_mem _ mem), List.reverse_cons, List.append_assoc]
      rfl

/-- Texts lower apart from each other with white space between them. -/
theorem lowerFrom_space (space : Text.isSpace c = true) :
    table.lowerFrom left (text ++ c :: right) =
      table.lowerFrom left text ++ c :: table.lower right := by
  have behind : table.lowerFrom (c :: (text.reverse ++ left)) right = table.lower right :=
    @lowerFrom_left _ _ _ [] (casedNext_space space)
  rw [lowerFrom_append (casedNext_space space), lowerFrom_cons, lowerChar_space space, behind]
  rfl

theorem lower_space (space : Text.isSpace c = true) :
    table.lower (text ++ c :: right) = table.lower text ++ c :: table.lower right :=
  lowerFrom_space space

theorem lower_cons_space (space : Text.isSpace c = true) :
    table.lower (c :: right) = c :: table.lower right :=
  @lower_space _ _ [] _ space

theorem lower_ascii (ascii : ∀ c ∈ text, c.toNat < 128) :
    table.lower text = text.map Char.toLower := by
  have lowered := @lowerFrom_ascii table [] [] _ ascii
  rw [List.append_nil, lowerFrom_nil, List.append_nil] at lowered
  exact lowered

/-- White space in front stays as it is. -/
theorem lower_blank_append (blank : ∀ c ∈ left, Text.isSpace c = true) :
    table.lower (left ++ text) = left ++ table.lower text := by
  induction left with
  | nil => rfl
  | cons c left ih =>
      rw [List.cons_append, List.cons_append, lower_cons_space (blank c List.mem_cons_self),
        ih fun d mem => blank d (List.mem_cons_of_mem _ mem)]

/-- White space behind stays as it is. -/
theorem lower_append_blank (blank : ∀ c ∈ right, Text.isSpace c = true) :
    table.lower (text ++ right) = table.lower text ++ right := by
  cases right with
  | nil => rw [List.append_nil, List.append_nil]
  | cons c right =>
      have alone := @lower_blank_append table _ []
        fun d mem => blank d (List.mem_cons_of_mem c mem)
      rw [List.append_nil] at alone
      rw [lower_space (blank c List.mem_cons_self), alone]
      exact congrArg (table.lower text ++ c :: ·) (List.append_nil right)

theorem toLower_eq_self (ascii : c.toNat < 128) (other : c.toLower.isAlpha = false) :
    c.toLower = c := by
  have all : ∀ n : Fin 128, (Char.ofNat n).toLower.isAlpha = false →
      (Char.ofNat n).toLower = Char.ofNat n := by decide +kernel
  have here := all ⟨c.toNat, ascii⟩
  rw [Char.ofNat_toNat] at here
  exact here other

/-- Lowering brings no character of ASCII but letters. -/
theorem mem_lowerFrom {d : Char} (ascii : d.toNat < 128) (other : d.isAlpha = false)
    (mem : d ∈ table.lowerFrom left text) : d ∈ text := by
  induction text generalizing left with
  | nil => cases mem
  | cons c text ih =>
      rcases List.mem_append.mp mem with here | further
      · refine List.mem_cons.mpr (.inl ?_)
        by_cases small : c.toNat < 128
        · rw [lowerChar_ascii small, List.mem_singleton] at here
          rw [here] at other ⊢
          exact toLower_eq_self small other
        · unfold lowerChar at here
          split at here
          · rw [List.mem_singleton] at here
            rw [here] at ascii
            exact absurd ascii (by split <;> decide)
          · rw [table.letters c (Nat.le_of_not_lt small) d here ascii] at other
            cases other
      · exact List.mem_cons_of_mem _ (ih further)

end CaseTable

theorem toLower_of_not_upper {c : Char} (plain : ¬(65 ≤ c.toNat ∧ c.toNat ≤ 90)) : c.toLower = c := by
  unfold Char.toLower
  exact dif_neg plain

theorem isAlpha_of_isSpace {c : Char} (space : Text.isSpace c = true) : c.isAlpha = false := by
  simp only [Text.isSpace, Bool.or_eq_true, Bool.and_eq_true, decide_eq_true_eq, beq_iff_eq] at space
  simp only [Text.isAlpha_eq, Text.isUpper_eq, Text.isLower_eq, Bool.or_eq_false_iff,
    Bool.and_eq_false_iff, decide_eq_false_iff_not, UInt32.le_iff_toNat_le, ge_iff_le]
  have same : c.toNat = c.val.toNat := rfl
  have letters : 'A'.val.toNat = 65 ∧ 'Z'.val.toNat = 90 ∧ 'a'.val.toNat = 97 ∧
    'z'.val.toNat = 122 := ⟨rfl, rfl, rfl, rfl⟩
  constructor <;> omega

/-- Lower case of the letters of ASCII. -/
def asciiCases : CaseTable where
  small c := if c.toNat < 128 then [c.toLower] else [c]
  cased c := c.isAlpha
  ignorable c := c == '\'' || c == '.' || c == ':' || c == '^' || c == '\u0060'
  some c := by split <;> exact List.cons_ne_nil _ _
  ascii c ascii := if_pos ascii
  asciiCased _ _ := rfl
  letters c big d mem ascii := by
    rw [if_neg (Nat.not_lt.mpr big), List.mem_singleton] at mem
    rw [mem] at ascii
    exact absurd ascii (Nat.not_lt.mpr big)
  space c space := by
    have noLetter := isAlpha_of_isSpace space
    have same : c.toLower = c := by
      unfold Char.toLower
      rw [dif_neg]
      rintro upper
      rw [Text.isAlpha_eq, Text.isUpper_eq, decide_eq_true upper] at noLetter
      cases noLetter
    refine ⟨?_, noLetter, ?_⟩
    · rw [same]
      exact ite_self _
    · cases mark : (c == '\'' || c == '.' || c == ':' || c == '^' || c == '\u0060') with
      | false => rfl
      | true =>
          simp only [Bool.or_eq_true, beq_iff_eq] at mark
          rcases mark with (((rfl | rfl) | rfl) | rfl) | rfl <;> exact absurd space (by decide)

end AgentOs.Lib
