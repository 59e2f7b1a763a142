import AgentOs.Lib.Bytes
import AgentOs.Lib.Calendar
import Mathlib.Algebra.Order.Ring.Nat

/-!
Times as text.

`isoformat` writes a UTC time as `YYYY-MM-DDTHH:MM:SS`, with six digits of
microseconds after a dot where there are any, and `+00:00` at the end. So texts
differ in length; they still compare, byte by byte, as the times do
(`isoformat_lt_iff`): `+` comes before `.`, and the rest has fixed width.
`fromisoformat` reads such a text back (`fromisoformat_isoformat`).
-/

namespace AgentOs.Lib

open Calendar

/-! ### Digits -/

/-- `n` with `width` digits, zeros in front. -/
def zeroPad : ℕ → ℕ → List Char
  | 0, _ => []
  | width + 1, n => Nat.digitChar (n / 10 ^ width % 10) :: zeroPad width n

/-- Read `width` digits. -/
def readPad : ℕ → List Char → Option (ℕ × List Char)
  | 0, cs => some (0, cs)
  | width + 1, c :: cs =>
      if c.isDigit then
        (readPad width cs).map fun (n, rest) => ((c.toNat - 48) * 10 ^ width + n, rest)
      else none
  | _ + 1, [] => none

theorem digitChar_spec : ∀ d < 10, (Nat.digitChar d).isDigit = true ∧
    (Nat.digitChar d).toNat - 48 = d ∧
    String.utf8EncodeChar (Nat.digitChar d) = [UInt8.ofNat (48 + d)] := by
  decide

theorem digitByte_lt : ∀ d < 10, ∀ e < 10,
    (UInt8.ofNat (48 + d) < UInt8.ofNat (48 + e) ↔ d < e) ∧
      (UInt8.ofNat (48 + d) = UInt8.ofNat (48 + e) ↔ d = e) := by
  decide

theorem readPad_zeroPad (width n : ℕ) (cs : List Char) :
    readPad width (zeroPad width n ++ cs) = some (n % 10 ^ width, cs) := by
  induction width with
  | zero => simp [readPad, zeroPad, Nat.mod_one]
  | succ width ih =>
      obtain ⟨digit, value, -⟩ := digitChar_spec (n / 10 ^ width % 10) (Nat.mod_lt _ (by decide))
      have split : n % 10 ^ (width + 1) = n / 10 ^ width % 10 * 10 ^ width + n % 10 ^ width := by
        rw [Nat.mod_pow_succ, Nat.mul_comm, Nat.add_comm]
      rw [zeroPad, List.cons_append, readPad, if_pos digit, ih, value, split]
      rfl

/-- **Padded numbers compare as numbers do**, and where they are equal what follows
decides. -/
theorem zeroPad_lt_iff (width m n : ℕ) (s t : List Char) :
    utf8 (zeroPad width m ++ s) < utf8 (zeroPad width n ++ t) ↔
      m % 10 ^ width < n % 10 ^ width ∨ m % 10 ^ width = n % 10 ^ width ∧ utf8 s < utf8 t := by
  induction width with
  | zero => simp [zeroPad, Nat.mod_one]
  | succ width ih =>
      have power : 0 < 10 ^ width := Nat.pow_pos (by decide)
      have bytes : ∀ k cs, utf8 (zeroPad (width + 1) k ++ cs) =
          UInt8.ofNat (48 + k / 10 ^ width % 10) :: utf8 (zeroPad width k ++ cs) := by
        intro k cs
        obtain ⟨-, -, encoded⟩ := digitChar_spec (k / 10 ^ width % 10) (Nat.mod_lt _ (by decide))
        rw [zeroPad, List.cons_append, utf8, List.flatMap_cons, encoded]
        rfl
      have position : ∀ k, k % 10 ^ (width + 1) =
          (Marks.uniform (10 ^ width) power).start (k / 10 ^ width % 10) + k % 10 ^ width := by
        intro k
        change _ = k / 10 ^ width % 10 * 10 ^ width + _
        rw [Nat.mod_pow_succ, Nat.mul_comm, Nat.add_comm]
      have within : ∀ k, (Marks.uniform (10 ^ width) power).Within (k / 10 ^ width % 10)
          (k % 10 ^ width) := fun k => Marks.within_uniform (Nat.mod_lt _ power)
      obtain ⟨digitLt, digitEq⟩ := digitByte_lt (m / 10 ^ width % 10) (Nat.mod_lt _ (by decide))
        (n / 10 ^ width % 10) (Nat.mod_lt _ (by decide))
      have less := Marks.lt_iff (within m) (within n)
      have more := Marks.lt_iff (within n) (within m)
      rw [← position, ← position] at less more
      rw [bytes, bytes, List.cons_lt_cons_iff, digitLt, digitEq, ih]
      by_cases later : utf8 s < utf8 t
      · simp only [later, and_true]
        omega
      · simp only [later, and_false, or_false]
        omega

/-! ### Texts of times -/

/-- The offset of UTC. -/
def zone : List Char := ['+', '0', '0', ':', '0', '0']

/-- Microseconds, where there are any. -/
def fraction (microsecond : ℕ) : List Char :=
  if microsecond = 0 then [] else '.' :: zeroPad 6 microsecond

namespace UtcDateTime

/-- The characters of a time. -/
def isoChars (d : UtcDateTime) : List Char :=
  zeroPad 4 d.year ++ '-' :: (zeroPad 2 d.month ++ '-' :: (zeroPad 2 d.day ++ 'T' ::
    (zeroPad 2 d.hour ++ ':' :: (zeroPad 2 d.minute ++ ':' :: (zeroPad 2 d.second ++
      (fraction d.microsecond ++ zone))))))

/-- `datetime.isoformat()`. -/
def isoformat (d : UtcDateTime) : String := .ofList d.isoChars

theorem fraction_lt_iff {m n : ℕ} (hm : m < 1000000) (hn : n < 1000000) :
    utf8 (fraction m ++ zone) < utf8 (fraction n ++ zone) ↔ m < n := by
  have plus_dot : ∀ cs, utf8 zone < utf8 ('.' :: cs) ∧ ¬utf8 ('.' :: cs) < utf8 zone := by
    intro cs
    have dot : utf8 ('.' :: cs) = 46 :: utf8 cs := rfl
    have plus : utf8 zone = 43 :: utf8 ['0', '0', ':', '0', '0'] := rfl
    rw [dot, plus, List.cons_lt_cons_iff, List.cons_lt_cons_iff]
    have less : (43 : UInt8) < 46 ∧ ¬(46 : UInt8) < 43 ∧ (46 : UInt8) ≠ 43 := by decide
    exact ⟨.inl less.1, fun h => h.elim less.2.1 fun same => less.2.2 same.1⟩
  by_cases m0 : m = 0
  · by_cases n0 : n = 0
    · subst m0 n0
      simp
    · rw [fraction, if_pos m0, fraction, if_neg n0]
      have := (plus_dot (zeroPad 6 n ++ zone)).1
      constructor
      · intro _
        omega
      · intro _
        exact this
  · by_cases n0 : n = 0
    · rw [fraction, if_neg m0, fraction, if_pos n0]
      have := (plus_dot (zeroPad 6 m ++ zone)).2
      constructor
      · intro h
        exact absurd h this
      · intro h
        omega
    · rw [fraction, if_neg m0, fraction, if_neg n0, List.cons_append, List.cons_append]
      have dotted := utf8_append_lt_iff ['.'] (zeroPad 6 m ++ zone) (zeroPad 6 n ++ zone)
      rw [List.singleton_append, List.singleton_append] at dotted
      have six : ∀ {k}, k < 1000000 → k % 10 ^ 6 = k := fun h => Nat.mod_eq_of_lt h
      rw [dotted, zeroPad_lt_iff, six hm, six hn]
      simp

/-- **Texts of times compare as the times do.** -/
theorem isoformat_lt_iff (a b : UtcDateTime) : TextLt a.isoformat b.isoformat ↔ a < b := by
  have da := a.validDate
  have db := b.validDate
  have ta := a.validTime
  have tb := b.validTime
  have dayA := daysInMonth_le a.year a.month
  have dayB := daysInMonth_le b.year b.month
  have skip : ∀ (c : Char) (s t : List Char), utf8 (c :: s) < utf8 (c :: t) ↔ utf8 s < utf8 t :=
    fun c => utf8_append_lt_iff [c]
  have two : ∀ {n}, n < 100 → n % 10 ^ 2 = n := fun h => Nat.mod_eq_of_lt h
  have four : ∀ {n}, n < 10000 → n % 10 ^ 4 = n := fun h => Nat.mod_eq_of_lt h
  unfold TextLt isoformat isoChars
  rw [String.toList_ofList, String.toList_ofList]
  simp only [zeroPad_lt_iff, skip, fraction_lt_iff ta.2.2.2 tb.2.2.2]
  rw [four (by omega), four (by omega), two (by omega), two (by omega), two (by omega),
    two (by omega), two (by omega), two (by omega), two (by omega), two (by omega), two (by omega),
    two (by omega), lt_iff_instant, instant_lt_iff]

theorem isoformat_le_iff (a b : UtcDateTime) : TextLe a.isoformat b.isoformat ↔ a ≤ b := by
  unfold TextLe
  rw [isoformat_lt_iff, not_lt]

/-! ### Reading a time -/

/-- Read one character. -/
def expect (c : Char) : List Char → Option (List Char)
  | [] => none
  | c' :: cs => if c' = c then some cs else none

/-- Read microseconds, where there are any. -/
def readFraction : List Char → Option (ℕ × List Char)
  | '.' :: cs => readPad 6 cs
  | cs => some (0, cs)

/-- Read three numbers with a separator between them; the first has `width` digits. -/
def readThree (width : ℕ) (separator : Char) (cs : List Char) :
    Option ((ℕ × ℕ × ℕ) × List Char) := do
  let (a, cs) ← readPad width cs
  let cs ← expect separator cs
  let (b, cs) ← readPad 2 cs
  let cs ← expect separator cs
  let (c, cs) ← readPad 2 cs
  some ((a, b, c), cs)

/-- Read the fields of a time. -/
def readFields (cs : List Char) : Option UtcDateTime := do
  let ((year, month, day), cs) ← readThree 4 '-' cs
  let cs ← expect 'T' cs
  let ((hour, minute, second), cs) ← readThree 2 ':' cs
  let (microsecond, cs) ← readFraction cs
  if valid : ((1 ≤ year ∧ year ≤ 9999) ∧ (1 ≤ month ∧ month ≤ 12) ∧
      1 ≤ day ∧ day ≤ daysInMonth year month) ∧
      (hour < 24 ∧ minute < 60 ∧ second < 60 ∧ microsecond < 1000000) ∧ cs = zone then
    some ⟨year, month, day, hour, minute, second, microsecond, valid.1, valid.2.1⟩
  else none

/-- `datetime.fromisoformat(s)`, on what `isoformat` writes. -/
@[irreducible] def fromisoformat (s : String) : Except String UtcDateTime :=
  match readFields s.toList with
  | some d => .ok d
  | none => .error ("Invalid isoformat string: " ++ s)

theorem expect_self (c : Char) (cs : List Char) : expect c (c :: cs) = some cs := if_pos rfl

theorem readThree_zeroPad (width a b c : ℕ) (separator : Char) (cs : List Char) :
    readThree width separator (zeroPad width a ++ separator :: (zeroPad 2 b ++ separator ::
      (zeroPad 2 c ++ cs))) = some ((a % 10 ^ width, b % 10 ^ 2, c % 10 ^ 2), cs) := by
  simp only [readThree, readPad_zeroPad, expect_self, Option.bind_eq_bind, Option.bind_some]

theorem readFraction_fraction {n : ℕ} (h : n < 1000000) :
    readFraction (fraction n ++ zone) = some (n, zone) := by
  unfold fraction
  by_cases none : n = 0
  · rw [if_pos none, none]
    rfl
  · rw [if_neg none, List.cons_append, readFraction, readPad_zeroPad]
    congr 2
    exact Nat.mod_eq_of_lt h

/-- **What is written is read back.** -/
@[simp] theorem fromisoformat_isoformat (d : UtcDateTime) :
    fromisoformat d.isoformat = .ok d := by
  have date := d.validDate
  have time := d.validTime
  have day : d.day < 100 := Nat.lt_of_le_of_lt (date.2.2.2.trans (daysInMonth_le _ _)) (by decide)
  have two : ∀ {n}, n < 100 → n % 10 ^ 2 = n := fun h => Nat.mod_eq_of_lt h
  have four : d.year % 10 ^ 4 = d.year := Nat.mod_eq_of_lt (by omega)
  have read : readFields d.isoformat.toList = some d := by
    rw [isoformat, String.toList_ofList, isoChars, readFields, readThree_zeroPad]
    dsimp only [Option.bind_eq_bind, Option.bind_some]
    rw [expect_self]
    dsimp only [Option.bind_some]
    rw [readThree_zeroPad]
    dsimp only [Option.bind_some]
    rw [readFraction_fraction time.2.2.2]
    dsimp only [Option.bind_some]
    rw [four, two (by omega), two day, two (by omega), two (by omega), two (by omega)]
    exact dif_pos ⟨date, time, rfl⟩
  unfold fromisoformat
  rw [read]

end UtcDateTime

end AgentOs.Lib
