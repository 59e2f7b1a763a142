import Mathlib.Data.Nat.Find
import Mathlib.Order.Monotone.Basic

/-!
Marks on a ruler.

Strictly increasing marks cut the numbers into cells; a position is a cell and an
offset in it. The order of positions is the order of cells, then of offsets
(`lt_iff`), and `locate` finds the cell of a position (`start_locate_le`,
`lt_start_locate`). Cells may have different sizes: years and months do; digits of
a number in a base do not (`uniform`).
-/

namespace AgentOs.Lib

/-- Where each cell begins. -/
structure Marks where
  start : ℕ → ℕ
  zero : start 0 = 0
  increasing : ∀ k, start k < start (k + 1)

namespace Marks

/-- Cells of one size. -/
def uniform (size : ℕ) (positive : 0 < size) : Marks where
  start k := k * size
  zero := Nat.zero_mul _
  increasing k := by
    rw [Nat.succ_mul]
    omega

variable (marks : Marks)

/-- The offset lies in the cell. -/
def Within (cell offset : ℕ) : Prop := marks.start cell + offset < marks.start (cell + 1)

instance (cell offset : ℕ) : Decidable (marks.Within cell offset) :=
  inferInstanceAs (Decidable (_ < _))

theorem strictMono : StrictMono marks.start := strictMono_nat_of_lt_succ marks.increasing

variable {marks}

/-- **Positions are ordered by cell, then by offset.** -/
theorem lt_iff {k r k' r' : ℕ} (h : marks.Within k r) (h' : marks.Within k' r') :
    marks.start k + r < marks.start k' + r' ↔ k < k' ∨ k = k' ∧ r < r' := by
  have later : ∀ {k r k' : ℕ}, marks.Within k r → k < k' → marks.start k + r < marks.start k' := by
    intro k r k' within less
    exact Nat.lt_of_lt_of_le within (marks.strictMono.monotone less)
  constructor
  · intro less
    rcases Nat.lt_trichotomy k k' with before | rfl | after
    · exact .inl before
    · exact .inr ⟨rfl, by omega⟩
    · have := later h' after
      omega
  · rintro (before | ⟨rfl, less⟩)
    · have := later h before
      omega
    · omega

/-- The cell of a position, sought from `guess` down. -/
def locate (marks : Marks) (guess position : ℕ) : ℕ :=
  Nat.findGreatest (fun k => marks.start k ≤ position) guess

theorem start_locate_le (guess position : ℕ) :
    marks.start (marks.locate guess position) ≤ position :=
  Nat.findGreatest_spec (P := fun k => marks.start k ≤ position) (Nat.zero_le guess)
    (by rw [marks.zero]; exact Nat.zero_le _)

/-- A guess that is not too small finds the cell. -/
theorem lt_start_locate {guess position : ℕ} (h : position < marks.start (guess + 1)) :
    position < marks.start (marks.locate guess position + 1) := by
  by_contra beyond
  rcases Nat.lt_or_ge (marks.locate guess position) guess with less | same
  · exact Nat.findGreatest_is_greatest (Nat.lt_succ_self _) less (Nat.not_lt.mp beyond)
  · have top : marks.locate guess position = guess :=
      Nat.le_antisymm (Nat.findGreatest_le guess) same
    rw [top] at beyond
    exact beyond h

/-- The offset of a position in its cell. -/
theorem within_locate {guess position : ℕ} (h : position < marks.start (guess + 1)) :
    marks.Within (marks.locate guess position)
      (position - marks.start (marks.locate guess position)) := by
  have below := @start_locate_le marks guess position
  have above := lt_start_locate h
  unfold Within
  omega

/-- In a ruler of equal cells an offset is below the size. -/
theorem within_uniform {size : ℕ} {positive : 0 < size} {k r : ℕ} (h : r < size) :
    (uniform size positive).Within k r := by
  change k * size + r < (k + 1) * size
  rw [Nat.succ_mul]
  omega

end Marks

end AgentOs.Lib
