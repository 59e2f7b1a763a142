import Mathlib.Algebra.Order.Field.Basic
import Mathlib.Data.List.Sort

/-!
The best of a list.

`ranked` orders items by their scores, the best first, and keeps the order of those that score the
same. Where only the first of them are taken, no item that is left out scores better than one that
is taken (`mem_take_ranked_or`). A score that is summed up from parts none of which is negative is
positive where one of the parts is (`sumScore_pos_iff`).
-/

namespace AgentOs.Lib

variable {α K : Type} [LinearOrder K] {score : α → K} {items : List α} {x : α}

/-- `sorted(…, key=score, reverse=True)` -/
def ranked (score : α → K) (items : List α) : List α :=
  items.insertionSort fun a b => score b ≤ score a

theorem ranked_perm : (ranked score items).Perm items := List.perm_insertionSort _ _

theorem mem_ranked : x ∈ ranked score items ↔ x ∈ items := ranked_perm.mem_iff

/-- The best come first. -/
theorem ranked_pairwise : (ranked score items).Pairwise fun a b => score b ≤ score a := by
  have : Std.Total fun a b => score b ≤ score a := ⟨fun a b => le_total (score b) (score a)⟩
  have : IsTrans α fun a b => score b ≤ score a := ⟨fun _ _ _ first second => second.trans first⟩
  exact List.pairwise_insertionSort _ items

/-- What is left out is no better than what is taken, and is left out only where enough is taken. -/
theorem mem_take_ranked_or (n : ℕ) (mem : x ∈ items) : x ∈ (ranked score items).take n ∨
    ((ranked score items).take n).length = n ∧
      ∀ y ∈ (ranked score items).take n, score x ≤ score y := by
  have order := @ranked_pairwise _ _ _ score items
  rw [← List.take_append_drop n (ranked score items), List.pairwise_append] at order
  have there := (@mem_ranked _ _ _ score items x).mpr mem
  rw [← List.take_append_drop n (ranked score items), List.mem_append] at there
  refine there.imp_right fun dropped => ⟨?_, fun y taken => order.2.2 y taken x dropped⟩
  have longer := List.length_pos_of_mem dropped
  rw [List.length_drop] at longer
  rw [List.length_take]
  omega

variable [AddCommMonoid K] [IsOrderedCancelAddMonoid K]

/-- A score that is summed up. -/
def sumScore (part : α → K) (items : List α) : K :=
  items.foldl (fun total item => total + part item) 0

/-- Some part counts. -/
theorem sumScore_pos_iff {part : α → K} (nonneg : ∀ item ∈ items, 0 ≤ part item) :
    0 < sumScore part items ↔ ∃ item ∈ items, 0 < part item := by
  have total : ∀ {start : K}, 0 ≤ start → (0 < items.foldl (fun t item => t + part item) start ↔
      0 < start ∨ ∃ item ∈ items, 0 < part item) := by
    induction items with
    | nil => simp
    | cons first items ih =>
        intro start begun
        have head := nonneg first List.mem_cons_self
        rw [List.foldl_cons, ih (fun item mem => nonneg item (List.mem_cons_of_mem _ mem))
          (add_nonneg begun head), List.exists_mem_cons_iff, ← or_assoc]
        refine or_congr_left ⟨fun positive => ?_, fun either => ?_⟩
        · by_contra neither
          rw [not_or, not_lt, not_lt] at neither
          exact absurd positive (not_lt.mpr (add_nonpos neither.1 neither.2))
        · rcases either with first | second
          · exact add_pos_of_pos_of_nonneg first head
          · exact add_pos_of_nonneg_of_pos begun second
  rw [sumScore, total le_rfl]
  exact or_iff_right (lt_irrefl _)

end AgentOs.Lib
