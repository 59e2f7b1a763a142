import Mathlib.Data.List.Pairwise
import Mathlib.Data.List.Range
import Mathlib.Data.List.Sort

/-!
Records numbered by "one more than the largest number so far".

A log whose entries were all numbered this way carries the numbers `1, 2, …, n`
in order (`Numbered`), so what comes after a cursor is a suffix of the log
(`filter_after`), already in order (`sorted_after`).
-/

namespace AgentOs.Lib

variable {α : Type} (seq : α → Nat)

/-- One more than the largest number in use, or 1. -/
def nextSeq (log : List α) : Nat :=
  (log.map seq).foldr max 0 + 1

/-- The entries carry the numbers `1, …, n`, in order. -/
def Numbered (log : List α) : Prop :=
  log.map seq = List.range' 1 log.length

variable {seq} {log : List α}

theorem foldr_max_range' (start n : Nat) :
    (List.range' start (n + 1)).foldr max 0 = start + n := by
  induction n generalizing start with
  | zero => simp
  | succ n ih =>
      rw [List.range'_succ, List.foldr_cons, ih]
      omega

/-- The next number is not in use. -/
theorem nextSeq_notMem : nextSeq seq log ∉ log.map seq := by
  intro mem
  have le : ∀ (numbers : List Nat), ∀ n ∈ numbers, n ≤ numbers.foldr max 0 := by
    intro numbers
    induction numbers with
    | nil => simp
    | cons m rest ih =>
        intro n hn
        rw [List.foldr_cons]
        rcases List.mem_cons.mp hn with rfl | hn
        · exact le_max_left _ _
        · exact (ih n hn).trans (le_max_right _ _)
  have := le _ _ mem
  unfold nextSeq at this
  omega

theorem nextSeq_of_numbered (h : Numbered seq log) : nextSeq seq log = log.length + 1 := by
  unfold nextSeq
  rw [h]
  cases log.length with
  | zero => rfl
  | succ n => rw [foldr_max_range', Nat.add_comm 1 n]

theorem numbered_nil : Numbered seq [] := rfl

/-- Appending an entry with the next number keeps a log numbered. -/
theorem Numbered.concat (h : Numbered seq log) {a : α} (next : seq a = nextSeq seq log) :
    Numbered seq (log ++ [a]) := by
  rw [nextSeq_of_numbered h] at next
  unfold Numbered at h ⊢
  rw [List.map_append, h, List.length_append, List.length_singleton, List.range'_concat]
  simp [next, Nat.add_comm]

theorem Numbered.pairwise (h : Numbered seq log) : log.Pairwise fun a b => seq a < seq b := by
  have := List.pairwise_lt_range' (s := 1) (n := log.length) 1
  rw [← h, List.pairwise_map] at this
  exact this

/-- The number of an entry is its place. -/
theorem Numbered.seq_getElem (h : Numbered seq log) {i : Nat} (hi : i < log.length) :
    seq log[i] = i + 1 := by
  have at_i : (log.map seq)[i]? = (List.range' 1 log.length)[i]? := by rw [h]
  rw [List.getElem?_map, List.getElem?_eq_getElem hi,
    List.getElem?_eq_getElem (by simpa using hi)] at at_i
  simpa [Nat.add_comm] using at_i

theorem Numbered.of_prefix (h : Numbered seq log) {early : List α} (pre : early <+: log) :
    Numbered seq early := by
  obtain ⟨late, rfl⟩ := pre
  have numbers := congrArg (List.take early.length) h
  rw [List.map_append, List.take_append_of_le_length (by simp), List.length_append,
    List.take_of_length_le (by simp)] at numbers
  rw [Numbered, numbers]
  exact List.take_range'_of_length_ge (Nat.le_add_right _ _)

/-- What comes after a cursor is a suffix. -/
theorem filter_after (h : Numbered seq log) (after : Int) :
    log.filter (fun a => after < (seq a : Int)) = log.drop after.toNat := by
  have split := List.take_append_drop after.toNat log
  conv_lhs => rw [← split]
  rw [List.filter_append]
  have early : (log.take after.toNat).filter (fun a => after < (seq a : Int)) = [] := by
    rw [List.filter_eq_nil_iff]
    intro a mem
    obtain ⟨i, hi, rfl⟩ := List.getElem_of_mem mem
    have bound : i < after.toNat ∧ i < log.length := by
      rw [List.length_take] at hi
      omega
    rw [List.getElem_take, h.seq_getElem bound.2]
    simp only [decide_eq_true_eq]
    omega
  have late : (log.drop after.toNat).filter (fun a => after < (seq a : Int)) =
      log.drop after.toNat := by
    rw [List.filter_eq_self]
    intro a mem
    obtain ⟨i, hi, rfl⟩ := List.getElem_of_mem mem
    have bound : after.toNat + i < log.length := by
      rw [List.length_drop] at hi
      omega
    rw [List.getElem_drop, h.seq_getElem bound]
    simp only [decide_eq_true_eq]
    omega
  rw [early, late, List.nil_append]

/-- Sorting what comes after a cursor by number changes nothing. -/
theorem sorted_after (h : Numbered seq log) (after : Int) :
    (log.filter fun a => after < (seq a : Int)).insertionSort (fun a b => seq a ≤ seq b) =
      log.filter fun a => after < (seq a : Int) :=
  List.Pairwise.insertionSort_eq ((h.pairwise.filter _).imp fun lt => lt.le)

end AgentOs.Lib
