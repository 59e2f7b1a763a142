import Mathlib.Data.List.Basic

/-!
Compacted logs.

Of a log the last entries are kept. Those before them were cut off in chunks, and each chunk went
into a digest, together with the digest that there was. `Digested` says which entries a digest
stands for, and `Compacted` that the log as it would be uncut is what was forgotten, what the digest
stands for, and what is kept. Writing, cutting and forgetting keep it so.
-/

namespace AgentOs.Lib

variable {α δ : Type}

/-- The entries that a digest stands for. `answers digest chunk new` says that `new` was made of a
digest and a chunk. -/
inductive Digested (answers : Option δ → List α → δ → Prop) : Option δ → List α → Prop where
  | nothing : Digested answers none []
  | next {digest : Option δ} {old chunk : List α} {new : δ} : Digested answers digest old →
      answers digest chunk new → Digested answers (some new) (old ++ chunk)

/-- A log as it would be uncut, and what there is of it. -/
def Compacted (answers : Option δ → List α → δ → Prop) (full forgotten : List α)
    (digest : Option δ) (kept : List α) : Prop :=
  ∃ old, full = forgotten ++ (old ++ kept) ∧ Digested answers digest old

namespace Compacted

variable {answers : Option δ → List α → δ → Prop} {full forgotten kept : List α}
  {digest : Option δ}

theorem empty : Compacted answers [] [] none [] := ⟨[], rfl, .nothing⟩

theorem append (h : Compacted answers full forgotten digest kept) (more : List α) :
    Compacted answers (full ++ more) forgotten digest (kept ++ more) := by
  obtain ⟨old, whole, digested⟩ := h
  refine ⟨old, ?_, digested⟩
  rw [whole, List.append_assoc, List.append_assoc]

/-- The first entries that are kept go into the digest. -/
theorem cut (h : Compacted answers full forgotten digest kept) {n : ℕ} {new : δ}
    (made : answers digest (kept.take n) new) :
    Compacted answers full forgotten (some new) (kept.drop n) := by
  obtain ⟨old, whole, digested⟩ := h
  refine ⟨old ++ kept.take n, ?_, digested.next made⟩
  rw [List.append_assoc, List.take_append_drop]
  exact whole

/-- Without its digest, what it stood for is forgotten. -/
theorem forget (h : Compacted answers full forgotten digest kept) :
    Compacted answers full (full.take (full.length - kept.length)) none kept := by
  obtain ⟨old, whole, _⟩ := h
  refine ⟨[], ?_, .nothing⟩
  have before : full.take (full.length - kept.length) = forgotten ++ old := by
    rw [whole, ← List.append_assoc, List.length_append, Nat.add_sub_cancel]
    exact List.take_left
  rw [before, List.nil_append, List.append_assoc]
  exact whole

/-- Where there is no digest, all is kept that is not forgotten. -/
theorem of_none (h : Compacted answers full forgotten none kept) : full = forgotten ++ kept := by
  obtain ⟨old, whole, digested⟩ := h
  cases digested
  exact whole

theorem suffix (h : Compacted answers full forgotten digest kept) : kept <:+ full := by
  obtain ⟨old, whole, _⟩ := h
  rw [whole]
  exact (List.suffix_append old kept).trans (List.suffix_append forgotten _)

end Compacted

end AgentOs.Lib
