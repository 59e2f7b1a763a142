import Mathlib.Data.List.Basic

/-!
Lists addressed by place.

A pool of processes is a list: a process is started by appending it and steps by
`List.set` at its place, so a place names the same process in every later state.
These are the two case splits on what is found at a place after that.

`Exclusive clash done`: of two processes that clash, one is done. A process that
starts when those it clashes with are done keeps this, and so does a step.
-/

namespace AgentOs.Lib

variable {α : Type*} {l : List α} {i j : Nat} {x y : α}

theorem getElem?_set_cases (h : (l.set i x)[j]? = some y) :
    j = i ∧ y = x ∨ j ≠ i ∧ l[j]? = some y := by
  rw [List.getElem?_set] at h
  split at h
  · rename_i same
    split at h
    · exact .inl ⟨same.symm, (Option.some.inj h).symm⟩
    · cases h
  · rename_i other
    exact .inr ⟨fun same => other same.symm, h⟩

theorem getElem?_concat_cases (h : (l ++ [x])[j]? = some y) :
    l[j]? = some y ∨ j = l.length ∧ y = x := by
  rw [List.getElem?_append] at h
  split at h
  · exact .inl h
  · rename_i beyond
    rw [List.getElem?_singleton] at h
    split at h
    · exact .inr ⟨by omega, (Option.some.inj h).symm⟩
    · cases h

theorem getElem?_set_self_of_getElem? (h : l[i]? = some y) : (l.set i x)[i]? = some x :=
  List.getElem?_set_self (List.getElem?_eq_some_iff.mp h).1

theorem getElem?_concat_of_getElem? (h : l[j]? = some y) : (l ++ [x])[j]? = some y := by
  rw [List.getElem?_append_left (List.getElem?_eq_some_iff.mp h).1, h]

/-- Nothing is found in an empty pool. -/
theorem getElem?_ne_of_nil (h : l = []) : l[i]? ≠ some x := by
  rw [h]
  intro found
  cases found

/-- A step a projection does not see leaves what is read off the pool. -/
theorem filterMap_set_of_eq {β : Type*} {f : α → Option β} (here : l[i]? = some y)
    (same : f x = f y) : (l.set i x).filterMap f = l.filterMap f := by
  induction l generalizing i with
  | nil => rfl
  | cons a l ih =>
      cases i with
      | zero =>
          cases here
          rw [List.set_cons_zero, List.filterMap_cons, List.filterMap_cons, same]
      | succ i => rw [List.set_cons_succ, List.filterMap_cons, List.filterMap_cons, ih here]

/-- A step by which an item first shows in a projection adds what it shows. -/
theorem filterMap_set_perm {β : Type*} {f : α → Option β} {shown : β} (here : l[i]? = some y)
    (before : f y = none) (after : f x = some shown) :
    ((l.set i x).filterMap f).Perm (l.filterMap f ++ [shown]) := by
  induction l generalizing i with
  | nil => cases here
  | cons a l ih =>
      cases i with
      | zero =>
          cases here
          rw [List.set_cons_zero, List.filterMap_cons, List.filterMap_cons, before, after]
          exact (List.perm_append_singleton shown (l.filterMap f)).symm
      | succ i =>
          have rest := ih here
          rw [List.set_cons_succ, List.filterMap_cons, List.filterMap_cons]
          cases f a with
          | none => exact rest
          | some b => exact rest.cons b

/-! ### One at a time -/

/-- Of two items that clash, at different places, one is done. -/
def Exclusive (clash : α → α → Prop) (done : α → Prop) (l : List α) : Prop :=
  ∀ (i j : Nat) x y, l[i]? = some x → l[j]? = some y → clash x y → i ≠ j → done x ∨ done y

namespace Exclusive

variable {clash : α → α → Prop} {done : α → Prop}

theorem of_nil (h : l = []) : Exclusive clash done l :=
  fun _ _ _ _ found => absurd found (getElem?_ne_of_nil h)

/-- What clashes with an item that is not done is done. -/
theorem other (h : Exclusive clash done l) (here : l[i]? = some x) (going : ¬done x)
    (there : l[j]? = some y) (clashes : clash x y) (ne : j ≠ i) : done y := by
  rcases h i j x y here there clashes (Ne.symm ne) with ended | ended
  · exact absurd ended going
  · exact ended

theorem concat (h : Exclusive clash done l) (symm : ∀ x y, clash x y → clash y x)
    (free : ∀ y ∈ l, clash y x → done y) : Exclusive clash done (l ++ [x]) := by
  intro i j a b hi hj clashes ne
  rcases getElem?_concat_cases hi with oldI | ⟨lastI, rfl⟩
  · rcases getElem?_concat_cases hj with oldJ | ⟨lastJ, rfl⟩
    · exact h i j a b oldI oldJ clashes ne
    · exact .inl (free a (List.mem_of_getElem? oldI) clashes)
  · rcases getElem?_concat_cases hj with oldJ | ⟨lastJ, rfl⟩
    · exact .inr (free b (List.mem_of_getElem? oldJ) (symm _ _ clashes))
    · omega

theorem set (h : Exclusive clash done l) (symm : ∀ x y, clash x y → clash y x)
    (here : l[i]? = some y) (going : ¬done y) (same : ∀ z, clash x z → clash y z) :
    Exclusive clash done (l.set i x) := by
  intro j k a b hj hk clashes ne
  rcases getElem?_set_cases hj with ⟨rfl, rfl⟩ | ⟨nj, oldJ⟩
  · rcases getElem?_set_cases hk with ⟨rfl, rfl⟩ | ⟨nk, oldK⟩
    · exact absurd rfl ne
    · exact .inr (h.other here going oldK (same b clashes) nk)
  · rcases getElem?_set_cases hk with ⟨rfl, rfl⟩ | ⟨nk, oldK⟩
    · exact .inl (h.other here going oldJ (same a (symm _ _ clashes)) nj)
    · exact h j k a b oldJ oldK clashes ne

end Exclusive

end AgentOs.Lib
