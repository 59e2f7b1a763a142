import Mathlib.Data.Option.Basic

/-!
Database transactions.

A `Transaction` is a program of statements on a working copy of the store. Where
it commits, the working copy becomes the store; where it rolls back or raises,
the working copy is dropped (`attempt_raised`). A statement can raise by itself
(a constraint), and any statement can be the one at which the connection fails:
`fault` gives the number of the statement and what is raised. A fault either
comes too late to matter or leaves the store as it was (`attempt_fault`).
-/

namespace AgentOs.Lib

/-- What may raise, and then goes on. -/
theorem bind_eq_ok_iff {ε α β : Type} {x : Except ε α} {f : α → Except ε β} {b : β} :
    x >>= f = .ok b ↔ ∃ a, x = .ok a ∧ f a = .ok b := by
  cases x with
  | error e => exact ⟨nofun, fun ⟨_, h, _⟩ => nomatch h⟩
  | ok a => exact ⟨fun h => ⟨a, rfl, h⟩, fun ⟨_, h, h'⟩ => Except.ok.inj h ▸ h'⟩

/-- Statements on a store `σ` that answer `α` or raise `ε`. -/
inductive Transaction (σ ε α : Type) where
  | commit (answer : α)
  | rollback (answer : α)
  /-- Roll back, then raise. -/
  | abort (error : ε)
  | select (next : σ → Transaction σ ε α)
  /-- A statement that writes; it says how many rows it touched. -/
  | execute (statement : σ → Except ε (Nat × σ)) (next : Nat → Transaction σ ε α)

namespace Transaction

variable {σ ε α : Type}

/-- Run against `stored`, with the connection failing at a given statement. -/
def attempt (stored : σ) : Transaction σ ε α → σ → Option (Nat × ε) → Except ε α × σ
  | _, _, some (0, error) => (.error error, stored)
  | .commit answer, working, _ => (.ok answer, working)
  | .rollback answer, _, _ => (.ok answer, stored)
  | .abort error, _, _ => (.error error, stored)
  | .select next, working, fault =>
      attempt stored (next working) working (fault.map fun f => (f.1 - 1, f.2))
  | .execute statement next, working, fault =>
      match statement working with
      | .error error => (.error error, stored)
      | .ok (rows, written) =>
          attempt stored (next rows) written (fault.map fun f => (f.1 - 1, f.2))

/-- Run a transaction on a store. -/
def perform (t : Transaction σ ε α) (stored : σ) (fault : Option (Nat × ε)) : Except ε α × σ :=
  t.attempt stored stored fault

variable {stored : σ}

theorem attempt_select {next : σ → Transaction σ ε α} {working : σ} :
    (select next).attempt stored working none = (next working).attempt stored working none := by
  simp [attempt]

/-- A statement that goes through. -/
theorem attempt_execute {statement : σ → Except ε (Nat × σ)} {next : Nat → Transaction σ ε α}
    {working written : σ} {rows : Nat} (h : statement working = .ok (rows, written)) :
    (execute statement next).attempt stored working none =
      (next rows).attempt stored written none := by
  simp [attempt, h]

/-- What raises leaves the store as it was. -/
theorem attempt_raised (t : Transaction σ ε α) (working : σ) (fault : Option (Nat × ε)) {error : ε}
    (h : (t.attempt stored working fault).1 = .error error) :
    (t.attempt stored working fault).2 = stored := by
  induction t generalizing working fault with
  | commit answer =>
      rcases fault with - | ⟨- | n, e⟩
      · cases h
      · rfl
      · cases h
  | rollback answer => rcases fault with - | ⟨- | n, e⟩ <;> rfl
  | abort e => rcases fault with - | ⟨- | n, e⟩ <;> rfl
  | select next ih =>
      rcases fault with - | ⟨- | n, e⟩
      · exact ih _ _ _ h
      · rfl
      · exact ih _ _ _ h
  | execute statement next ih =>
      rcases fault with - | ⟨- | n, e⟩
      · cases hs : statement working with
        | error e => simp only [attempt, hs]
        | ok written =>
            simp only [attempt, hs] at h ⊢
            exact ih _ _ _ h
      · rfl
      · cases hs : statement working with
        | error e => simp only [attempt, hs]
        | ok written =>
            simp only [attempt, hs] at h ⊢
            exact ih _ _ _ h

/-- A failing connection loses the whole transaction or nothing of it. -/
theorem attempt_fault (t : Transaction σ ε α) (working : σ) (n : Nat) (error : ε) :
    t.attempt stored working (some (n, error)) = t.attempt stored working none ∨
      t.attempt stored working (some (n, error)) = (.error error, stored) := by
  induction t generalizing working n with
  | commit answer => cases n <;> simp [attempt]
  | rollback answer => cases n <;> simp [attempt]
  | abort e => cases n <;> simp [attempt]
  | select next ih =>
      cases n with
      | zero => exact .inr (by simp [attempt])
      | succ n => exact ih working working n
  | execute statement next ih =>
      cases n with
      | zero => exact .inr (by simp [attempt])
      | succ n =>
          cases hs : statement working with
          | error e => exact .inl (by simp [attempt, hs])
          | ok written =>
              simp only [attempt, hs]
              exact ih written.1 written.2 n

theorem perform_raised {t : Transaction σ ε α} {fault : Option (Nat × ε)} {error : ε}
    (h : (t.perform stored fault).1 = .error error) : (t.perform stored fault).2 = stored :=
  attempt_raised t stored fault h

/-- What a transaction answers under a fault it answers without. -/
theorem perform_answered {t : Transaction σ ε α} {fault : Option (Nat × ε)} {answer : α}
    (h : (t.perform stored fault).1 = .ok answer) :
    t.perform stored fault = t.perform stored none := by
  unfold perform at *
  cases fault with
  | none => rfl
  | some f =>
      rcases @attempt_fault _ _ _ stored t stored f.1 f.2 with same | lost
      · exact same
      · rw [lost] at h
        cases h

end Transaction

end AgentOs.Lib
