import Mathlib.Order.Lattice

/-!
Tables whose entries bear the date of what they were made of.

The source has a dated content at some keys. `Timely` says that no date is later than the clock,
and that an entry which is not older than the content at its key is made of it. It is kept when
contents change at dates later than the clock (`Timely.change`), and when entries are dropped or
made of what is there (`Timely.update`); so comparing dates tells which entries are current
(`Timely.current_iff`).
-/

namespace AgentOs.Lib

universe u v w x

/-- What a table is made of: contents by key, with their dates. -/
structure Derivation (σ : Type u) (τ : Type v) (μ : Type w) where
  /-- the entry made of a content, where one can be made -/
  derive : σ → μ → Option τ
  stamp : τ → μ
  stamped : ∀ {content date entry}, derive content date = some entry → stamp entry = date

/-- Dates are up to the clock, and what is as young as its content is made of it. -/
structure Timely {κ : Type x} {σ : Type u} {τ : Type v} {μ : Type w} [LinearOrder μ]
    (D : Derivation σ τ μ) (clock : μ) (source : κ → Option (σ × μ)) (table : κ → Option τ) :
    Prop where
  dated : ∀ {key content date}, source key = some (content, date) → date ≤ clock
  stamps : ∀ {key entry}, table key = some entry → D.stamp entry ≤ clock
  made : ∀ {key entry content date}, table key = some entry →
    source key = some (content, date) →
      D.stamp entry < date ∨ D.derive content date = some entry

/-- Contents change at later dates only. -/
def Advances {κ : Type x} {σ : Type u} {μ : Type w} [LinearOrder μ] (clock clock' : μ)
    (source source' : κ → Option (σ × μ)) : Prop :=
  clock ≤ clock' ∧ ∀ key content date, source' key = some (content, date) →
    source key = some (content, date) ∨ clock < date ∧ date ≤ clock'

namespace Timely

variable {κ : Type x} {σ : Type u} {τ : Type v} {μ : Type w} [LinearOrder μ]
  {D : Derivation σ τ μ} {clock clock' : μ} {source source' : κ → Option (σ × μ)}
  {table table' : κ → Option τ}

/-- An empty table is timely. -/
theorem empty (dated : ∀ {key content date}, source key = some (content, date) → date ≤ clock)
    (none : ∀ key, table key = none) : Timely D clock source table where
  dated := dated
  stamps there := absurd ((none _).symm.trans there) (Option.some_ne_none _).symm
  made there := absurd ((none _).symm.trans there) (Option.some_ne_none _).symm

theorem change (timely : Timely D clock source table)
    (advances : Advances clock clock' source source') : Timely D clock' source' table where
  dated there := by
    rcases advances.2 _ _ _ there with same | ⟨-, upTo⟩
    · exact (timely.dated same).trans advances.1
    · exact upTo
  stamps there := (timely.stamps there).trans advances.1
  made entry there := by
    rcases advances.2 _ _ _ there with same | ⟨later, -⟩
    · exact timely.made entry same
    · exact .inl ((timely.stamps entry).trans_lt later)

/-- Entries are kept, dropped, or made of what is there. -/
theorem update (timely : Timely D clock source table)
    (from_ : ∀ key entry, table' key = some entry → table key = some entry ∨
      ∃ content date, source key = some (content, date) ∧ D.derive content date = some entry) :
    Timely D clock source table' where
  dated := timely.dated
  stamps there := by
    rcases from_ _ _ there with kept | ⟨content, date, here, derived⟩
    · exact timely.stamps kept
    · rw [D.stamped derived]
      exact timely.dated here
  made there at_ := by
    rcases from_ _ _ there with kept | ⟨content, date, here, derived⟩
    · exact timely.made kept at_
    · rw [at_] at here
      cases here
      exact .inr derived

/-- **An entry is current exactly if it is not older than its content.** -/
theorem current_iff (timely : Timely D clock source table) {key : κ} {entry : τ} {content : σ}
    {date : μ} (there : table key = some entry) (here : source key = some (content, date)) :
    ¬ D.stamp entry < date ↔ D.derive content date = some entry := by
  constructor
  · exact (timely.made there here).resolve_left
  · intro derived
    rw [D.stamped derived]
    exact lt_irrefl date

end Timely

end AgentOs.Lib
