import Mathlib.Data.List.Basic

/-!
Labelled machines and their runs.

A `Machine` answers a state and a label with the next state, or with `none`
where the label is not enabled. Everything nondeterministic in the system being
described (which party moves, what an outside call returns) is in the labels, so
a property of every label list is a property of every behaviour.

`Path M ok s ls t` is a run from `s` to `t` along `ls` in which every step meets
`ok` at the state it starts from. `Path.invariant` is the induction every safety
theorem uses, `Path.relation` its two-state form, and `Path.lockstep` the form
for two runs along the same labels. `run` is the executable run, for concrete
label lists (`run_eq_some_iff`; `run_restrict_iff` under a condition).

`serve` is a machine that answers every call; `serve_agree` compares two of them.
-/

namespace AgentOs.Lib

universe u v w

/-- A machine: the state after a label, or `none` where the label is not
enabled. -/
structure Machine (σ : Type u) (ℓ : Type v) where
  step : σ → ℓ → Option σ

namespace Machine

variable {σ : Type u} {ℓ : Type v}

/-- The state after a list of labels, or `none` where one is not enabled. -/
def run (M : Machine σ ℓ) : σ → List ℓ → Option σ
  | s, [] => some s
  | s, l :: ls => (M.step s l).bind fun t => run M t ls

/-- `Path M ok s ls t`: `M` goes from `s` to `t` along `ls`, and each step meets
`ok` in the state it is taken from. -/
inductive Path (M : Machine σ ℓ) (ok : σ → ℓ → Prop) : σ → List ℓ → σ → Prop where
  | nil (s : σ) : Path M ok s [] s
  | cons {s t r : σ} {l : ℓ} {ls : List ℓ} :
      ok s l → M.step s l = some t → Path M ok t ls r → Path M ok s (l :: ls) r

/-- The condition every step meets. -/
def Free : σ → ℓ → Prop := fun _ _ => True

variable {M : Machine σ ℓ} {ok ok' : σ → ℓ → Prop}

/-- The executable run computes exactly the unconditioned paths. -/
theorem run_eq_some_iff {s t : σ} {ls : List ℓ} :
    M.run s ls = some t ↔ Path M Free s ls t := by
  constructor
  · intro h
    induction ls generalizing s with
    | nil =>
        cases Option.some.inj h
        exact .nil _
    | cons l ls ih =>
        obtain ⟨r, hr, rest⟩ := Option.bind_eq_some_iff.mp h
        exact .cons trivial hr (ih rest)
  · intro h
    induction h with
    | nil s => rfl
    | cons _ hstep _ ih => simp only [run, hstep, Option.bind_some, ih]

/-- The machine without the steps that miss a condition. -/
def restrict (M : Machine σ ℓ) (ok : σ → ℓ → Prop) [∀ s l, Decidable (ok s l)] : Machine σ ℓ where
  step s l := if ok s l then M.step s l else none

/-- Its executable run computes exactly the conditioned paths. -/
theorem run_restrict_iff [∀ s l, Decidable (ok s l)] {s t : σ} {ls : List ℓ} :
    (M.restrict ok).run s ls = some t ↔ Path M ok s ls t := by
  constructor
  · intro h
    induction ls generalizing s with
    | nil =>
        cases Option.some.inj h
        exact .nil _
    | cons l ls ih =>
        obtain ⟨r, hr, rest⟩ := Option.bind_eq_some_iff.mp h
        obtain ⟨hok, hstep⟩ := Option.ite_none_right_eq_some.mp hr
        exact .cons hok hstep (ih rest)
  · intro h
    induction h with
    | nil s => rfl
    | cons hok hstep _ ih =>
        exact Option.bind_eq_some_iff.mpr ⟨_, (if_pos hok).trans hstep, ih⟩

namespace Path

/-- A run under a stronger condition is a run under a weaker one. -/
theorem mono (weaken : ∀ s l, ok s l → ok' s l) {s t : σ} {ls : List ℓ}
    (h : Path M ok s ls t) : Path M ok' s ls t := by
  induction h with
  | nil s => exact .nil s
  | cons hok hstep _ ih => exact .cons (weaken _ _ hok) hstep ih

/-- A run whose labels meet a condition in every state is a run under it. -/
theorem of_labels {s t : σ} {ls : List ℓ} (h : Path M ok s ls t)
    (all : ∀ l ∈ ls, ∀ s, ok' s l) : Path M ok' s ls t := by
  induction h with
  | nil s => exact .nil s
  | cons _ hstep _ ih =>
      exact .cons (all _ List.mem_cons_self _) hstep
        (ih fun l mem => all l (List.mem_cons_of_mem _ mem))

/-- Every conditioned run is a run. -/
theorem free {s t : σ} {ls : List ℓ} (h : Path M ok s ls t) : Path M Free s ls t :=
  h.mono fun _ _ _ => trivial

theorem append {s t r : σ} {ls ms : List ℓ} (h : Path M ok s ls t) (h' : Path M ok t ms r) :
    Path M ok s (ls ++ ms) r := by
  induction h with
  | nil _ => exact h'
  | cons hok hstep _ ih => exact .cons hok hstep (ih h')

theorem single {s t : σ} {l : ℓ} (hok : ok s l) (hstep : M.step s l = some t) :
    Path M ok s [l] t :=
  .cons hok hstep (.nil t)

/-- **Invariant rule.** What one step preserves, a run preserves. -/
theorem invariant {I : σ → Prop}
    (preserve : ∀ s l t, ok s l → I s → M.step s l = some t → I t)
    {s t : σ} {ls : List ℓ} (h : Path M ok s ls t) (start : I s) : I t := by
  induction h with
  | nil _ => exact start
  | cons hok hstep _ ih => exact ih (preserve _ _ _ hok start hstep)

/-- **Strengthening rule.** Under an invariant of the steps that meet a condition,
their run meets what the condition then implies. -/
theorem strengthen {I : σ → Prop}
    (preserve : ∀ s l t, ok s l → I s → M.step s l = some t → I t ∧ ok' s l)
    {s t : σ} {ls : List ℓ} (h : Path M ok s ls t) (start : I s) : Path M ok' s ls t := by
  induction h with
  | nil s => exact .nil s
  | cons hok hstep _ ih =>
      obtain ⟨inv, met⟩ := preserve _ _ _ hok start hstep
      exact .cons met hstep (ih inv)

/-- **Exactness rule.** Where a step keeps a property exactly if it meets a condition, a run
keeps it exactly if every step does. -/
theorem meets_iff {I good : σ → Prop}
    (preserve : ∀ s l t, ok s l → I s → M.step s l = some t → I t ∧ (good t ↔ good s ∧ ok' s l))
    {s t : σ} {ls : List ℓ} (h : Path M ok s ls t) (start : I s) :
    good t ↔ good s ∧ Path M ok' s ls t := by
  induction h with
  | nil s => exact ⟨fun fine => ⟨fine, .nil s⟩, fun fine => fine.1⟩
  | cons hok hstep _ ih =>
      obtain ⟨inv, exact_step⟩ := preserve _ _ _ hok start hstep
      rw [ih inv, exact_step]
      constructor
      · rintro ⟨⟨fine, met⟩, rest⟩
        exact ⟨fine, .cons met hstep rest⟩
      · rintro ⟨fine, path⟩
        cases path with
        | cons met hstep' rest =>
            obtain rfl := Option.some.inj (hstep.symm.trans hstep')
            exact ⟨⟨fine, met⟩, rest⟩

/-- **Two-state rule.** A reflexive and transitive relation that each step
satisfies, from states with the invariant `I`, relates the ends of a run. -/
theorem relation {I : σ → Prop} {R : σ → σ → Prop} (refl : ∀ s, R s s)
    (trans : ∀ a b c, R a b → R b c → R a c)
    (preserve : ∀ s l t, ok s l → I s → M.step s l = some t → I t ∧ R s t)
    {s t : σ} {ls : List ℓ} (h : Path M ok s ls t) (start : I s) : R s t := by
  induction h with
  | nil s => exact refl s
  | cons hok hstep _ ih =>
      obtain ⟨inv, rel⟩ := preserve _ _ _ hok start hstep
      exact trans _ _ _ rel (ih inv)

/-- **Lockstep rule.** If related states take related steps on every label, a
run from one is matched, label for label, by a run from the other. -/
theorem lockstep {τ : Type w} {N : Machine τ ℓ} {R : σ → τ → Prop}
    (forward : ∀ s l t a, R s a → M.step s l = some t → ∃ b, N.step a l = some b ∧ R t b)
    {s t : σ} {ls : List ℓ} (h : Path M ok s ls t) {a : τ} (start : R s a) :
    ∃ b, Path N Free a ls b ∧ R t b := by
  induction h generalizing a with
  | nil _ => exact ⟨a, .nil a, start⟩
  | cons _ hstep _ ih =>
      obtain ⟨b, hb, rel⟩ := forward _ _ _ _ start hstep
      obtain ⟨c, rest, rel'⟩ := ih rel
      exact ⟨c, .cons trivial hb rest, rel'⟩

/-- **Refinement rule.** If each step of `M` is, under the abstraction `f`, a
step of `N` or leaves the image unchanged, the image of a run is a run. -/
theorem refine {τ : Type w} {κ : Type*} {N : Machine τ κ} {I : σ → Prop} (f : σ → τ)
    (preserve : ∀ s l t, ok s l → I s → M.step s l = some t →
      I t ∧ ((∃ k, N.step (f s) k = some (f t)) ∨ f t = f s))
    {s t : σ} {ls : List ℓ} (h : Path M ok s ls t) (start : I s) :
    ∃ ks, Path N Free (f s) ks (f t) := by
  induction h with
  | nil s => exact ⟨[], .nil _⟩
  | cons hok hstep _ ih =>
      obtain ⟨inv, hN⟩ := preserve _ _ _ hok start hstep
      obtain ⟨ks, rest⟩ := ih inv
      rcases hN with ⟨k, hk⟩ | same
      · exact ⟨k :: ks, .cons trivial hk rest⟩
      · exact ⟨ks, same ▸ rest⟩

end Path

end Machine

/-! ### Services -/

section Serve

variable {σ : Type u} {τ : Type v} {κ ρ : Type w}

/-- The replies to calls in turn, and the state after them. -/
def serve (answer : σ → κ → ρ × σ) : σ → List κ → List ρ × σ
  | s, [] => ([], s)
  | s, k :: ks => ((answer s k).1 :: (serve answer (answer s k).2 ks).1,
      (serve answer (answer s k).2 ks).2)

/-- Each call meets a condition in the state it is made in. -/
def Throughout (answer : σ → κ → ρ × σ) (ok : σ → κ → Prop) : σ → List κ → Prop
  | _, [] => True
  | s, k :: ks => ok s k ∧ Throughout answer ok (answer s k).2 ks

/-- **Agreement rule.** Services that give equal replies in related states, and stay
related, give equal replies throughout. -/
theorem serve_agree {f : σ → κ → ρ × σ} {g : τ → κ → ρ × τ} {R : σ → τ → Prop}
    {ok : τ → κ → Prop}
    (step : ∀ s t k, R s t → ok t k → (f s k).1 = (g t k).1 ∧ R (f s k).2 (g t k).2)
    {s : σ} {t : τ} {ks : List κ} (start : R s t) (meets : Throughout g ok t ks) :
    (serve f s ks).1 = (serve g t ks).1 ∧ R (serve f s ks).2 (serve g t ks).2 := by
  induction ks generalizing s t with
  | nil => exact ⟨rfl, start⟩
  | cons k ks ih =>
      obtain ⟨same, related⟩ := step s t k start meets.1
      obtain ⟨others, last⟩ := ih related meets.2
      exact ⟨congrArg₂ List.cons same others, last⟩

end Serve

end AgentOs.Lib
