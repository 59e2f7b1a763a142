import Mathlib.Data.List.Induction

/-!
Journals of calls.

A store answers every call and goes to a next state. `history` takes calls one
after another and keeps a journal of them: the call, the state before, the
answer, the state after. The entries of a journal are linked, each starting from
the state the one before it left (`Chain`), and what a call does is read off its
entry (`history_chain`, `history_entries`).

`EachVisit P` says that every entry of any history, with what came before it, meets `P`
(`eachVisit_concat`).

`Chain.since` is the rule for history claims: what holds at the end and did not
hold at the start was brought about by some entry and has held ever since.
`Chain.trace` is the rule for items in the states: an item goes back, entry by
entry, to the start or to the entry that made it.
-/

namespace AgentOs.Lib

universe u v w

/-- A call in a journal. -/
structure Entry (σ : Type u) (ℓ : Type v) (ρ : Type w) where
  call : ℓ
  before : σ
  answer : ρ
  after : σ

/-- A state with the journal of the calls that led to it. -/
structure Recorded (σ : Type u) (ℓ : Type v) (ρ : Type w) where
  state : σ
  journal : List (Entry σ ℓ ρ) := []

variable {σ : Type u} {ℓ : Type v} {ρ : Type w}

/-- Answer a call and write it down. -/
def record (apply : σ → ℓ → ρ × σ) (w : Recorded σ ℓ ρ) (call : ℓ) : Recorded σ ℓ ρ where
  state := (apply w.state call).2
  journal := w.journal ++ [⟨call, w.state, (apply w.state call).1, (apply w.state call).2⟩]

/-- Calls one after another, from a state with an empty journal. -/
def history (apply : σ → ℓ → ρ × σ) (start : σ) (calls : List ℓ) : Recorded σ ℓ ρ :=
  calls.foldl (record apply) ⟨start, []⟩

/-- The entries link `s` to `t`. -/
def Chain : σ → List (Entry σ ℓ ρ) → σ → Prop
  | s, [], t => s = t
  | s, e :: rest, t => e.before = s ∧ Chain e.after rest t

namespace Chain

variable {s r t : σ} {journal later : List (Entry σ ℓ ρ)}

theorem append_iff : Chain s (journal ++ later) t ↔ ∃ r, Chain s journal r ∧ Chain r later t := by
  induction journal generalizing s with
  | nil => simp [Chain]
  | cons e rest ih => simp [Chain, ih, and_assoc]

theorem concat (h : Chain s journal t) {e : Entry σ ℓ ρ} (link : e.before = t) :
    Chain s (journal ++ [e]) e.after :=
  append_iff.mpr ⟨t, h, link, rfl⟩

/-- What every entry preserves holds at the end and around every entry. -/
theorem invariant {I : σ → Prop} (h : Chain s journal t) (start : I s)
    (preserve : ∀ e ∈ journal, I e.before → I e.after) :
    I t ∧ ∀ e ∈ journal, I e.before ∧ I e.after := by
  induction journal generalizing s with
  | nil => exact ⟨h ▸ start, by simp⟩
  | cons e rest ih =>
      have before : I e.before := h.1 ▸ start
      have after := preserve e (List.mem_cons_self ..) before
      obtain ⟨atEnd, around⟩ := ih h.2 after fun e he => preserve e (List.mem_cons_of_mem _ he)
      refine ⟨atEnd, ?_⟩
      intro e' he'
      rcases List.mem_cons.mp he' with rfl | he'
      · exact ⟨before, after⟩
      · exact around e' he'

/-- **Since rule.** What holds at the end and not at the start was brought about
by an entry and holds around every entry after it. -/
theorem since {P : σ → Prop} (h : Chain s journal t) (start : ¬P s) (now : P t) :
    ∃ early e late, journal = early ++ e :: late ∧ ¬P e.before ∧ P e.after ∧
      ∀ e' ∈ late, P e'.before ∧ P e'.after := by
  induction journal using List.reverseRecOn generalizing t with
  | nil => exact absurd (h ▸ now) start
  | append_singleton early e ih =>
      obtain ⟨r, first, link, rfl⟩ := append_iff.mp h
      by_cases before : P e.before
      · -- It held already: what brought it about came earlier.
        obtain ⟨early, e', late, rfl, before', after', kept⟩ := ih (link ▸ first) before
        refine ⟨early, e', late ++ [e], by simp, before', after', ?_⟩
        intro e'' mem
        rcases List.mem_append.mp mem with mem | mem
        · exact kept e'' mem
        · cases List.mem_singleton.mp mem
          exact ⟨before, now⟩
      · exact ⟨early, e, [], rfl, before, now, by simp⟩

/-- **Trace rule.** Where every entry makes the items it leaves (`New`) or carries
them on (`R`), an item at the end was carried on from the start or from the entry
that made it, through every entry since. -/
theorem trace {α : Type*} {Q : σ → α → Prop} {R : α → α → Prop} {New : Entry σ ℓ ρ → α → Prop}
    (refl : ∀ a, R a a) (trans : ∀ a b c, R a b → R b c → R a c) (h : Chain s journal t)
    (carry : ∀ e ∈ journal, ∀ b, Q e.after b → New e b ∨ ∃ a, Q e.before a ∧ R a b)
    {b : α} (now : Q t b) :
    (∃ a, Q s a ∧ R a b ∧ ∀ e ∈ journal, ∃ c, Q e.before c ∧ R a c) ∨
      ∃ early e late a, journal = early ++ e :: late ∧ New e a ∧ R a b ∧
        ∀ e' ∈ late, ∃ c, Q e'.before c ∧ R a c := by
  induction journal using List.reverseRecOn generalizing t b with
  | nil => exact .inl ⟨b, h ▸ now, refl b, by simp⟩
  | append_singleton early e ih =>
      obtain ⟨r, first, link, rfl⟩ := append_iff.mp h
      rcases carry e (by simp) b now with new | ⟨c, before, carried⟩
      · exact .inr ⟨early, e, [], b, rfl, new, refl b, by simp⟩
      · have since := ih (link ▸ first) (fun e' he' => carry e' (List.mem_append_left _ he')) before
        -- What carried `c` so far carries it through `e` as well.
        have through : ∀ {a : α} {entries : List (Entry σ ℓ ρ)}, R a c →
            (∀ e' ∈ entries, ∃ c, Q e'.before c ∧ R a c) →
            ∀ e' ∈ entries ++ [e], ∃ c, Q e'.before c ∧ R a c := by
          intro a entries reached kept e' mem
          rcases List.mem_append.mp mem with mem | mem
          · exact kept e' mem
          · cases List.mem_singleton.mp mem
            exact ⟨c, before, reached⟩
        rcases since with ⟨a, start, reached, kept⟩ | ⟨early, e', late, a, rfl, new, reached, kept⟩
        · exact .inl ⟨a, start, trans _ _ _ reached carried, through reached kept⟩
        · exact .inr ⟨early, e', late ++ [e], a, by simp, new, trans _ _ _ reached carried,
            through reached kept⟩

end Chain

section

variable (apply : σ → ℓ → ρ × σ) (s : σ)

theorem history_concat (calls : List ℓ) (call : ℓ) :
    history apply s (calls ++ [call]) = record apply (history apply s calls) call := by
  simp [history]

/-- The journal links the first state to the last. -/
theorem history_chain (calls : List ℓ) :
    Chain s (history apply s calls).journal (history apply s calls).state := by
  induction calls using List.reverseRecOn with
  | nil => exact rfl
  | append_singleton calls call ih =>
      rw [history_concat]
      exact ih.concat rfl

/-- The journal has the calls in their order. -/
theorem history_calls (calls : List ℓ) :
    (history apply s calls).journal.map Entry.call = calls := by
  induction calls using List.reverseRecOn with
  | nil => rfl
  | append_singleton calls call ih =>
      rw [history_concat, record, List.map_append, ih]
      rfl

/-- Each entry is what its call does in the state before it. -/
theorem history_entries (calls : List ℓ) :
    ∀ e ∈ (history apply s calls).journal, apply e.before e.call = (e.answer, e.after) := by
  induction calls using List.reverseRecOn with
  | nil => simp [history]
  | append_singleton calls call ih =>
      intro e mem
      rw [history_concat] at mem
      rcases List.mem_append.mp mem with mem | mem
      · exact ih e mem
      · cases List.mem_singleton.mp mem
        rfl

end

/-! ### What came before -/

/-- Every entry of a history meets `P`, given the entries before it. -/
def EachVisit {V : Type} (P : List V → V → Prop) (trail : List V) : Prop :=
  ∀ before v after, trail = before ++ v :: after → P before v

theorem eachVisit_nil {V : Type} {P : List V → V → Prop} : EachVisit P [] := by
  intro before v after h
  simp at h

theorem eachVisit_concat {V : Type} {P : List V → V → Prop} {trail : List V} {x : V} :
    EachVisit P (trail ++ [x]) ↔ EachVisit P trail ∧ P trail x := by
  constructor
  · intro h
    refine ⟨fun before v after eq => ?_, h trail x [] rfl⟩
    exact h before v (after ++ [x]) (by rw [eq, List.append_assoc, List.cons_append])
  · rintro ⟨earlier, last⟩ before v after eq
    rcases List.eq_nil_or_concat after with rfl | ⟨init, y, rfl⟩
    · obtain ⟨rfl, rfl⟩ := List.append_inj' eq rfl |>.imp id List.singleton_inj.mp
      exact last
    · rw [List.concat_eq_append, ← List.cons_append, ← List.append_assoc] at eq
      exact earlier before v init (List.append_inj' eq rfl).1

/-- Entries that meet `P` after anything. -/
theorem EachVisit.append {V : Type} {P : List V → V → Prop} {trail more : List V}
    (h : EachVisit P trail) (always : ∀ before, ∀ x ∈ more, P before x) :
    EachVisit P (trail ++ more) := by
  induction more generalizing trail with
  | nil => rwa [List.append_nil]
  | cons x more ih =>
      rw [List.append_cons]
      refine ih (eachVisit_concat.mpr ⟨h, always _ x (List.mem_cons_self ..)⟩) ?_
      exact fun before y mem => always before y (List.mem_cons_of_mem x mem)

end AgentOs.Lib
