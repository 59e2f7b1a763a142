import Mathlib.Algebra.Order.Group.Defs
import Mathlib.Algebra.Order.Group.Unbundled.Basic
import Mathlib.Data.List.Basic
import Mathlib.Logic.Function.Basic
import Mathlib.Tactic.Abel
import AgentOs.Lib.Machine

/-!
Services by key, and sliding windows.

`byKey` keeps a state for each key; what it replies under one key is what the service of
that key alone replies to the calls under it (`replies_byKey`).

`grant` lets a call in while fewer than `limit` of those let in are younger than `window`,
and forgets the older ones. What it keeps is as good as everything it ever let in
(`kept_recent`), so no interval shorter than the window holds more than `limit` of them
(`granted_between_le`).
-/

namespace AgentOs.Lib

universe u v w

/-! ### Services by key -/

section ByKey

variable {σ : Type u} {K : Type v} [DecidableEq K] {κ ρ : Type w}

/-- A service for each key. -/
def byKey (key : κ → K) (answer : σ → κ → ρ × σ) (states : K → σ) (call : κ) : ρ × (K → σ) :=
  let replied := answer (states (key call)) call
  (replied.1, Function.update states (key call) replied.2)

/-- Calls with their replies. -/
def replies (answer : σ → κ → ρ × σ) (start : σ) (calls : List κ) : List (κ × ρ) :=
  calls.zip (serve answer start calls).1

theorem replies_cons (answer : σ → κ → ρ × σ) (start : σ) (call : κ) (calls : List κ) :
    replies answer start (call :: calls) =
      (call, (answer start call).1) :: replies answer (answer start call).2 calls := rfl

/-- **Under one key, only the calls under it count.** -/
theorem replies_byKey (key : κ → K) (answer : σ → κ → ρ × σ) (k : K) (states : K → σ)
    (calls : List κ) :
    (replies (byKey key answer) states calls).filter (fun entry => key entry.1 = k) =
      replies answer (states k) (calls.filter fun call => key call = k) := by
  induction calls generalizing states with
  | nil => rfl
  | cons call calls ih =>
      rw [replies_cons]
      by_cases here : key call = k
      · rw [List.filter_cons_of_pos (by simpa using here),
          List.filter_cons_of_pos (by simpa using here), replies_cons, ih]
        subst here
        simp only [byKey, Function.update_self]
      · rw [List.filter_cons_of_neg (by simpa using here),
          List.filter_cons_of_neg (by simpa using here), ih]
        simp only [byKey, Function.update_of_ne (Ne.symm here)]

/-- So the other calls might as well not have been made. -/
theorem replies_byKey_filter (key : κ → K) (answer : σ → κ → ρ × σ) (k : K) (states : K → σ)
    (calls : List κ) :
    (replies (byKey key answer) states calls).filter (fun entry => key entry.1 = k) =
      replies (byKey key answer) states (calls.filter fun call => key call = k) := by
  have alone := replies_byKey key answer k states (calls.filter fun call => key call = k)
  rw [List.filter_filter, List.filter_eq_self.mpr] at alone
  · rw [replies_byKey, alone]
    simp
  · intro entry mem
    have call := (List.mem_filter.mp (List.of_mem_zip mem).1).2
    simpa using call

/-- A service that another one sees through maps of its calls and its replies. -/
theorem replies_map {κ' ρ' : Type w} {f : σ → κ → ρ × σ} {g : σ → κ' → ρ' × σ} {a : κ → κ'}
    {b : ρ → ρ'} (same : ∀ s call, g s (a call) = (b (f s call).1, (f s call).2)) (s : σ)
    (calls : List κ) :
    (replies f s calls).map (Prod.map a b) = replies g s (calls.map a) := by
  induction calls generalizing s with
  | nil => rfl
  | cons call calls ih =>
      rw [List.map_cons, replies_cons, replies_cons, List.map_cons, ih, same]
      rfl

end ByKey

/-! ### Sliding windows -/

section Window

variable {τ : Type}

/-- The times of the calls that were let in. -/
def granted (log : List (τ × Bool)) : List τ :=
  log.filterMap fun entry => if entry.2 then some entry.1 else none

theorem granted_cons (now : τ) (letIn : Bool) (log : List (τ × Bool)) :
    granted ((now, letIn) :: log) = (if letIn then [now] else []) ++ granted log := by
  cases letIn <;> rfl

variable [AddCommGroup τ] [LinearOrder τ]
variable {window : τ} {limit : ℕ}

/-- The times younger than the window. -/
def recent (window now : τ) (times : List τ) : List τ :=
  times.filter fun time => now - time < window

/-- A call at `now`: whether it is let in, and the times kept. -/
def grant (window : τ) (limit : ℕ) (kept : List τ) (now : τ) : Bool × List τ :=
  let young := recent window now kept
  if limit ≤ young.length then (false, young) else (true, young ++ [now])

theorem grant_full {kept : List τ} {now : τ} (full : limit ≤ (recent window now kept).length) :
    grant window limit kept now = (false, recent window now kept) :=
  if_pos full

theorem grant_room {kept : List τ} {now : τ} (room : ¬limit ≤ (recent window now kept).length) :
    grant window limit kept now = (true, recent window now kept ++ [now]) :=
  if_neg room

/-- At and after `now`, the times kept are as good as all that were let in. -/
def Serves (window now : τ) (kept all : List τ) : Prop :=
  ∀ later, now ≤ later → recent window later kept = recent window later all

theorem recent_append (now : τ) (a b : List τ) :
    recent window now (a ++ b) = recent window now a ++ recent window now b :=
  List.filter_append ..

/-- The times in `[a, b]`. -/
def between (a b : τ) (times : List τ) : List τ :=
  times.filter fun time => a ≤ time ∧ time ≤ b

/-- No interval shorter than the window holds more than `limit` of the times. -/
def Bounded (window : τ) (limit : ℕ) (times : List τ) : Prop :=
  ∀ a b, b - a < window → (between a b times).length ≤ limit

/-! ### What a call does -/

/-- A call is turned away exactly where `limit` of those let in are young. -/
theorem grant_eq_false_iff {last now : τ} {kept all : List τ}
    (serves : Serves window last kept all) (le : last ≤ now) :
    (grant window limit kept now).1 = false ↔ limit ≤ (recent window now all).length := by
  rw [← serves now le]
  by_cases full : limit ≤ (recent window now kept).length
  · rw [grant_full full]
    exact iff_of_true rfl full
  · rw [grant_room full]
    exact iff_of_false Bool.noConfusion full

variable [IsOrderedAddMonoid τ]

/-- Of what is young later, nothing was old before. -/
theorem recent_recent {now later : τ} (le : now ≤ later) (times : List τ) :
    recent window later (recent window now times) = recent window later times := by
  rw [recent, recent, List.filter_filter]
  refine List.filter_congr fun time _ => ?_
  by_cases young : later - time < window
  · have before : now - time < window := lt_of_le_of_lt (sub_le_sub_right le time) young
    simp [young, before]
  · simp [young]

/-- A call keeps what is needed of what was let in. -/
theorem Serves.grant {last now : τ} {kept all : List τ} (serves : Serves window last kept all)
    (le : last ≤ now) :
    Serves window now (grant window limit kept now).2
      (all ++ if (grant window limit kept now).1 then [now] else []) := by
  intro later after
  have same := serves later (le.trans after)
  by_cases full : limit ≤ (recent window now kept).length
  · rw [grant_full full, if_neg Bool.false_ne_true, List.append_nil, recent_recent after, same]
  · rw [grant_room full, if_pos rfl, recent_append, recent_append, recent_recent after, same]

/-- Where the last of them lies in an interval shorter than the window, the times in it are
young. -/
theorem between_sublist_recent {a b now : τ} (short : b - a < window) (within : now ≤ b)
    (times : List τ) : (between a b times).length ≤ (recent window now times).length := by
  refine (List.Sublist.length_le ?_)
  refine List.monotone_filter_right times fun time inside => ?_
  simp only [decide_eq_true_eq] at inside ⊢
  exact lt_of_le_of_lt (sub_le_sub within inside.1) short

/-- A call that is let in leaves the bound in place. -/
theorem Bounded.grant {last now : τ} {kept all : List τ} (bounded : Bounded window limit all)
    (serves : Serves window last kept all) (le : last ≤ now) :
    Bounded window limit (all ++ if (grant window limit kept now).1 then [now] else []) := by
  intro a b short
  have before := bounded a b short
  have young := serves now le
  by_cases full : limit ≤ (recent window now kept).length
  · rw [grant_full full, if_neg Bool.false_ne_true, List.append_nil]
    exact before
  · rw [grant_room full, if_pos rfl, between, List.filter_append, List.length_append]
    rw [young] at full
    by_cases inside : a ≤ now ∧ now ≤ b
    · have fewer := between_sublist_recent short inside.2 all
      rw [between] at fewer
      rw [List.filter_cons_of_pos (by simpa using inside), List.filter_nil]
      simp only [List.length_cons, List.length_nil]
      omega
    · rw [List.filter_cons_of_neg (by simpa using inside), List.filter_nil]
      exact before

/-- What a run does that started with `all` let in: the bound holds at its end, and
each call is judged by all that were let in before it. -/
theorem run_exact {last : τ} {kept all times : List τ} (serves : Serves window last kept all)
    (bounded : Bounded window limit all) (after : ∀ time ∈ times, last ≤ time)
    (ordered : times.Pairwise (· ≤ ·)) :
    Bounded window limit (all ++ granted (replies (grant window limit) kept times)) ∧
      ∀ before now letIn rest,
        replies (grant window limit) kept times = before ++ (now, letIn) :: rest →
        (letIn = false ↔ limit ≤ (recent window now (all ++ granted before)).length) := by
  induction times generalizing last kept all with
  | nil =>
      refine ⟨by simpa [replies, serve, granted] using bounded, fun before now letIn rest cut => ?_⟩
      cases before <;> cases cut
  | cons now times ih =>
      have le := after now List.mem_cons_self
      obtain ⟨later, ordered⟩ := List.pairwise_cons.mp ordered
      obtain ⟨bound, judged⟩ := ih (serves.grant le) (bounded.grant serves le) later ordered
      rw [replies_cons, granted_cons, ← List.append_assoc]
      refine ⟨bound, fun before now' letIn rest cut => ?_⟩
      cases before with
      | nil =>
          obtain ⟨call, -⟩ := List.cons.inj cut
          obtain ⟨rfl, rfl⟩ := Prod.mk.inj call
          rw [granted, List.filterMap_nil, List.append_nil]
          exact grant_eq_false_iff serves le
      | cons entry before =>
          obtain ⟨rfl, tail⟩ := List.cons.inj cut
          rw [granted_cons, ← List.append_assoc]
          exact judged before now' letIn rest tail

/-- **A run that starts with nothing let in.** -/
theorem run_exact_start (window : τ) (limit : ℕ) {times : List τ}
    (ordered : times.Pairwise (· ≤ ·)) :
    Bounded window limit (granted (replies (grant window limit) [] times)) ∧
      ∀ before now letIn rest,
        replies (grant window limit) [] times = before ++ (now, letIn) :: rest →
        (letIn = false ↔ limit ≤ (recent window now (granted before)).length) := by
  have nothing : Bounded window limit [] := fun _ _ _ => Nat.zero_le _
  cases times with
  | nil => exact @run_exact _ _ _ _ _ _ 0 _ _ _ (fun _ _ => rfl) nothing (by simp) ordered
  | cons now times =>
      have after : ∀ time ∈ now :: times, now ≤ time := by
        intro time mem
        rcases List.mem_cons.mp mem with rfl | mem
        · exact le_rfl
        · exact (List.pairwise_cons.mp ordered).1 time mem
      exact run_exact (fun _ _ => rfl) nothing after ordered

end Window

end AgentOs.Lib
