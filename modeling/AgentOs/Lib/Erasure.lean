import AgentOs.Lib.Workflow

/-!
Erasures of a workflow.

An `Erasure` leaves a part out of the states, the updates and the answers of the outside, one that no
node and no edge looks at. Calls that differ in that part alone then make the same run up to it
(`Erasure.run_eq`): the same nodes are visited, with the same prompts and errors, in the same world.
-/

namespace AgentOs.Lib

/-- An exit with another value. -/
def Exit.map {ι ε α β : Type} (f : α → β) : Exit ι ε α → Exit ι ε β
  | .done value => .done (f value)
  | .paused prompt => .paused prompt
  | .raised error => .raised error

/-- A call with another answer of the outside. -/
def Call.map {O O' ρ ε : Type} (f : O → O') : Call O ρ ε → Call O' ρ ε
  | .execute o => .execute (f o)
  | .resume reply o => .resume reply (f o)
  | .fail e => .fail e

theorem Call.map_map {O O' O'' ρ ε : Type} (f : O → O') (g : O' → O'') (call : Call O ρ ε) :
    (call.map f).map g = call.map fun o => g (f o) := by
  cases call <;> rfl

namespace Workflow

variable {N S U O ω ρ ι ε : Type}

/-- What can be left out of a workflow unseen. -/
structure Erasure (W : Workflow N S U O ω ρ ι ε) where
  state : S → S
  update : U → U
  outside : O → O
  commit (s : S) (u : U) : state (W.commit s u) = W.commit (state s) (update u)
  next (n : N) (s : S) (u : U) : W.next n s u = W.next n (state s) (update u)
  node (n : N) {s s' : S} {o o' : O} (replies : List ρ) (w : ω) : state s = state s' →
    outside o = outside o' →
      (W.node n s o replies w).1.map update = (W.node n s' o' replies w).1.map update ∧
        (W.node n s o replies w).2.2 = (W.node n s' o' replies w).2.2

namespace Erasure

variable {W : Workflow N S U O ω ρ ι ε} (E : W.Erasure)

/-- What is left of a visit. -/
def visit (v : Visit N S U ρ ι ε) : Visit N S U ρ ι ε :=
  { v with state := E.state v.state, exit := v.exit.map E.update }

/-- What is left of a thread. -/
def thread (t : Thread N S U ω ρ ι ε) : Thread N S U ω ρ ι ε :=
  { t with state := E.state t.state, trail := t.trail.map E.visit }

variable {E} {t t' : Thread N S U ω ρ ι ε}

theorem thread_eq_iff : E.thread t = E.thread t' ↔ E.state t.state = E.state t'.state ∧
    t.next = t'.next ∧ t.pending = t'.pending ∧ t.replies = t'.replies ∧ t.failure = t'.failure ∧
      t.world = t'.world ∧ t.trail.map E.visit = t'.trail.map E.visit := by
  unfold thread
  rw [Thread.mk.injEq]

theorem thread_close (v : Visit N S U ρ ι ε) (w : ω) :
    E.thread (W.close t v w) = W.close (E.thread t) (E.visit v) w := by
  obtain ⟨n, s, replies, exit⟩ := v
  cases exit with
  | done u => simp only [close, thread, visit, Exit.map, List.map_append, List.map_cons, List.map_nil,
      E.commit, E.next n (W.commit t.state u) u]
  | paused prompt => simp only [close, thread, visit, Exit.map, List.map_append, List.map_cons,
      List.map_nil]
  | raised e => simp only [close, thread, visit, Exit.map, List.map_append, List.map_cons,
      List.map_nil]

/-- A visit keeps what is left of two threads the same. -/
theorem thread_visit (same : E.thread t = E.thread t') {o o' : O}
    (alike : E.outside o = E.outside o') (n : N) (replies : List ρ) :
    E.thread (W.visit t n replies o) = E.thread (W.visit t' n replies o') := by
  obtain ⟨state, -, -, -, -, world, -⟩ := thread_eq_iff.mp same
  obtain ⟨exits, worlds⟩ := E.node n replies t.world state alike
  have visits : E.visit (W.visitOf t n replies o) = E.visit (W.visitOf t' n replies o') := by
    simp only [visit, visitOf, state, exits, ← world]
  unfold Workflow.visit
  rw [thread_close, thread_close, same, visits, worlds, world]

/-- **Step lemma.** -/
theorem step_eq (same : E.thread t = E.thread t') {call call' : Call O ρ ε}
    (alike : call.map E.outside = call'.map E.outside) :
    (W.machine.step t call).map E.thread = (W.machine.step t' call').map E.thread := by
  obtain ⟨state, next, pending, replies, failure, world, trail⟩ := thread_eq_iff.mp same
  cases call with
  | execute o =>
      cases call' with
      | execute o' =>
          injection alike with alike
          simp only [machine, next, pending]
          cases t'.next with
          | none => rfl
          | some n =>
              cases t'.pending with
              | none => exact congrArg some (thread_visit same alike n [])
              | some prompt => rfl
      | resume | fail => cases alike
  | resume reply o =>
      cases call' with
      | resume reply' o' =>
          injection alike with text alike
          simp only [machine, next, pending, replies, text]
          cases t'.next with
          | none => rfl
          | some n =>
              cases t'.pending with
              | none => rfl
              | some prompt => exact congrArg some (thread_visit same alike n _)
      | execute | fail => cases alike
  | fail e =>
      cases call' with
      | fail e' =>
          injection alike with text
          simp only [machine, next, text]
          cases t'.next with
          | none => rfl
          | some n =>
              exact congrArg some
                (thread_eq_iff.mpr ⟨state, rfl, pending, replies, rfl, world, trail⟩)
      | execute | resume => cases alike

/-- **Run lemma.** -/
theorem run_eq (same : E.thread t = E.thread t') {calls calls' : List (Call O ρ ε)}
    (alike : calls.map (Call.map E.outside) = calls'.map (Call.map E.outside)) :
    (W.machine.run t calls).map E.thread = (W.machine.run t' calls').map E.thread := by
  induction calls generalizing t t' calls' with
  | nil =>
      cases List.map_eq_nil_iff.mp alike.symm
      exact congrArg some same
  | cons call calls ih =>
      obtain ⟨call', calls', rfl, first, rest⟩ := List.map_eq_cons_iff.mp alike.symm
      have step := step_eq same first.symm
      unfold Machine.run
      cases here : W.machine.step t call with
      | none =>
          rw [here, Option.map_none, eq_comm, Option.map_eq_none_iff] at step
          rw [step]
          rfl
      | some s =>
          rw [here, Option.map_some, eq_comm, Option.map_eq_some_iff] at step
          obtain ⟨s', there, left⟩ := step
          rw [there]
          exact ih left.symm rest.symm

end Erasure

end Workflow

end AgentOs.Lib
