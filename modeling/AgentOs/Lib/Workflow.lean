import AgentOs.Lib.History
import AgentOs.Lib.Machine
import AgentOs.Lib.Pass

/-!
Checkpointed workflows.

A workflow runs one node at a time. Each node is a `Pass` over the checkpointed
state; when it finishes, its update is committed and the next node is computed
from the new state. When it pauses, the prompt is kept with the checkpoint and
`Call.resume` runs the same node again from its beginning with one more reply.
When it raises, the checkpoint stays where it was, and a later call may run the
node again.

What the outside answers at a visit is in the call (`O`), so a property of every
list of calls is a property of every behaviour of the outside. `Thread.trail` is
the history: one entry for each visit, with the state it saw and how it ended.

* `Workflow.step_iff` is the step inversion.
* `latest f`: what `f` last read off a history; like `EachVisit`, it extends by one visit
  (`latest_concat`).
* `Workflow.lockstep`: two threads in a relation that every visit keeps make the
  same visits.
-/

namespace AgentOs.Lib

/-- A workflow over nodes `N`, states `S`, updates `U` and outside answers `O`. -/
structure Workflow (N S U O ω ρ ι ε : Type) where
  entry : N
  node : N → S → O → Pass ω ρ ι ε U
  commit : S → U → S
  /-- the node after `n` finished with an update, in the committed state -/
  next : N → S → U → Option N

/-- One visit of a node. -/
structure Visit (N S U ρ ι ε : Type) where
  node : N
  state : S
  replies : List ρ
  exit : Exit ι ε U
deriving Repr

/-- What `f` reads off the last entry it reads anything off. -/
def latest {V β : Type} (f : V → Option β) (trail : List V) : Option β :=
  (trail.filterMap f).getLast?

theorem latest_concat {V β : Type} {f : V → Option β} {trail : List V} {x : V} :
    latest f (trail ++ [x]) = (f x).or (latest f trail) := by
  unfold latest
  cases h : f x <;> simp [List.filterMap_append, h]

/-- A thread: its latest checkpoint, the interrupt pending there with the replies
already given, the error of the last call, and the history. -/
structure Thread (N S U ω ρ ι ε : Type) where
  state : S
  next : Option N := none
  pending : Option ι := none
  replies : List ρ := []
  failure : Option ε := none
  world : ω
  trail : List (Visit N S U ρ ι ε) := []

/-- A call: run the next node, answer the pending interrupt, or fail outside any
node (a step limit, a storage error). -/
inductive Call (O ρ ε : Type) where
  | execute (o : O)
  | resume (reply : ρ) (o : O)
  | fail (e : ε)

namespace Workflow

variable {N S U O ω ρ ι ε : Type} (W : Workflow N S U O ω ρ ι ε)

/-- New input on a thread: it is merged into the state, what was pending is
dropped, and the run begins at the entry with an empty history. -/
def start (t : Thread N S U ω ρ ι ε) (input : U) : Thread N S U ω ρ ι ε where
  state := W.commit t.state input
  next := some W.entry
  world := t.world

/-- The visit of `n` with the given replies. -/
def visitOf (t : Thread N S U ω ρ ι ε) (n : N) (replies : List ρ) (o : O) :
    Visit N S U ρ ι ε :=
  ⟨n, t.state, replies, (W.node n t.state o replies t.world).1⟩

/-- The thread after a visit, by how the visit ended. -/
def close (t : Thread N S U ω ρ ι ε) (v : Visit N S U ρ ι ε) (w : ω) : Thread N S U ω ρ ι ε :=
  match v.exit with
  | .done u =>
      { state := W.commit t.state u, next := W.next v.node (W.commit t.state u) u, world := w,
        trail := t.trail ++ [v] }
  | .paused prompt =>
      { t with pending := some prompt, replies := v.replies, failure := none, world := w,
               trail := t.trail ++ [v] }
  | .raised e => { t with failure := some e, world := w, trail := t.trail ++ [v] }

/-- Visit `n`. -/
def visit (t : Thread N S U ω ρ ι ε) (n : N) (replies : List ρ) (o : O) :
    Thread N S U ω ρ ι ε :=
  W.close t (W.visitOf t n replies o) (W.node n t.state o replies t.world).2.2

/-- The machine of a workflow's calls. -/
def machine : Machine (Thread N S U ω ρ ι ε) (Call O ρ ε) where
  step t call :=
    match call, t.next, t.pending with
    | .execute o, some n, none => some (W.visit t n [] o)
    | .resume reply o, some n, some _ => some (W.visit t n (t.replies ++ [reply]) o)
    | .fail e, some _, _ => some { t with failure := some e }
    | _, _, _ => none

/-- What a call does. -/
inductive Stepped (t : Thread N S U ω ρ ι ε) : Call O ρ ε → Thread N S U ω ρ ι ε → Prop where
  | execute {n : N} {o : O} : t.next = some n → t.pending = none →
      Stepped t (.execute o) (W.visit t n [] o)
  | resume {n : N} {prompt : ι} {reply : ρ} {o : O} : t.next = some n → t.pending = some prompt →
      Stepped t (.resume reply o) (W.visit t n (t.replies ++ [reply]) o)
  | fail {n : N} {e : ε} : t.next = some n → Stepped t (.fail e) { t with failure := some e }

variable {W} {t t' : Thread N S U ω ρ ι ε}

/-- **Step inversion.** -/
theorem step_iff {call : Call O ρ ε} : W.machine.step t call = some t' ↔ W.Stepped t call t' := by
  constructor
  · intro h
    dsimp only [machine] at h
    split at h <;> cases h
    · exact .execute ‹_› ‹_›
    · exact .resume ‹_› ‹_›
    · exact .fail ‹_›
  · intro h
    cases h with
    | execute hn hp => simp only [machine, hn, hp]
    | resume hn hp => simp only [machine, hn, hp]
    | fail hn => simp only [machine, hn]

/-- A visit adds itself to the history. -/
theorem close_trail (v : Visit N S U ρ ι ε) (w : ω) : (W.close t v w).trail = t.trail ++ [v] := by
  unfold close
  split <;> rfl

/-! ### Runs -/

/-- At its end a run has nothing pending and has not failed. -/
def Quiet (t : Thread N S U ω ρ ι ε) : Prop :=
  t.next = none → t.pending = none ∧ t.failure = none

theorem quiet_close (t : Thread N S U ω ρ ι ε) {v : Visit N S U ρ ι ε} {w : ω} {n : N}
    (hn : t.next = some n) : Quiet (W.close t v w) := by
  intro finished
  unfold close at finished ⊢
  split at finished
  · exact ⟨rfl, rfl⟩
  · simp [hn] at finished
  · simp [hn] at finished

theorem quiet_step {call : Call O ρ ε} (h : W.machine.step t call = some t') : Quiet t' := by
  cases step_iff.mp h with
  | execute hn _ => exact quiet_close t hn
  | resume hn _ => exact quiet_close t hn
  | fail hn => exact fun finished => by simp [hn] at finished

/-- A run from new input is quiet at its end. -/
theorem quiet_of_run {ok : Thread N S U ω ρ ι ε → Call O ρ ε → Prop} {calls : List (Call O ρ ε)}
    {input : U} (h : Machine.Path W.machine ok (W.start t input) calls t') : Quiet t' :=
  h.invariant (I := Quiet) (fun _ _ _ _ _ step => quiet_step step) fun finished => by
    cases finished

/-- Threads at the same place: they accept the same calls. -/
structure Abreast (t t' : Thread N S U ω ρ ι ε) : Prop where
  next : t.next = t'.next
  pending : t.pending = t'.pending
  replies : t.replies = t'.replies
  failure : t.failure = t'.failure

/-- **Lockstep rule.** If every visit keeps a relation that implies being
abreast, so does every run, whatever the outside answers. -/
theorem lockstep {R : Thread N S U ω ρ ι ε → Thread N S U ω ρ ι ε → Prop}
    (abreast : ∀ {a b}, R a b → Abreast a b)
    (visits : ∀ {a b n replies o}, R a b → a.next = some n →
      (a.pending = none ∧ replies = [] ∨ ∃ reply, replies = a.replies ++ [reply]) →
      R (W.visit a n replies o) (W.visit b n replies o))
    (fails : ∀ {a b e}, R a b → R { a with failure := some e } { b with failure := some e })
    {ok : Thread N S U ω ρ ι ε → Call O ρ ε → Prop} {calls : List (Call O ρ ε)}
    (h : Machine.Path W.machine ok t calls t') {s : Thread N S U ω ρ ι ε} (start : R t s) :
    ∃ s', Machine.Path W.machine Machine.Free s calls s' ∧ R t' s' := by
  refine h.lockstep ?_ start
  intro a call b c related step
  have same := abreast related
  cases step_iff.mp step with
  | execute hn hp =>
      exact ⟨_, step_iff.mpr (.execute (same.next ▸ hn) (same.pending ▸ hp)),
        visits related hn (.inl ⟨hp, rfl⟩)⟩
  | resume hn hp =>
      refine ⟨_, step_iff.mpr (.resume (same.next ▸ hn) (same.pending ▸ hp)), ?_⟩
      rw [← same.replies]
      exact visits related hn (.inr ⟨_, rfl⟩)
  | fail hn => exact ⟨_, step_iff.mpr (.fail (same.next ▸ hn)), fails related⟩

end Workflow

end AgentOs.Lib
