import AgentOs.Lib.Slots
import Mathlib.Data.List.Nodup
import Mathlib.Data.List.Perm.Subperm

/-!
Pools of tasks.

A pool lists the tasks that were ever spawned, in that order, each with the job it was
given and its result once it is done; and the places of those that the owner still holds.
A task is held from when it is spawned, and may be let go once it is done (`Sound`).

So the tasks that go on are at most as many as are held (`Sound.going_le`), and where the
held ones are done, all are: to wait for a snapshot of what is held is to wait for every
task (`all_done`).
-/

namespace AgentOs.Lib

/-- A task, with what it ended in. -/
structure PoolTask (α ρ : Type) where
  job : α
  result : Option ρ := none
deriving DecidableEq, Repr

structure TaskPool (α ρ : Type) where
  tasks : List (PoolTask α ρ) := []
  held : List ℕ := []
deriving DecidableEq, Repr

namespace TaskPool

variable {α ρ : Type}

section

variable (p : TaskPool α ρ)

/-- A new task, which is held. -/
def spawn (job : α) : TaskPool α ρ where
  tasks := p.tasks ++ [⟨job, none⟩]
  held := p.held ++ [p.tasks.length]

/-- New tasks, one after another. -/
def spawnAll (jobs : List α) : TaskPool α ρ := jobs.foldl spawn p

/-- The task at a place is done. -/
def finish (i : ℕ) (task : PoolTask α ρ) (result : ρ) : TaskPool α ρ :=
  { p with tasks := p.tasks.set i { task with result := some result } }

/-- A task is let go, if it is held. -/
def discard (i : ℕ) : TaskPool α ρ := { p with held := p.held.erase i }

/-- All tasks are let go. -/
def clear : TaskPool α ρ := { p with held := [] }

/-- No task at this place goes on. -/
def Done (i : ℕ) : Prop := ∀ task ∈ p.tasks[i]?, task.result.isSome

instance (i : ℕ) : Decidable (p.Done i) :=
  inferInstanceAs (Decidable (∀ task ∈ p.tasks[i]?, _))

/-- The tasks that go on. -/
def going : List (PoolTask α ρ) := p.tasks.filter (·.result.isNone)

def jobs : List α := p.tasks.map (·.job)

/-- Each task that goes on is held, once. -/
structure Sound : Prop where
  unique : p.held.Nodup
  known : ∀ i ∈ p.held, i < p.tasks.length
  held : ∀ i, ¬p.Done i → i ∈ p.held

end

variable {p : TaskPool α ρ} {i j : ℕ} {job : α} {task : PoolTask α ρ} {result : ρ}

theorem not_done_iff : ¬p.Done i ↔ ∃ task, p.tasks[i]? = some task ∧ task.result = none := by
  unfold Done
  push Not
  constructor
  · rintro ⟨task, here, going⟩
    exact ⟨task, here, Option.not_isSome_iff_eq_none.mp going⟩
  · rintro ⟨task, here, going⟩
    exact ⟨task, here, by simp [going]⟩

theorem lt_of_not_done (going : ¬p.Done i) : i < p.tasks.length := by
  obtain ⟨_, here, _⟩ := not_done_iff.mp going
  exact (List.getElem?_eq_some_iff.mp here).1

/-! ### What the operations do -/

@[simp] theorem jobs_spawnAll (jobs : List α) : (p.spawnAll jobs).jobs = p.jobs ++ jobs := by
  induction jobs generalizing p with
  | nil => exact (List.append_nil _).symm
  | cons job jobs ih =>
      refine (ih (p := p.spawn job)).trans ?_
      simp [TaskPool.jobs, spawn]

theorem length_held_spawnAll (jobs : List α) :
    (p.spawnAll jobs).held.length = p.held.length + jobs.length := by
  induction jobs generalizing p with
  | nil => rfl
  | cons job jobs ih =>
      refine (ih (p := p.spawn job)).trans ?_
      simp only [spawn, List.length_append, List.length_cons, List.length_nil]
      omega

theorem jobs_finish (here : p.tasks[i]? = some task) : (p.finish i task result).jobs = p.jobs := by
  unfold TaskPool.jobs finish
  dsimp only
  apply List.ext_getElem?
  intro j
  rw [List.getElem?_map, List.getElem?_map, List.getElem?_set]
  split
  · rename_i same
    subst same
    rw [if_pos (List.getElem?_eq_some_iff.mp here).1, here]
    rfl
  · rfl

/-- A task that was spawned is not done by a spawn, and stays done. -/
theorem done_spawn_iff : (p.spawn job).Done i ↔ p.Done i ∧ i ≠ p.tasks.length := by
  unfold Done spawn
  dsimp only
  constructor
  · intro done
    refine ⟨fun task here => done task (getElem?_concat_of_getElem? here), ?_⟩
    rintro rfl
    have last : (p.tasks ++ [⟨job, none⟩])[p.tasks.length]? = some ⟨job, none⟩ :=
      List.getElem?_concat_length
    cases done _ last
  · rintro ⟨done, old⟩ task here
    rcases getElem?_concat_cases here with before | ⟨last, _⟩
    · exact done task before
    · exact absurd last old

theorem length_tasks_spawnAll (jobs : List α) :
    (p.spawnAll jobs).tasks.length = p.tasks.length + jobs.length := by
  have spawned := congrArg List.length (jobs_spawnAll (p := p) jobs)
  simpa [TaskPool.jobs] using spawned

/-- New tasks leave what is done. -/
theorem Done.spawnAll (done : p.Done i) (old : i < p.tasks.length) (jobs : List α) :
    (p.spawnAll jobs).Done i := by
  induction jobs generalizing p with
  | nil => exact done
  | cons job jobs ih =>
      refine ih (done_spawn_iff.mpr ⟨done, Nat.ne_of_lt old⟩) ?_
      have grown := length_tasks_spawnAll (p := p) [job]
      exact Nat.lt_of_lt_of_eq (Nat.lt_succ_of_lt old) grown.symm

theorem Done.finish (done : p.Done j) : (p.finish i task result).Done j := by
  intro task' here
  rcases getElem?_set_cases here with ⟨_, rfl⟩ | ⟨_, before⟩
  · rfl
  · exact done task' before

theorem done_finish_self : (p.finish i task result).Done i := by
  intro task' there
  rcases getElem?_set_cases there with ⟨_, rfl⟩ | ⟨other, _⟩
  · rfl
  · exact absurd rfl other

/-! ### Soundness -/

/-- Where the tasks of a snapshot are done that had all that go on, every task is. -/
theorem all_done {snapshot : List ℕ} (covered : ∀ i, ¬p.Done i → i ∈ snapshot)
    (done : ∀ i ∈ snapshot, p.Done i) (i : ℕ) : p.Done i := by
  by_contra going
  exact going (done i (covered i going))

theorem sound_empty : ({} : TaskPool α ρ).Sound where
  unique := List.nodup_nil
  known := by simp
  held i going := absurd (lt_of_not_done going) (Nat.not_lt_zero i)

namespace Sound

theorem spawn (sound : p.Sound) : (p.spawn job).Sound where
  unique := by
    refine sound.unique.append (List.nodup_singleton _) ?_
    intro i old new
    obtain rfl := List.mem_singleton.mp new
    exact absurd (sound.known _ old) (Nat.lt_irrefl _)
  known := by
    intro i mem
    unfold TaskPool.spawn at mem ⊢
    rw [List.length_append]
    rcases List.mem_append.mp mem with old | new
    · exact Nat.lt_add_right _ (sound.known i old)
    · obtain rfl := List.mem_singleton.mp new
      exact Nat.lt_succ_self _
  held := by
    intro i going
    rw [done_spawn_iff, not_and_or, not_not] at going
    rcases going with old | rfl
    · exact List.mem_append_left _ (sound.held i old)
    · exact List.mem_append_right _ (List.mem_singleton.mpr rfl)

theorem spawnAll (sound : p.Sound) (jobs : List α) : (p.spawnAll jobs).Sound := by
  induction jobs generalizing p with
  | nil => exact sound
  | cons job jobs ih => exact ih sound.spawn

theorem finish (sound : p.Sound) : (p.finish i task result).Sound where
  unique := sound.unique
  known := by
    intro j mem
    unfold TaskPool.finish
    rw [List.length_set]
    exact sound.known j mem
  held j going := sound.held j fun done => going done.finish

/-- A task that is done may be let go. -/
theorem discard (sound : p.Sound) (done : p.Done i) : (p.discard i).Sound where
  unique := sound.unique.erase i
  known j mem := sound.known j (List.mem_of_mem_erase mem)
  held := by
    intro j going
    have other : j ≠ i := by
      rintro rfl
      exact going done
    exact (List.mem_erase_of_ne other).mpr (sound.held j going)

/-- Once every task is done all may be let go. -/
theorem clear (done : ∀ i, p.Done i) : p.clear.Sound where
  unique := List.nodup_nil
  known := by simp [TaskPool.clear]
  held i going := absurd (done i) going

/-- No more tasks go on than are held. -/
theorem going_le (sound : p.Sound) : p.going.length ≤ p.held.length := by
  let places := (p.tasks.zipIdx.filter fun item => item.1.result.isNone).map Prod.snd
  have count : places.length = p.going.length := by
    have tasks : (p.tasks.zipIdx.filter fun item => item.1.result.isNone).map Prod.fst = p.going := by
      unfold going
      conv_rhs => rw [← List.zipIdx_map_fst 0 p.tasks, List.filter_map]
      rfl
    rw [← tasks, List.length_map, List.length_map]
  have unique : places.Nodup := by
    refine List.Nodup.sublist (List.Sublist.map _ List.filter_sublist) ?_
    rw [List.zipIdx_map_snd]
    exact List.nodup_range' ..
  have held : places ⊆ p.held := by
    intro i mem
    obtain ⟨⟨task, i⟩, found, rfl⟩ := List.mem_map.mp mem
    obtain ⟨listed, going⟩ := List.mem_filter.mp found
    refine sound.held i (not_done_iff.mpr ⟨task, ?_, Option.isNone_iff_eq_none.mp going⟩)
    exact List.mem_zipIdx_iff_getElem?.mp listed
  rw [← count]
  exact (List.subperm_of_subset unique held).length_le

end Sound

end TaskPool

end AgentOs.Lib
