import AgentOs.Lib.Machine
import Mathlib.Algebra.GroupWithZero.Nat
import Mathlib.Data.List.GetD
import Mathlib.Tactic.SplitIfs

/-!
The webhook sink's queue, worker threads and shutdown (`webhooks.py`).

`emit` may be called by any number of threads, and `close` once. A step of the machine is
what one thread does between two accesses of what the threads share: the closed flag, the
list of the workers, the lock and the queue. The flag is read without the lock, the workers
are started under it, and the events and the sentinels that stop the workers go into one
bounded queue.

`sink_shutdown` says that every event is attempted or reported and that every worker exits,
if each sentinel finds room in the queue and each event gets into it ahead of a sentinel.
-/

namespace AgentOs

open AgentOs.Lib

/-! ### The threads -/

/-- The sizes a sink is made with. -/
structure SinkSizes where
  maxQueueSize : ℕ
  numWorkers : ℕ
  queues : 1 ≤ maxQueueSize
  works : 1 ≤ numWorkers

/-- What the queue holds: an event, by the number of its `emit` call, or
`_SHUTDOWN_SENTINEL`. -/
inductive QueueItem where
  | event (call : ℕ)
  | sentinel
deriving DecidableEq, Repr

/-- Where a call of `emit` is. -/
inductive EmitStage where
  /-- before the closed flag is read -/
  | called
  /-- in `_ensure_workers_started`, before the closed flag is read -/
  | ensuring
  /-- before the workers are looked at -/
  | looking
  /-- at the lock -/
  | waiting
  /-- with the lock, before the workers and the flag are looked at again -/
  | checking
  /-- with the lock, before worker `i` is started -/
  | starting (i : ℕ)
  /-- with the lock, before worker `i` joins the list -/
  | started (i : ℕ)
  /-- before the event is put in the queue -/
  | putting
  | returned
deriving DecidableEq, Repr

/-- The call has the lock. -/
def EmitStage.holds : EmitStage → Bool
  | .checking | .starting _ | .started _ => true
  | _ => false

/-- Where a worker thread is. -/
inductive WorkerStage where
  /-- `self._queue.get()` -/
  | getting
  | sending (call : ℕ)
  | exited
deriving DecidableEq, Repr

/-- Where the call of `close` is. -/
inductive CloseStage where
  | called
  /-- with the lock -/
  | locked
  /-- the flag is set -/
  | closed
  /-- the loop that puts the sentinels, after `n` of them -/
  | sentinels (n : ℕ)
  /-- the loop that joins the workers, after `n` of them -/
  | joining (n : ℕ)
  | returned
deriving DecidableEq, Repr

/-- The call is about to put a sentinel in the queue. -/
def CloseStage.puts (workers : ℕ) : CloseStage → Bool
  | .sentinels n => n < workers
  | _ => false

inductive LockHolder where
  | emit (call : ℕ)
  | close
deriving DecidableEq, Repr

/-- What the threads share, and where each of them is. -/
structure SinkState where
  closed : Bool := false
  lock : Option LockHolder := none
  queue : List QueueItem := []
  /-- the length of the list of the workers -/
  workers : ℕ := 0
  threads : List WorkerStage := []
  emits : List EmitStage := []
  close : CloseStage := .called
  /-- the events that a worker tried to deliver -/
  attempted : List ℕ := []
  /-- the events that were logged as dropped -/
  dropped : List ℕ := []
deriving DecidableEq, Repr

inductive SinkStep where
  /-- a thread calls `emit` -/
  | call
  | emit (call : ℕ)
  | worker (thread : ℕ)
  | close
deriving DecidableEq, Repr

/-- The call goes on at a stage. -/
def SinkState.emitAt (s : SinkState) (call : ℕ) (stage : EmitStage) : SinkState :=
  { s with emits := s.emits.set call stage }

/-- The thread goes on at a stage. -/
def SinkState.workerAt (s : SinkState) (thread : ℕ) (stage : WorkerStage) : SinkState :=
  { s with threads := s.threads.set thread stage }

section

variable (sink : SinkSizes) (s : SinkState)

/-- `emit` and `_ensure_workers_started`. -/
def emitStep (call : ℕ) : EmitStage → Option SinkState
  | .called =>
      if s.closed then some { s.emitAt call .returned with dropped := s.dropped ++ [call] }
      else some (s.emitAt call .ensuring)
  | .ensuring => some (s.emitAt call (if s.closed then .putting else .looking))
  | .looking => some (s.emitAt call (if s.workers = 0 then .waiting else .putting))
  | .waiting =>
      if s.lock = none then some { s.emitAt call .checking with lock := some (.emit call) }
      else none
  | .checking =>
      if s.workers = 0 ∧ s.closed = false then some (s.emitAt call (.starting 0))
      else some { s.emitAt call .putting with lock := none }
  | .starting i =>
      if i < sink.numWorkers then
        some { s.emitAt call (.started i) with threads := s.threads ++ [.getting] }
      else some { s.emitAt call .putting with lock := none }
  | .started i => some { s.emitAt call (.starting (i + 1)) with workers := s.workers + 1 }
  | .putting =>
      if s.queue.length < sink.maxQueueSize then
        some { s.emitAt call .returned with queue := s.queue ++ [.event call] }
      else some { s.emitAt call .returned with dropped := s.dropped ++ [call] }
  | .returned => none

/-- `_worker_loop`; a delivery ends, whatever its outcome. -/
def workerStep (thread : ℕ) : WorkerStage → Option SinkState
  | .getting =>
      match s.queue with
      | [] => none
      | .sentinel :: queue => some { s.workerAt thread .exited with queue := queue }
      | .event call :: queue =>
          some { s.workerAt thread (.sending call) with
            queue := queue, attempted := s.attempted ++ [call] }
  | .sending _ => some (s.workerAt thread .getting)
  | .exited => none

/-- `close`; a join ends with its worker or at the deadline. -/
def closeStep : CloseStage → Option SinkState
  | .called => if s.lock = none then some { s with close := .locked, lock := some .close } else none
  | .locked =>
      if s.closed then some { s with close := .returned, lock := none }
      else some { s with close := .closed, lock := none, closed := true }
  | .closed => some { s with close := if s.workers = 0 then .returned else .sentinels 0 }
  | .sentinels n =>
      if n < s.workers then
        if s.queue.length < sink.maxQueueSize then
          some { s with close := .sentinels (n + 1), queue := s.queue ++ [.sentinel] }
        else some { s with close := .sentinels (n + 1) }
      else some { s with close := .joining 0 }
  | .joining n => some { s with close := if n < s.workers then .joining (n + 1) else .returned }
  | .returned => none

def sinkStep : SinkStep → Option SinkState
  | .call => some { s with emits := s.emits ++ [.called] }
  | .emit call => s.emits[call]?.bind (emitStep sink s call)
  | .worker thread => s.threads[thread]?.bind (workerStep s thread)
  | .close => closeStep sink s s.close

end

def sinkMachine (sink : SinkSizes) : Machine SinkState SinkStep := ⟨sinkStep sink⟩

/-! ### What a thread may do -/

section

variable (sink : SinkSizes) (s : SinkState)

/-- The steps of a call of `emit`, from its stage. -/
inductive EmitMove (call : ℕ) : EmitStage → SinkState → Prop where
  | refused (closed : s.closed = true) :
      EmitMove call .called { s.emitAt call .returned with dropped := s.dropped ++ [call] }
  | accepted (opened : s.closed = false) : EmitMove call .called (s.emitAt call .ensuring)
  | late (closed : s.closed = true) : EmitMove call .ensuring (s.emitAt call .putting)
  | ensured (opened : s.closed = false) : EmitMove call .ensuring (s.emitAt call .looking)
  | idle (none : s.workers = 0) : EmitMove call .looking (s.emitAt call .waiting)
  | working (some : s.workers ≠ 0) : EmitMove call .looking (s.emitAt call .putting)
  | acquired (free : s.lock = none) :
      EmitMove call .waiting { s.emitAt call .checking with lock := some (.emit call) }
  | starts (none : s.workers = 0) (opened : s.closed = false) :
      EmitMove call .checking (s.emitAt call (.starting 0))
  | released (needless : 1 ≤ s.workers ∨ s.closed = true) :
      EmitMove call .checking { s.emitAt call .putting with lock := none }
  | started (i : ℕ) (more : i < sink.numWorkers) :
      EmitMove call (.starting i)
        { s.emitAt call (.started i) with threads := s.threads ++ [.getting] }
  | finished (i : ℕ) (last : sink.numWorkers ≤ i) :
      EmitMove call (.starting i) { s.emitAt call .putting with lock := none }
  | joined (i : ℕ) :
      EmitMove call (.started i) { s.emitAt call (.starting (i + 1)) with workers := s.workers + 1 }
  | put (room : s.queue.length < sink.maxQueueSize) :
      EmitMove call .putting { s.emitAt call .returned with queue := s.queue ++ [.event call] }
  | full (full : sink.maxQueueSize ≤ s.queue.length) :
      EmitMove call .putting { s.emitAt call .returned with dropped := s.dropped ++ [call] }

/-- The steps of a worker thread, from its stage. -/
inductive WorkerMove (thread : ℕ) : WorkerStage → SinkState → Prop where
  | stopped (queue : List QueueItem) (next : s.queue = .sentinel :: queue) :
      WorkerMove thread .getting { s.workerAt thread .exited with queue := queue }
  | took (call : ℕ) (queue : List QueueItem) (next : s.queue = .event call :: queue) :
      WorkerMove thread .getting
        { s.workerAt thread (.sending call) with
          queue := queue, attempted := s.attempted ++ [call] }
  | sent (call : ℕ) : WorkerMove thread (.sending call) (s.workerAt thread .getting)

/-- The steps of the call of `close`, from its stage. -/
inductive CloseMove : CloseStage → SinkState → Prop where
  | acquired (free : s.lock = none) :
      CloseMove .called { s with close := .locked, lock := some .close }
  | again (closed : s.closed = true) : CloseMove .locked { s with close := .returned, lock := none }
  | closes (opened : s.closed = false) :
      CloseMove .locked { s with close := .closed, lock := none, closed := true }
  | idle (none : s.workers = 0) : CloseMove .closed { s with close := .returned }
  | stops (some : s.workers ≠ 0) : CloseMove .closed { s with close := .sentinels 0 }
  | put (n : ℕ) (more : n < s.workers) (room : s.queue.length < sink.maxQueueSize) :
      CloseMove (.sentinels n)
        { s with close := .sentinels (n + 1), queue := s.queue ++ [.sentinel] }
  | full (n : ℕ) (more : n < s.workers) (full : sink.maxQueueSize ≤ s.queue.length) :
      CloseMove (.sentinels n) { s with close := .sentinels (n + 1) }
  | stopped (n : ℕ) (last : s.workers ≤ n) : CloseMove (.sentinels n) { s with close := .joining 0 }
  | joined (n : ℕ) (more : n < s.workers) :
      CloseMove (.joining n) { s with close := .joining (n + 1) }
  | returns (n : ℕ) (last : s.workers ≤ n) : CloseMove (.joining n) { s with close := .returned }

end

section

variable {sink : SinkSizes} {s t : SinkState}

theorem emitStep_move {call : ℕ} {stage : EmitStage} (stepped : emitStep sink s call stage = some t) :
    EmitMove sink s call stage t := by
  cases stage with
  | called =>
      simp only [emitStep] at stepped
      split_ifs at stepped with closed
      · rw [← Option.some.inj stepped]
        exact .refused closed
      · rw [← Option.some.inj stepped]
        exact .accepted (Bool.eq_false_iff.mpr closed)
  | ensuring =>
      rw [← Option.some.inj stepped]
      cases closed : s.closed with
      | true => exact .late closed
      | false => exact .ensured closed
  | looking =>
      rw [← Option.some.inj stepped]
      split_ifs with none
      · exact .idle none
      · exact .working none
  | waiting =>
      simp only [emitStep] at stepped
      split_ifs at stepped with free
      rw [← Option.some.inj stepped]
      exact .acquired free
  | checking =>
      simp only [emitStep] at stepped
      split_ifs at stepped with first
      · rw [← Option.some.inj stepped]
        exact .starts first.1 first.2
      · rw [← Option.some.inj stepped]
        refine .released ?_
        rcases Nat.eq_zero_or_pos s.workers with none | some
        · exact .inr (Bool.of_not_eq_false fun opened => first ⟨none, opened⟩)
        · exact .inl some
  | starting i =>
      simp only [emitStep] at stepped
      split_ifs at stepped with more
      · rw [← Option.some.inj stepped]
        exact .started i more
      · rw [← Option.some.inj stepped]
        exact .finished i (Nat.le_of_not_lt more)
  | started i =>
      rw [← Option.some.inj stepped]
      exact .joined i
  | putting =>
      simp only [emitStep] at stepped
      split_ifs at stepped with room
      · rw [← Option.some.inj stepped]
        exact .put room
      · rw [← Option.some.inj stepped]
        exact .full (Nat.le_of_not_lt room)
  | returned => cases stepped

theorem workerStep_move {thread : ℕ} {stage : WorkerStage}
    (stepped : workerStep s thread stage = some t) : WorkerMove s thread stage t := by
  cases stage with
  | getting =>
      simp only [workerStep] at stepped
      cases next : s.queue with
      | nil =>
          rw [next] at stepped
          cases stepped
      | cons item queue =>
          rw [next] at stepped
          cases item with
          | event call =>
              rw [← Option.some.inj stepped]
              exact .took call queue next
          | sentinel =>
              rw [← Option.some.inj stepped]
              exact .stopped queue next
  | sending call =>
      rw [← Option.some.inj stepped]
      exact .sent call
  | exited => cases stepped

theorem closeStep_move {stage : CloseStage} (stepped : closeStep sink s stage = some t) :
    CloseMove sink s stage t := by
  cases stage with
  | called =>
      simp only [closeStep] at stepped
      split_ifs at stepped with free
      rw [← Option.some.inj stepped]
      exact .acquired free
  | locked =>
      simp only [closeStep] at stepped
      split_ifs at stepped with closed
      · rw [← Option.some.inj stepped]
        exact .again closed
      · rw [← Option.some.inj stepped]
        exact .closes (Bool.eq_false_iff.mpr closed)
  | closed =>
      rw [← Option.some.inj stepped]
      split_ifs with none
      · exact .idle none
      · exact .stops none
  | sentinels n =>
      simp only [closeStep] at stepped
      split_ifs at stepped with more room
      · rw [← Option.some.inj stepped]
        exact .put n more room
      · rw [← Option.some.inj stepped]
        exact .full n more (Nat.le_of_not_lt room)
      · rw [← Option.some.inj stepped]
        exact .stopped n (Nat.le_of_not_lt more)
  | joining n =>
      rw [← Option.some.inj stepped]
      split_ifs with more
      · exact .joined n more
      · exact .returns n (Nat.le_of_not_lt more)
  | returned => cases stepped

/-- What a step of the machine is. -/
theorem sinkStep_cases {l : SinkStep} (stepped : sinkStep sink s l = some t) :
    (l = .call ∧ t = { s with emits := s.emits ++ [.called] }) ∨
    (∃ call stage, l = .emit call ∧ s.emits[call]? = some stage ∧ EmitMove sink s call stage t) ∨
    (∃ thread stage, l = .worker thread ∧ s.threads[thread]? = some stage ∧
      WorkerMove s thread stage t) ∨
    (l = .close ∧ CloseMove sink s s.close t) := by
  cases l with
  | call => exact .inl ⟨rfl, (Option.some.inj stepped).symm⟩
  | emit call =>
      obtain ⟨stage, now, moved⟩ := Option.bind_eq_some_iff.mp stepped
      exact .inr (.inl ⟨call, stage, rfl, now, emitStep_move moved⟩)
  | worker thread =>
      obtain ⟨stage, now, moved⟩ := Option.bind_eq_some_iff.mp stepped
      exact .inr (.inr (.inl ⟨thread, stage, rfl, now, workerStep_move moved⟩))
  | close => exact .inr (.inr (.inr ⟨rfl, closeStep_move stepped⟩))

end

/-! ### What holds in every run -/

/-- What a call of `emit` may rely on at a stage. -/
def EmitSound (sink : SinkSizes) (s : SinkState) (call : ℕ) : EmitStage → Prop
  | .checking => s.lock = some (.emit call) ∧ s.threads.length = s.workers
  | .starting i => s.lock = some (.emit call) ∧ s.closed = false ∧ s.workers = i ∧
      s.threads.length = i ∧ i ≤ sink.numWorkers
  | .started i => s.lock = some (.emit call) ∧ s.closed = false ∧ s.workers = i ∧
      s.threads.length = i + 1 ∧ i < sink.numWorkers
  | .putting => s.closed = true ∨ 1 ≤ s.workers
  | .called | .ensuring | .looking | .waiting | .returned => True

/-- What the call of `close` may rely on at a stage. -/
def CloseSound (s : SinkState) : CloseStage → Prop
  | .called => s.closed = false ∧ s.lock ≠ some .close
  | .locked => s.closed = false ∧ s.lock = some .close
  | .closed | .returned => s.closed = true ∧ s.lock ≠ some .close
  | .sentinels n | .joining n => s.closed = true ∧ s.lock ≠ some .close ∧ n ≤ s.workers

/-- The call of `emit` has not yet put its event in the queue, or it is there, or a worker took
it, or it was reported. -/
def Placed (s : SinkState) (call : ℕ) : EmitStage → Prop
  | .returned => .event call ∈ s.queue ∨ call ∈ s.attempted ∨ call ∈ s.dropped
  | _ => True

structure SinkInv (sink : SinkSizes) (s : SinkState) : Prop where
  emits : ∀ call stage, s.emits[call]? = some stage → EmitSound sink s call stage
  holder : ∀ call, s.lock = some (.emit call) → ∃ stage ∈ s.emits[call]?, stage.holds = true
  close : CloseSound s s.close
  level : (∀ call, s.lock ≠ some (.emit call)) → s.threads.length = s.workers
  workers : s.workers ≤ sink.numWorkers
  placed : ∀ call stage, s.emits[call]? = some stage → Placed s call stage

theorem sinkInv_init (sink : SinkSizes) : SinkInv sink {} where
  emits _ _ now := by cases now
  holder _ held := by cases held
  close := ⟨rfl, by decide⟩
  level _ := rfl
  workers := Nat.zero_le _
  placed _ _ now := by cases now

section

variable {sink : SinkSizes} {s t : SinkState}

/-- The stage of a call after one has gone on. -/
theorem emitAt_stage {call other : ℕ} {stage stage' now : EmitStage}
    (present : s.emits[call]? = some stage)
    (after : (s.emitAt call stage').emits[other]? = some now) :
    other = call ∧ now = stage' ∨ other ≠ call ∧ s.emits[other]? = some now := by
  obtain ⟨inside, _⟩ := List.getElem?_eq_some_iff.mp present
  rw [SinkState.emitAt, List.getElem?_set] at after
  split_ifs at after with same
  · exact .inl ⟨same.symm, (Option.some.inj after).symm⟩
  · exact .inr ⟨fun eq => same eq.symm, after⟩

/-- What a call relies on stays, if the flag and the workers grow, and nothing of the workers
changes while it holds the lock. -/
theorem EmitSound.frame {call : ℕ} {stage : EmitStage} (sound : EmitSound sink s call stage)
    (closes : s.closed = true → t.closed = true) (grows : s.workers ≤ t.workers)
    (kept : s.lock = some (.emit call) → t.lock = s.lock ∧ t.closed = s.closed ∧
      t.workers = s.workers ∧ t.threads.length = s.threads.length) :
    EmitSound sink t call stage := by
  cases stage with
  | checking =>
      obtain ⟨lock, _, workers, threads⟩ := kept sound.1
      exact ⟨lock.trans sound.1, by rw [threads, workers, sound.2]⟩
  | starting i =>
      obtain ⟨lock, closed, workers, threads⟩ := kept sound.1
      obtain ⟨held, opened, placed, level, bound⟩ := sound
      exact ⟨lock.trans held, closed.trans opened, workers.trans placed, threads.trans level, bound⟩
  | started i =>
      obtain ⟨lock, closed, workers, threads⟩ := kept sound.1
      obtain ⟨held, opened, placed, level, bound⟩ := sound
      exact ⟨lock.trans held, closed.trans opened, workers.trans placed, threads.trans level, bound⟩
  | putting =>
      rcases sound with closed | some
      · exact .inl (closes closed)
      · exact .inr (Nat.le_trans some grows)
  | called | ensuring | looking | waiting | returned => trivial

theorem CloseSound.frame {stage : CloseStage} (sound : CloseSound s stage)
    (closed : t.closed = s.closed) (lock : t.lock = some .close ↔ s.lock = some .close)
    (grows : s.workers ≤ t.workers) : CloseSound t stage := by
  cases stage with
  | called => exact ⟨closed.trans sound.1, fun held => sound.2 (lock.mp held)⟩
  | locked => exact ⟨closed.trans sound.1, lock.mpr sound.2⟩
  | closed | returned => exact ⟨closed.trans sound.1, fun held => sound.2 (lock.mp held)⟩
  | sentinels n | joining n =>
      obtain ⟨set, free, bound⟩ := sound
      exact ⟨closed.trans set, fun held => free (lock.mp held), Nat.le_trans bound grows⟩

/-- The events of a state stay placed where they move on only. -/
theorem Placed.mono {call : ℕ} {stage : EmitStage} (placed : Placed s call stage)
    (events : ∀ call, .event call ∈ s.queue ∨ call ∈ s.attempted ∨ call ∈ s.dropped →
      .event call ∈ t.queue ∨ call ∈ t.attempted ∨ call ∈ t.dropped) : Placed t call stage := by
  cases stage with
  | returned => exact events call placed
  | called | ensuring | looking | waiting | checking | starting | started | putting => trivial

section

variable {call : ℕ} {stage stage' : EmitStage} (inv : SinkInv sink s)
include inv

/-- Events move on. -/
theorem SinkInv.events (queue : List QueueItem) (attempted dropped : List ℕ)
    (events : ∀ call, .event call ∈ s.queue ∨ call ∈ s.attempted ∨ call ∈ s.dropped →
      .event call ∈ queue ∨ call ∈ attempted ∨ call ∈ dropped) :
    SinkInv sink { s with queue := queue, attempted := attempted, dropped := dropped } where
  emits call stage now := (inv.emits call stage now).frame id (Nat.le_refl _) fun _ => ⟨rfl, rfl, rfl, rfl⟩
  holder := inv.holder
  close := inv.close.frame rfl Iff.rfl (Nat.le_refl _)
  level := inv.level
  workers := inv.workers
  placed call stage now := (inv.placed call stage now).mono events

theorem SinkInv.reports (call : ℕ) : SinkInv sink { s with dropped := s.dropped ++ [call] } :=
  inv.events s.queue s.attempted (s.dropped ++ [call]) fun _ =>
    Or.imp_right (Or.imp_right fun mem => List.mem_append_left _ mem)

theorem SinkInv.queues (item : QueueItem) : SinkInv sink { s with queue := s.queue ++ [item] } :=
  inv.events (s.queue ++ [item]) s.attempted s.dropped fun _ =>
    Or.imp_left fun mem => List.mem_append_left _ mem

/-- The call goes on, and what the threads share stays. -/
theorem SinkInv.goesOn (present : s.emits[call]? = some stage) (sound : EmitSound sink s call stage')
    (placed : Placed s call stage') (holds : s.lock = some (.emit call) → stage'.holds = true) :
    SinkInv sink (s.emitAt call stage') where
  emits other now after := by
    rcases emitAt_stage present after with ⟨rfl, rfl⟩ | ⟨_, before⟩
    · exact sound.frame id (Nat.le_refl _) fun _ => ⟨rfl, rfl, rfl, rfl⟩
    · exact (inv.emits other now before).frame id (Nat.le_refl _) fun _ => ⟨rfl, rfl, rfl, rfl⟩
  holder other held := by
    obtain ⟨inside, _⟩ := List.getElem?_eq_some_iff.mp present
    by_cases same : other = call
    · subst same
      exact ⟨stage', List.getElem?_set_self inside, holds held⟩
    · obtain ⟨now, before, holding⟩ := inv.holder other held
      exact ⟨now, (List.getElem?_set_ne fun eq => same eq.symm).trans before, holding⟩
  close := inv.close.frame rfl Iff.rfl (Nat.le_refl _)
  level := inv.level
  workers := inv.workers
  placed other now after := by
    rcases emitAt_stage present after with ⟨rfl, rfl⟩ | ⟨_, before⟩
    · exact placed.mono fun _ => id
    · exact (inv.placed other now before).mono fun _ => id

/-- The call takes the lock. -/
theorem SinkInv.acquires (present : s.emits[call]? = some .waiting) (free : s.lock = none) :
    SinkInv sink { s.emitAt call .checking with lock := some (.emit call) } where
  emits other now after := by
    rcases emitAt_stage present after with ⟨rfl, rfl⟩ | ⟨_, before⟩
    · exact ⟨rfl, inv.level fun c held => by rw [free] at held; cases held⟩
    · exact (inv.emits other now before).frame id (Nat.le_refl _) fun held => by
        rw [free] at held
        cases held
  holder other held := by
    obtain ⟨inside, _⟩ := List.getElem?_eq_some_iff.mp present
    cases held
    exact ⟨.checking, List.getElem?_set_self inside, rfl⟩
  close := inv.close.frame rfl (by simp [free]) (Nat.le_refl _)
  level none := absurd rfl (none call)
  workers := inv.workers
  placed other now after := by
    rcases emitAt_stage present after with ⟨rfl, rfl⟩ | ⟨_, before⟩
    · trivial
    · exact (inv.placed other now before).mono fun _ => id

/-- The call gives the lock back. -/
theorem SinkInv.releases (present : s.emits[call]? = some stage) (held : s.lock = some (.emit call))
    (level : s.threads.length = s.workers) (ready : s.closed = true ∨ 1 ≤ s.workers) :
    SinkInv sink { s.emitAt call .putting with lock := none } where
  emits other now after := by
    rcases emitAt_stage present after with ⟨rfl, rfl⟩ | ⟨apart, before⟩
    · exact ready
    · exact (inv.emits other now before).frame id (Nat.le_refl _) fun held' => by
        rw [held] at held'
        cases held'
        exact absurd rfl apart
  holder other held := by cases held
  close := inv.close.frame rfl (by simp [held]) (Nat.le_refl _)
  level _ := level
  workers := inv.workers
  placed other now after := by
    rcases emitAt_stage present after with ⟨rfl, rfl⟩ | ⟨_, before⟩
    · trivial
    · exact (inv.placed other now before).mono fun _ => id

/-- The call that holds the lock changes the workers. -/
theorem SinkInv.starts (present : s.emits[call]? = some stage) (held : s.lock = some (.emit call))
    {threads : List WorkerStage} {workers : ℕ}
    (sound : EmitSound sink { s with threads := threads, workers := workers } call stage')
    (holds : stage'.holds = true) (grows : s.workers ≤ workers)
    (bound : workers ≤ sink.numWorkers) :
    SinkInv sink { s.emitAt call stage' with threads := threads, workers := workers } where
  emits other now after := by
    rcases emitAt_stage present after with ⟨rfl, rfl⟩ | ⟨apart, before⟩
    · exact sound.frame id (Nat.le_refl _) fun _ => ⟨rfl, rfl, rfl, rfl⟩
    · exact (inv.emits other now before).frame id grows fun held' => by
        rw [held] at held'
        cases held'
        exact absurd rfl apart
  holder other held' := by
    obtain ⟨inside, _⟩ := List.getElem?_eq_some_iff.mp present
    cases held.symm.trans held'
    exact ⟨stage', List.getElem?_set_self inside, holds⟩
  close := inv.close.frame rfl Iff.rfl grows
  level none := absurd held (none call)
  workers := bound
  placed other now after := by
    rcases emitAt_stage present after with ⟨rfl, rfl⟩ | ⟨_, before⟩
    · cases now with
      | returned => cases holds
      | called | ensuring | looking | waiting | checking | starting | started | putting => trivial
    · exact (inv.placed other now before).mono fun _ => id

/-- A step of a call of `emit` keeps the invariant. -/
theorem SinkInv.emit (present : s.emits[call]? = some stage) (move : EmitMove sink s call stage t) :
    SinkInv sink t := by
  have sound := inv.emits call stage present
  have lockless : stage.holds = false → s.lock ≠ some (.emit call) := by
    intro plain held
    obtain ⟨now, before, holds⟩ := inv.holder call held
    rw [present] at before
    cases before
    rw [plain] at holds
    cases holds
  cases move with
  | refused _ =>
      exact (inv.reports call).goesOn present trivial (.inr (.inr List.mem_concat_self))
        fun held => absurd held (lockless rfl)
  | accepted _ | ensured _ | idle _ =>
      exact inv.goesOn present trivial trivial fun held => absurd held (lockless rfl)
  | late closed =>
      exact inv.goesOn present (.inl closed) trivial fun held => absurd held (lockless rfl)
  | working some =>
      exact inv.goesOn present (.inr (Nat.one_le_iff_ne_zero.mpr some)) trivial
        fun held => absurd held (lockless rfl)
  | acquired free => exact inv.acquires present free
  | starts none opened =>
      exact inv.goesOn present ⟨sound.1, opened, none, sound.2.trans none, Nat.zero_le _⟩ trivial
        fun _ => rfl
  | released needless => exact inv.releases present sound.1 sound.2 needless.symm
  | started i more =>
      obtain ⟨held, opened, place, level, _⟩ := sound
      refine inv.starts present held ⟨held, opened, place, ?_, more⟩ rfl (Nat.le_refl _) inv.workers
      rw [List.length_append, level, List.length_singleton]
  | finished i last =>
      obtain ⟨held, _, place, level, _⟩ := sound
      have some : 1 ≤ s.workers := Nat.le_trans sink.works (place ▸ last)
      exact inv.releases present held (level.trans place.symm) (.inr some)
  | joined i =>
      obtain ⟨held, opened, place, level, bound⟩ := sound
      have next : s.workers + 1 = i + 1 := congrArg (· + 1) place
      exact inv.starts present held ⟨held, opened, next, level, bound⟩ rfl (Nat.le_succ _)
        (next ▸ bound)
  | put _ =>
      exact (inv.queues (.event call)).goesOn present trivial (.inl List.mem_concat_self)
        fun held => absurd held (lockless rfl)
  | full _ =>
      exact (inv.reports call).goesOn present trivial (.inr (.inr List.mem_concat_self))
        fun held => absurd held (lockless rfl)

/-- A step of a worker keeps the invariant. -/
theorem SinkInv.worker {thread : ℕ} {now : WorkerStage} (move : WorkerMove s thread now t) :
    SinkInv sink t := by
  have moves : ∀ {s'} (_ : SinkInv sink s') (next : WorkerStage),
      SinkInv sink (s'.workerAt thread next) := by
    intro s' inv next
    have same : (s'.threads.set thread next).length = s'.threads.length := List.length_set
    exact
      { emits := fun call stage before =>
          (inv.emits call stage before).frame id (Nat.le_refl _) fun _ => ⟨rfl, rfl, rfl, same⟩
        holder := inv.holder
        close := inv.close.frame rfl Iff.rfl (Nat.le_refl _)
        level := fun none => same.trans (inv.level none)
        workers := inv.workers
        placed := fun call stage before => (inv.placed call stage before).mono fun _ => id }
  cases move with
  | stopped queue next =>
      refine moves (inv.events queue s.attempted s.dropped fun call => Or.imp_left fun mem => ?_) _
      rw [next] at mem
      exact (List.mem_cons.mp mem).resolve_left (fun eq => by cases eq)
  | took call queue next =>
      refine moves (inv.events queue (s.attempted ++ [call]) s.dropped fun other placed => ?_) _
      rcases placed with mem | mem | mem
      · rw [next] at mem
        rcases List.mem_cons.mp mem with same | later
        · cases same
          exact .inr (.inl List.mem_concat_self)
        · exact .inl later
      · exact .inr (.inl (List.mem_append_left _ mem))
      · exact .inr (.inr mem)
  | sent call => exact moves inv _

/-- The call of `close` goes on, and what the threads share stays. -/
theorem SinkInv.closeGoesOn {stage : CloseStage} (sound : CloseSound s stage) :
    SinkInv sink { s with close := stage } where
  emits call now before :=
    (inv.emits call now before).frame id (Nat.le_refl _) fun _ => ⟨rfl, rfl, rfl, rfl⟩
  holder := inv.holder
  close := sound.frame rfl Iff.rfl (Nat.le_refl _)
  level := inv.level
  workers := inv.workers
  placed call now before := (inv.placed call now before).mono fun _ => id

/-- The call of `close` takes the lock or gives it back. -/
theorem SinkInv.closeLocks {stage : CloseStage} {lock : Option LockHolder} {closed : Bool}
    (sound : CloseSound { s with closed := closed, lock := lock } stage)
    (before : ∀ call, s.lock ≠ some (.emit call)) (after : ∀ call, lock ≠ some (.emit call))
    (closes : s.closed = true → closed = true) :
    SinkInv sink { s with close := stage, lock := lock, closed := closed } where
  emits call now present := (inv.emits call now present).frame closes (Nat.le_refl _)
    fun held => absurd held (before call)
  holder call held := absurd held (after call)
  close := sound.frame rfl Iff.rfl (Nat.le_refl _)
  level _ := inv.level before
  workers := inv.workers
  placed call now present := (inv.placed call now present).mono fun _ => id

/-- A step of `close` keeps the invariant. -/
theorem SinkInv.closing (move : CloseMove sink s s.close t) : SinkInv sink t := by
  have sound := inv.close
  generalize s.close = stage at move sound
  cases move with
  | acquired free =>
      refine inv.closeLocks ⟨sound.1, rfl⟩ (fun call held => ?_) (fun call held => by cases held) id
      rw [free] at held
      cases held
  | again closed =>
      have same := sound.1.symm.trans closed
      cases same
  | closes _ =>
      refine inv.closeLocks ⟨rfl, fun held => by cases held⟩ (fun call held => ?_)
        (fun call held => by cases held) fun _ => rfl
      rw [sound.2] at held
      cases held
  | idle _ => exact inv.closeGoesOn sound
  | stops _ => exact inv.closeGoesOn ⟨sound.1, sound.2, Nat.zero_le _⟩
  | put n more _ => exact (inv.queues .sentinel).closeGoesOn ⟨sound.1, sound.2.1, more⟩
  | full n more _ => exact inv.closeGoesOn ⟨sound.1, sound.2.1, more⟩
  | stopped n _ => exact inv.closeGoesOn ⟨sound.1, sound.2.1, Nat.zero_le _⟩
  | joined n more => exact inv.closeGoesOn ⟨sound.1, sound.2.1, more⟩
  | returns n _ => exact inv.closeGoesOn ⟨sound.1, sound.2.1⟩

/-- A new call keeps the invariant. -/
theorem SinkInv.calls : SinkInv sink { s with emits := s.emits ++ [.called] } := by
  have stages : ∀ (call : ℕ) stage, (s.emits ++ [EmitStage.called])[call]? = some stage →
      s.emits[call]? = some stage ∨ stage = .called := by
    intro call stage now
    rw [List.getElem?_append] at now
    split_ifs at now
    · exact .inl now
    · exact .inr (List.mem_singleton.mp (List.mem_of_getElem? now))
  exact
    { emits := fun call stage now => by
        rcases stages call stage now with old | rfl
        · exact (inv.emits call stage old).frame id (Nat.le_refl _) fun _ => ⟨rfl, rfl, rfl, rfl⟩
        · trivial
      holder := fun call held => by
        obtain ⟨stage, now, holds⟩ := inv.holder call held
        obtain ⟨inside, _⟩ := List.getElem?_eq_some_iff.mp now
        exact ⟨stage, (List.getElem?_append_left inside).trans now, holds⟩
      close := inv.close.frame rfl Iff.rfl (Nat.le_refl _)
      level := inv.level
      workers := inv.workers
      placed := fun call stage now => by
        rcases stages call stage now with old | rfl
        · exact (inv.placed call stage old).mono fun _ => id
        · trivial }

theorem SinkInv.step {l : SinkStep} (stepped : sinkStep sink s l = some t) : SinkInv sink t := by
  rcases sinkStep_cases stepped with ⟨_, rfl⟩ | ⟨call, stage, _, present, move⟩ |
    ⟨thread, stage, _, _, move⟩ | ⟨_, move⟩
  · exact inv.calls
  · exact inv.emit present move
  · exact inv.worker move
  · exact inv.closing move

end

end

/-! ### Runs end -/

/-- The steps that a call of `emit` has before it, and two for its event in the queue. -/
def emitWork (sink : SinkSizes) : EmitStage → ℕ
  | .called => 2 * sink.numWorkers + 9
  | .ensuring => 2 * sink.numWorkers + 8
  | .looking => 2 * sink.numWorkers + 7
  | .waiting => 2 * sink.numWorkers + 6
  | .checking => 2 * sink.numWorkers + 5
  | .starting i => 2 * (sink.numWorkers - i) + 4
  | .started i => 2 * (sink.numWorkers - i) + 3
  | .putting => 3
  | .returned => 0

def itemWork : QueueItem → ℕ
  | .event _ => 2
  | .sentinel => 1

def workerWork : WorkerStage → ℕ
  | .sending _ => 1
  | .getting | .exited => 0

/-- The steps that `close` has before it, and one for each sentinel in the queue. -/
def closeWork (sink : SinkSizes) : CloseStage → ℕ
  | .called => 3 * sink.numWorkers + 5
  | .locked => 3 * sink.numWorkers + 4
  | .closed => 3 * sink.numWorkers + 3
  | .sentinels n => 3 * sink.numWorkers + 2 - 2 * n
  | .joining n => sink.numWorkers + 1 - n
  | .returned => 0

/-- The steps that all threads have before them, with no further call of `emit`. -/
def SinkState.work (sink : SinkSizes) (s : SinkState) : ℕ :=
  (s.emits.map (emitWork sink)).sum + (s.queue.map itemWork).sum +
    (s.threads.map workerWork).sum + closeWork sink s.close

theorem sum_map_set {α : Type} {f : α → ℕ} {l : List α} {i : ℕ} {a b : α}
    (present : l[i]? = some a) : ((l.set i b).map f).sum + f a = (l.map f).sum + f b := by
  induction l generalizing i with
  | nil => cases present
  | cons c l ih =>
      cases i with
      | zero =>
          cases present
          simp only [List.set_cons_zero, List.map_cons, List.sum_cons]
          omega
      | succ i =>
          have rest := ih present
          simp only [List.set_cons_succ, List.map_cons, List.sum_cons]
          omega

section

variable {sink : SinkSizes} {s t : SinkState}

theorem EmitMove.work_lt {call : ℕ} {stage : EmitStage} (inv : SinkInv sink s)
    (present : s.emits[call]? = some stage) (move : EmitMove sink s call stage t) :
    t.work sink < s.work sink := by
  have sound := inv.emits call stage present
  -- what the call still has to do makes the difference, but for an event in the queue
  have goesOn : ∀ stage' more, emitWork sink stage' + more < emitWork sink stage →
      ((s.emits.set call stage').map (emitWork sink)).sum + more <
        (s.emits.map (emitWork sink)).sum := by
    intro stage' more less
    have moved := sum_map_set (f := emitWork sink) (b := stage') present
    omega
  have plain : ∀ stage', emitWork sink stage' < emitWork sink stage →
      ((s.emits.set call stage').map (emitWork sink)).sum + (s.queue.map itemWork).sum +
        (s.threads.map workerWork).sum + closeWork sink s.close < s.work sink := by
    intro stage' less
    have := goesOn stage' 0 less
    unfold SinkState.work
    omega
  cases move with
  | refused _ | full _ => exact plain .returned (by simp [emitWork])
  | late _ | working _ | released _ => exact plain .putting (by simp [emitWork])
  | accepted _ => exact plain .ensuring (by simp [emitWork])
  | ensured _ => exact plain .looking (by simp [emitWork])
  | idle _ => exact plain .waiting (by simp [emitWork])
  | acquired _ => exact plain .checking (by simp [emitWork])
  | starts _ _ => exact plain (.starting 0) (by simp [emitWork])
  | finished i _ =>
      exact plain .putting (by simp only [emitWork]; omega)
  | joined i =>
      obtain ⟨_, _, _, _, more⟩ := sound
      exact plain (.starting (i + 1)) (by simp only [emitWork]; omega)
  | started i more =>
      have less := plain (.started i) (by simp [emitWork])
      simpa [SinkState.work, SinkState.emitAt, workerWork] using less
  | put room =>
      have less := goesOn .returned 2 (by simp [emitWork])
      simp only [SinkState.work, SinkState.emitAt, List.map_append, List.sum_append, List.map_cons,
        List.map_nil, List.sum_singleton, itemWork]
      omega

theorem WorkerMove.work_lt {thread : ℕ} {stage : WorkerStage}
    (present : s.threads[thread]? = some stage) (move : WorkerMove s thread stage t) :
    t.work sink < s.work sink := by
  have moved : ∀ stage', ((s.threads.set thread stage').map workerWork).sum + workerWork stage =
      (s.threads.map workerWork).sum + workerWork stage' := fun _ => sum_map_set present
  cases move with
  | stopped queue next =>
      have after := moved .exited
      simp only [SinkState.work, SinkState.workerAt, next, List.map_cons, List.sum_cons, workerWork,
        itemWork] at after ⊢
      omega
  | took call queue next =>
      have after := moved (.sending call)
      simp only [SinkState.work, SinkState.workerAt, next, List.map_cons, List.sum_cons, workerWork,
        itemWork] at after ⊢
      omega
  | sent call =>
      have after := moved .getting
      simp only [SinkState.work, SinkState.workerAt, workerWork] at after ⊢
      omega

theorem CloseMove.work_lt (inv : SinkInv sink s) (move : CloseMove sink s s.close t) :
    t.work sink < s.work sink := by
  have sound := inv.close
  have workers := inv.workers
  have less : ∀ stage, closeWork sink stage < closeWork sink s.close →
      (s.emits.map (emitWork sink)).sum + (s.queue.map itemWork).sum +
        (s.threads.map workerWork).sum + closeWork sink stage < s.work sink := by
    intro stage less
    unfold SinkState.work
    omega
  generalize place : s.close = stage at move sound less
  cases move with
  | acquired _ => exact less .locked (by simp [closeWork])
  | again _ => exact less .returned (by simp [closeWork])
  | closes _ => exact less .closed (by simp [closeWork])
  | idle _ => exact less .returned (by simp [closeWork])
  | stops _ => exact less (.sentinels 0) (by simp [closeWork])
  | put n more room =>
      simp only [SinkState.work, place, List.map_append, List.sum_append, List.map_cons,
        List.map_nil, List.sum_singleton, itemWork, closeWork]
      omega
  | full n more _ => exact less (.sentinels (n + 1)) (by simp only [closeWork]; omega)
  | stopped n last =>
      obtain ⟨_, _, bound⟩ := sound
      exact less (.joining 0) (by simp only [closeWork]; omega)
  | joined n more => exact less (.joining (n + 1)) (by simp only [closeWork]; omega)
  | returns n _ =>
      obtain ⟨_, _, bound⟩ := sound
      exact less .returned (by simp only [closeWork]; omega)

theorem work_lt_step {l : SinkStep} (inv : SinkInv sink s) (settled : l ≠ .call)
    (stepped : sinkStep sink s l = some t) : t.work sink < s.work sink := by
  rcases sinkStep_cases stepped with ⟨rfl, _⟩ | ⟨call, stage, _, present, move⟩ |
    ⟨thread, stage, _, present, move⟩ | ⟨_, move⟩
  · exact absurd rfl settled
  · exact move.work_lt inv present
  · exact move.work_lt present
  · exact move.work_lt inv

/-- A run without further calls of `emit` ends. -/
theorem work_bounds {ls : List SinkStep} (inv : SinkInv sink s)
    (path : Machine.Path (sinkMachine sink) (fun _ l => l ≠ .call) s ls t) :
    ls.length + t.work sink ≤ s.work sink := by
  induction path with
  | nil s => simp
  | cons settled stepped _ ih =>
      have rest := ih (inv.step stepped)
      have first := work_lt_step inv settled stepped
      rw [List.length_cons]
      omega

end

/-! ### Where nothing is lost -/

/-- A sentinel is still to come. -/
def CloseStage.toCome (workers : ℕ) : CloseStage → Prop
  | .called | .locked => True
  | .closed => workers ≠ 0
  | .sentinels n => n < workers
  | .joining _ | .returned => False

instance (workers : ℕ) (stage : CloseStage) : Decidable (stage.toCome workers) := by
  cases stage <;> unfold CloseStage.toCome <;> infer_instance

/-- An event that is put in the queue has a sentinel behind it, and a sentinel finds room. -/
def PutInTime (sink : SinkSizes) (s : SinkState) : SinkStep → Prop
  | .emit call => s.emits[call]? = some .putting → s.queue.length < sink.maxQueueSize →
      s.close.toCome s.workers
  | .close => s.close.puts s.workers = true → s.queue.length < sink.maxQueueSize
  | .call | .worker _ => True

instance (sink : SinkSizes) (s : SinkState) (l : SinkStep) : Decidable (PutInTime sink s l) := by
  cases l <;> unfold PutInTime <;> infer_instance

def WorkerStage.alive : WorkerStage → ℕ
  | .exited => 0
  | .getting | .sending _ => 1

/-- The number of sentinels that `close` has put, if each found room. -/
def CloseStage.signals (workers : ℕ) : CloseStage → ℕ
  | .called | .locked | .closed => 0
  | .sentinels n => n
  | .joining _ | .returned => workers

/-- What holds where every item was put in time. -/
structure Signalled (s : SinkState) : Prop where
  works : s.queue ≠ [] → 1 ≤ s.workers
  last : ¬ s.close.toCome s.workers → ∀ call, s.queue.getLast? ≠ some (.event call)
  signals : s.queue.count .sentinel + s.threads.length =
    (s.threads.map WorkerStage.alive).sum + s.close.signals s.workers

section

variable {sink : SinkSizes} {s t : SinkState}

/-- Before the flag is set, `close` has not got beyond the lock. -/
theorem SinkInv.early (inv : SinkInv sink s) (opened : s.closed = false) :
    s.close = .called ∨ s.close = .locked := by
  have sound := inv.close
  generalize s.close = stage at sound
  cases stage with
  | called => exact .inl rfl
  | locked => exact .inr rfl
  | closed | returned | sentinels | joining => cases opened.symm.trans sound.1

/-- Where the flag is set and a sentinel is to come, there are workers. -/
theorem SinkInv.workers_of_toCome (inv : SinkInv sink s) (closed : s.closed = true)
    (toCome : s.close.toCome s.workers) : 1 ≤ s.workers := by
  have sound := inv.close
  generalize s.close = stage at sound toCome
  cases stage with
  | called | locked => cases closed.symm.trans sound.1
  | closed => exact Nat.one_le_iff_ne_zero.mpr toCome
  | sentinels n => exact Nat.lt_of_le_of_lt (Nat.zero_le n) toCome
  | joining | returned => exact toCome.elim

theorem Signalled.emit {call : ℕ} {stage : EmitStage} (inv : SinkInv sink s)
    (signalled : Signalled s) (present : s.emits[call]? = some stage)
    (inTime : PutInTime sink s (.emit call)) (move : EmitMove sink s call stage t) :
    Signalled t := by
  have sound := inv.emits call stage present
  have before := signalled.signals
  cases move with
  | refused | accepted | late | ensured | idle | working | acquired | starts | released | finished
      | full => exact ⟨signalled.works, signalled.last, before⟩
  | started i more =>
      refine ⟨signalled.works, signalled.last, ?_⟩
      simp only [SinkState.emitAt, List.length_append, List.map_append,
        List.sum_append, List.length_singleton, List.map_cons, List.map_nil, List.sum_singleton,
        WorkerStage.alive] at before ⊢
      omega
  | joined i =>
      obtain ⟨_, opened, _⟩ := sound
      rcases inv.early opened with place | place
      · refine ⟨fun _ => Nat.le_add_left 1 _, fun none => absurd ?_ none, ?_⟩
        · simp [CloseStage.toCome, SinkState.emitAt, place]
        · simpa [CloseStage.signals, SinkState.emitAt, place] using before
      · refine ⟨fun _ => Nat.le_add_left 1 _, fun none => absurd ?_ none, ?_⟩
        · simp [CloseStage.toCome, SinkState.emitAt, place]
        · simpa [CloseStage.signals, SinkState.emitAt, place] using before
  | put room =>
      have toCome := inTime present room
      refine ⟨fun _ => ?_, fun none => absurd toCome none, ?_⟩
      · exact sound.elim (fun closed => inv.workers_of_toCome closed toCome) id
      · simpa [SinkState.emitAt] using before

theorem Signalled.worker {thread : ℕ} {stage : WorkerStage} (signalled : Signalled s)
    (present : s.threads[thread]? = some stage) (move : WorkerMove s thread stage t) :
    Signalled t := by
  have before := signalled.signals
  have moved : ∀ stage', ((s.threads.set thread stage').map WorkerStage.alive).sum + stage.alive =
      (s.threads.map WorkerStage.alive).sum + stage'.alive := fun _ => sum_map_set present
  -- the rest of the queue ends as the queue does
  have ends : ∀ {item queue}, s.queue = item :: queue → ¬ s.close.toCome s.workers →
      ∀ call, queue.getLast? ≠ some (.event call) := by
    intro item queue next none call last
    refine signalled.last none call ?_
    rw [next, List.getLast?_cons, last]
    rfl
  cases move with
  | stopped queue next =>
      refine ⟨fun _ => signalled.works (by simp [next]), ends next, ?_⟩
      have after := moved .exited
      simp only [SinkState.workerAt, next, List.count_cons_self,
        List.length_set, WorkerStage.alive] at before after ⊢
      omega
  | took call queue next =>
      refine ⟨fun _ => signalled.works (by simp [next]), ends next, ?_⟩
      have after := moved (.sending call)
      have others : (QueueItem.event call :: queue).count .sentinel = queue.count .sentinel :=
        List.count_cons_of_ne (fun eq => by cases eq)
      simp only [SinkState.workerAt, next, others, List.length_set,
        WorkerStage.alive] at before after ⊢
      omega
  | sent call =>
      refine ⟨signalled.works, signalled.last, ?_⟩
      have after := moved .getting
      simp only [SinkState.workerAt, List.length_set, WorkerStage.alive]
        at before after ⊢
      omega

theorem Signalled.closing (inv : SinkInv sink s) (signalled : Signalled s)
    (inTime : PutInTime sink s .close) (move : CloseMove sink s s.close t) : Signalled t := by
  obtain ⟨works, last, before⟩ := signalled
  have sound := inv.close
  have inTime' : s.close.puts s.workers = true → s.queue.length < sink.maxQueueSize := inTime
  have unused : s.workers = 0 → s.queue = [] := by
    intro none
    by_contra used
    have := works used
    omega
  generalize s.close = stage at move sound last before inTime'
  cases move with
  | acquired _ => exact ⟨works, fun none => absurd trivial none, before⟩
  | again closed => cases sound.1.symm.trans closed
  | closes _ =>
      refine ⟨works, fun none call present => ?_, before⟩
      rw [show s.queue = [] from unused (Decidable.not_not.mp none)] at present
      cases present
  | idle none =>
      refine ⟨works, fun _ => last fun some => some none, ?_⟩
      rw [show s.workers = 0 from none] at *
      exact before
  | stops some => exact ⟨works, fun none => absurd (Nat.pos_of_ne_zero some) none, before⟩
  | put n more room =>
      refine ⟨fun _ => Nat.lt_of_le_of_lt (Nat.zero_le n) more, fun none call present => ?_, ?_⟩
      · rw [List.getLast?_concat] at present
        cases present
      · simp only [CloseStage.signals, List.count_append, List.count_singleton_self] at before ⊢
        omega
  | full n more full =>
      have := inTime' (decide_eq_true more)
      omega
  | stopped n all =>
      refine ⟨works, fun _ => last (Nat.not_lt.mpr all), ?_⟩
      rw [show s.workers = n from Nat.le_antisymm all sound.2.2] at *
      exact before
  | joined n _ => exact ⟨works, last, before⟩
  | returns n _ => exact ⟨works, last, before⟩

theorem Signalled.step {l : SinkStep} (inv : SinkInv sink s) (signalled : Signalled s)
    (inTime : PutInTime sink s l) (stepped : sinkStep sink s l = some t) : Signalled t := by
  rcases sinkStep_cases stepped with ⟨_, rfl⟩ | ⟨call, stage, rfl, present, move⟩ |
    ⟨thread, stage, _, present, move⟩ | ⟨rfl, move⟩
  · exact ⟨signalled.works, signalled.last, signalled.signals⟩
  · exact signalled.emit inv present inTime move
  · exact signalled.worker present move
  · exact signalled.closing inv inTime move

end

/-! ### Shutdown -/

/-- No thread can go on. -/
def AtRest (sink : SinkSizes) (s : SinkState) : Prop :=
  ∀ l, l ≠ .call → sinkStep sink s l = none

/-- Every event was attempted or reported, and every worker has exited. -/
structure Settled (s : SinkState) : Prop where
  events : ∀ call < s.emits.length, call ∈ s.attempted ∨ call ∈ s.dropped
  workers : ∀ stage ∈ s.threads, stage = .exited

/-- Without further calls of `emit` the threads come to rest, and there every event and every
worker is accounted for. -/
structure ShutsDown (sink : SinkSizes) (s : SinkState) : Prop where
  ends : ∃ bound, ∀ ls t, Machine.Path (sinkMachine sink) (fun _ l => l ≠ .call) s ls t →
    ls.length ≤ bound
  settled : AtRest sink s → Settled s

section

variable {sink : SinkSizes} {s : SinkState}

/-- A call of `emit` that cannot go on has returned or waits for the lock. -/
theorem emitStep_none {call : ℕ} {stage : EmitStage} (stuck : emitStep sink s call stage = none) :
    stage = .returned ∨ stage = .waiting ∧ s.lock ≠ none := by
  cases stage with
  | returned => exact .inl rfl
  | waiting =>
      refine .inr ⟨rfl, fun free => ?_⟩
      simp only [emitStep, free, if_true] at stuck
      cases stuck
  | called | checking | starting | putting =>
      simp only [emitStep] at stuck
      split_ifs at stuck
  | ensuring | looking | started => cases stuck

theorem closeStep_none {stage : CloseStage} (stuck : closeStep sink s stage = none) :
    stage = .returned ∨ stage = .called ∧ s.lock ≠ none := by
  cases stage with
  | returned => exact .inl rfl
  | called =>
      refine .inr ⟨rfl, fun free => ?_⟩
      simp only [closeStep, free, if_true] at stuck
      cases stuck
  | locked | sentinels =>
      simp only [closeStep] at stuck
      split_ifs at stuck
  | closed | joining => cases stuck

/-- At rest the lock is free: who holds it can go on. -/
theorem SinkInv.lock_free (inv : SinkInv sink s) (rest : AtRest sink s) : s.lock = none := by
  cases held : s.lock with
  | none => rfl
  | some holder =>
      cases holder with
      | emit call =>
          obtain ⟨stage, now, holds⟩ := inv.holder call held
          have stuck := rest (.emit call) (fun eq => by cases eq)
          rw [sinkStep, show s.emits[call]? = some stage from now] at stuck
          rcases emitStep_none stuck with rfl | ⟨rfl, _⟩
          · cases holds
          · cases holds
      | close =>
          have sound := inv.close
          have stuck := rest .close (fun eq => by cases eq)
          rcases closeStep_none stuck with place | ⟨place, _⟩
          · rw [place] at sound
            exact absurd held sound.2
          · rw [place] at sound
            exact absurd held sound.2

theorem SinkInv.emits_returned (inv : SinkInv sink s) (rest : AtRest sink s) {call : ℕ}
    {stage : EmitStage} (now : s.emits[call]? = some stage) : stage = .returned := by
  have stuck := rest (.emit call) (fun eq => by cases eq)
  rw [sinkStep, now] at stuck
  rcases emitStep_none stuck with returned | ⟨_, held⟩
  · exact returned
  · exact absurd (inv.lock_free rest) held

theorem SinkInv.close_returned (inv : SinkInv sink s) (rest : AtRest sink s) :
    s.close = .returned := by
  rcases closeStep_none (rest .close (fun eq => by cases eq)) with returned | ⟨_, held⟩
  · exact returned
  · exact absurd (inv.lock_free rest) held

/-- At rest a worker has exited, or waits for an item. -/
theorem workers_at_rest (rest : AtRest sink s) {stage : WorkerStage} (mem : stage ∈ s.threads) :
    stage = .exited ∨ s.queue = [] := by
  obtain ⟨thread, now⟩ := List.mem_iff_getElem?.mp mem
  have stuck := rest (.worker thread) (fun eq => by cases eq)
  rw [sinkStep, now] at stuck
  have stuck : workerStep s thread stage = none := stuck
  cases stage with
  | exited => exact .inl rfl
  | sending => cases stuck
  | getting =>
      simp only [workerStep] at stuck
      cases next : s.queue with
      | nil => exact .inr rfl
      | cons item queue =>
          rw [next] at stuck
          cases item <;> cases stuck

/-- A queue whose items were put in time is empty at rest, and the workers have exited. -/
theorem Signalled.at_rest (inv : SinkInv sink s) (signalled : Signalled s)
    (rest : AtRest sink s) : s.queue = [] ∧ ∀ stage ∈ s.threads, stage = .exited := by
  have returned := inv.close_returned rest
  have level := inv.level fun call held => by
    rw [inv.lock_free rest] at held
    cases held
  have before := signalled.signals
  rw [returned, CloseStage.signals, level, Nat.add_right_cancel_iff] at before
  have exits : (s.threads.map WorkerStage.alive).sum = 0 → ∀ stage ∈ s.threads, stage = .exited := by
    intro none stage mem
    have dead := List.sum_eq_zero_iff_forall_eq_nat.mp none stage.alive (List.mem_map_of_mem mem)
    cases stage with
    | exited => rfl
    | getting | sending => cases dead
  have empty : s.queue = [] := by
    by_contra used
    have gone : ∀ stage ∈ s.threads, stage = .exited := fun stage mem =>
      (workers_at_rest rest mem).resolve_right used
    have none : (s.threads.map WorkerStage.alive).sum = 0 := by
      refine List.sum_eq_zero_iff_forall_eq_nat.mpr fun alive mem => ?_
      obtain ⟨stage, present, rfl⟩ := List.mem_map.mp mem
      rw [gone stage present]
      rfl
    rw [none] at before
    -- the last item is no event, and no sentinel is left
    cases last : s.queue.getLast? with
    | none => exact used (List.getLast?_eq_none_iff.mp last)
    | some item =>
        cases item with
        | event call =>
            exact signalled.last (by rw [returned]; exact id) call last
        | sentinel =>
            exact List.count_eq_zero.mp before (List.mem_of_getLast? last)
  refine ⟨empty, exits ?_⟩
  rw [← before, empty]
  rfl

end

/-- Where each sentinel finds room in the queue, and no event gets into it behind the last one,
every event is attempted or reported and every worker exits. -/
theorem sink_shutdown (sink : SinkSizes) {ls : List SinkStep} {s : SinkState}
    (path : Machine.Path (sinkMachine sink) (PutInTime sink) {} ls s) : ShutsDown sink s := by
  have ⟨inv, signalled⟩ : SinkInv sink s ∧ Signalled s := by
    refine path.invariant (I := fun s => SinkInv sink s ∧ Signalled s) ?_ ⟨sinkInv_init sink, ?_⟩
    · rintro s l t inTime ⟨inv, signalled⟩ stepped
      exact ⟨inv.step stepped, signalled.step inv inTime stepped⟩
    · exact ⟨fun used => absurd rfl used, fun _ _ last => (by cases last), rfl⟩
  refine ⟨⟨s.work sink, fun ls t path => ?_⟩, fun rest => ?_⟩
  · have := work_bounds inv path
    omega
  · obtain ⟨empty, exited⟩ := signalled.at_rest inv rest
    refine ⟨fun call inside => ?_, exited⟩
    have now := List.getElem?_eq_getElem inside
    have placed := inv.placed call _ now
    rw [inv.emits_returned rest now] at placed
    rcases placed with queued | done
    · rw [empty] at queued
      cases queued
    · exact done

/-- A queue of one, and one worker. -/
def smallSink : SinkSizes := ⟨1, 1, Nat.le_refl 1, Nat.le_refl 1⟩

/-- A call of `emit` that starts the worker, up to its event. -/
def firstEmit : List SinkStep := .call :: List.replicate 8 (.emit 0)

/-- The event is delivered, and `close` stops the worker. -/
def quietShutdown : List SinkStep :=
  firstEmit ++ [.emit 0, .worker 0, .worker 0] ++ List.replicate 4 .close ++ [.worker 0] ++
    List.replicate 3 .close

theorem quiet_shutdown_settles : ∃ s, (sinkMachine smallSink).run {} quietShutdown = some s ∧
    AtRest smallSink s ∧ s.attempted = [0] ∧ ShutsDown smallSink s := by
  have ends : (((sinkMachine smallSink).restrict (PutInTime smallSink)).run {} quietShutdown) =
      some { closed := true, workers := 1, threads := [.exited], emits := [.returned],
             close := .returned, attempted := [0] } := by
    decide +kernel
  have path := Machine.run_restrict_iff.mp ends
  refine ⟨_, Machine.run_eq_some_iff.mpr path.free, ?_, rfl, sink_shutdown smallSink path⟩
  intro l settled
  cases l with
  | call => exact absurd rfl settled
  | emit call => cases call <;> rfl
  | worker thread => cases thread <;> rfl
  | close => rfl

/-- The second event fills the queue, and `close` finds no room for its sentinel. -/
def fullQueue : List SinkStep :=
  firstEmit ++ [.emit 0, .worker 0, .call] ++ List.replicate 4 (.emit 1) ++
    List.replicate 7 .close ++ List.replicate 3 (.worker 0)

/-- The flag is read before `close` sets it, and the event put after the worker has exited. -/
def lateEvent : List SinkStep :=
  firstEmit ++ List.replicate 7 .close ++ [.worker 0, .emit 0]

/-- In a full queue there is no room for the sentinel, and the worker waits for ever; an event
that is put behind the sentinel is neither attempted nor reported. -/
theorem shutdown_loses :
    (∃ s, (sinkMachine smallSink).run {} fullQueue = some s ∧ .getting ∈ s.threads ∧
      ¬ ShutsDown smallSink s) ∧
    ∃ s, (sinkMachine smallSink).run {} lateEvent = some s ∧ 0 < s.emits.length ∧
      0 ∉ s.attempted ∧ 0 ∉ s.dropped ∧ ¬ ShutsDown smallSink s := by
  refine ⟨⟨_, rfl, by decide, fun ended => ?_⟩, _, rfl, by decide, by decide, by decide,
    fun ended => ?_⟩
  · have settled := ended.settled fun l settled => by
      cases l with
      | call => exact absurd rfl settled
      | emit call => rcases call with _ | _ | call <;> rfl
      | worker thread => cases thread <;> rfl
      | close => rfl
    cases settled.workers .getting (by decide)
  · have settled := ended.settled fun l settled => by
      cases l with
      | call => exact absurd rfl settled
      | emit call => cases call <;> rfl
      | worker thread => cases thread <;> rfl
      | close => rfl
    exact absurd (settled.events 0 (by decide)) (by decide)

end AgentOs
