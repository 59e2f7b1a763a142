import AgentOs.Lib.Machine
import AgentOs.Lib.TaskPool
import AgentOs.Schedules.Claims

/-!
The scheduler service (`scheduler.py`): the tick loop, the dispatch tasks and `stop`.

Everything runs on one event loop, so a step of the machine is what a task does between two
awaits. `tick` has no await: it claims the due rows and spawns a dispatch task for each in
one step. `stop` has two, the loop task and the gathered children, and other tasks go on
meanwhile.

`scheduler_accounting` says that no claimed row is lost, that ten dispatch tasks go on at
most, that a stop waits for all of them, and that nothing is claimed from a stop to the next
start.
-/

namespace AgentOs

open AgentOs.Lib

/-! ### The service -/

/-- What `dispatch_schedule` does. -/
inductive DispatchEnd where
  | result (status : String)
  | raised
  | cancelled
deriving DecidableEq, Repr

/-- What a task ends in. -/
inductive TaskEnd where
  | returned
  | cancelled
deriving DecidableEq, Repr

/-- `_managed_dispatch`: an error is logged, and only a cancellation goes through. -/
def managedDispatch : DispatchEnd → TaskEnd
  | .result _ | .raised => .returned
  | .cancelled => .cancelled

/-- A task of `_run_loop`; `cancelling` once `cancel` was called on it. -/
structure LoopTask where
  cancelling : Bool := false
  ended : Bool := false
deriving DecidableEq, Repr

/-- Where a call of `stop` is. -/
inductive StopStage where
  /-- `await self._loop_task` -/
  | joining (loop : ℕ)
  /-- `await asyncio.gather(*children)` -/
  | draining (children : List ℕ)
  | returned
deriving DecidableEq, Repr

/-- A call of `stop`, with the number of dispatch tasks that were created before it. -/
structure StopCall where
  before : ℕ
  stage : StopStage
deriving DecidableEq, Repr

/-- The service with the event loop and the store around it. -/
structure SchedulerService where
  running : Bool := false
  loopTask : Option ℕ := none
  /-- the dispatch tasks; `_child_tasks` are the held ones -/
  children : TaskPool ScheduleRow TaskEnd := {}
  loops : List LoopTask := []
  /-- the done callbacks to come -/
  callbacks : List ℕ := []
  stops : List StopCall := []
  schedules : ScheduleTable := []
  /-- what the ticks claimed so far -/
  claimed : List ScheduleRow := []

inductive SchedulerStep where
  | start (enabled : Bool)
  | tick (now : UtcDateTime) (fault : Option (ℕ × ScheduleError))
  /-- the loop task at place `i` goes on -/
  | runLoop (i : ℕ) (now : UtcDateTime) (fault : Option (ℕ × ScheduleError))
  /-- the dispatch task at place `i` ends -/
  | dispatched (i : ℕ) (outcome : DispatchEnd)
  /-- its done callback runs -/
  | callback (i : ℕ)
  | stop
  /-- the stop at place `j` goes on -/
  | resume (j : ℕ)
  /-- what others do to the store -/
  | edit (schedules : ScheduleTable)

namespace SchedulerService

variable (platform : Platform) (w : SchedulerService)

def start (enabled : Bool) : SchedulerService :=
  if w.running then w
  else if !enabled then w
  else { w with running := true, loopTask := some w.loops.length, loops := w.loops ++ [{}] }

/-- `max(0, 10 - len(self._child_tasks))`. -/
def capacity : ℤ := max 0 (10 - w.children.held.length)

def tick (now : UtcDateTime) (fault : Option (ℕ × ScheduleError)) : SchedulerService :=
  if !w.running then w
  else if w.capacity ≤ 0 then w
  else
    match ((ScheduleCall.claimDueSchedules now w.capacity).transaction platform).perform
        w.schedules fault with
    | (.ok (.claimed rows), schedules) =>
        { w with
          schedules
          children := w.children.spawnAll rows
          claimed := w.claimed ++ rows }
    | (_, schedules) => { w with schedules }

def endLoop (i : ℕ) (task : LoopTask) : SchedulerService :=
  { w with loops := w.loops.set i { task with ended := true } }

/-- What `_run_loop` does from one await to the next. -/
def runLoop (i : ℕ) (now : UtcDateTime) (fault : Option (ℕ × ScheduleError)) :
    Option SchedulerService :=
  (w.loops[i]?).bind fun task =>
    if task.ended then none
    else if task.cancelling then some (w.endLoop i task)
    else if w.running then some (w.tick platform now fault)
    else some (w.endLoop i task)

/-- A dispatch task ends, and its done callback is scheduled. -/
def dispatched (i : ℕ) (outcome : DispatchEnd) : Option SchedulerService :=
  (w.children.tasks[i]?).bind fun task =>
    if task.result.isSome then none
    else
      some
        { w with
          children := w.children.finish i task (managedDispatch outcome)
          callbacks := w.callbacks ++ [i] }

def callback (i : ℕ) : Option SchedulerService :=
  if i ∈ w.callbacks then
    some { w with children := w.children.discard i, callbacks := w.callbacks.erase i }
  else none

/-- Where a stop is after the loop task. -/
def drainStage : StopStage :=
  if w.children.held = [] then .returned else .draining w.children.held

def cancelLoop (i : ℕ) : SchedulerService :=
  { w with loops := w.loops.modify i fun task => { task with cancelling := !task.ended } }

/-- The loop task has ended. -/
def LoopEnded (i : ℕ) : Prop := ∀ task ∈ w.loops[i]?, task.ended = true

instance (i : ℕ) : Decidable (w.LoopEnded i) :=
  inferInstanceAs (Decidable (∀ task ∈ w.loops[i]?, task.ended = true))

/-- `stop` up to its first await. -/
def stop : SchedulerService :=
  let before := w.children.tasks.length
  let w := { w with running := false }
  match w.loopTask with
  | none => { w with stops := w.stops ++ [⟨before, w.drainStage⟩] }
  | some i =>
      if w.LoopEnded i then
        { w with loopTask := none, stops := w.stops ++ [⟨before, w.drainStage⟩] }
      else { w.cancelLoop i with stops := w.stops ++ [⟨before, .joining i⟩] }

/-- `stop` from one of its awaits on. -/
def resume (j : ℕ) : Option SchedulerService :=
  (w.stops[j]?).bind fun call =>
    match call.stage with
    | .joining i =>
        if w.LoopEnded i then
          some
            { w with
              loopTask := none
              stops := w.stops.set j { call with stage := w.drainStage } }
        else none
    | .draining children =>
        if ∀ i ∈ children, w.children.Done i then
          some
            { w with
              children := w.children.clear
              stops := w.stops.set j { call with stage := .returned } }
        else none
    | .returned => none

end SchedulerService

/-- The machine. -/
def schedulerService (platform : Platform) : Machine SchedulerService SchedulerStep where
  step w
    | .start enabled => some (w.start enabled)
    | .tick now fault => some (w.tick platform now fault)
    | .runLoop i now fault => w.runLoop platform i now fault
    | .dispatched i outcome => w.dispatched i outcome
    | .callback i => w.callback i
    | .stop => some w.stop
    | .resume j => w.resume j
    | .edit schedules => some { w with schedules }

/-- No stop is in progress where the service is started. -/
def StartsApart (w : SchedulerService) : SchedulerStep → Prop
  | .start _ => ∀ call ∈ w.stops, call.stage = .returned
  | _ => True

/-- The service is not started. -/
def NoStart (_ : SchedulerService) : SchedulerStep → Prop
  | .start _ => False
  | _ => True

/-! ### What a tick does -/

section

variable {platform : Platform} {w w' : SchedulerService} {now : UtcDateTime}
  {fault : Option (ℕ × ScheduleError)} {call : StopCall}

theorem ScheduleTable.length_selectDue_le (table : ScheduleTable) (now : String) {limit : ℤ}
    (positive : 0 < limit) : (table.selectDue now limit).length ≤ limit.toNat := by
  unfold selectDue limitTo
  rw [if_neg (by omega)]
  exact List.length_take_le ..

/-- A tick claims nothing; or it goes on while the service runs, and there are as many new
tasks as rows it has advanced, no more than there is room for. -/
theorem SchedulerService.tick_cases (platform : Platform) (w : SchedulerService)
    (now : UtcDateTime) (fault : Option (ℕ × ScheduleError)) :
    w.tick platform now fault = w ∨
      w.running = true ∧ ∃ rows : List ScheduleRow, w.children.held.length + rows.length ≤ 10 ∧
        w.tick platform now fault =
          { w with
            schedules := claimAll platform now rows w.schedules
            children := w.children.spawnAll rows
            claimed := w.claimed ++ rows } := by
  unfold tick
  by_cases running : w.running = true
  · rw [if_neg (by simp [running])]
    by_cases full : w.capacity ≤ 0
    · rw [if_pos full]
      exact .inl rfl
    rw [if_neg full]
    generalize claim : ((ScheduleCall.claimDueSchedules now w.capacity).transaction platform).perform
      w.schedules fault = claimed
    obtain ⟨answer, schedules⟩ := claimed
    cases answer with
    | error e =>
        have unchanged := Transaction.perform_raised (congrArg Prod.fst claim)
        rw [claim] at unchanged
        dsimp only at unchanged
        subst unchanged
        exact .inl rfl
    | ok reply =>
        obtain ⟨read, -, advanced⟩ := claimDueSchedules_perform (congrArg Prod.fst claim)
        rw [claim] at advanced
        dsimp only at advanced
        subst read advanced
        refine .inr ⟨running, _, ?_, rfl⟩
        have room := w.schedules.length_selectDue_le now.isoformat (Int.not_le.mp full)
        unfold capacity at room full
        unfold capacity
        omega
  · rw [if_pos (by simpa using running)]
    exact .inl rfl

theorem tick_of_stopped (stopped : w.running = false) : w.tick platform now fault = w := by
  unfold SchedulerService.tick
  rw [if_pos (by rw [stopped]; rfl)]

/-! ### What holds at every moment -/

/-- A stop that is in progress keeps the service from running and waits for every task that
goes on; one that returned leaves none of those before it. -/
structure StopCall.Waits (w : SchedulerService) (call : StopCall) : Prop where
  begun : call.before ≤ w.children.tasks.length
  stopped : call.stage ≠ .returned → w.running = false
  waits : ∀ children, call.stage = .draining children → ∀ i, ¬w.children.Done i → i ∈ children
  done : call.stage = .returned → ∀ i < call.before, w.children.Done i

/-- What holds of every reachable state. -/
structure SchedulerInv (w : SchedulerService) : Prop where
  sound : w.children.Sound
  bounded : w.children.held.length ≤ 10
  handed : w.children.jobs = w.claimed
  callbacks : ∀ i ∈ w.callbacks, i < w.children.tasks.length ∧ w.children.Done i
  stops : ∀ call ∈ w.stops, call.Waits w

theorem schedulerInv_empty (schedules : ScheduleTable) : SchedulerInv { schedules } where
  sound := TaskPool.sound_empty
  bounded := Nat.zero_le 10
  handed := rfl
  callbacks i mem := by cases mem
  stops call mem := by cases mem

/-- A stop waits on where no task is new and the service does not begin to run. -/
theorem StopCall.Waits.mono (waits : call.Waits w)
    (same : w'.children.tasks.length = w.children.tasks.length)
    (stopped : w.running = false → w'.running = false)
    (done : ∀ i, w.children.Done i → w'.children.Done i) : call.Waits w' where
  begun := by
    rw [same]
    exact waits.begun
  stopped going := stopped (waits.stopped going)
  waits children draining i going := waits.waits children draining i fun ended => going (done i ended)
  done returned i old := done i (waits.done returned i old)

theorem SchedulerInv.start {enabled : Bool} (inv : SchedulerInv w)
    (apart : ∀ call ∈ w.stops, call.stage = .returned) : SchedulerInv (w.start enabled) := by
  unfold SchedulerService.start
  split
  · exact inv
  · split
    · exact inv
    · refine { inv with stops := ?_ }
      intro call mem
      have waits := inv.stops call mem
      exact ⟨waits.begun, fun going => absurd (apart call mem) going, waits.waits, waits.done⟩

theorem SchedulerInv.tick (inv : SchedulerInv w) : SchedulerInv (w.tick platform now fault) := by
  rcases w.tick_cases platform now fault with
    idle | ⟨running, rows, room, ticked⟩
  · rw [idle]
    exact inv
  · rw [ticked]
    refine ⟨inv.sound.spawnAll rows, ?_, ?_, ?_, ?_⟩
    · rw [TaskPool.length_held_spawnAll]
      exact room
    · rw [TaskPool.jobs_spawnAll, inv.handed]
    · intro i mem
      obtain ⟨old, done⟩ := inv.callbacks i mem
      rw [TaskPool.length_tasks_spawnAll]
      exact ⟨Nat.lt_add_right _ old, done.spawnAll old rows⟩
    · intro call mem
      obtain ⟨begun, stopped, _, done⟩ := inv.stops call mem
      -- a service that runs has no stop in progress
      have returned : call.stage = .returned := by
        by_contra going
        rw [running] at stopped
        exact absurd (stopped going) (by simp)
      refine ⟨?_, fun going => absurd returned going, ?_, ?_⟩
      · rw [TaskPool.length_tasks_spawnAll]
        exact Nat.le_add_right_of_le begun
      · intro children draining
        rw [returned] at draining
        cases draining
      · intro _ i old
        exact (done returned i old).spawnAll (Nat.lt_of_lt_of_le old begun) rows

theorem SchedulerInv.endLoop {i : ℕ} {task : LoopTask} (inv : SchedulerInv w) :
    SchedulerInv (w.endLoop i task) :=
  { inv with stops := fun call mem => (inv.stops call mem).mono rfl id fun _ => id }

theorem SchedulerInv.runLoop {i : ℕ} (inv : SchedulerInv w)
    (step : w.runLoop platform i now fault = some w') : SchedulerInv w' := by
  obtain ⟨task, _, went⟩ := Option.bind_eq_some_iff.mp step
  split at went
  · cases went
  · split at went
    · rw [← Option.some.inj went]
      exact inv.endLoop
    · split at went
      · rw [← Option.some.inj went]
        exact inv.tick
      · rw [← Option.some.inj went]
        exact inv.endLoop

theorem SchedulerInv.dispatched {i : ℕ} {outcome : DispatchEnd} (inv : SchedulerInv w)
    (step : w.dispatched i outcome = some w') : SchedulerInv w' := by
  obtain ⟨task, here, went⟩ := Option.bind_eq_some_iff.mp step
  split at went
  · cases went
  · rw [← Option.some.inj went]
    refine ⟨inv.sound.finish, inv.bounded, ?_, ?_, ?_⟩
    · exact (TaskPool.jobs_finish here).trans inv.handed
    · intro j mem
      unfold TaskPool.finish
      rw [List.length_set]
      rcases List.mem_append.mp mem with old | new
      · obtain ⟨known, done⟩ := inv.callbacks j old
        exact ⟨known, done.finish⟩
      · obtain rfl := List.mem_singleton.mp new
        exact ⟨(List.getElem?_eq_some_iff.mp here).1, TaskPool.done_finish_self⟩
    · intro call mem
      exact (inv.stops call mem).mono List.length_set id fun _ => .finish

theorem SchedulerInv.callback {i : ℕ} (inv : SchedulerInv w) (step : w.callback i = some w') :
    SchedulerInv w' := by
  unfold SchedulerService.callback at step
  split at step
  · rename_i scheduled
    rw [← Option.some.inj step]
    refine ⟨inv.sound.discard (inv.callbacks i scheduled).2, ?_, inv.handed, ?_, ?_⟩
    · exact List.length_erase_le.trans inv.bounded
    · intro j mem
      exact inv.callbacks j (List.mem_of_mem_erase mem)
    · intro call mem
      exact (inv.stops call mem).mono rfl id fun _ => id
  · cases step

/-- What a stop waits for after the loop task is all that goes on. -/
theorem SchedulerInv.drain {before : ℕ} (inv : SchedulerInv w) (running : w.running = false)
    (begun : before ≤ w.children.tasks.length) : StopCall.Waits w ⟨before, w.drainStage⟩ := by
  unfold SchedulerService.drainStage
  split
  · rename_i empty
    refine ⟨begun, fun _ => running, fun children draining => (by cases draining), ?_⟩
    intro _ i _
    by_contra going
    have held := inv.sound.held i going
    rw [empty] at held
    cases held
  · refine ⟨begun, fun _ => running, ?_, fun returned => (by cases returned)⟩
    intro children draining i going
    cases draining
    exact inv.sound.held i going

theorem SchedulerInv.stop (inv : SchedulerInv w) : SchedulerInv w.stop := by
  -- the flag is lowered first
  have lowered : SchedulerInv { w with running := false } :=
    { inv with stops := fun call mem => (inv.stops call mem).mono rfl (fun _ => rfl) fun _ => id }
  have drains := lowered.drain rfl (le_refl w.children.tasks.length)
  unfold SchedulerService.stop
  dsimp only
  split
  · refine { lowered with stops := ?_ }
    intro call mem
    rcases List.mem_append.mp mem with old | new
    · exact (lowered.stops call old).mono rfl id fun _ => id
    · obtain rfl := List.mem_singleton.mp new
      exact drains.mono rfl id fun _ => id
  · rename_i i loop
    split
    · refine { lowered with stops := ?_ }
      intro call mem
      rcases List.mem_append.mp mem with old | new
      · exact (lowered.stops call old).mono rfl id fun _ => id
      · obtain rfl := List.mem_singleton.mp new
        exact drains.mono rfl id fun _ => id
    · refine { lowered with stops := ?_ }
      intro call mem
      rcases List.mem_append.mp mem with old | new
      · exact (lowered.stops call old).mono rfl id fun _ => id
      · obtain rfl := List.mem_singleton.mp new
        exact ⟨le_rfl, fun _ => rfl, fun children draining => (by cases draining),
          fun returned => by cases returned⟩

theorem SchedulerInv.resume {j : ℕ} (inv : SchedulerInv w) (step : w.resume j = some w') :
    SchedulerInv w' := by
  obtain ⟨call, here, went⟩ := Option.bind_eq_some_iff.mp step
  have waits := inv.stops call (List.mem_of_getElem? here)
  cases stage : call.stage with
  | joining i =>
      rw [stage] at went
      dsimp only at went
      split at went
      · rw [← Option.some.inj went]
        have running := waits.stopped (by rw [stage]; simp)
        refine { inv with stops := ?_ }
        intro other mem
        rcases List.mem_or_eq_of_mem_set mem with old | rfl
        · exact (inv.stops other old).mono rfl id fun _ => id
        · exact (inv.drain running waits.begun).mono rfl id fun _ => id
      · cases went
  | draining children =>
      rw [stage] at went
      dsimp only at went
      split at went
      · rename_i finished
        rw [← Option.some.inj went]
        have done := TaskPool.all_done (waits.waits children stage) finished
        refine ⟨TaskPool.Sound.clear done, Nat.zero_le 10, inv.handed, inv.callbacks, ?_⟩
        intro other mem
        rcases List.mem_or_eq_of_mem_set mem with old | rfl
        · exact (inv.stops other old).mono rfl id fun _ => id
        · exact ⟨waits.begun, fun going => absurd rfl going, fun _ draining => (by cases draining),
            fun _ i _ => done i⟩
      · cases went
  | returned =>
      rw [stage] at went
      cases went

theorem schedulerInv_step {l : SchedulerStep} (apart : StartsApart w l) (inv : SchedulerInv w)
    (step : (schedulerService platform).step w l = some w') : SchedulerInv w' := by
  cases l with
  | start enabled => exact Option.some.inj step ▸ inv.start apart
  | tick now fault => exact Option.some.inj step ▸ inv.tick
  | runLoop i now fault => exact inv.runLoop step
  | dispatched i outcome => exact inv.dispatched step
  | callback i => exact inv.callback step
  | stop => exact Option.some.inj step ▸ inv.stop
  | resume j => exact inv.resume step
  | edit schedules =>
      rw [← Option.some.inj step]
      exact { inv with stops := fun call mem => (inv.stops call mem).mono rfl id fun _ => id }

/-! ### What is claimed -/

/-- What the service advances in the store it gives new tasks, one for each row. -/
structure HandsOut (platform : Platform) (w w' : SchedulerService) (rows : List ScheduleRow) :
    Prop where
  claimed : w'.claimed = w.claimed ++ rows
  jobs : w'.children.jobs = w.children.jobs ++ rows
  schedules : rows = [] ∧ w'.schedules = w.schedules ∨
    ∃ now, w'.schedules = claimAll platform now rows w.schedules
  running : rows ≠ [] → w.running = true

theorem handsOut_nil (claimed : w'.claimed = w.claimed) (jobs : w'.children.jobs = w.children.jobs)
    (schedules : w'.schedules = w.schedules) : HandsOut platform w w' [] where
  claimed := claimed.trans (List.append_nil _).symm
  jobs := jobs.trans (List.append_nil _).symm
  schedules := .inl ⟨rfl, schedules⟩
  running := absurd rfl

theorem handsOut_tick : ∃ rows, HandsOut platform w (w.tick platform now fault) rows := by
  rcases w.tick_cases platform now fault with
    idle | ⟨running, rows, _, ticked⟩
  · rw [idle]
    exact ⟨[], handsOut_nil rfl rfl rfl⟩
  · rw [ticked]
    exact ⟨rows, rfl, TaskPool.jobs_spawnAll rows, .inr ⟨now, rfl⟩, fun _ => running⟩

/-- What a step claims, and that only a start makes the service run. -/
theorem handsOut_step {l : SchedulerStep} (step : (schedulerService platform).step w l = some w')
    (own : ∀ schedules, l ≠ .edit schedules) :
    (∃ rows, HandsOut platform w w' rows) ∧ (NoStart w l → w.running = false → w'.running = false) := by
  cases l with
  | start enabled =>
      rw [← Option.some.inj step]
      refine ⟨⟨[], ?_⟩, fun started => started.elim⟩
      unfold SchedulerService.start
      split
      · exact handsOut_nil rfl rfl rfl
      · split
        · exact handsOut_nil rfl rfl rfl
        · exact handsOut_nil rfl rfl rfl
  | tick now fault =>
      rw [← Option.some.inj step]
      refine ⟨handsOut_tick, ?_⟩
      intro _ stopped
      rw [tick_of_stopped stopped]
      exact stopped
  | runLoop i now fault =>
      obtain ⟨task, _, went⟩ := Option.bind_eq_some_iff.mp step
      split at went
      · cases went
      · split at went
        · rw [← Option.some.inj went]
          exact ⟨⟨[], handsOut_nil rfl rfl rfl⟩, fun _ => id⟩
        · split at went
          · rename_i running
            rw [← Option.some.inj went]
            exact ⟨handsOut_tick, fun _ stopped => absurd (running.symm.trans stopped) (by simp)⟩
          · rw [← Option.some.inj went]
            exact ⟨⟨[], handsOut_nil rfl rfl rfl⟩, fun _ => id⟩
  | dispatched i outcome =>
      obtain ⟨task, here, went⟩ := Option.bind_eq_some_iff.mp step
      split at went
      · cases went
      · rw [← Option.some.inj went]
        exact ⟨⟨[], handsOut_nil rfl (TaskPool.jobs_finish here) rfl⟩, fun _ => id⟩
  | callback i =>
      obtain ⟨_, went⟩ := Option.ite_none_right_eq_some.mp step
      rw [← Option.some.inj went]
      exact ⟨⟨[], handsOut_nil rfl rfl rfl⟩, fun _ => id⟩
  | stop =>
      rw [← Option.some.inj step]
      unfold SchedulerService.stop
      dsimp only
      split
      · exact ⟨⟨[], handsOut_nil rfl rfl rfl⟩, fun _ _ => rfl⟩
      · split
        · exact ⟨⟨[], handsOut_nil rfl rfl rfl⟩, fun _ _ => rfl⟩
        · exact ⟨⟨[], handsOut_nil rfl rfl rfl⟩, fun _ _ => rfl⟩
  | resume j =>
      obtain ⟨call, here, went⟩ := Option.bind_eq_some_iff.mp step
      split at went
      · obtain ⟨_, went⟩ := Option.ite_none_right_eq_some.mp went
        rw [← Option.some.inj went]
        exact ⟨⟨[], handsOut_nil rfl rfl rfl⟩, fun _ => id⟩
      · obtain ⟨_, went⟩ := Option.ite_none_right_eq_some.mp went
        rw [← Option.some.inj went]
        exact ⟨⟨[], handsOut_nil rfl rfl rfl⟩, fun _ => id⟩
      · cases went
  | edit schedules => exact absurd rfl (own schedules)

theorem SchedulerService.stop_lowers : w.stop.running = false ∧ w.stop.claimed = w.claimed := by
  unfold SchedulerService.stop
  dsimp only
  split
  · exact ⟨rfl, rfl⟩
  · split
    · exact ⟨rfl, rfl⟩
    · exact ⟨rfl, rfl⟩

/-- While the service does not run nothing is claimed. -/
theorem claimed_of_stopped {ls : List SchedulerStep} (stopped : w.running = false)
    (path : Machine.Path (schedulerService platform) NoStart w ls w') :
    w'.running = false ∧ w'.claimed = w.claimed := by
  refine path.invariant (I := fun u => u.running = false ∧ u.claimed = w.claimed) ?_ ⟨stopped, rfl⟩
  rintro s l u noStart ⟨idle, same⟩ step
  by_cases edit : ∃ schedules, l = .edit schedules
  · obtain ⟨schedules, rfl⟩ := edit
    rw [← Option.some.inj step]
    exact ⟨idle, same⟩
  · push Not at edit
    obtain ⟨⟨rows, hands⟩, stays⟩ := handsOut_step step edit
    have none_claimed : rows = [] := by
      by_contra some_row
      exact absurd ((hands.running some_row).symm.trans idle) (by simp)
    refine ⟨stays noStart idle, ?_⟩
    rw [hands.claimed, none_claimed, List.append_nil, same]

/-- **The scheduler keeps account.** However starts, ticks, ends of dispatch tasks, stops
and other users of the store come, with no start while a stop is in progress:

* at most ten dispatch tasks go on, and the tasks are those of the rows claimed so far, one
  for each, in that order;
* a stop that has returned has left none of the tasks created before it;
* what a step of the service advances in the store it gives new tasks;
* from a stop on nothing is claimed until a start. -/
theorem scheduler_accounting (platform : Platform) :
    (∀ (schedules : ScheduleTable) ls t,
      Machine.Path (schedulerService platform) StartsApart { schedules } ls t →
      t.children.going.length ≤ 10 ∧ t.children.held.length ≤ 10 ∧
      t.children.jobs = t.claimed ∧
      ∀ call ∈ t.stops, call.stage = .returned →
        ∀ task ∈ t.children.tasks.take call.before, task.result.isSome) ∧
    (∀ s l t, (schedulerService platform).step s l = some t → (∀ schedules, l ≠ .edit schedules) →
      ∃ rows, HandsOut platform s t rows) ∧
    ∀ s after t, Machine.Path (schedulerService platform) NoStart s (.stop :: after) t →
      t.claimed = s.claimed := by
  refine ⟨?accounts, fun s l t step own => (handsOut_step step own).1, ?stopped⟩
  case accounts =>
    intro schedules ls t path
    have inv := path.invariant (fun _ _ _ apart inv step => schedulerInv_step apart inv step)
      (schedulerInv_empty schedules)
    refine ⟨inv.sound.going_le.trans inv.bounded, inv.bounded, inv.handed, ?_⟩
    intro call mem returned task listed
    obtain ⟨i, before, rfl⟩ := List.mem_take_iff_getElem.mp listed
    exact (inv.stops call mem).done returned i (by omega) _ (List.getElem?_eq_getElem _)
  case stopped =>
    intro s after t path
    cases path with
    | cons _ step rest =>
        cases Option.some.inj step
        obtain ⟨lowered, same⟩ := s.stop_lowers
        exact (claimed_of_stopped lowered rest).2.trans same

end

instance (w : SchedulerService) : (l : SchedulerStep) → Decidable (StartsApart w l)
  | .start _ => inferInstanceAs (Decidable (∀ call ∈ w.stops, call.stage = .returned))
  | .tick .. | .runLoop .. | .dispatched .. | .callback _ | .stop | .resume _ | .edit _ =>
      isTrue trivial

/-- A service that is stopped while a brief is dispatched, and started again. -/
theorem restarted_service_accounts :
    let brief : ScheduleRow :=
      { scheduleId := "s-1", name := "digest", kind := .brief, triggerKind := .cron
        triggerValue := "* * * * *", timezone := "UTC", payload := []
        nextRunAt := newYear 1 0, createdAt := newYear 0 30, updatedAt := newYear 0 30 }
    ∃ t, Machine.Path (schedulerService everyMinute) StartsApart { schedules := [brief] }
        [.start true, .runLoop 0 (newYear 1 0) none, .stop, .runLoop 0 (newYear 7 0) none,
          .resume 0, .tick (newYear 7 0) none, .dispatched 0 (.result "completed"), .callback 0,
          .resume 0, .start true, .runLoop 1 (newYear 7 30) none] t ∧
      t.stops = [⟨1, .returned⟩] ∧
      t.claimed.map (·.nextRunAt.isoformat) =
        ["2026-01-01T00:01:00+00:00", "2026-01-01T00:02:00+00:00"] ∧
      t.children.jobs = t.claimed ∧ t.children.going.length ≤ 10 := by
  intro brief
  have seen : (((schedulerService everyMinute).restrict StartsApart).run { schedules := [brief] }
      [.start true, .runLoop 0 (newYear 1 0) none, .stop, .runLoop 0 (newYear 7 0) none,
        .resume 0, .tick (newYear 7 0) none, .dispatched 0 (.result "completed"), .callback 0,
        .resume 0, .start true, .runLoop 1 (newYear 7 30) none]).map
      (fun t => (t.stops, t.claimed.map (·.nextRunAt.isoformat))) =
      some ([⟨1, .returned⟩], ["2026-01-01T00:01:00+00:00", "2026-01-01T00:02:00+00:00"]) := by
    decide +kernel
  obtain ⟨t, ran, ended⟩ := Option.map_eq_some_iff.mp seen
  have path := Machine.run_restrict_iff.mp ran
  obtain ⟨going, _, jobs, _⟩ := (scheduler_accounting everyMinute).1 _ _ t path
  simp only [Prod.mk.injEq] at ended
  exact ⟨t, path, ended.1, ended.2, jobs, going⟩

end AgentOs
