import AgentOs.Lib.Machine
import AgentOs.Lib.Slots

/-!
Connections that write to one store, each in a transaction of its own.

A `Session` is what a connection does behind its `BEGIN IMMEDIATE`: it reads, executes and
commits, and may go on after that. Any number of processes run the same session against one store;
one of them at a time is between its `BEGIN` and its commit, and any statement of any of them may
raise, which rolls back what is not committed.

`sessions_atomic`: where a session commits once, and again changes nothing, the store is what it
was or what one session makes of it, whatever fails and however the processes interleave.
-/

namespace AgentOs.Lib

inductive Session (σ ε : Type) where
  /-- the connection is closed -/
  | finish
  | select (next : σ → Session σ ε)
  | execute (statement : σ → Except ε σ) (next : Session σ ε)
  | commit (next : Session σ ε)

namespace Session

variable {σ ε : Type}

/-- What is first committed. -/
def result : Session σ ε → σ → Except (Option ε) σ
  | finish, _ => .error none
  | select next, working => (next working).result working
  | execute statement next, working =>
      match statement working with
      | .error error => .error (some error)
      | .ok written => next.result written
  | commit _, working => .ok working

/-- Nothing is written any more. -/
def Quiet : Session σ ε → Prop
  | finish => True
  | select next => ∀ stored, (next stored).Quiet
  | execute _ _ => False
  | commit next => next.Quiet

/-- A session that reaches its end has committed, and has not written after that. -/
def Once : Session σ ε → Prop
  | finish => False
  | select next => ∀ working, (next working).Once
  | execute _ next => next.Once
  | commit next => next.Quiet

end Session

/-- Where a process is. -/
inductive SessionStage (σ ε : Type) where
  | waiting
  /-- in its transaction -/
  | inside (rest : Session σ ε) (working : σ)
  /-- behind its commit -/
  | outside (rest : Session σ ε)
  | done (reply : Except ε Unit)

def SessionStage.isInside {σ ε : Type} : SessionStage σ ε → Bool
  | .inside _ _ => true
  | _ => false

structure SessionWorld (σ ε : Type) where
  stored : σ
  calls : List (SessionStage σ ε) := []

inductive SessionStep (ε : Type) where
  /-- a process starts -/
  | call
  /-- the process at place `i` goes on -/
  | advance (i : ℕ)
  /-- the statement that the process at place `i` is at raises -/
  | fail (i : ℕ) (error : ε)

namespace SessionWorld

variable {σ ε : Type}

def setStage (w : SessionWorld σ ε) (i : ℕ) (stage : SessionStage σ ε) : SessionWorld σ ε :=
  { w with calls := w.calls.set i stage }

/-- The next step of the process at place `i`. -/
def advance (script : Session σ ε) (w : SessionWorld σ ε) (i : ℕ) :
    SessionStage σ ε → Option (SessionWorld σ ε)
  | .waiting =>
      if w.calls.any SessionStage.isInside then none
      else some (w.setStage i (.inside script w.stored))
  | .inside .finish _ => some (w.setStage i (.done (.ok ())))
  | .inside (.select next) working => some (w.setStage i (.inside (next working) working))
  | .inside (.execute statement next) working =>
      match statement working with
      | .error error => some (w.setStage i (.done (.error error)))
      | .ok written => some (w.setStage i (.inside next written))
  | .inside (.commit next) working => some { w.setStage i (.outside next) with stored := working }
  | .outside .finish => some (w.setStage i (.done (.ok ())))
  | .outside (.select next) => some (w.setStage i (.outside (next w.stored)))
  | .outside (.execute statement next) =>
      if w.calls.any SessionStage.isInside then none
      else
        match statement w.stored with
        | .error error => some (w.setStage i (.done (.error error)))
        | .ok written => some { w.setStage i (.outside next) with stored := written }
  | .outside (.commit next) => some (w.setStage i (.outside next))
  | .done _ => none

end SessionWorld

/-- Any number of processes that run a session. -/
def sessions {σ ε : Type} (script : Session σ ε) : Machine (SessionWorld σ ε) (SessionStep ε) where
  step w
    | .call => some { w with calls := w.calls ++ [.waiting] }
    | .advance i => (w.calls[i]?).bind (w.advance script i)
    | .fail i error =>
        match w.calls[i]? with
        | none | some (.done _) => none
        | some _ => some (w.setStage i (.done (.error error)))

section

variable {σ ε : Type} {script : Session σ ε} {start : σ} {w w' : SessionWorld σ ε}

/-- What holds of a process: what it will commit is what the session makes of the start, and behind
its commit that is stored. -/
def StageSound (script : Session σ ε) (start stored : σ) : SessionStage σ ε → Prop
  | .waiting => True
  | .inside rest working =>
      rest.Once ∧ ∀ final, rest.result working = .ok final → script.result start = .ok final
  | .outside rest => rest.Quiet ∧ script.result start = .ok stored
  | .done (.ok _) => script.result start = .ok stored
  | .done (.error _) => True

structure SessionsSound (script : Session σ ε) (start : σ) (w : SessionWorld σ ε) : Prop where
  stored : w.stored = start ∨ script.result start = .ok w.stored
  calls : ∀ (i : ℕ) stage, w.calls[i]? = some stage → StageSound script start w.stored stage

/-- A step of one process that stores nothing. -/
theorem SessionsSound.setStage (sound : SessionsSound script start w) {i : ℕ}
    {stage : SessionStage σ ε} (goes : StageSound script start w.stored stage) :
    SessionsSound script start (w.setStage i stage) where
  stored := sound.stored
  calls j other there := by
    rcases getElem?_set_cases there with ⟨_, rfl⟩ | ⟨_, before⟩
    · exact goes
    · exact sound.calls j other before

/-- What the session makes of the start is stored. -/
theorem SessionsSound.store (sound : SessionsSound script start w) {final : σ}
    (made : script.result start = .ok final) : SessionsSound script start { w with stored := final } where
  stored := .inr made
  calls i stage there := by
    have before := sound.calls i stage there
    match stage, before with
    | .waiting, _ => trivial
    | .inside _ _, before => exact before
    | .outside _, before => exact ⟨before.1, made⟩
    | .done (.ok _), _ => exact made
    | .done (.error _), _ => trivial

/-- **What a process's next step preserves**, and what it stores. -/
theorem advance_sound (once : script.Once)
    (again : ∀ final, script.result start = .ok final → script.result final = .ok final)
    (sound : SessionsSound script start w) {i : ℕ} {stage : SessionStage σ ε}
    (here : StageSound script start w.stored stage) (step : w.advance script i stage = some w') :
    SessionsSound script start w' ∧
      (w'.stored = w.stored ∨ script.result start = .ok w'.stored) := by
  match stage, here, step with
  | .waiting, _, step =>
      obtain ⟨_, same⟩ := Option.ite_none_left_eq_some.mp step
      cases same
      refine ⟨sound.setStage ⟨once, fun final made => ?_⟩, .inl rfl⟩
      rcases sound.stored with unchanged | stored
      · rwa [unchanged] at made
      · cases made.symm.trans (again _ stored)
        exact stored
  | .inside .finish _, here, _ => exact absurd here.1 id
  | .inside (.select next) working, here, step =>
      cases step
      exact ⟨sound.setStage ⟨here.1 working, here.2⟩, .inl rfl⟩
  | .inside (.execute statement next) working, here, step =>
      cases executed : statement working with
      | error error =>
          simp only [SessionWorld.advance, executed] at step
          cases step
          exact ⟨sound.setStage trivial, .inl rfl⟩
      | ok written =>
          simp only [SessionWorld.advance, executed] at step
          cases step
          refine ⟨sound.setStage ⟨here.1, fun final made => here.2 final ?_⟩, .inl rfl⟩
          rw [Session.result, executed]
          exact made
  | .inside (.commit next) working, here, step =>
      cases step
      have made := here.2 working rfl
      exact ⟨(sound.store made).setStage (w := { w with stored := working }) ⟨here.1, made⟩,
        .inr made⟩
  | .outside .finish, here, step =>
      cases step
      exact ⟨sound.setStage here.2, .inl rfl⟩
  | .outside (.select next), here, step =>
      cases step
      exact ⟨sound.setStage ⟨here.1 _, here.2⟩, .inl rfl⟩
  | .outside (.execute _ _), here, _ => exact absurd here.1 id
  | .outside (.commit next), here, step =>
      cases step
      exact ⟨sound.setStage ⟨here.1, here.2⟩, .inl rfl⟩
  | .done _, _, step => cases step

/-- **What one step preserves.** -/
theorem sessions_step (once : script.Once)
    (again : ∀ final, script.result start = .ok final → script.result final = .ok final)
    (sound : SessionsSound script start w) {l : SessionStep ε}
    (step : (sessions script).step w l = some w') :
    SessionsSound script start w' ∧
      (w'.stored = w.stored ∨ script.result start = .ok w'.stored) := by
  cases l with
  | call =>
      cases step
      refine ⟨⟨sound.stored, fun i stage there => ?_⟩, .inl rfl⟩
      rcases getElem?_concat_cases there with before | ⟨_, rfl⟩
      · exact sound.calls i stage before
      · trivial
  | advance i =>
      obtain ⟨stage, here, step⟩ := Option.bind_eq_some_iff.mp step
      exact advance_sound once again sound (sound.calls i stage here) step
  | fail i error =>
      simp only [sessions] at step
      split at step
      · cases step
      · cases step
      · cases step
        exact ⟨sound.setStage trivial, .inl rfl⟩

/-- **Sessions are atomic.** In every run, the store is what it was or what one session makes of it;
it is the latter when a session has returned, and it stays so. -/
theorem sessions_atomic (once : script.Once)
    (again : ∀ final, script.result start = .ok final → script.result final = .ok final)
    {ls : List (SessionStep ε)} (run : (sessions script).run ⟨start, []⟩ ls = some w) :
    SessionsSound script start w ∧
      ∀ ls' w', (sessions script).run w ls' = some w' →
        w'.stored = w.stored ∨ script.result start = .ok w'.stored := by
  have sound : SessionsSound script start w := by
    refine (Machine.run_eq_some_iff.mp run).invariant (fun _ _ _ _ sound step =>
      (sessions_step once again sound step).1) ⟨.inl rfl, fun i stage there => ?_⟩
    cases there
  refine ⟨sound, fun ls' w' run' => ?_⟩
  refine (Machine.run_eq_some_iff.mp run').relation
    (R := fun w w' => w'.stored = w.stored ∨ script.result start = .ok w'.stored)
    (fun _ => .inl rfl) (fun _ _ _ first second => ?_)
    (fun _ _ _ _ sound step => sessions_step once again sound step) sound
  rcases second with same | made
  · rw [same]
    exact first
  · exact .inr made

end

end AgentOs.Lib
