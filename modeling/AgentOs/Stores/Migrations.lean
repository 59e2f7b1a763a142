import AgentOs.Lib.Machine
import AgentOs.Lib.Slots
import AgentOs.Lib.Transaction
import Mathlib.Algebra.Group.Int.Defs
import Mathlib.Data.List.Sort

/-!
Schema migrations (`migrations.py`), run by any number of processes.

A call of `run_migrations` reads `PRAGMA user_version` and decides from it what is
pending; it writes later, the baseline by one statement or the pending migrations in one
transaction. Between the read and the write, another process may write, and the write
does not read again.

`version_never_decreases`: while each write still finds a version below what it is about
to apply, the stored version does not go back (`StillAhead`).
-/

namespace AgentOs

open AgentOs.Lib

/-! ### Transactions -/

/-- The stored version, and the tables. -/
structure VersionedDb (σ : Type) where
  version : ℤ
  tables : σ
deriving DecidableEq, Repr

/-- `Migration`: what its statements and its handler do to the tables. -/
structure Migration (σ : Type) where
  id : String
  version : ℤ
  statements : List (σ → Except String σ) := []
  handler : Option (σ → Except String σ) := none

/-- What `PRAGMA user_version = n` stores: 32 bits, and 0 for a number that does not fit. -/
def userVersion (n : ℤ) : ℤ := if -2 ^ 31 ≤ n ∧ n < 2 ^ 31 then n else 0

section

variable {σ : Type}

/-- Statements in turn, and then the rest of the transaction. -/
def executeAll (statements : List (σ → Except String σ))
    (rest : Transaction (VersionedDb σ) String (List String)) :
    Transaction (VersionedDb σ) String (List String) :=
  statements.foldr (fun statement rest =>
    .execute (fun db => (statement db.tables).map fun tables => (0, { db with tables }))
      fun _ => rest) rest

/-- The loop over the pending migrations, and the commit. -/
def applyPending (appliedIds : List String) :
    List (Migration σ) → Transaction (VersionedDb σ) String (List String)
  | [] => .commit appliedIds
  | migration :: pending =>
      executeAll (migration.statements ++ migration.handler.toList)
        (.execute (fun db => .ok (0, { db with version := userVersion migration.version }))
          fun _ => applyPending (appliedIds ++ [migration.id]) pending)

/-- The migrations above a version, in the order of their versions. -/
def pendingMigrations (migrations : List (Migration σ)) (currentVersion : ℤ) :
    List (Migration σ) :=
  (migrations.filter fun m => currentVersion < m.version).insertionSort
    fun a b => a.version ≤ b.version

/-! ### The machine -/

/-- Where a call is. -/
inductive MigrationStage (σ : Type) where
  | reading
  /-- the version read was 0, and nothing is pending -/
  | settingBaseline
  /-- something is pending, and the backup is made -/
  | beginning (pending : List (Migration σ))
  | done (reply : Except String (List String))

/-- A call of `run_migrations`. -/
structure MigrationCall (σ : Type) where
  migrations : List (Migration σ)
  baselineVersion : ℤ
  stage : MigrationStage σ

/-- A migration that was applied, and the version stored when its transaction began. -/
structure AppliedMigration where
  begunAt : ℤ
  version : ℤ
deriving DecidableEq, Repr

/-- The database, the migrations applied so far, and the calls. -/
structure MigrationWorld (σ : Type) where
  db : VersionedDb σ
  applied : List AppliedMigration := []
  calls : List (MigrationCall σ) := []

inductive MigrationStep (σ : Type) where
  /-- a process calls `run_migrations` -/
  | call (migrations : List (Migration σ)) (baselineVersion : ℤ)
  /-- the call at place `i` goes on; a statement of its transaction may raise -/
  | advance (i : ℕ) (fault : Option (ℕ × String))
  /-- the call at place `i` raises before it writes -/
  | fail (i : ℕ) (error : String)

namespace MigrationWorld

variable (w : MigrationWorld σ)

def setStage (i : ℕ) (call : MigrationCall σ) (stage : MigrationStage σ) : MigrationWorld σ :=
  { w with calls := w.calls.set i { call with stage } }

/-- The next step of the call at place `i`. -/
def advance (i : ℕ) (call : MigrationCall σ) (fault : Option (ℕ × String)) :
    Option (MigrationWorld σ) :=
  match call.stage with
  | .reading =>
      match pendingMigrations call.migrations w.db.version with
      | [] =>
          if w.db.version = 0 ∧ 0 < call.baselineVersion then
            some (w.setStage i call .settingBaseline)
          else some (w.setStage i call (.done (.ok [])))
      | pending => some (w.setStage i call (.beginning pending))
  | .settingBaseline =>
      some
        { w.setStage i call (.done (.ok [])) with
          db := { w.db with version := userVersion call.baselineVersion } }
  | .beginning pending =>
      match (applyPending [] pending).perform w.db fault with
      | (.error e, db) =>
          some
            { w.setStage i call (.done (.error ("Migration execution failed: " ++ e))) with db }
      | (.ok appliedIds, db) =>
          some
            { w.setStage i call (.done (.ok appliedIds)) with
              db
              applied := w.applied ++ pending.map fun m => ⟨w.db.version, m.version⟩ }
  | .done _ => none

end MigrationWorld

/-- The machine of any number of processes. -/
def migrations (σ : Type) : Machine (MigrationWorld σ) (MigrationStep σ) where
  step w
    | .call migrations baselineVersion =>
        some { w with calls := w.calls ++ [⟨migrations, baselineVersion, .reading⟩] }
    | .advance i fault => (w.calls[i]?).bind fun call => w.advance i call fault
    | .fail i error =>
        match w.calls[i]? with
        | some ⟨_, _, .done _⟩ | none => none
        | some call => some (w.setStage i call (.done (.error error)))

end

/-! ### What a transaction stores -/

section

variable {σ : Type} {stored working after : VersionedDb σ}
  {answer appliedIds : List String} {pending : List (Migration σ)}

/-- Statements leave the version. -/
theorem executeAll_answered {statements : List (σ → Except String σ)}
    {rest : Transaction (VersionedDb σ) String (List String)}
    (h : (executeAll statements rest).attempt stored working none = (.ok answer, after)) :
    ∃ db, db.version = working.version ∧ rest.attempt stored db none = (.ok answer, after) := by
  induction statements generalizing working with
  | nil => exact ⟨working, rfl, h⟩
  | cons statement statements ih =>
      cases applied : statement working.tables with
      | error e =>
          have raised : (executeAll (statement :: statements) rest).attempt stored working none =
              (.error e, stored) := by
            simp [executeAll, Transaction.attempt, applied, Except.map]
          rw [raised] at h
          cases h
      | ok tables =>
          have goes : (executeAll statements rest).attempt stored { working with tables } none =
              (.ok answer, after) := by
            simpa [executeAll, Transaction.attempt, applied, Except.map] using h
          obtain ⟨db, same, ended⟩ := ih goes
          exact ⟨db, same, ended⟩

/-- A transaction that commits stores the version of its last migration. -/
theorem applyPending_answered
    (h : (applyPending appliedIds pending).attempt stored working none = (.ok answer, after)) :
    after.version = pending.getLast?.elim working.version fun m => userVersion m.version := by
  induction pending generalizing appliedIds working with
  | nil =>
      cases h
      rfl
  | cons migration pending ih =>
      obtain ⟨db, -, h⟩ := executeAll_answered h
      have last := ih h
      cases pending with
      | nil => exact last
      | cons next pending =>
          have some := List.getLast?_eq_some_getLast (List.cons_ne_nil next pending)
          rw [List.getLast?_cons_cons]
          rw [some] at last ⊢
          exact last

variable {w w' : MigrationWorld σ} {i : ℕ} {call : MigrationCall σ}
  {fault : Option (ℕ × String)}

/-- The transaction of the pending migrations commits. -/
def Commits (db : VersionedDb σ) (fault : Option (ℕ × String)) (pending : List (Migration σ)) :
    Prop :=
  ((applyPending [] pending).perform db fault).1.isOk = true

instance (db : VersionedDb σ) (fault : Option (ℕ × String)) (pending : List (Migration σ)) :
    Decidable (Commits db fault pending) := inferInstanceAs (Decidable (_ = true))

/-- What the call is about to write is still ahead of the stored version. -/
def MigrationCall.StillAhead (call : MigrationCall σ) (db : VersionedDb σ)
    (fault : Option (ℕ × String)) : Prop :=
  match call.stage with
  | .settingBaseline => db.version ≤ userVersion call.baselineVersion
  | .beginning pending =>
      Commits db fault pending → (∀ m ∈ pending.head?, db.version < m.version) ∧
        ∀ m ∈ pending.getLast?, db.version ≤ userVersion m.version
  | _ => True

/-- The step does not write behind the stored version. -/
def StillAhead (w : MigrationWorld σ) : MigrationStep σ → Prop
  | .advance i fault =>
      match w.calls[i]? with
      | some call => call.StillAhead w.db fault
      | none => True
  | _ => True

instance (call : MigrationCall σ) (db : VersionedDb σ) (fault : Option (ℕ × String)) :
    Decidable (call.StillAhead db fault) :=
  match stage : call.stage with
  | .settingBaseline =>
      decidable_of_iff (db.version ≤ userVersion call.baselineVersion)
        (by simp [MigrationCall.StillAhead, stage])
  | .beginning pending =>
      decidable_of_iff (Commits db fault pending → (∀ m ∈ pending.head?, db.version < m.version) ∧
        ∀ m ∈ pending.getLast?, db.version ≤ userVersion m.version)
        (by simp [MigrationCall.StillAhead, stage])
  | .reading | .done _ => .isTrue (by simp [MigrationCall.StillAhead, stage])

instance (w : MigrationWorld σ) : (l : MigrationStep σ) → Decidable (StillAhead w l)
  | .call .. | .fail .. => .isTrue trivial
  | .advance i fault =>
      match here : w.calls[i]? with
      | some call => decidable_of_iff (call.StillAhead w.db fault) (by simp [StillAhead, here])
      | none => .isTrue (by simp [StillAhead, here])

/-- What is pending is in order, and something is. -/
def PendingInOrder (w : MigrationWorld σ) : Prop :=
  ∀ call ∈ w.calls, ∀ pending, call.stage = .beginning pending →
    pending ≠ [] ∧ pending.Pairwise fun a b => a.version ≤ b.version

theorem pendingMigrations_sorted (migrations : List (Migration σ)) (currentVersion : ℤ) :
    (pendingMigrations migrations currentVersion).Pairwise fun a b => a.version ≤ b.version := by
  have : Std.Total fun a b : Migration σ => a.version ≤ b.version := ⟨fun a b => le_total _ _⟩
  have : IsTrans (Migration σ) fun a b => a.version ≤ b.version := ⟨fun a b c => le_trans⟩
  exact List.pairwise_insertionSort _ _

/-- A step keeps the version or raises it, and applies only what is above it. -/
structure Forward (w w' : MigrationWorld σ) : Prop where
  version : w.db.version ≤ w'.db.version
  applied : ∀ a ∈ w'.applied, a ∈ w.applied ∨ a.begunAt < a.version

theorem Forward.refl (w : MigrationWorld σ) : Forward w w := ⟨le_rfl, fun _ => .inl⟩

theorem Forward.trans {a b c : MigrationWorld σ} (h : Forward a b) (h' : Forward b c) :
    Forward a c where
  version := h.version.trans h'.version
  applied m mem := (h'.applied m mem).elim (h.applied m) .inr

theorem pendingInOrder_set {stage : MigrationStage σ} {db : VersionedDb σ}
    {applied : List AppliedMigration} (inOrder : PendingInOrder w)
    (next : ∀ pending, stage = .beginning pending →
      pending ≠ [] ∧ pending.Pairwise fun a b => a.version ≤ b.version) :
    PendingInOrder { w.setStage i call stage with db, applied } := by
  intro other mem pending begins
  rcases List.mem_or_eq_of_mem_set mem with mem | rfl
  · exact inOrder other mem pending begins
  · exact next pending begins

/-- A commit of migrations in order, the first of which is above the stored version. -/
theorem forward_commit {pending : List (Migration σ)}
    (sorted : pending ≠ [] ∧ pending.Pairwise fun a b => a.version ≤ b.version)
    (h : (applyPending [] pending).perform w.db fault = (.ok answer, after))
    (first : ∀ m ∈ pending.head?, w.db.version < m.version)
    (last : ∀ m ∈ pending.getLast?, w.db.version ≤ userVersion m.version) :
    w.db.version ≤ after.version ∧ ∀ m ∈ pending, w.db.version < m.version := by
  have unfaulted : (applyPending [] pending).perform w.db fault =
      (applyPending [] pending).perform w.db none :=
    Transaction.perform_answered (congrArg Prod.fst h)
  rw [h] at unfaulted
  have stores := applyPending_answered unfaulted.symm
  obtain ⟨head, rest, rfl⟩ := List.exists_cons_of_ne_nil sorted.1
  have final := List.getLast?_eq_some_getLast (List.cons_ne_nil head rest)
  constructor
  · rw [stores, final]
    exact last _ final
  · intro m mem
    have above := first head rfl
    rcases List.mem_cons.mp mem with rfl | mem
    · exact above
    · exact above.trans_le (List.rel_of_pairwise_cons sorted.2 mem)

theorem forward_advance (inOrder : PendingInOrder w) (ahead : call.StillAhead w.db fault)
    (member : call ∈ w.calls) (h : w.advance i call fault = some w') :
    PendingInOrder w' ∧ Forward w w' := by
  have quiet : ∀ stage : MigrationStage σ, (∀ pending, stage = .beginning pending →
      pending ≠ [] ∧ pending.Pairwise fun a b => a.version ≤ b.version) →
      PendingInOrder (w.setStage i call stage) ∧ Forward w (w.setStage i call stage) :=
    fun stage next => ⟨@pendingInOrder_set _ w _ _ stage w.db _ inOrder next, le_rfl, fun _ => .inl⟩
  cases stage : call.stage with
  | reading =>
      simp only [MigrationWorld.advance, stage] at h
      split at h
      · split at h
        · cases h
          exact quiet _ (fun _ begins => by cases begins)
        · cases h
          exact quiet _ (fun _ begins => by cases begins)
      · rename_i some
        cases h
        refine quiet _ ?_
        intro pending begins
        cases begins
        exact ⟨some, pendingMigrations_sorted ..⟩
  | settingBaseline =>
      simp only [MigrationWorld.advance, stage] at h
      simp only [MigrationCall.StillAhead, stage] at ahead
      cases h
      exact ⟨pendingInOrder_set inOrder (fun _ begins => by cases begins), ahead, fun _ => .inl⟩
  | beginning pending =>
      simp only [MigrationWorld.advance, stage] at h
      simp only [MigrationCall.StillAhead, stage] at ahead
      have sorted := inOrder call member pending stage
      split at h
      · rename_i e db raised
        cases h
        have same : ((applyPending [] pending).perform w.db fault).2 = w.db :=
          Transaction.perform_raised (congrArg Prod.fst raised)
        rw [raised] at same
        subst same
        exact ⟨pendingInOrder_set inOrder (fun _ begins => by cases begins), le_rfl, fun _ => .inl⟩
      · rename_i appliedIds db committed
        cases h
        have commits : Commits w.db fault pending := by
          rw [Commits, committed]
          rfl
        obtain ⟨first, last⟩ := ahead commits
        obtain ⟨version, above⟩ := forward_commit sorted committed first last
        refine ⟨pendingInOrder_set inOrder (fun _ begins => by cases begins), version, ?_⟩
        intro a mem
        rcases List.mem_append.mp mem with mem | mem
        · exact .inl mem
        · obtain ⟨m, isPending, rfl⟩ := List.mem_map.mp mem
          exact .inr (above m isPending)
  | done reply => simp [MigrationWorld.advance, stage] at h

theorem forward_step {l : MigrationStep σ} (inOrder : PendingInOrder w) (ahead : StillAhead w l)
    (h : (migrations σ).step w l = some w') : PendingInOrder w' ∧ Forward w w' := by
  cases l with
  | call list baselineVersion =>
      cases h
      refine ⟨?_, le_rfl, fun _ => .inl⟩
      intro call mem pending begins
      rcases List.mem_append.mp mem with mem | mem
      · exact inOrder call mem pending begins
      · rw [List.mem_singleton.mp mem] at begins
        cases begins
  | advance i fault =>
      obtain ⟨call, here, h⟩ := Option.bind_eq_some_iff.mp h
      simp only [StillAhead, here] at ahead
      exact forward_advance inOrder ahead (List.mem_of_getElem? here) h
  | fail i error =>
      simp only [migrations] at h
      split at h
      · cases h
      · cases h
      · cases h
        exact ⟨@pendingInOrder_set _ w _ _ _ w.db _ inOrder (fun _ begins => by cases begins), le_rfl,
          fun _ => .inl⟩

/-- **The schema version does not go back** between any two moments of a run, and what is
applied in between was above the version stored when its transaction began. -/
theorem version_never_decreases {w u t : MigrationWorld σ} {ls ms : List (MigrationStep σ)}
    (idle : w.calls = []) (before : Machine.Path (migrations σ) StillAhead w ls u)
    (between : Machine.Path (migrations σ) StillAhead u ms t) :
    u.db.version ≤ t.db.version ∧ ∀ a ∈ t.applied, a ∈ u.applied ∨ a.begunAt < a.version := by
  have start : PendingInOrder w := by simp [PendingInOrder, idle]
  have inOrder : PendingInOrder u :=
    before.invariant (fun _ _ _ ahead inv step => (forward_step inv ahead step).1) start
  have forward : Forward u t := between.relation Forward.refl (fun _ _ _ => Forward.trans)
    (fun _ _ _ ahead inv step => forward_step inv ahead step) inOrder
  exact ⟨forward.version, forward.applied⟩

end

/-! ### An old and a new release -/

section Releases

def addColumn (column : String) : List String → Except String (List String) :=
  fun columns => .ok (columns ++ [column])

def secondVersion : Migration (List String) where
  id := "0002"
  version := 2
  statements := [addColumn "workspace_id"]

def thirdVersion : Migration (List String) where
  id := "0003"
  version := 3
  statements := [addColumn "created_by"]

/-- A database of version 1. -/
def firstVersion : MigrationWorld (List String) where
  db := ⟨1, []⟩

/-- The old release migrates, and then the new one. -/
def oldThenNew : List (MigrationStep (List String)) :=
  [.call [secondVersion] 1, .advance 0 none, .advance 0 none,
    .call [secondVersion, thirdVersion] 1, .advance 1 none, .advance 1 none]

/-- Both read version 1; the new release migrates to version 3, and then the old one
migrates. -/
def oldReadsFirst : List (MigrationStep (List String)) :=
  [.call [secondVersion] 1, .call [secondVersion, thirdVersion] 1, .advance 0 none,
    .advance 1 none, .advance 1 none, .advance 0 none]

/-- One after the other, the version goes forward. -/
theorem version_forward_oldThenNew : ∃ t,
    Machine.Path (migrations _) StillAhead firstVersion oldThenNew t ∧ t.db.version = 3 ∧
      (firstVersion.db.version ≤ t.db.version ∧
        ∀ a ∈ t.applied, a ∈ firstVersion.applied ∨ a.begunAt < a.version) := by
  have ends : (((migrations (List String)).restrict StillAhead).run firstVersion oldThenNew).map
      (fun t => t.db.version) = some 3 := by decide +kernel
  obtain ⟨t, run, version⟩ := Option.map_eq_some_iff.mp ends
  have path := Machine.run_restrict_iff.mp run
  exact ⟨t, path, version, version_never_decreases rfl (.nil firstVersion) path⟩

/-- With the old release's read before the new release's transaction, the version goes from
3 back to 2, and migration 2 is applied at version 3. -/
theorem version_goes_back : ∃ u t,
    Machine.Path (migrations _) Machine.Free firstVersion oldReadsFirst.dropLast u ∧
      Machine.Path (migrations _) Machine.Free u [.advance 0 none] t ∧
      t.db.version < u.db.version ∧ ⟨3, 2⟩ ∈ t.applied := by
  have first : ((migrations (List String)).run firstVersion oldReadsFirst.dropLast).map
      (fun u => (u.db.version, ((migrations (List String)).run u [.advance 0 none]).map fun t =>
        (t.db.version, decide (⟨3, 2⟩ ∈ t.applied)))) = some (3, some (2, true)) := by
    decide +kernel
  obtain ⟨u, run, seen⟩ := Option.map_eq_some_iff.mp first
  obtain ⟨was, seen⟩ := Prod.mk.inj seen
  obtain ⟨t, last, seen⟩ := Option.map_eq_some_iff.mp seen
  obtain ⟨version, applied⟩ := Prod.mk.inj seen
  exact ⟨u, t, Machine.run_eq_some_iff.mp run, Machine.run_eq_some_iff.mp last,
    by omega, of_decide_eq_true applied⟩

end Releases

end AgentOs
