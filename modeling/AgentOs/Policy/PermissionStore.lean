import AgentOs.Policy.Engine
import Mathlib.Logic.Function.Basic

/-!
The permission store (`SqlitePermissionStore`, `permission_store.py`).

A table of rules by key. Every call may raise: a key `_validate_key` refuses, a
locked or broken database. `StoreFaults` says which calls of a pass do, and for
one that writes, whether the change was made before it raised.

Only `upsert` and `delete` change a key's effect (`effectOf_count`).
-/

namespace AgentOs

/-- `permission_rules`. -/
abbrev PermissionTable := String → Option PermissionRule

/-- Which calls raise; `some true` raises after the change is made. -/
structure StoreFaults where
  get : Bool := false
  increment : Option Bool := none
  upsert : Option Bool := none
deriving DecidableEq, Repr

/-- The store while a pass runs. -/
structure StoreState where
  table : PermissionTable
  faults : StoreFaults := {}

namespace PermissionTable

variable (table : PermissionTable)

/-- `INSERT … ON CONFLICT DO UPDATE`: the counts of an existing row stay, and so
do its workspace and teacher where the rule names none. -/
def upsert (rule : PermissionRule) : PermissionTable :=
  Function.update table rule.permissionKey <| some <|
    match table rule.permissionKey with
    | none => rule
    | some row =>
        { row with
          effect := rule.effect
          tierAtCreation := rule.tierAtCreation
          workspaceId := rule.workspaceId.or row.workspaceId
          taughtBy := rule.taughtBy.or row.taughtBy }

/-- `DELETE`. -/
def delete (permissionKey : String) : PermissionTable :=
  Function.update table permissionKey none

/-- `UPDATE` of a count. -/
def count (bump : PermissionRule → PermissionRule) (permissionKey : String) : PermissionTable :=
  Function.update table permissionKey ((table permissionKey).map bump)

/-- The effect of a key's rule. -/
def effectOf (permissionKey : String) : Option RuleEffect :=
  (table permissionKey).map (·.effect)

@[simp] theorem effectOf_upsert_self (rule : PermissionRule) :
    (table.upsert rule).effectOf rule.permissionKey = some rule.effect := by
  unfold effectOf upsert
  cases h : table rule.permissionKey <;> simp

/-- Counting a use leaves every effect. -/
theorem effectOf_count {bump : PermissionRule → PermissionRule}
    (same : ∀ rule, (bump rule).effect = rule.effect) (counted key : String) :
    (table.count bump counted).effectOf key = table.effectOf key := by
  unfold effectOf count
  by_cases h : key = counted
  · subst h
    cases table key <;> simp [same]
  · rw [Function.update_of_ne h]

end PermissionTable

/-- A call that changes the table, or raises before or after the change. -/
def faulty (fault : Option Bool) (s : StoreState) (change : PermissionTable → PermissionTable) :
    Except String Unit × StoreState :=
  match fault with
  | none => (.ok (), { s with table := change s.table })
  | some true => (.error "database error", { s with table := change s.table })
  | some false => (.error "database error", s)

/-- `SqlitePermissionStore`. -/
def permissionStore : RuleStore StoreState where
  get key s := if s.faults.get then .error "database error" else .ok (s.table key)
  upsert rule s := faulty s.faults.upsert s (·.upsert rule)
  incrementApprove key s := faulty s.faults.increment s
    (·.count (fun rule => { rule with approveCount := rule.approveCount + 1 }) key)
  incrementDeny key s := faulty s.faults.increment s
    (·.count (fun rule => { rule with denyCount := rule.denyCount + 1 }) key)

theorem faulty_table (fault : Option Bool) (s : StoreState)
    (change : PermissionTable → PermissionTable) :
    (faulty fault s change).2.table = change s.table ∨ (faulty fault s change).2.table = s.table := by
  rcases fault with - | (- | -)
  · exact .inl rfl
  · exact .inr rfl
  · exact .inl rfl

/-- A call that returns made its change. -/
theorem faulty_ok {fault : Option Bool} {s : StoreState}
    {change : PermissionTable → PermissionTable} (h : (faulty fault s change).1 = .ok ()) :
    (faulty fault s change).2.table = change s.table := by
  rcases fault with - | (- | -)
  · rfl
  · cases h
  · rfl

namespace LocalPolicy

variable {policy : LocalPolicy StoreState} {proposal : ActionProposal} {s : StoreState}
  {sessions : List (String × String)}

/-- Evaluating leaves every effect in the table. -/
theorem evaluate_effectOf (stored : ∀ store, policy.store = some store → store = permissionStore)
    (key : String) :
    (policy.evaluate proposal s sessions).2.table.effectOf key = s.table.effectOf key := by
  have counted : ∀ fault bump k, (∀ rule : PermissionRule, (bump rule).effect = rule.effect) →
      (faulty fault s (·.count bump k)).2.table.effectOf key = s.table.effectOf key := by
    intro fault bump k same
    rcases faulty_table fault s (·.count bump k) with h | h
    · rw [h, PermissionTable.effectOf_count _ same]
    · rw [h]
  unfold evaluate
  split
  · rfl
  · split
    · rfl
    · dsimp only
      split
      · rfl
      · split
        · unfold count
          split
          · rename_i store hstore
            rw [stored store hstore]
            exact counted _ _ _ fun _ => rfl
          · rfl
        · split
          · rfl
          · split
            · unfold count
              split
              · rename_i store hstore
                rw [stored store hstore]
                exact counted _ _ _ fun _ => rfl
              · rfl
            · rfl

/-- What the policy learns from the store is the effect in the table, where it has
a store and the read succeeds. -/
theorem ruleEffect_permissionStore {key : String} (hk : derivePermissionKey proposal = some key)
    (hs : policy.store = some permissionStore) (read : s.faults.get = false) :
    policy.ruleEffect proposal s = s.table.effectOf key := by
  unfold ruleEffect learnedRule
  rw [hk, hs]
  simp [permissionStore, read, PermissionTable.effectOf, Except.toOption]

/-- An effect the policy learned is in the table. -/
theorem effectOf_of_ruleEffect {effect : RuleEffect}
    (stored : ∀ store, policy.store = some store → store = permissionStore)
    (h : policy.ruleEffect proposal s = some effect) :
    ∃ key, derivePermissionKey proposal = some key ∧ policy.store = some permissionStore ∧
      s.table.effectOf key = some effect := by
  cases hk : derivePermissionKey proposal with
  | none => simp [ruleEffect, hk] at h
  | some key =>
      cases hs : policy.store with
      | none => simp [ruleEffect, hk, learnedRule, hs] at h
      | some store =>
          obtain rfl := stored store hs
          cases read : s.faults.get with
          | true => simp [ruleEffect, hk, learnedRule, hs, permissionStore, read, Except.toOption] at h
          | false =>
              rw [ruleEffect_permissionStore hk hs read] at h
              exact ⟨key, rfl, rfl, h⟩

end LocalPolicy

end AgentOs
