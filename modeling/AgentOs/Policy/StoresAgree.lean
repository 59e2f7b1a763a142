import AgentOs.Lib.Bytes
import AgentOs.Lib.Machine
import AgentOs.Lib.Text
import Mathlib.Algebra.Group.Int.Defs
import Mathlib.Data.List.Sort

/-!
The two permission stores (`permission_store.py`).

`SqlitePermissionStore` keeps a table with a primary key and changes it by statements;
`InMemoryPermissionStore` keeps a dictionary and changes the rules in it. A number that
SQLite adds to beyond 64 bits becomes a floating one, and one that it is given is
refused.

`stores_agree`: while the numbers fit, the two give equal replies to every sequence of
calls.
-/

namespace AgentOs

open AgentOs.Lib

/-! ### Keys -/

/-- `[a-z0-9_]` under `IGNORECASE`: four letters beyond ASCII have an ASCII letter as a
case. -/
def isKeyChar (c : Char) : Bool :=
  c.isAlphanum || c = '_' || c ∈ ['\u0130', '\u0131', '\u017f', '\u212a']

def isKeyWord (word : List Char) : Bool := word ≠ [] && word.all isKeyChar

/-- `PERMISSION_KEY_REGEX.fullmatch`: two or four words and a last part, between colons. -/
def matchesKeyRegex (key : String) : Bool :=
  let parts := key.toList.splitOn ':'
  (parts.length = 3 || parts.length = 5) && parts.dropLast.all isKeyWord &&
    parts.getLast?.any fun last => last ≠ [] && last.all fun c => !Text.isSpace c

/-- A key as it is given: a string, or something else and how it is shown. -/
inductive KeyArgument where
  | text (key : String)
  | other (shown : String)
deriving DecidableEq, Repr

/-- `_validate_key`. -/
def validateKey : KeyArgument → Except String String
  | .text key =>
      if matchesKeyRegex key then .ok key
      else .error ("Invalid permission_key format: " ++ key)
  | .other shown => .error ("Invalid permission_key format: " ++ shown)

/-! ### Rules -/

/-- A number that a store returns. -/
inductive StoredNumber where
  | integer (value : ℤ)
  /-- a floating number of this value -/
  | real (value : ℤ)
deriving DecidableEq, Repr

/-- `PermissionRule`, with its numbers. -/
structure StoredRule (ν : Type) where
  permissionKey : String
  effect : String
  tierAtCreation : String
  approveCount : ν
  denyCount : ν
  createdAt : ν
  updatedAt : ν
  workspaceId : Option String
  taughtBy : Option String
deriving DecidableEq, Repr

/-- A rule as `upsert` is given it. -/
structure GivenRule where
  permissionKey : KeyArgument
  effect : String
  tierAtCreation : String
  approveCount : ℤ := 0
  denyCount : ℤ := 0
  createdAt : ℤ := 0
  workspaceId : Option String := none
  taughtBy : Option String := none
deriving DecidableEq, Repr

/-- A call. -/
inductive StoreCall where
  | get (permissionKey : KeyArgument)
  | upsert (rule : GivenRule)
  | list
  | delete (permissionKey : KeyArgument)
  | incrementApprove (permissionKey : KeyArgument)
  | incrementDeny (permissionKey : KeyArgument)
deriving DecidableEq, Repr

/-- What a call returns. -/
inductive StoreReply where
  | rule (found : Option (StoredRule StoredNumber))
  | rules (all : List (StoredRule StoredNumber))
  | deleted (found : Bool)
  | nothing
deriving DecidableEq, Repr

/-- `created_at` of a new rule. -/
def GivenRule.createdOr (rule : GivenRule) (now : ℤ) : ℤ :=
  if rule.createdAt ≠ 0 then rule.createdAt else now

/-! ### The table -/

/-- A number that fits a column. -/
def Fits (n : ℤ) : Prop := -2 ^ 63 ≤ n ∧ n < 2 ^ 63

instance (n : ℤ) : Decidable (Fits n) := inferInstanceAs (Decidable (_ ∧ _))

/-- A parameter of a statement. -/
def bindInteger (n : ℤ) : Except String StoredNumber :=
  if Fits n then .ok (.integer n)
  else .error "Python int too large to convert to SQLite INTEGER"

/-- `n + 1` in a statement. Beyond 64 bits the sum is floating, and one more is lost in
rounding. -/
def StoredNumber.plusOne : StoredNumber → StoredNumber
  | integer n => if Fits (n + 1) then integer (n + 1) else real (n + 1)
  | real n => real n

/-- `permission_rules`. -/
abbrev RuleTable := List (StoredRule StoredNumber)

namespace RuleTable

variable (table : RuleTable)

/-- `SELECT … WHERE permission_key = ?`. -/
def select (key : String) : Option (StoredRule StoredNumber) :=
  table.find? fun row => row.permissionKey = key

/-- `UPDATE … WHERE permission_key = ?`. -/
def update (key : String) (set : StoredRule StoredNumber → StoredRule StoredNumber) : RuleTable :=
  table.map fun row => if row.permissionKey = key then set row else row

/-- `INSERT … ON CONFLICT(permission_key) DO UPDATE SET …`. -/
def insertOrUpdate (excluded : StoredRule StoredNumber) : RuleTable :=
  if (select table excluded.permissionKey).isSome then
    update table excluded.permissionKey fun row =>
      { row with
        effect := excluded.effect
        tierAtCreation := excluded.tierAtCreation
        updatedAt := excluded.updatedAt
        workspaceId := excluded.workspaceId.or row.workspaceId
        taughtBy := excluded.taughtBy.or row.taughtBy }
  else table ++ [excluded]

/-- `SELECT … ORDER BY permission_key ASC`: keys are compared as bytes. -/
def ordered : List (StoredRule StoredNumber) :=
  table.insertionSort fun a b => TextLe a.permissionKey b.permissionKey

end RuleTable

/-- A call of `SqlitePermissionStore`, at a reading of the clock. -/
def sqliteStore (table : RuleTable) : ℤ × StoreCall → Except String StoreReply × RuleTable
  | (_, .get key) =>
      match validateKey key with
      | .error e => (.error e, table)
      | .ok key => (.ok (.rule (table.select key)), table)
  | (now, .upsert rule) =>
      match validateKey rule.permissionKey with
      | .error e => (.error e, table)
      | .ok permissionKey =>
          let bound : Except String (StoredRule StoredNumber) := do
            let approveCount ← bindInteger rule.approveCount
            let denyCount ← bindInteger rule.denyCount
            let createdAt ← bindInteger (rule.createdOr now)
            let updatedAt ← bindInteger now
            .ok { rule with permissionKey, approveCount, denyCount, createdAt, updatedAt }
          match bound with
          | .error e => (.error e, table)
          | .ok row => (.ok .nothing, table.insertOrUpdate row)
  | (_, .list) => (.ok (.rules table.ordered), table)
  | (_, .delete key) =>
      match validateKey key with
      | .error e => (.error e, table)
      | .ok key =>
          let left := table.filter fun row => row.permissionKey ≠ key
          (.ok (.deleted (left.length < table.length)), left)
  | (now, .incrementApprove key) =>
      match validateKey key with
      | .error e => (.error e, table)
      | .ok key =>
          match bindInteger now with
          | .error e => (.error e, table)
          | .ok updatedAt =>
              (.ok .nothing, table.update key fun row =>
                { row with approveCount := row.approveCount.plusOne, updatedAt })
  | (now, .incrementDeny key) =>
      match validateKey key with
      | .error e => (.error e, table)
      | .ok key =>
          match bindInteger now with
          | .error e => (.error e, table)
          | .ok updatedAt =>
              (.ok .nothing, table.update key fun row =>
                { row with denyCount := row.denyCount.plusOne, updatedAt })

/-! ### The dictionary -/

/-- `_rules`, in the order of insertion. -/
abbrev RuleDict := List (String × StoredRule ℤ)

/-- A copy of a rule, as it is returned. -/
def StoredRule.copy (rule : StoredRule ℤ) : StoredRule StoredNumber :=
  { rule with
    approveCount := .integer rule.approveCount
    denyCount := .integer rule.denyCount
    createdAt := .integer rule.createdAt
    updatedAt := .integer rule.updatedAt }

@[simp] theorem StoredRule.copy_permissionKey (rule : StoredRule ℤ) :
    rule.copy.permissionKey = rule.permissionKey := rfl

namespace RuleDict

variable (rules : RuleDict)

/-- `_rules.get(key)`. -/
def get? (key : String) : Option (StoredRule ℤ) := rules.lookup key

/-- The rule at a key is changed in place. -/
def mutate (key : String) (set : StoredRule ℤ → StoredRule ℤ) : RuleDict :=
  rules.map fun item => if item.1 = key then (item.1, set item.2) else item

/-- `sorted(_rules.values(), key=permission_key)`: keys are compared by characters. -/
def ordered : List (StoredRule ℤ) :=
  (rules.map Prod.snd).insertionSort fun a b =>
    ¬b.permissionKey.toList < a.permissionKey.toList

end RuleDict

/-- A call of `InMemoryPermissionStore`, at a reading of the clock. -/
def memoryStore (rules : RuleDict) : ℤ × StoreCall → Except String StoreReply × RuleDict
  | (_, .get key) =>
      match validateKey key with
      | .error e => (.error e, rules)
      | .ok key => (.ok (.rule ((rules.get? key).map StoredRule.copy)), rules)
  | (now, .upsert rule) =>
      match validateKey rule.permissionKey with
      | .error e => (.error e, rules)
      | .ok permissionKey =>
          match rules.get? permissionKey with
          | some _ =>
              (.ok .nothing, rules.mutate permissionKey fun existing =>
                { existing with
                  effect := rule.effect
                  tierAtCreation := rule.tierAtCreation
                  updatedAt := now
                  workspaceId :=
                    if rule.workspaceId.isSome then rule.workspaceId else existing.workspaceId
                  taughtBy := if rule.taughtBy.isSome then rule.taughtBy else existing.taughtBy })
          | none =>
              let newRule : StoredRule ℤ :=
                { rule with permissionKey, createdAt := rule.createdOr now, updatedAt := now }
              (.ok .nothing, rules ++ [(permissionKey, newRule)])
  | (_, .list) => (.ok (.rules (rules.ordered.map StoredRule.copy)), rules)
  | (_, .delete key) =>
      match validateKey key with
      | .error e => (.error e, rules)
      | .ok key =>
          (.ok (.deleted (rules.get? key).isSome), rules.filter fun item => item.1 ≠ key)
  | (now, .incrementApprove key) =>
      match validateKey key with
      | .error e => (.error e, rules)
      | .ok key =>
          (.ok .nothing, rules.mutate key fun rule =>
            { rule with approveCount := rule.approveCount + 1, updatedAt := now })
  | (now, .incrementDeny key) =>
      match validateKey key with
      | .error e => (.error e, rules)
      | .ok key =>
          (.ok .nothing, rules.mutate key fun rule =>
            { rule with denyCount := rule.denyCount + 1, updatedAt := now })

/-! ### Agreement -/

/-- The numbers of a call fit 64 bits, and so do the counters it counts up to. -/
def FitsCall (rules : RuleDict) : ℤ × StoreCall → Prop
  | (now, .upsert rule) =>
      Fits now ∧ Fits rule.approveCount ∧ Fits rule.denyCount ∧ Fits rule.createdAt
  | (now, .incrementApprove key) =>
      Fits now ∧ ∀ item ∈ rules, .text item.1 = key → Fits (item.2.approveCount + 1)
  | (now, .incrementDeny key) =>
      Fits now ∧ ∀ item ∈ rules, .text item.1 = key → Fits (item.2.denyCount + 1)
  | _ => True

instance (rules : RuleDict) : (call : ℤ × StoreCall) → Decidable (FitsCall rules call)
  | (_, .upsert _) => inferInstanceAs (Decidable (_ ∧ _))
  | (_, .incrementApprove _) => inferInstanceAs (Decidable (_ ∧ _))
  | (_, .incrementDeny _) => inferInstanceAs (Decidable (_ ∧ _))
  | (_, .get _) | (_, .list) | (_, .delete _) => isTrue trivial

/-- The table holds the rules of the dictionary, each under its key and once. -/
structure Agree (table : RuleTable) (rules : RuleDict) : Prop where
  rows : table = rules.map fun item => item.2.copy
  keys : ∀ item ∈ rules, item.2.permissionKey = item.1
  once : (rules.map Prod.fst).Nodup

namespace Agree

variable {table : RuleTable} {rules : RuleDict} {key : String}

theorem select (agree : Agree table rules) : table.select key = (rules.get? key).map .copy := by
  obtain ⟨rfl, keys, -⟩ := agree
  induction rules with
  | nil => rfl
  | cons item rules ih =>
      have first := keys item (List.mem_cons_self ..)
      have rest := ih fun i hi => keys i (List.mem_cons_of_mem _ hi)
      simp only [RuleTable.select, RuleDict.get?] at rest ⊢
      rw [List.map_cons, List.find?_cons, List.lookup_cons, rest]
      by_cases same : item.1 = key
      · simp [first, same]
      · have other : (key == item.1) = false := beq_eq_false_iff_ne.mpr (Ne.symm same)
        simp [first, same, other]

/-- The same change of the row and of the rule at a key. -/
theorem mutate (agree : Agree table rules) {set : StoredRule StoredNumber → StoredRule StoredNumber}
    {set' : StoredRule ℤ → StoredRule ℤ}
    (same : ∀ item ∈ rules, item.1 = key → set item.2.copy = (set' item.2).copy)
    (keeps : ∀ rule, (set' rule).permissionKey = rule.permissionKey) :
    Agree (table.update key set) (rules.mutate key set') := by
  obtain ⟨rfl, keys, once⟩ := agree
  refine ⟨?_, ?_, ?_⟩
  · rw [RuleTable.update, RuleDict.mutate, List.map_map, List.map_map]
    refine List.map_congr_left fun item mem => ?_
    by_cases here : item.1 = key
    · simp [keys item mem, here, same item mem here]
    · simp [keys item mem, here]
  · intro changed mem
    obtain ⟨item, there, rfl⟩ := List.mem_map.mp mem
    split
    · exact (keeps item.2).trans (keys item there)
    · exact keys item there
  · have first : (rules.mutate key set').map Prod.fst = rules.map Prod.fst := by
      rw [RuleDict.mutate, List.map_map]
      refine List.map_congr_left fun item _ => ?_
      rw [Function.comp_apply]
      split <;> rfl
    rwa [first]

theorem insert (agree : Agree table rules) {row : StoredRule ℤ}
    (absent : rules.get? row.permissionKey = none) :
    Agree (table ++ [row.copy]) (rules ++ [(row.permissionKey, row)]) := by
  obtain ⟨rfl, keys, once⟩ := agree
  refine ⟨by simp, ?_, ?_⟩
  · intro item mem
    rcases List.mem_append.mp mem with mem | mem
    · exact keys item mem
    · rw [List.mem_singleton.mp mem]
  · rw [List.map_append]
    refine List.Nodup.append once (List.nodup_singleton _) ?_
    intro key mem there
    obtain ⟨item, inside, rfl⟩ := List.mem_map.mp mem
    have other := List.lookup_eq_none_iff.mp absent item inside
    rw [List.map_singleton, List.mem_singleton] at there
    simp [there] at other

theorem delete (agree : Agree table rules) :
    Agree (table.filter fun row => row.permissionKey ≠ key)
      (rules.filter fun item => item.1 ≠ key) := by
  obtain ⟨rfl, keys, once⟩ := agree
  refine ⟨?_, fun item mem => keys item (List.mem_filter.mp mem).1,
    (List.filter_sublist.map Prod.fst).nodup once⟩
  rw [List.filter_map]
  congr 1
  refine List.filter_congr fun item mem => ?_
  simp [keys item mem]

/-- A row is deleted where there was a rule. -/
theorem deleted (agree : Agree table rules) :
    decide ((table.filter fun row => row.permissionKey ≠ key).length < table.length) =
      (rules.get? key).isSome := by
  rw [← Option.isSome_map (f := StoredRule.copy), ← agree.select, Bool.eq_iff_iff]
  rw [decide_eq_true_iff, List.length_filter_lt_length_iff_exists, RuleTable.select,
    List.find?_isSome]
  simp

/-- The rows are in the same order as the rules. -/
theorem ordered (agree : Agree table rules) : table.ordered = rules.ordered.map .copy := by
  obtain ⟨rfl, -, -⟩ := agree
  have order : ∀ a b : StoredRule ℤ, ¬b.permissionKey.toList < a.permissionKey.toList ↔
      TextLe a.copy.permissionKey b.copy.permissionKey :=
    fun a b => not_congr (textLt_iff b.permissionKey a.permissionKey).symm
  have sorted : rules.ordered.map StoredRule.copy =
      ((rules.map Prod.snd).map StoredRule.copy).insertionSort
        fun a b => TextLe a.permissionKey b.permissionKey :=
    List.map_insertionSort _ _ _ _ fun a _ b _ => order a b
  rw [sorted, List.map_map]
  rfl

end Agree

theorem bindInteger_of_fits {n : ℤ} (h : Fits n) : bindInteger n = .ok (.integer n) := if_pos h

theorem validateKey_ok {argument : KeyArgument} {key : String} (h : validateKey argument = .ok key) :
    argument = .text key := by
  cases argument with
  | text text =>
      simp only [validateKey] at h
      split at h
      · cases h
        rfl
      · cases h
  | other shown => cases h

theorem plusOne_of_fits {n : ℤ} (h : Fits (n + 1)) :
    (StoredNumber.integer n).plusOne = .integer (n + 1) := if_pos h

theorem fits_createdOr {rule : GivenRule} {now : ℤ} (h : Fits rule.createdAt) (hnow : Fits now) :
    Fits (rule.createdOr now) := by
  unfold GivenRule.createdOr
  split
  · exact h
  · exact hnow

/-- A rule that is counted up on both sides. -/
theorem Agree.counted {table : RuleTable} {rules : RuleDict} (agree : Agree table rules)
    {argument : KeyArgument} {key : String} (valid : validateKey argument = .ok key)
    {f : StoredRule StoredNumber → StoredRule StoredNumber} {g : StoredRule ℤ → StoredRule ℤ}
    (alike : ∀ item ∈ rules, .text item.1 = argument → f item.2.copy = (g item.2).copy)
    (keeps : ∀ rule, (g rule).permissionKey = rule.permissionKey) :
    Agree (table.update key f) (rules.mutate key g) :=
  agree.mutate (fun item mem here => alike item mem (here ▸ (validateKey_ok valid).symm)) keeps

/-- A rule is inserted, or its row and the rule of the dictionary change alike. -/
theorem agree_upsert {table : RuleTable} {rules : RuleDict} (agree : Agree table rules)
    (rule : GivenRule) (key : String) (now : ℤ) :
    Agree (table.insertOrUpdate (StoredRule.copy
      { rule with permissionKey := key, createdAt := rule.createdOr now, updatedAt := now }))
      (match rules.get? key with
        | some _ => rules.mutate key fun existing =>
            { existing with
              effect := rule.effect
              tierAtCreation := rule.tierAtCreation
              updatedAt := now
              workspaceId :=
                if rule.workspaceId.isSome then rule.workspaceId else existing.workspaceId
              taughtBy := if rule.taughtBy.isSome then rule.taughtBy else existing.taughtBy }
        | none => rules ++ [(key,
            { rule with permissionKey := key, createdAt := rule.createdOr now, updatedAt := now })]) := by
  have coalesce : ∀ a b : Option String, a.or b = if a.isSome then a else b := by
    intro a b
    cases a <;> rfl
  unfold RuleTable.insertOrUpdate
  rw [StoredRule.copy_permissionKey, agree.select, Option.isSome_map]
  cases found : rules.get? key with
  | none => exact agree.insert found
  | some existing =>
      refine agree.mutate ?_ fun _ => rfl
      intro item _ _
      simp only [StoredRule.copy, coalesce]

/-- **A call of the two stores.** -/
theorem agree_step {table : RuleTable} {rules : RuleDict} (call : ℤ × StoreCall)
    (agree : Agree table rules) (fits : FitsCall rules call) :
    (sqliteStore table call).1 = (memoryStore rules call).1 ∧
      Agree (sqliteStore table call).2 (memoryStore rules call).2 := by
  obtain ⟨now, call⟩ := call
  cases call with
  | get key =>
      simp only [sqliteStore, memoryStore]
      cases validateKey key with
      | error e => exact ⟨rfl, agree⟩
      | ok key => exact ⟨by simp only [agree.select], agree⟩
  | upsert rule =>
      obtain ⟨fitsNow, fitsApprove, fitsDeny, fitsCreated⟩ := fits
      simp only [sqliteStore, memoryStore]
      cases validateKey rule.permissionKey with
      | error e => exact ⟨rfl, agree⟩
      | ok key =>
          simp only [bindInteger_of_fits fitsApprove, bindInteger_of_fits fitsDeny,
            bindInteger_of_fits (fits_createdOr fitsCreated fitsNow), bindInteger_of_fits fitsNow]
          have upserted := agree_upsert agree rule key now
          cases found : rules.get? key with
          | none =>
              rw [found] at upserted
              exact ⟨rfl, upserted⟩
          | some existing =>
              rw [found] at upserted
              exact ⟨rfl, upserted⟩
  | list =>
      refine ⟨?_, agree⟩
      simp only [sqliteStore, memoryStore]
      rw [agree.ordered]
  | delete key =>
      simp only [sqliteStore, memoryStore]
      cases validateKey key with
      | error e => exact ⟨rfl, agree⟩
      | ok key => exact ⟨by simp only [agree.deleted], agree.delete⟩
  | incrementApprove argument =>
      obtain ⟨fitsNow, fitsCount⟩ := fits
      simp only [sqliteStore, memoryStore, bindInteger_of_fits fitsNow]
      cases valid : validateKey argument with
      | error e => exact ⟨rfl, agree⟩
      | ok key =>
          refine ⟨rfl, ?_⟩
          dsimp only
          refine agree.counted valid (fun item mem here => ?_) fun _ => rfl
          simp only [StoredRule.copy, plusOne_of_fits (fitsCount item mem here)]
  | incrementDeny argument =>
      obtain ⟨fitsNow, fitsCount⟩ := fits
      simp only [sqliteStore, memoryStore, bindInteger_of_fits fitsNow]
      cases valid : validateKey argument with
      | error e => exact ⟨rfl, agree⟩
      | ok key =>
          refine ⟨rfl, ?_⟩
          dsimp only
          refine agree.counted valid (fun item mem here => ?_) fun _ => rfl
          simp only [StoredRule.copy, plusOne_of_fits (fitsCount item mem here)]

/-- **The two stores agree**: empty at the start, they give equal replies to every sequence
of calls, and hold the same rules in the end. -/
theorem stores_agree (calls : List (ℤ × StoreCall)) (fits : Throughout memoryStore FitsCall [] calls) :
    (serve sqliteStore [] calls).1 = (serve memoryStore [] calls).1 ∧
      (serve sqliteStore [] calls).2 = (serve memoryStore [] calls).2.map fun item => item.2.copy := by
  obtain ⟨replies, agree⟩ := serve_agree (fun _ _ call agree fits => agree_step call agree fits)
    (⟨rfl, by simp, List.nodup_nil⟩ : Agree [] []) fits
  exact ⟨replies, agree.rows⟩

/-- A rule is taught, used, changed by another teacher and listed; a key without parts is
refused. -/
def taughtCalls : List (ℤ × StoreCall) :=
  [(1000, .upsert
      { permissionKey := .text "vault:write:notes", effect := "always_approve"
        tierAtCreation := "low", taughtBy := some "ada" }),
    (2000, .incrementApprove (.text "vault:write:notes")),
    (3000, .upsert
      { permissionKey := .text "vault:write:notes", effect := "always_deny"
        tierAtCreation := "low", workspaceId := some "w" }),
    (4000, .incrementDeny (.text "vault")),
    (5000, .list),
    (6000, .delete (.text "vault:write:notes"))]

/-- The two stores agree on them. -/
theorem stores_agree_taught :
    (serve sqliteStore [] taughtCalls).1 = (serve memoryStore [] taughtCalls).1 ∧
      (serve sqliteStore [] taughtCalls).2 =
        (serve memoryStore [] taughtCalls).2.map fun item => item.2.copy :=
  stores_agree taughtCalls (by
    simp only [Throughout, taughtCalls]
    decide +kernel)

end AgentOs
