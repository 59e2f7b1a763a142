import AgentOs.Lib.Dictionary

/-!
Tables that are derived from a source, key by key.

The source has at each key nothing, a value, or a value that cannot be had. Refreshing a key drops
its entry, sets it, or leaves it: an entry whose value cannot be had stays from before
(`get?_refresh`). Refreshing all the keys that are there and dropping the others therefore gives
what a table made anew has exactly when no such entry is there (`refreshAll_eq_iff`).
-/

namespace AgentOs.Lib

universe u v w

namespace Dictionary

variable {κ : Type u} {ν : Type v} {ε : Type w} [DecidableEq κ]

/-- What becomes of the entry of a key. -/
def refreshed (there : Option (Except ε ν)) (old : Option ν) : Option ν :=
  match there with
  | none => none
  | some (.ok value) => some value
  | some (.error _) => old

/-- A refreshed entry was there, or is the value that is. -/
theorem refreshed_eq_some {there : Option (Except ε ν)} {old : Option ν} {value : ν}
    (refreshes : refreshed there old = some value) :
    old = some value ∨ there = some (.ok value) := by
  rcases there with _ | _ | value'
  · cases refreshes
  · exact .inl refreshes
  · exact .inr (congrArg (some ∘ Except.ok) (Option.some.inj refreshes))

/-- The entry of a key is refreshed. -/
def refresh (source : κ → Option (Except ε ν)) (table : Dictionary κ ν) (key : κ) :
    Dictionary κ ν :=
  match source key with
  | none => table.erase key
  | some (.ok value) => table.set key value
  | some (.error _) => table

variable {source : κ → Option (Except ε ν)} {table : Dictionary κ ν} {keys : List κ} {key : κ}

theorem get?_refresh_one (key other : κ) : (table.refresh source key).get? other =
    if key = other then refreshed (source key) (table.get? other) else table.get? other := by
  unfold refresh
  split
  · rename_i absent
    rw [get?_erase, absent]
    rfl
  · rename_i value there
    rw [get?_set, there]
    rfl
  · rename_i e broken
    rw [broken]
    exact (ite_self _).symm

theorem refreshed_refreshed (there : Option (Except ε ν)) (old : Option ν) :
    refreshed there (refreshed there old) = refreshed there old := by
  rcases there with _ | _ | _ <;> rfl

/-- **Refreshing keys** refreshes their entries and leaves the others. -/
theorem get?_refresh : (keys.foldl (refresh source) table).get? key =
    if key ∈ keys then refreshed (source key) (table.get? key) else table.get? key := by
  induction keys generalizing table with
  | nil => rfl
  | cons first keys ih =>
      rw [List.foldl_cons, ih, get?_refresh_one]
      by_cases here : first = key
      · subst here
        rw [if_pos rfl, refreshed_refreshed, ite_self, if_pos List.mem_cons_self]
      · have later : key ∈ first :: keys ↔ key ∈ keys := by
          rw [List.mem_cons]
          exact or_iff_right fun same => here same.symm
        rw [if_neg here, if_congr later rfl rfl]

/-- All keys that are there are refreshed, and the other entries dropped. -/
def refreshAll (source : κ → Option (Except ε ν)) (keys : List κ) (table : Dictionary κ ν) :
    Dictionary κ ν :=
  (keys.foldl (refresh source) table).keep fun key => decide (key ∈ keys)

theorem get?_refreshAll : (refreshAll source keys table).get? key =
    if key ∈ keys then refreshed (source key) (table.get? key) else none := by
  rw [refreshAll, get?_keep, get?_refresh]
  by_cases mem : key ∈ keys
  · rw [if_pos (decide_eq_true mem), if_pos mem, if_pos mem]
  · rw [if_neg (by simpa using mem), if_neg mem]

/-- **Refreshing all is making anew** but for an entry whose value cannot be had. -/
theorem refreshAll_eq_iff {table' : Dictionary κ ν} :
    (refreshAll source keys table).get? key = (refreshAll source keys table').get? key ↔
      (key ∈ keys → ∀ e, source key = some (.error e) → table.get? key = table'.get? key) := by
  rw [get?_refreshAll, get?_refreshAll]
  by_cases mem : key ∈ keys
  · rw [if_pos mem, if_pos mem, forall_prop_of_true mem]
    rcases source key with _ | e | value
    · simp [refreshed]
    · simp [refreshed]
    · simp [refreshed]
  · simp [mem]

end Dictionary

end AgentOs.Lib
