import Mathlib.Data.List.Nodup
import Mathlib.Data.List.Perm.Subperm

/-!
Dictionaries that keep the order in which their keys came.

A new key goes to the end, and a key that is set again keeps its place. `get?_set`, `get?_keep` and
`get?_erase` say what the operations leave to look up.
-/

namespace AgentOs.Lib

universe u v

structure Dictionary (κ : Type u) (ν : Type v) where
  entries : List (κ × ν) := []
  distinct : (entries.map Prod.fst).Nodup := by exact List.nodup_nil
deriving DecidableEq

namespace Dictionary

variable {κ : Type u} {ν : Type v} [DecidableEq κ]

/-! ### Entries -/

/-- The value of a key. -/
def find (key : κ) : List (κ × ν) → Option ν
  | [] => none
  | (other, value) :: entries => if other = key then some value else find key entries

/-- The entries with a value set. -/
def assign (key : κ) (value : ν) : List (κ × ν) → List (κ × ν)
  | [] => [(key, value)]
  | (other, held) :: entries =>
      if other = key then (key, value) :: entries else (other, held) :: assign key value entries

theorem keys_assign (key : κ) (value : ν) (entries : List (κ × ν)) :
    (assign key value entries).map Prod.fst =
      if key ∈ entries.map Prod.fst then entries.map Prod.fst
      else entries.map Prod.fst ++ [key] := by
  induction entries with
  | nil => rfl
  | cons entry entries ih =>
      obtain ⟨other, held⟩ := entry
      unfold assign
      by_cases same : other = key
      · rw [if_pos same, if_pos (same ▸ List.mem_cons_self), ← same]
        rfl
      · have still : key ∈ other :: entries.map Prod.fst ↔ key ∈ entries.map Prod.fst := by
          rw [List.mem_cons]
          exact or_iff_right fun back => same back.symm
        rw [if_neg same, List.map_cons, List.map_cons, ih, if_congr still rfl rfl]
        split <;> rfl

theorem distinct_assign {entries : List (κ × ν)} (key : κ) (value : ν)
    (distinct : (entries.map Prod.fst).Nodup) :
    ((assign key value entries).map Prod.fst).Nodup := by
  rw [keys_assign]
  split
  · exact distinct
  · rename_i new
    refine distinct.append (List.nodup_singleton key) fun other mem same => new ?_
    rwa [← show other = key from List.mem_singleton.mp same]

theorem find_assign (key other : κ) (value : ν) (entries : List (κ × ν)) :
    find other (assign key value entries) =
      if key = other then some value else find other entries := by
  induction entries with
  | nil => rfl
  | cons entry entries ih =>
      obtain ⟨first, held⟩ := entry
      unfold assign
      by_cases here : first = key
      · rw [if_pos here, find, find, here]
        split <;> rfl
      · rw [if_neg here, find, find, ih]
        by_cases found : first = other
        · rw [if_pos found, if_pos found, if_neg fun same => here (found.trans same.symm)]
        · rw [if_neg found, if_neg found]

theorem find_filter (p : κ → Bool) (key : κ) (entries : List (κ × ν)) :
    find key (entries.filter fun entry => p entry.1) =
      if p key then find key entries else none := by
  induction entries with
  | nil => simp [find]
  | cons entry entries ih =>
      obtain ⟨first, held⟩ := entry
      rw [List.filter_cons]
      by_cases same : first = key
      · subst same
        cases kept : p first with
        | true => simp [find]
        | false => simpa [kept] using ih
      · cases kept : p first with
        | true => simpa [find, kept, same] using ih
        | false => simpa [find, kept, same] using ih

theorem find_eq_none_iff {key : κ} {entries : List (κ × ν)} :
    find key entries = none ↔ key ∉ entries.map Prod.fst := by
  induction entries with
  | nil => simp [find]
  | cons entry entries ih =>
      obtain ⟨first, held⟩ := entry
      rw [find, List.map_cons, List.mem_cons, not_or, ← ih]
      by_cases same : first = key
      · simp [same]
      · simp [same, Ne.symm same]

/-! ### The operations -/

/-- `d.get(key)` -/
def get? (d : Dictionary κ ν) (key : κ) : Option ν := find key d.entries

/-- `d[key] = value` -/
def set (d : Dictionary κ ν) (key : κ) (value : ν) : Dictionary κ ν where
  entries := assign key value d.entries
  distinct := distinct_assign key value d.distinct

/-- The entries whose keys pass. -/
def keep (d : Dictionary κ ν) (p : κ → Bool) : Dictionary κ ν where
  entries := d.entries.filter fun entry => p entry.1
  distinct := d.distinct.sublist (List.filter_sublist.map Prod.fst)

/-- `del d[key]` -/
def erase (d : Dictionary κ ν) (key : κ) : Dictionary κ ν := d.keep (· ≠ key)

variable (d : Dictionary κ ν) (key other : κ) (value : ν)

@[simp] theorem get?_empty : ({} : Dictionary κ ν).get? key = none := rfl

theorem get?_set : (d.set key value).get? other =
    if key = other then some value else d.get? other :=
  find_assign key other value d.entries

theorem get?_keep (p : κ → Bool) : (d.keep p).get? key = if p key then d.get? key else none :=
  find_filter p key d.entries

theorem get?_erase : (d.erase key).get? other = if key = other then none else d.get? other := by
  rw [erase, get?_keep]
  by_cases same : key = other
  · simp [same]
  · simp [same, Ne.symm same]

/-- Where there is no entry, there is none to remove. -/
theorem erase_of_absent {d : Dictionary κ ν} {key : κ} (absent : d.get? key = none) :
    d.erase key = d := by
  obtain ⟨entries, distinct⟩ := d
  have all : entries.filter (fun entry => decide (entry.1 ≠ key)) = entries := by
    refine List.filter_eq_self.mpr fun entry mem => decide_eq_true ?_
    rintro rfl
    exact find_eq_none_iff.mp absent (List.mem_map_of_mem mem)
  simp only [erase, keep, all]

theorem get?_eq_none_iff : d.get? key = none ↔ key ∉ d.entries.map Prod.fst :=
  find_eq_none_iff

/-- The entries are what there is to look up. -/
theorem mem_entries_iff : (key, value) ∈ d.entries ↔ d.get? key = some value := by
  have looked : ∀ {entries : List (κ × ν)}, (entries.map Prod.fst).Nodup →
      ((key, value) ∈ entries ↔ find key entries = some value) := by
    intro entries
    induction entries with
    | nil => simp [find]
    | cons entry entries ih =>
        obtain ⟨first, held⟩ := entry
        intro distinct
        rw [List.map_cons, List.nodup_cons] at distinct
        rw [List.mem_cons, find, Prod.mk.injEq]
        by_cases same : first = key
        · rw [if_pos same, Option.some.injEq]
          refine ⟨fun either => ?_, fun here => .inl ⟨same.symm, here.symm⟩⟩
          rcases either with ⟨_, here⟩ | later
          · exact here.symm
          · exact absurd (List.mem_map_of_mem later) (same ▸ distinct.1)
        · rw [if_neg same, ← ih distinct.2]
          exact or_iff_right fun here => same here.1.symm
  exact looked d.distinct

/-- Where all of some keys have entries, there are no others exactly if there are as many. -/
theorem length_eq_iff {d : Dictionary κ ν} {keys : List κ} (distinct : keys.Nodup)
    (held : ∀ key ∈ keys, d.get? key ≠ none) :
    keys.length = d.entries.length ↔ ∀ key ∉ keys, d.get? key = none := by
  have inside : keys ⊆ d.entries.map Prod.fst := fun key mem => by
    by_contra absent
    exact held key mem (get?_eq_none_iff d key |>.mpr absent)
  have fits : keys.Subperm (d.entries.map Prod.fst) := List.subperm_of_subset distinct inside
  constructor
  · intro same key other
    have all : keys.Perm (d.entries.map Prod.fst) :=
      fits.perm_of_length_le (by rw [List.length_map]; exact Nat.le_of_eq same.symm)
    exact (get?_eq_none_iff d key).mpr fun mem => other (all.mem_iff.mpr mem)
  · intro others
    have back : d.entries.map Prod.fst ⊆ keys := fun key mem => by
      by_contra other
      exact (get?_eq_none_iff d key).mp (others key other) mem
    have lengths := (List.subperm_of_subset d.distinct back).length_le
    rw [List.length_map] at lengths
    have fewer := fits.length_le
    rw [List.length_map] at fewer
    exact Nat.le_antisymm fewer lengths

omit [DecidableEq κ] in
theorem ext {d d' : Dictionary κ ν} (same : d.entries = d'.entries) : d = d' := by
  cases d
  cases d'
  cases same
  rfl

/-- A new key goes to the end. -/
theorem entries_set_of_notMem (new : key ∉ d.entries.map Prod.fst) :
    (d.set key value).entries = d.entries ++ [(key, value)] := by
  have added : ∀ entries : List (κ × ν), key ∉ entries.map Prod.fst →
      assign key value entries = entries ++ [(key, value)] := by
    intro entries
    induction entries with
    | nil => exact fun _ => rfl
    | cons entry entries ih =>
        intro absent
        rw [List.map_cons, List.mem_cons, not_or] at absent
        rw [assign, if_neg (Ne.symm absent.1), ih absent.2]
        rfl
  exact added d.entries new

/-- `dict(entries)` -/
def ofEntries (entries : List (κ × ν)) : Dictionary κ ν :=
  entries.foldl (fun d entry => d.set entry.1 entry.2) {}

/-- The last one counts. -/
theorem get?_ofEntries (entries : List (κ × ν)) : (ofEntries entries).get? key =
    (entries.filter fun entry => entry.1 = key).getLast?.map Prod.snd := by
  have from_ : ∀ d : Dictionary κ ν, (entries.foldl (fun d entry => d.set entry.1 entry.2) d).get?
      key = ((entries.filter fun entry => entry.1 = key).getLast?.map Prod.snd).or
        (d.get? key) := by
    induction entries with
    | nil => exact fun _ => rfl
    | cons entry entries ih =>
        intro d
        rw [List.foldl_cons, ih, get?_set, List.filter_cons]
        by_cases same : entry.1 = key
        · rw [if_pos same, if_pos (decide_eq_true same), List.getLast?_cons]
          cases (entries.filter fun entry => entry.1 = key).getLast? <;> rfl
        · rw [if_neg same, if_neg (by simpa using same)]
  rw [ofEntries, from_, get?_empty, Option.or_none]

end Dictionary

end AgentOs.Lib
