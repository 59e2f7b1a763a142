import Mathlib.Data.List.Basic

/-!
TOML documents: values, and what the statements of a text add to a document.

A document is a table; a statement sets a key, or opens a table, or opens a new table at the
end of an array. Some tables may not be reopened: those a header or a dotted key has
defined (`Flags.explicit`), and inline tables and arrays (`Flags.frozen`).

A key that holds an inline array is closed: whatever its value is, the statements that
follow do the same to the rest (`Output.apply_replace`).
-/

namespace AgentOs.Lib.Toml

/-! ### Values -/

/-- A value. A boolean, a number, a date or a time is kept as its text. -/
inductive Value where
  | str (text : String)
  | scalar (text : String)
  | array (items : List Value)
  | table (entries : List (String × Value))
deriving Repr

/-- The entries of a table, in the order they were made. -/
abbrev Dict := List (String × Value)

/-- A dotted key, by its parts. -/
abbrev Key := List String

/-- The value is an inline array or an inline table. -/
def Value.isNamespace : Value → Bool
  | .array _ | .table _ => true
  | .str _ | .scalar _ => false

/-- The texts of a list of strings. -/
def Value.strings? : Value → Option (List String)
  | .array items => items.mapM fun item => match item with | .str text => some text | _ => none
  | _ => none

namespace Dict

/-- The entry of a key has another value. -/
def replace (key : String) (value : Value) (d : Dict) : Dict :=
  d.map fun e => if e.1 = key then (key, value) else e

/-- `d[key] = value`. -/
def put (key : String) (value : Value) (d : Dict) : Dict :=
  if (d.lookup key).isSome then d.replace key value else d ++ [(key, value)]

/-- A new entry. -/
def insertNew (key : String) (value : Value) (d : Dict) : Option Dict :=
  if (d.lookup key).isSome then none else some (d ++ [(key, value)])

/-- Change the table behind a key, which is made where there is none. Of an array of tables
it is the last one, if arrays are looked into. -/
def modifyNest (accessLists : Bool) (change : Dict → Option Dict) : Key → Dict → Option Dict
  | [], d => change d
  | part :: key, d =>
      match d.lookup part with
      | none => (modifyNest accessLists change key []).map fun nest => d.put part (.table nest)
      | some (.table nest) =>
          (modifyNest accessLists change key nest).map fun nest => d.put part (.table nest)
      | some (.array items) =>
          match accessLists, items.getLast? with
          | true, some (.table nest) =>
              (modifyNest accessLists change key nest).map fun nest =>
                d.put part (.array (items.dropLast ++ [.table nest]))
          | _, _ => none
      | some _ => none

/-- A new table at the end of the array behind a key. -/
def appendNest (part : String) (d : Dict) : Option Dict :=
  match d.lookup part with
  | none => some (d.put part (.array [.table []]))
  | some (.array items) => some (d.put part (.array (items ++ [.table []])))
  | some _ => none

end Dict

/-! ### Inline tables -/

/-- The keys of an inline table that hold an inline array or table. -/
abbrev FrozenKeys := List Key

/-- A key is at or below one of these. -/
def FrozenKeys.covers (frozen : FrozenKeys) (key : Key) : Bool :=
  frozen.any (·.isPrefixOf key)

/-- An entry of an inline table, after those before it. -/
def addEntry (state : Dict × FrozenKeys) (entry : Key × Value) : Option (Dict × FrozenKeys) :=
  let (d, frozen) := state
  let (key, value) := entry
  match key.getLast? with
  | none => none
  | some stem =>
      if frozen.covers key then none
      else
        (d.modifyNest false (Dict.insertNew stem value) key.dropLast).map fun d =>
          (d, if value.isNamespace then key :: frozen else frozen)

/-- The value of an inline table. -/
def inlineTable (entries : List (Key × Value)) : Option Value :=
  (entries.foldlM addEntry ([], [])).map fun state => .table state.1

/-! ### Statements -/

structure Flags where
  /-- tables that a header or a dotted key has defined -/
  explicit : List Key := []
  /-- inline arrays and tables -/
  frozen : FrozenKeys := []
  /-- tables of dotted keys, which may be extended up to the next header -/
  pending : List Key := []
deriving Repr

inductive Statement where
  | keyValue (key : Key) (value : Value)
  /-- `[key]` -/
  | table (key : Key)
  /-- `[[key]]` -/
  | arrayTable (key : Key)

/-- The document so far, and the table that keys belong to. -/
structure Output where
  data : Dict := []
  flags : Flags := {}
  header : Key := []
deriving Repr

/-- The tables on the way of a dotted key. -/
def onTheWay (header key : Key) : List Key :=
  (List.range' 1 (key.length - 1)).map fun n => header ++ key.take n

namespace Flags

def finalizePending (flags : Flags) : Flags :=
  { flags with explicit := flags.pending ++ flags.explicit, pending := [] }

/-- Forget everything at a key and below. -/
def unsetAll (key : Key) (flags : Flags) : Flags :=
  { flags with
    explicit := flags.explicit.filter fun other => !key.isPrefixOf other
    frozen := flags.frozen.filter fun other => !key.isPrefixOf other }

def setExplicit (key : Key) (flags : Flags) : Flags :=
  { flags with explicit := key :: flags.explicit }

/-- The key goes through a table that has been defined. -/
def redefines (flags : Flags) (header key : Key) : Bool :=
  (onTheWay header key).any flags.explicit.contains

end Flags

namespace Output

variable (out : Output)

def keyValue (key : Key) (value : Value) : Option Output :=
  match key.getLast? with
  | none => none
  | some stem =>
      let parent := out.header ++ key.dropLast
      if out.flags.redefines out.header key then none
      else if out.flags.frozen.covers parent then none
      else
        (out.data.modifyNest true (Dict.insertNew stem value) parent).map fun data =>
          { out with
            data
            flags :=
              { out.flags with
                pending := onTheWay out.header key ++ out.flags.pending
                frozen :=
                  if value.isNamespace then (out.header ++ key) :: out.flags.frozen
                  else out.flags.frozen } }

def table (key : Key) : Option Output :=
  let flags := out.flags.finalizePending
  if key ∈ flags.explicit ∨ flags.frozen.covers key then none
  else
    (out.data.modifyNest true some key).map fun data =>
      { data, flags := flags.setExplicit key, header := key }

def arrayTable (key : Key) : Option Output :=
  let flags := out.flags.finalizePending
  match key.getLast? with
  | none => none
  | some stem =>
      if flags.frozen.covers key then none
      else
        (out.data.modifyNest true (Dict.appendNest stem) key.dropLast).map fun data =>
          { data, flags := (flags.unsetAll key).setExplicit key, header := key }

/-- What a statement does; `none` where it is refused. -/
def apply : Statement → Option Output
  | .keyValue key value => out.keyValue key value
  | .table key => out.table key
  | .arrayTable key => out.arrayTable key

end Output

/-! ### A key that is closed -/

namespace Dict

variable {key part : String} {value x : Value} {d d' : Dict}

theorem lookup_replace_of_ne (ne : part ≠ key) : (d.replace key value).lookup part = d.lookup part := by
  induction d with
  | nil => rfl
  | cons e d ih =>
      unfold replace at ih ⊢
      rw [List.map_cons]
      by_cases same : e.1 = key
      · rw [if_pos same, List.lookup_cons, List.lookup_cons, ih]
        have other : (part == key) = false := by simpa using ne
        rw [same, other]
      · rw [if_neg same, List.lookup_cons, List.lookup_cons, ih]

theorem lookup_replace_self (present : (d.lookup key).isSome) :
    (d.replace key value).lookup key = some value := by
  induction d with
  | nil => cases present
  | cons e d ih =>
      unfold replace at ih ⊢
      rw [List.map_cons]
      by_cases same : e.1 = key
      · rw [if_pos same, List.lookup_cons]
        simp
      · have other : (key == e.1) = false := by simpa using Ne.symm same
        rw [if_neg same, List.lookup_cons, other]
        rw [List.lookup_cons, other] at present
        exact ih present

theorem replace_of_absent (absent : d.lookup key = none) : d.replace key value = d := by
  unfold replace
  refine (List.map_congr_left ?_).trans (List.map_id' d)
  intro e mem
  rw [List.lookup_eq_none_iff] at absent
  have other : e.1 ≠ key := by
    have apart := absent e mem
    simpa using Ne.symm (by simpa using apart : ¬key = e.1)
  exact if_neg other

theorem replace_replace_of_ne (ne : part ≠ key) :
    (d.replace key value).replace part x = (d.replace part x).replace key value := by
  unfold replace
  rw [List.map_map, List.map_map]
  refine List.map_congr_left ?_
  intro e _
  by_cases first : e.1 = key
  · have other : e.1 ≠ part := by
      rw [first]
      exact Ne.symm ne
    simp [first, Ne.symm ne]
  · by_cases second : e.1 = part
    · simp [second, ne]
    · simp [first, second]

theorem replace_concat_of_ne (ne : part ≠ key) :
    (d ++ [(part, x)]).replace key value = d.replace key value ++ [(part, x)] := by
  unfold replace
  rw [List.map_append, List.map_singleton, if_neg ne]

/-- What is done to other keys does not depend on the value of this one. -/
theorem put_replace (ne : part ≠ key) :
    (d.replace key value).put part x = (d.put part x).replace key value := by
  unfold put
  rw [lookup_replace_of_ne ne]
  split
  · exact replace_replace_of_ne ne
  · exact (replace_concat_of_ne ne).symm

theorem lookup_put_of_ne (ne : part ≠ key) : (d.put part x).lookup key = d.lookup key := by
  unfold put
  split
  · exact lookup_replace_of_ne (Ne.symm ne)
  · have other : (key == part) = false := by simpa using Ne.symm ne
    rw [List.lookup_append, List.lookup_cons, other]
    simp

theorem insertNew_replace (ne : part ≠ key) :
    (d.replace key value).insertNew part x = (d.insertNew part x).map (·.replace key value) := by
  unfold insertNew
  rw [lookup_replace_of_ne ne]
  split
  · rfl
  · exact congrArg some (replace_concat_of_ne ne).symm

theorem appendNest_replace (ne : part ≠ key) :
    (d.replace key value).appendNest part = (d.appendNest part).map (·.replace key value) := by
  unfold appendNest
  rw [lookup_replace_of_ne ne]
  split
  · exact congrArg some (put_replace ne)
  · exact congrArg some (put_replace ne)
  · rfl

theorem modifyNest_replace {accessLists : Bool} {change : Dict → Option Dict} {rest : Key}
    (ne : part ≠ key) :
    (d.replace key value).modifyNest accessLists change (part :: rest) =
      (d.modifyNest accessLists change (part :: rest)).map (·.replace key value) := by
  unfold modifyNest
  rw [lookup_replace_of_ne ne]
  split
  · simp only [Option.map_map, Function.comp_def, put_replace ne]
  · simp only [Option.map_map, Function.comp_def, put_replace ne]
  · split
    · simp only [Option.map_map, Function.comp_def, put_replace ne]
    · rfl
  · rfl

theorem lookup_modifyNest_of_ne {accessLists : Bool} {change : Dict → Option Dict} {rest : Key}
    (ne : part ≠ key) (changed : d.modifyNest accessLists change (part :: rest) = some d') :
    d'.lookup key = d.lookup key := by
  unfold modifyNest at changed
  split at changed
  · obtain ⟨nest, _, rfl⟩ := Option.map_eq_some_iff.mp changed
    exact lookup_put_of_ne ne
  · obtain ⟨nest, _, rfl⟩ := Option.map_eq_some_iff.mp changed
    exact lookup_put_of_ne ne
  · split at changed
    · obtain ⟨nest, _, rfl⟩ := Option.map_eq_some_iff.mp changed
      exact lookup_put_of_ne ne
    · cases changed
  · cases changed

end Dict

theorem FrozenKeys.covers_of_mem {frozen : FrozenKeys} {key : String} (mem : [key] ∈ frozen)
    (rest : Key) : frozen.covers (key :: rest) = true :=
  List.any_eq_true.mpr ⟨[key], mem, by simp⟩

namespace Output

variable {key : String} {value : Value} {out out' : Output}

/-- The top-level key holds an inline array or table. -/
structure Closed (key : String) (out : Output) : Prop where
  frozen : [key] ∈ out.flags.frozen
  present : (out.data.lookup key).isSome

/-- The top-level key has another value. -/
def replace (key : String) (value : Value) (out : Output) : Output :=
  { out with data := out.data.replace key value }

theorem Closed.covers {flags : Flags} (frozen : flags.frozen = out.flags.frozen)
    (closed : out.Closed key) (rest : Key) : flags.frozen.covers (key :: rest) = true := by
  rw [frozen]
  exact FrozenKeys.covers_of_mem closed.frozen rest

/-- A change behind a key that is not at or below the closed one. -/
theorem modifyNest_replace {accessLists : Bool} {change : Dict → Option Dict} {path : Key} {d : Dict}
    (apart : ∀ rest, path ≠ key :: rest)
    (root : path = [] → change (d.replace key value) = (change d).map (·.replace key value)) :
    (d.replace key value).modifyNest accessLists change path =
      (d.modifyNest accessLists change path).map (·.replace key value) := by
  cases path with
  | nil => exact root rfl
  | cons part rest =>
      refine Dict.modifyNest_replace ?_
      rintro rfl
      exact apart rest rfl

variable (key) in
theorem lookup_modifyNest {accessLists : Bool} {change : Dict → Option Dict} {path : Key}
    {d d' : Dict} (apart : ∀ rest, path ≠ key :: rest)
    (root : path = [] → ∀ d', change d = some d' → d'.lookup key = d.lookup key)
    (changed : d.modifyNest accessLists change path = some d') : d'.lookup key = d.lookup key := by
  cases path with
  | nil => exact root rfl d' changed
  | cons part rest =>
      refine Dict.lookup_modifyNest_of_ne ?_ changed
      rintro rfl
      exact apart rest rfl

theorem map_ite_none {α β : Type} {c : Prop} [Decidable c] {x : Option α} {f : α → β} :
    (if c then none else x).map f = if c then none else x.map f := by
  split <;> rfl

theorem keyValue_replace (closed : out.Closed key) (path : Key) (x : Value) :
    (out.replace key value).keyValue path x =
      (out.keyValue path x).map (·.replace key value) := by
  unfold keyValue
  cases path.getLast? with
  | none => rfl
  | some stem =>
      dsimp only [replace]
      rw [map_ite_none, map_ite_none]
      refine ite_congr rfl (fun _ => rfl) fun _ => ite_congr rfl (fun _ => rfl) fun uncovered => ?_
      rw [modifyNest_replace (d := out.data), Option.map_map, Option.map_map]
      · rfl
      · intro rest same
        rw [same] at uncovered
        exact uncovered (closed.covers rfl rest)
      · intro _
        by_cases same : stem = key
        · subst same
          have present := closed.present
          unfold Dict.insertNew
          rw [if_pos present, if_pos (by rw [Dict.lookup_replace_self present]; rfl)]
          rfl
        · exact Dict.insertNew_replace same

theorem table_replace (closed : out.Closed key) (path : Key) :
    (out.replace key value).table path = (out.table path).map (·.replace key value) := by
  unfold table
  dsimp only [replace]
  rw [map_ite_none]
  refine ite_congr rfl (fun _ => rfl) fun allowed => ?_
  push Not at allowed
  rw [modifyNest_replace (d := out.data), Option.map_map, Option.map_map]
  · rfl
  · rintro rest rfl
    exact allowed.2 (closed.covers rfl rest)
  · intro _
    rfl

/-- A key of which the first parts begin with the closed one. -/
theorem Closed.covers_of_dropLast {flags : Flags} {path : Key} {stem : String}
    (frozen : flags.frozen = out.flags.frozen) (closed : out.Closed key)
    (last : path.getLast? = some stem)
    (same : (∃ rest, path.dropLast = key :: rest) ∨ path = [key]) :
    flags.frozen.covers path = true := by
  rcases same with ⟨rest, same⟩ | rfl
  · have whole : path = key :: (rest ++ [stem]) := by
      rw [← List.cons_append, ← same]
      exact (List.dropLast_append_getLast? stem last).symm
    rw [whole]
    exact closed.covers frozen _
  · exact closed.covers frozen []

theorem arrayTable_replace (closed : out.Closed key) (path : Key) :
    (out.replace key value).arrayTable path = (out.arrayTable path).map (·.replace key value) := by
  unfold arrayTable
  dsimp only [replace]
  cases last : path.getLast? with
  | none => rfl
  | some stem =>
      dsimp only
      rw [map_ite_none]
      refine ite_congr rfl (fun _ => rfl) fun uncovered => ?_
      rw [modifyNest_replace (d := out.data), Option.map_map, Option.map_map]
      · rfl
      · intro rest same
        exact uncovered (closed.covers_of_dropLast rfl last (.inl ⟨rest, same⟩))
      · intro root
        refine Dict.appendNest_replace ?_
        rintro rfl
        have whole := List.dropLast_append_getLast? stem last
        rw [root] at whole
        exact uncovered (closed.covers_of_dropLast rfl last (.inr whole.symm))

/-- **What a statement does beside a closed key** does not depend on its value. -/
theorem apply_replace (closed : out.Closed key) (statement : Statement) :
    (out.replace key value).apply statement =
      (out.apply statement).map (·.replace key value) := by
  cases statement with
  | keyValue path x => exact keyValue_replace closed path x
  | table path => exact table_replace closed path
  | arrayTable path => exact arrayTable_replace closed path

theorem closed_keyValue {path : Key} {x : Value} (closed : out.Closed key)
    (did : out.keyValue path x = some out') : out'.Closed key := by
  unfold keyValue at did
  split at did
  · cases did
  · rename_i stem _
    obtain ⟨_, did⟩ := Option.ite_none_left_eq_some.mp did
    obtain ⟨uncovered, did⟩ := Option.ite_none_left_eq_some.mp did
    obtain ⟨data, changed, rfl⟩ := Option.map_eq_some_iff.mp did
    refine ⟨?_, ?_⟩
    · dsimp only
      split
      · exact List.mem_cons_of_mem _ closed.frozen
      · exact closed.frozen
    · have kept := lookup_modifyNest key ?_ ?_ changed
      · rw [kept]
        exact closed.present
      · intro rest same
        rw [same] at uncovered
        exact uncovered (closed.covers rfl rest)
      · intro _ d' inserted
        unfold Dict.insertNew at inserted
        obtain ⟨absent, inserted⟩ := Option.ite_none_left_eq_some.mp inserted
        obtain ⟨value, found⟩ := Option.isSome_iff_exists.mp closed.present
        rw [← Option.some.inj inserted, List.lookup_append, found]
        rfl

theorem closed_table {path : Key} (closed : out.Closed key) (did : out.table path = some out') :
    out'.Closed key := by
  unfold table at did
  obtain ⟨allowed, did⟩ := Option.ite_none_left_eq_some.mp did
  push Not at allowed
  obtain ⟨data, changed, rfl⟩ := Option.map_eq_some_iff.mp did
  refine ⟨closed.frozen, ?_⟩
  have kept := lookup_modifyNest key ?_ ?_ changed
  · rw [kept]
    exact closed.present
  · rintro rest rfl
    exact allowed.2 (closed.covers rfl rest)
  · intro _ d' same
    rw [Option.some.inj same]

theorem closed_arrayTable {path : Key} (closed : out.Closed key)
    (did : out.arrayTable path = some out') : out'.Closed key := by
  unfold arrayTable at did
  dsimp only at did
  split at did
  · cases did
  · rename_i stem last
    obtain ⟨uncovered, did⟩ := Option.ite_none_left_eq_some.mp did
    obtain ⟨data, changed, rfl⟩ := Option.map_eq_some_iff.mp did
    refine ⟨?_, ?_⟩
    · refine List.mem_filter.mpr ⟨closed.frozen, ?_⟩
      -- the closed key is not below this one, of which the first part is another
      cases path with
      | nil => cases last
      | cons part rest =>
          have ne : part ≠ key := by
            rintro rfl
            exact uncovered (closed.covers rfl rest)
          have apart : (part == key) = false := by simpa using ne
          simp [List.isPrefixOf, apart]
    · have kept := lookup_modifyNest key ?_ ?_ changed
      · rw [kept]
        exact closed.present
      · intro rest same
        exact uncovered (closed.covers_of_dropLast rfl last (.inl ⟨rest, same⟩))
      · intro root d' appended
        have ne : stem ≠ key := by
          rintro rfl
          have whole := List.dropLast_append_getLast? stem last
          rw [root] at whole
          exact uncovered (closed.covers_of_dropLast rfl last (.inr whole.symm))
        unfold Dict.appendNest at appended
        split at appended
        · rw [← Option.some.inj appended, Dict.lookup_put_of_ne ne]
        · rw [← Option.some.inj appended, Dict.lookup_put_of_ne ne]
        · cases appended

/-- What is closed stays closed. -/
theorem closed_apply {statement : Statement} (closed : out.Closed key)
    (did : out.apply statement = some out') : out'.Closed key := by
  cases statement with
  | keyValue path x => exact closed_keyValue closed did
  | table path => exact closed_table closed did
  | arrayTable path => exact closed_arrayTable closed did

/-- An inline array or table that is assigned to a new top-level key closes it. With another
one there the rest is the same. -/
theorem keyValue_root (value' : Value) (root : out.header = []) (isNamespace : value.isNamespace)
    (isNamespace' : value'.isNamespace) (did : out.keyValue [key] value = some out') :
    out'.Closed key ∧ out.keyValue [key] value' = some (out'.replace key value') := by
  unfold keyValue at did ⊢
  rw [root] at did ⊢
  dsimp only [List.getLast?_singleton] at did ⊢
  obtain ⟨defined, did⟩ := Option.ite_none_left_eq_some.mp did
  obtain ⟨covered, did⟩ := Option.ite_none_left_eq_some.mp did
  obtain ⟨data, changed, rfl⟩ := Option.map_eq_some_iff.mp did
  obtain ⟨present, inserted⟩ := Option.ite_none_left_eq_some.mp changed
  have absent := Option.not_isSome_iff_eq_none.mp present
  obtain rfl := Option.some.inj inserted
  have found : List.lookup key (out.data ++ [(key, value)]) = some value := by
    rw [List.lookup_append, absent]
    simp
  refine ⟨⟨?_, ?_⟩, ?_⟩
  · simp [isNamespace]
  · rw [found]
    rfl
  · have replaced : (out.data ++ [(key, value)]).replace key value' = out.data ++ [(key, value')] := by
      unfold Dict.replace
      rw [List.map_append, List.map_singleton, if_pos rfl]
      exact congrArg (· ++ _) (Dict.replace_of_absent absent)
    have insertion : Dict.insertNew key value' out.data = some (out.data ++ [(key, value')]) :=
      if_neg present
    rw [if_neg defined, if_neg covered]
    show Option.map _ (Dict.insertNew key value' out.data) = _
    rw [insertion, Option.map_some, replace, replaced, isNamespace, isNamespace']

end Output

end AgentOs.Lib.Toml
