import AgentOs.Policy.BuiltinFolders
import AgentOs.Policy.PermissionStore
import Mathlib.Data.Set.Finite.Basic

/-!
Remembered denials and the spellings of a note.

A permission key holds the text of a reference; the vault resolves it. A note has
infinitely many spellings: `detour` goes into the folder of the briefs, says `.`
any number of times and climbs out again (`notePath_detour`). A denial is
remembered for one spelling, and a detour with no rule of its own is allowed as a
brief. `denial_covers_spelling` says what a denial does for each spelling of its
note, `denial_covers_iff` what it takes for no spelling to be allowed.
-/

namespace AgentOs

open AgentOs.Lib

/-- Two references name one file of the vault. -/
def SameNote (root : VaultRoot) (ref ref' : String) : Prop :=
  ∃ path, notePath root ref = .ok path ∧ notePath root ref' = .ok path ∧ path ≠ root.parts

/-! ### Detours -/

/-- Another spelling of `ref`: into the briefs, `dots` times nowhere, and `ups` names
up again. -/
def detour (dots ups : Nat) (ref : String) : String :=
  .ofList ("AI/Briefs/".toList ++ ((List.replicate dots ['.', '/']).flatten ++
    ((List.replicate ups ['.', '.', '/']).flatten ++ ref.toList)))

theorem parts_dots (dots : Nat) (cs : List Char) :
    Path.parts (.ofList ((List.replicate dots ['.', '/']).flatten ++ cs)) =
      Path.parts (.ofList cs) := by
  induction dots with
  | zero => rfl
  | succ n ih =>
      have here : Path.parts (.ofList ['.']) = [] := by decide +kernel
      have cut := Path.parts_ofList_append ['.'] ((List.replicate n ['.', '/']).flatten ++ cs)
      rw [here, ih] at cut
      exact cut

theorem parts_ups (ups : Nat) (cs : List Char) :
    Path.parts (.ofList ((List.replicate ups ['.', '.', '/']).flatten ++ cs)) =
      List.replicate ups ".." ++ Path.parts (.ofList cs) := by
  induction ups with
  | zero => rfl
  | succ n ih =>
      have up : Path.parts (.ofList ['.', '.']) = [".."] := by decide +kernel
      have cut := Path.parts_ofList_append ['.', '.']
        ((List.replicate n ['.', '.', '/']).flatten ++ cs)
      rw [up, ih] at cut
      exact cut

theorem parts_detour (dots ups : Nat) (ref : String) :
    Path.parts (detour dots ups ref) =
      ["AI", "Briefs"] ++ (List.replicate ups ".." ++ Path.parts ref) := by
  have briefs : Path.parts (.ofList "AI/Briefs".toList) = ["AI", "Briefs"] := by decide +kernel
  have cut := Path.parts_ofList_append "AI/Briefs".toList
    ((List.replicate dots ['.', '/']).flatten ++
      ((List.replicate ups ['.', '.', '/']).flatten ++ ref.toList))
  rw [briefs, parts_dots, parts_ups, String.ofList_toList] at cut
  exact cut

theorem detour_toList (dots ups : Nat) (ref : String) :
    (detour dots ups ref).toList = "AI/Briefs/".toList ++
      ((List.replicate dots ['.', '/']).flatten ++
        ((List.replicate ups ['.', '.', '/']).flatten ++ ref.toList)) :=
  String.toList_ofList

/-- The names that lead from a vault's briefs back to where a reference starts. -/
def wayBack (root : VaultRoot) (ref : String) : Nat :=
  (if Path.isAbsolute ref then root.parts.length else 0) + 2

section

variable {root : VaultRoot} {ref : String}

/-- A reference to a file of the vault names something. -/
theorem parts_ne_nil_of_note {path : List String} (h : notePath root ref = .ok path)
    (below : path ≠ root.parts) : Path.parts ref ≠ [] := by
  intro none
  apply below
  unfold notePath at h
  cases absolute : Path.isAbsolute ref with
  | true =>
      rw [Path.join, absolute, if_pos rfl, none] at h
      cases h
  | false =>
      rw [Path.join, absolute, if_neg (by decide), none, List.append_nil] at h
      dsimp only at h
      split at h
      · cases h
      · rename_i name last
        split at h
        · cases h
        · rename_i inside
          cases h
          -- The root itself, whose last name already is a note's.
          have resolved : Path.resolve (root.parts.dropLast ++ [noteName name]) =
              root.parts.dropLast ++ [noteName name] := by
            apply Path.resolve_of_plain
            intro n hn
            rcases List.mem_append.mp hn with hn | hn
            · exact root.plain n (List.dropLast_subset _ hn)
            · rw [List.mem_singleton.mp hn]
              exact noteName_ne_up name
          rw [resolved] at inside ⊢
          simp only [Bool.or_eq_true, not_or, Bool.not_eq_true', Bool.not_eq_false,
            List.isPrefixOf_iff_prefix] at inside
          have within : root.parts <+: root.parts.dropLast ++ [noteName name] := inside.2
          refine (within.eq_of_length ?_).symm
          have := List.length_pos_of_mem (List.mem_of_getLast? last)
          simp only [List.length_append, List.length_dropLast, List.length_singleton]
          omega

/-- A detour leads where the reference leads. -/
theorem noteDirectory_detour (dots : Nat) (named : Path.parts ref ≠ []) :
    noteDirectory root (detour dots (wayBack root ref) ref) = noteDirectory root ref := by
  have relative : ∀ ups, Path.isAbsolute (detour dots ups ref) = false := by
    intro ups
    unfold Path.isAbsolute
    rw [detour_toList]
    rfl
  have dirs : ∀ ups, directories (detour dots ups ref) =
      ["AI", "Briefs"] ++ (List.replicate ups ".." ++ directories ref) := by
    intro ups
    unfold directories
    rw [parts_detour, List.dropLast_append_of_ne_nil (by simp [named]),
      List.dropLast_append_of_ne_nil named]
  have plain : ∀ name ∈ root.parts ++ ["AI", "Briefs"], name ≠ ".." := by
    intro name mem
    rcases List.mem_append.mp mem with inRoot | inBriefs
    · exact root.plain name inRoot
    · have briefs : ∀ name ∈ ["AI", "Briefs"], name ≠ ".." := by decide
      exact briefs name inBriefs
  unfold noteDirectory
  rw [relative, if_neg (by decide), dirs, ← List.append_assoc, Path.resolve_append,
    Path.resolve_of_plain plain, List.foldl_append, Path.resolve_append]
  congr 1
  unfold wayBack
  cases Path.isAbsolute ref with
  | true =>
      have back := Path.foldl_enter_back [] (root.parts ++ ["AI", "Briefs"])
      simpa [Path.resolve] using back
  | false =>
      have back := Path.foldl_enter_back root.parts ["AI", "Briefs"]
      rw [if_neg (by decide), if_neg (by decide), Path.resolve_of_plain root.plain]
      exact back

/-- **A detour is a spelling of the same note.** -/
theorem notePath_detour (dots : Nat) (named : Path.parts ref ≠ []) {path : List String}
    (h : notePath root ref = .ok path) :
    notePath root (detour dots (wayBack root ref) ref) = .ok path := by
  obtain ⟨name, last⟩ := Option.ne_none_iff_exists'.mp (List.getLast?_eq_none_iff.not.mpr named)
  have last' : (Path.parts (detour dots (wayBack root ref) ref)).getLast? = some name := by
    rw [parts_detour, ← List.append_assoc, List.getLast?_append_of_ne_nil _ named, last]
  have nul : hasNul (detour dots (wayBack root ref) ref) = hasNul ref := by
    have dirs : (Path.parts (detour dots (wayBack root ref) ref)).dropLast =
        ["AI", "Briefs"] ++ (List.replicate (wayBack root ref) ".." ++
          (Path.parts ref).dropLast) := by
      rw [parts_detour, List.dropLast_append_of_ne_nil (by simp [named]),
        List.dropLast_append_of_ne_nil named]
    have plain : (["AI", "Briefs"] ++ List.replicate (wayBack root ref) "..").any
        (·.toList.contains '\x00') = false := by
      rw [List.any_append, List.any_replicate]
      split <;> decide
    rw [hasNul, dirs, last', ← List.append_assoc, List.append_assoc, List.any_append, plain,
      Bool.false_or, hasNul, last]
  rw [notePath_eq last] at h
  rw [notePath_eq last', nul, noteDirectory_detour dots named]
  split at h
  · cases h
  · rename_i fine
    rw [if_neg fine]
    exact h

end

/-! ### What a detour is allowed -/

/-- A detour passes for a brief. -/
theorem builtinGrant_detour (connector content : String) (mode : MemoryWriteMode) (dots ups : Nat)
    (ref : String) (added : mode ≠ .overwrite) :
    (builtinGrant (WriteRequest.action ⟨connector, mode, detour dots ups ref, content⟩)).isSome =
      true := by
  have brief : Text.startsWith (Text.lstripChar '/' (detour dots ups ref)) "AI/Briefs/" = true := by
    unfold Text.startsWith Text.lstripChar
    simp only [detour_toList, String.toList_ofList]
    exact List.isPrefixOf_iff_prefix.mpr (List.prefix_append ..)
  have either : (decide (mode.text = "append") || decide (mode.text = "create")) = true := by
    cases mode with
    | create => decide
    | append => decide
    | overwrite => exact absurd rfl added
  rw [builtinGrant_action]
  dsimp only
  rw [brief, either]
  split
  · rfl
  · rfl

/-- Detours with different detours are different texts. -/
theorem detour_injective (ups : Nat) (ref : String) :
    Function.Injective fun dots => detour dots ups ref := by
  intro m n same
  have lengths := congrArg (fun s : String => s.toList.length) same
  simp only [detour_toList, List.length_append, List.length_flatten, List.map_replicate,
    List.length_cons, List.length_nil, List.sum_replicate_nat] at lengths
  omega

/-! ### What is left of a denial -/

section

variable {policy : LocalPolicy StoreState} {s : StoreState} {sessions : List (String × String)}

/-- A write to a reference in the vault. -/
def vaultWrite (mode : MemoryWriteMode) (ref : String) (content : String := "") :
    ActionProposal :=
  WriteRequest.action ⟨"markdown_vault", mode, ref, content⟩

/-- **What a denial covers.** A write to the reference it was remembered for is
denied, whatever was granted. To another spelling of the note, with no grant, a
write is allowed exactly where that spelling has no denial of its own and is
remembered as approved or passes the built-in rules. -/
theorem denial_covers_spelling (root : VaultRoot) {mode : MemoryWriteMode} {ref key : String}
    (enforced : policy.mode ≠ .off) (stored : policy.store = some permissionStore)
    (read : s.faults.get = false) (named : derivePermissionKey (vaultWrite mode ref) = some key)
    (denied : s.table.effectOf key = some .alwaysDeny) :
    (∀ content, (policy.evaluate (vaultWrite mode ref content) s sessions).1.decision = .deny) ∧
    ∀ ref' content, SameNote root ref ref' →
      policy.sessionGrant (vaultWrite mode ref' content) sessions = false →
        ((policy.evaluate (vaultWrite mode ref' content) s sessions).1.decision = .allow ↔
          policy.ruleEffect (vaultWrite mode ref' content) s ≠ some .alwaysDeny ∧
          (policy.ruleEffect (vaultWrite mode ref' content) s = some .alwaysApprove ∨
            (builtinGrant (vaultWrite mode ref' content)).isSome = true)) := by
  have low : ∀ ref' content, deriveTier (vaultWrite mode ref' content) ≠ .high := fun _ _ => nofun
  have forbids : ∀ content,
      policy.ruleEffect (vaultWrite mode ref content) s = some .alwaysDeny := by
    intro content
    have sameKey : derivePermissionKey (vaultWrite mode ref content) = some key := named
    rw [LocalPolicy.ruleEffect_permissionStore sameKey stored read]
    exact denied
  constructor
  · intro content
    rw [LocalPolicy.evaluate_decision, if_neg enforced, if_neg (low _ _), if_pos (forbids content)]
  · intro ref' content _ ungranted
    constructor
    · intro allowed
      have unforbidden : policy.ruleEffect (vaultWrite mode ref' content) s ≠ some .alwaysDeny := by
        apply LocalPolicy.not_forbidden enforced
        change (policy.evaluate (vaultWrite mode ref' content) s sessions).1.decision ≠ .deny
        rw [allowed]
        nofun
      refine ⟨unforbidden, ?_⟩
      rcases LocalPolicy.allow_cases allowed with off | granted | approved | builtin
      · exact absurd off enforced
      · exact absurd (granted.symm.trans ungranted) nofun
      · exact .inl approved
      · exact .inr builtin
    · rintro ⟨unforbidden, approved | builtin⟩
      · rw [LocalPolicy.evaluate_decision, if_neg enforced, if_neg (low _ _), if_neg unforbidden,
          approved]
        simp
      · rw [LocalPolicy.evaluate_decision, if_neg enforced, if_neg (low _ _), if_neg unforbidden]
        simp [LocalPolicy.allowedByDefault, builtin]

/-- Some detour has no rule and no grant. -/
theorem exists_fresh_detour (stored : policy.store = some permissionStore)
    (mode : MemoryWriteMode) (ups : Nat) (ref : String)
    (finite : {key | s.table key ≠ none}.Finite) :
    ∃ dots, policy.ruleEffect (vaultWrite mode (detour dots ups ref)) s = none ∧
      policy.sessionGrant (vaultWrite mode (detour dots ups ref)) sessions = false := by
  by_contra none_fresh
  -- Otherwise every detour has a key in the table or among the grants.
  have keyed : ∀ dots, ∃ key, derivePermissionKey (vaultWrite mode (detour dots ups ref)) = some key ∧
      key ∈ {key | s.table key ≠ none} ∪ {key | key ∈ sessions.map Prod.snd} := by
    intro dots
    by_contra unkeyed
    apply none_fresh
    refine ⟨dots, ?_, ?_⟩
    · cases effect : policy.ruleEffect (vaultWrite mode (detour dots ups ref)) s with
      | none => rfl
      | some e =>
          have only : ∀ store, policy.store = some store → store = permissionStore :=
            fun store h => Option.some.inj (h.symm.trans stored)
          obtain ⟨key, hkey, -, held⟩ := LocalPolicy.effectOf_of_ruleEffect only effect
          refine absurd ⟨key, hkey, .inl ?_⟩ unkeyed
          intro missing
          rw [PermissionTable.effectOf, missing] at held
          cases held
    · cases granted : policy.sessionGrant (vaultWrite mode (detour dots ups ref)) sessions with
      | false => rfl
      | true =>
          obtain ⟨key, hkey, approved⟩ := (Option.any_eq_true _ _).mp granted
          refine absurd ⟨key, hkey, .inr ?_⟩ unkeyed
          unfold LocalPolicy.sessionApproved at approved
          split at approved
          · exact List.mem_map.mpr ⟨_, List.contains_iff_mem.mp approved, rfl⟩
          · cases approved
  choose key hkey member using keyed
  have injective : Function.Injective key := by
    intro m n same
    have hm := hkey m
    rw [same] at hm
    exact detour_injective ups ref (request_key_injective hm (hkey n)).2.2
  have bounded : ({key | s.table key ≠ none} ∪ {key | key ∈ sessions.map Prod.snd}).Finite :=
    finite.union (List.finite_toSet _)
  exact Set.infinite_of_injective_forall_mem injective member bounded

/-- **What is left of a denial.** Of a note, in a mode, no spelling is allowed exactly
where the mode is `overwrite` and no spelling is remembered as approved: a denial
remembered for one spelling says nothing about the others. -/
theorem denial_covers_iff (root : VaultRoot) (mode : MemoryWriteMode) (ref : String)
    (enforced : policy.mode ≠ .off) (stored : policy.store = some permissionStore)
    (finite : {key | s.table key ≠ none}.Finite) :
    (∀ ref', SameNote root ref ref' →
      policy.sessionGrant (vaultWrite mode ref') sessions = false →
        (policy.evaluate (vaultWrite mode ref') s sessions).1.decision ≠ .allow) ↔
    (SameNote root ref ref → mode = .overwrite) ∧ ∀ ref', SameNote root ref ref' →
      policy.sessionGrant (vaultWrite mode ref') sessions = false →
        policy.ruleEffect (vaultWrite mode ref') s ≠ some .alwaysApprove := by
  have low : ∀ ref', deriveTier (vaultWrite mode ref') ≠ .high := fun _ => nofun
  constructor
  · intro h
    constructor
    · rintro ⟨path, named, -, below⟩
      by_contra added
      obtain ⟨dots, unruled, ungranted⟩ :=
        @exists_fresh_detour policy s sessions stored mode (wayBack root ref) ref finite
      have spelled := notePath_detour dots (parts_ne_nil_of_note named below) named
      apply h _ ⟨path, named, spelled, below⟩ ungranted
      have brief : LocalPolicy.allowedByDefault
          (vaultWrite mode (detour dots (wayBack root ref) ref)) = true := by
        unfold LocalPolicy.allowedByDefault
        rw [vaultWrite, builtinGrant_detour _ _ _ _ _ _ added]
        rfl
      rw [LocalPolicy.evaluate_decision, if_neg enforced, if_neg (low _), unruled, brief]
      simp
    · intro ref' same ungranted approved
      apply h ref' same ungranted
      rw [LocalPolicy.evaluate_decision, if_neg enforced, if_neg (low _), approved]
      simp
  · rintro ⟨overwrites, unapproved⟩ ref' same ungranted allowed
    obtain ⟨path, named, spelled, below⟩ := same
    rcases LocalPolicy.allow_cases allowed with off | granted | approved | builtin
    · exact enforced off
    · exact absurd (granted.symm.trans ungranted) nofun
    · exact unapproved ref' ⟨path, named, spelled, below⟩ ungranted approved
    · rw [overwrites ⟨path, named, named, below⟩, builtinGrant_action] at builtin
      simp [MemoryWriteMode.text] at builtin

end

/-- The store after `always_deny` was remembered for one reference. -/
def deniedTable (mode : MemoryWriteMode) (ref : String) : PermissionTable :=
  match derivePermissionKey (vaultWrite mode ref) with
  | some permissionKey =>
      PermissionTable.upsert (fun _ => none)
        { permissionKey, effect := .alwaysDeny, tierAtCreation := .low }
  | none => fun _ => none

/-- The table holds at most the one denial. -/
theorem deniedTable_cases (mode : MemoryWriteMode) (ref key : String) :
    deniedTable mode ref key = none ∨
      derivePermissionKey (vaultWrite mode ref) = some key ∧
        (deniedTable mode ref).effectOf key = some .alwaysDeny := by
  unfold deniedTable
  cases derivePermissionKey (vaultWrite mode ref) with
  | none => exact .inl rfl
  | some permissionKey =>
      by_cases same : key = permissionKey
      · subst same
        exact .inr ⟨rfl, PermissionTable.effectOf_upsert_self ..⟩
      · exact .inl (Function.update_of_ne same ..)

theorem deniedTable_finite (mode : MemoryWriteMode) (ref : String) :
    {key | deniedTable mode ref key ≠ none}.Finite := by
  refine (List.finite_toSet (derivePermissionKey (vaultWrite mode ref)).toList).subset ?_
  intro key held
  rcases deniedTable_cases mode ref key with missing | ⟨named, -⟩
  · exact absurd missing held
  · simp [named]

/-- A denied log: what its other spelling is allowed by. -/
theorem denial_covers_spelling_log :
    let policy : LocalPolicy StoreState := { store := some permissionStore }
    let s : StoreState := ⟨deniedTable .append "AI/Logs/x", {}⟩
    (policy.evaluate (vaultWrite .append "AI/Logs/x") s []).1.decision = .deny ∧
      ((policy.evaluate (vaultWrite .append "AI/Logs/./x") s []).1.decision = .allow ↔
        policy.ruleEffect (vaultWrite .append "AI/Logs/./x") s ≠ some .alwaysDeny ∧
        (policy.ruleEffect (vaultWrite .append "AI/Logs/./x") s = some .alwaysApprove ∨
          (builtinGrant (vaultWrite .append "AI/Logs/./x")).isSome = true)) := by
  intro policy s
  obtain ⟨denies, spelled⟩ := @denial_covers_spelling policy s [] ⟨["vault"], by decide⟩ .append
    "AI/Logs/x" "memory_write:write:markdown_vault:append:AI/Logs/x" (by decide) rfl rfl
    (by decide +kernel) (by decide +kernel)
  refine ⟨denies "", spelled _ "" ⟨["vault", "AI", "Logs", "x.md"], ?_, ?_, by decide⟩
    (by decide +kernel)⟩
  · rfl
  · rfl

/-- An overwrite that is denied stays denied under every spelling. -/
theorem denial_covers_overwrite :
    let root : VaultRoot := ⟨["vault"], by decide⟩
    let policy : LocalPolicy StoreState := { store := some permissionStore }
    let s : StoreState := ⟨deniedTable .overwrite "notes/secret", {}⟩
    ∀ ref', SameNote root "notes/secret" ref' →
      policy.sessionGrant (vaultWrite .overwrite ref') [] = false →
        (policy.evaluate (vaultWrite .overwrite ref') s []).1.decision ≠ .allow := by
  intro root policy s
  refine (@denial_covers_iff policy s [] root .overwrite "notes/secret" (by decide) rfl
    (deniedTable_finite .overwrite "notes/secret")).mpr ⟨fun _ => rfl, ?_⟩
  intro ref' _ _ approved
  obtain ⟨key, -, -, held⟩ := LocalPolicy.effectOf_of_ruleEffect
    (fun store h => (Option.some.inj h).symm) approved
  change (deniedTable .overwrite "notes/secret").effectOf key = _ at held
  rcases deniedTable_cases .overwrite "notes/secret" key with missing | ⟨-, denies⟩
  · rw [PermissionTable.effectOf, missing] at held
    cases held
  · cases held.symm.trans denies

/-- A denied log, appended to under another spelling. -/
theorem denial_respelled :
    let root : VaultRoot := ⟨["vault"], by decide⟩
    let policy : LocalPolicy StoreState := { store := some permissionStore }
    let s : StoreState := ⟨deniedTable .append "AI/Logs/x", {}⟩
    policy.ruleEffect (vaultWrite .append "AI/Logs/x") s = some .alwaysDeny ∧
      SameNote root "AI/Logs/x" "AI/Logs/./x" ∧
      policy.sessionGrant (vaultWrite .append "AI/Logs/./x") [] = false ∧
      (policy.evaluate (vaultWrite .append "AI/Logs/./x") s []).1.decision = .allow := by
  refine ⟨by decide +kernel, ⟨["vault", "AI", "Logs", "x.md"], ?_, ?_, by decide⟩,
    by decide +kernel, by decide +kernel⟩
  · rfl
  · rfl

end AgentOs
