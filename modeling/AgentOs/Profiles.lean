import AgentOs.Lib.Text
import Mathlib.Data.List.Sort

/-!
Profiles and what they inherit (`profiles.py`).

A profile may extend one other. `resolve_profile` walks the `extends` of the profile, takes
what the child does not set from the parent, and fills in defaults. `lineage` says which
profile is the parent, if the file has one to take, and `Profile.inherit` what a child should
take from it: every setting alike. The code's list of what it takes leaves `summary` out.

`resolveProfile_uniform_iff` is what this comes to.
-/

namespace AgentOs

open AgentOs.Lib

/-! ### Profile files -/

structure HotContextConfig where
  maxChars : ℤ := 8000
  maxAgeDays : ℤ := 14
  sources : List String := ["hot.md", "AI/Memory/*.md"]
deriving DecidableEq, Repr

structure SummaryConfig where
  thresholdTokens : ℤ := 8000
  keepRecentN : ℤ := 6
  model : Option String := none
deriving DecidableEq, Repr

/-- A field of a profile: not among `model_fields_set`, or set, perhaps to `None`. -/
inductive Setting (α : Type) where
  | unset
  | given (value : Option α)
deriving DecidableEq, Repr

namespace Setting

variable {α : Type}

/-- The attribute. -/
def value : Setting α → Option α
  | unset => none
  | given value => value

/-- The field over a value from elsewhere. -/
def overriding : Setting α → Option α → Option α
  | unset, base => base
  | given value, _ => value

def isSet : Setting α → Bool
  | unset => false
  | given _ => true

end Setting

structure Profile where
  router : Setting String := .unset
  architect : Setting String := .unset
  executor : Setting String := .unset
  sandbox : Setting String := .unset
  «extends» : Option String := none
  hotContext : Setting HotContextConfig := .unset
  summary : Setting SummaryConfig := .unset
deriving DecidableEq, Repr

structure ProfileFile where
  profiles : List (String × Profile) := []
deriving DecidableEq, Repr

structure ResolvedProfile where
  name : String
  router : Option String
  architect : Option String
  executor : Option String
  sandbox : String
  hotContext : HotContextConfig
  summary : SummaryConfig
deriving DecidableEq, Repr

inductive ProfileError where
  /-- `ProfileLoadError` -/
  | profileLoad (message : String)
  /-- what `expanduser` or `resolve` raises -/
  | path (message : String)
deriving DecidableEq, Repr

/-! ### Backends -/

inductive BackendRole where
  | architect
  | executor
deriving DecidableEq, Repr

def BackendRole.text : BackendRole → String
  | architect => "architect"
  | executor => "executor"

/-- The registered adapters and the roles they support. -/
structure BackendRegistry where
  adapters : List (String × List BackendRole) := []
deriving DecidableEq, Repr

/-- `BackendRegistry.names`. -/
def BackendRegistry.names (registry : BackendRegistry) : List String :=
  (registry.adapters.map Prod.fst).insertionSort fun a b => ¬b.toList < a.toList

/-- `BackendRegistry.resolve`: nothing, or the message of its `ValueError`. -/
def BackendRegistry.resolve (registry : BackendRegistry) (role : BackendRole) (name : String) :
    Except String Unit :=
  match registry.adapters.lookup name with
  | none =>
      let registered := Text.join ", " registry.names
      .error ("Unknown backend adapter '" ++ name ++ "'. Registered adapters: " ++
        if registered = "" then "(none)" else registered)
  | some roles =>
      if roles.contains role then .ok ()
      else
        let supported := Text.join ", "
          (([.architect, .executor].filter roles.contains).map BackendRole.text)
        .error ("Backend adapter '" ++ name ++ "' does not support role '" ++ role.text ++
          "'. Supported roles: " ++ if supported = "" then "none" else supported)

/-! ### Resolving -/

/-- `resolved_data`. -/
structure ProfileSettings where
  router : Option String := none
  architect : Option String := none
  executor : Option String := none
  sandbox : Option String := none
  hotContext : Option HotContextConfig := none
  summary : Option SummaryConfig := none
deriving DecidableEq, Repr

/-- The loop over `extends`. An empty name ends it. -/
def inheritanceChain (file : ProfileFile) (chain : List String) (current : Option String) :
    Except ProfileError (List String) :=
  match current with
  | none => .ok chain
  | some name =>
      if name = "" then .ok chain
      else if name ∈ chain then
        .error (.profileLoad
          ("Inheritance cycle detected: " ++ Text.join " -> " (chain ++ [name])))
      else
        match file.profiles.lookup name with
        | none => .error (.profileLoad ("Parent profile '" ++ name ++ "' not found."))
        | some profile =>
            if 1 < chain.length then
              .error (.profileLoad ("Deep inheritance is not supported: " ++
                Text.join " -> " (chain ++ [name])))
            else inheritanceChain file (chain ++ [name]) profile.extends
termination_by 2 - chain.length
decreasing_by
  rw [List.length_append, List.length_singleton]
  omega

/-- The two loops over fields: five of them from the parent, six from the child. -/
def resolvedData (child : Profile) (parent : Option Profile) : ProfileSettings :=
  let base : ProfileSettings :=
    match parent with
    | some parent =>
        { router := parent.router.value, architect := parent.architect.value,
          executor := parent.executor.value, sandbox := parent.sandbox.value,
          hotContext := parent.hotContext.value }
    | none => {}
  { router := child.router.overriding base.router
    architect := child.architect.overriding base.architect
    executor := child.executor.overriding base.executor
    sandbox := child.sandbox.overriding base.sandbox
    hotContext := child.hotContext.overriding base.hotContext
    summary := child.summary.overriding base.summary }

/-- A role's backend, where it is one of the command line's, has to be registered. -/
def checkBackend (registry : BackendRegistry) (role : BackendRole) (backend : Option String) :
    Except ProfileError Unit :=
  match backend with
  | none => .ok ()
  | some backend =>
      if Text.startsWith backend "cli/" then
        (registry.resolve role (Text.drop backend 4)).mapError .profileLoad
      else .ok ()

def checkRouter (router : Option String) : Except ProfileError Unit :=
  match router with
  | none => .ok ()
  | some router =>
      if Text.startsWith router "cli/" then
        .error (.profileLoad ("Router cannot be a CLI backend: " ++ router))
      else .ok ()

section

variable (registry : BackendRegistry) (paths : String → Except ProfileError String)
  (sandboxRoot : String)

/-- `str(Path(sandbox).expanduser().resolve())`, or the root. -/
def resolveSandbox (sandbox : Option String) : Except ProfileError String :=
  match sandbox with
  | some sandbox => paths sandbox
  | none => .ok sandboxRoot

/-- What `resolve_profile` does with `resolved_data`. -/
def finishProfile (name : String) (data : ProfileSettings) :
    Except ProfileError ResolvedProfile := do
  let sandbox ← resolveSandbox paths sandboxRoot data.sandbox
  checkBackend registry .architect data.architect
  checkBackend registry .executor data.executor
  checkRouter data.router
  return { name, router := data.router, architect := data.architect, executor := data.executor,
           sandbox, hotContext := data.hotContext.getD {}, summary := data.summary.getD {} }

/-- `resolve_profile`. -/
def resolveProfile (file : ProfileFile) (name : String) : Except ProfileError ResolvedProfile :=
  match file.profiles.lookup name with
  | none =>
      let available := Text.join ", " (file.profiles.map Prod.fst)
      .error (.profileLoad ("Profile '" ++ name ++ "' not found. Available profiles: " ++
        if available = "" then "none" else available))
  | some child => do
      let chain ← inheritanceChain file [] (some name)
      let parent :=
        if 1 < chain.length then chain.getLast?.bind (fun ancestor => file.profiles.lookup ancestor)
        else none
      finishProfile registry paths sandboxRoot name (resolvedData child parent)

end

/-! ### What a profile should inherit -/

/-- The profile it extends; an empty name is none. -/
def Profile.parentName (profile : Profile) : Option String :=
  profile.extends.filter (· ≠ "")

/-- The profile with its parent, unless `extends` leads to a missing profile, to itself or
past the parent. -/
def lineage (file : ProfileFile) (name : String) : Option (Profile × Option Profile) :=
  match file.profiles.lookup name with
  | none => none
  | some child =>
      match child.parentName with
      | none => some (child, none)
      | some ancestor =>
          if ancestor = name then none
          else
            match file.profiles.lookup ancestor with
            | none => none
            | some parent => if parent.parentName = none then some (child, some parent) else none

/-- A field of the child, or else of the parent. -/
def inheritField {α : Type} (field : Profile → Setting α) (child : Profile)
    (parent : Option Profile) : Option α :=
  (field child).overriding (parent.bind fun parent => (field parent).value)

/-- Every setting alike. -/
def Profile.inherit (child : Profile) (parent : Option Profile) : ProfileSettings where
  router := inheritField Profile.router child parent
  architect := inheritField Profile.architect child parent
  executor := inheritField Profile.executor child parent
  sandbox := inheritField Profile.sandbox child parent
  hotContext := inheritField Profile.hotContext child parent
  summary := inheritField Profile.summary child parent

/-- The code takes all of it but the summary. -/
theorem resolvedData_eq (child : Profile) (parent : Option Profile) :
    resolvedData child parent =
      { child.inherit parent with summary := child.summary.overriding none } := by
  cases parent <;> rfl

theorem resolvedData_none (child : Profile) : resolvedData child none = child.inherit none := rfl

section

variable (registry : BackendRegistry) (paths : String → Except ProfileError String)
  (sandboxRoot : String)

/-- The checks of `finishProfile`. -/
def checkSettings (settings : ProfileSettings) : Except ProfileError Unit := do
  let _ ← resolveSandbox paths sandboxRoot settings.sandbox
  checkBackend registry .architect settings.architect
  checkBackend registry .executor settings.executor
  checkRouter settings.router

/-- A resolved profile has these settings, and defaults for what they leave open. -/
def Shows (settings : ProfileSettings) (resolved : ResolvedProfile) : Prop :=
  resolved.router = settings.router ∧ resolved.architect = settings.architect ∧
    resolved.executor = settings.executor ∧
    resolveSandbox paths sandboxRoot settings.sandbox = .ok resolved.sandbox ∧
    resolved.hotContext = settings.hotContext.getD {} ∧
    resolved.summary = settings.summary.getD {}

/-- **Inheritance is uniform** for a name of a file: without a lineage there is no profile, and
with one each setting is the child's, or else the parent's, or else the default. No profile is
returned only where these settings do not pass their checks. -/
def InheritsUniformly (file : ProfileFile) (name : String) : Prop :=
  match lineage file name with
  | none => ∃ message,
      resolveProfile registry paths sandboxRoot file name = .error (.profileLoad message)
  | some (child, parent) =>
      match resolveProfile registry paths sandboxRoot file name with
      | .ok resolved => Shows paths sandboxRoot (child.inherit parent) resolved
      | .error e => checkSettings registry paths sandboxRoot (child.inherit parent) = .error e

/-! ### The last part of `resolve_profile` -/

variable {registry paths sandboxRoot}

/-- What is refused is refused alike; what passes is the same profile where the settings come to
the same. -/
theorem finishProfile_cases (name : String) (data : ProfileSettings) :
    (∃ e, checkSettings registry paths sandboxRoot data = .error e ∧
      finishProfile registry paths sandboxRoot name data = .error e) ∨
    (checkSettings registry paths sandboxRoot data = .ok () ∧
      ∃ resolved, finishProfile registry paths sandboxRoot name data = .ok resolved ∧
        Shows paths sandboxRoot data resolved) := by
  unfold checkSettings finishProfile
  cases sandbox : resolveSandbox paths sandboxRoot data.sandbox with
  | error e => exact .inl ⟨e, rfl, rfl⟩
  | ok path =>
      cases checkBackend registry .architect data.architect with
      | error e => exact .inl ⟨e, rfl, rfl⟩
      | ok =>
          cases checkBackend registry .executor data.executor with
          | error e => exact .inl ⟨e, rfl, rfl⟩
          | ok =>
              cases checkRouter data.router with
              | error e => exact .inl ⟨e, rfl, rfl⟩
              | ok => exact .inr ⟨rfl, _, rfl, rfl, rfl, rfl, sandbox, rfl, rfl⟩

/-! ### The chain -/

variable {file : ProfileFile} {name : String} {child : Profile}

/-- Where nothing is extended the chain ends. -/
theorem inheritanceChain_end (chain : List String) {current : Option String}
    (ends : current.filter (· ≠ "") = none) : inheritanceChain file chain current = .ok chain := by
  cases current with
  | none => rw [inheritanceChain]
  | some name =>
      have empty : name = "" := by
        by_contra other
        simp [Option.filter, other] at ends
      rw [inheritanceChain, if_pos empty]

/-- Past the parent it fails. -/
theorem inheritanceChain_deep {chain : List String} (two : 1 < chain.length)
    {current : Option String} {ancestor : String}
    (goesOn : current.filter (· ≠ "") = some ancestor) :
    ∃ message, inheritanceChain file chain current = .error (.profileLoad message) := by
  obtain ⟨rfl, some_⟩ := Option.filter_eq_some_iff.mp goesOn
  rw [inheritanceChain, if_neg (of_decide_eq_true some_)]
  split
  · exact ⟨_, rfl⟩
  · cases file.profiles.lookup ancestor with
    | none => exact ⟨_, rfl⟩
    | some profile =>
        exact ⟨_, rfl⟩

/-- The chain of a profile with a name is its lineage. -/
theorem inheritanceChain_lineage (some_ : name ≠ "")
    (found : file.profiles.lookup name = some child) :
    match lineage file name with
    | none => ∃ message, inheritanceChain file [] (some name) = .error (.profileLoad message)
    | some (child', none) => child' = child ∧ inheritanceChain file [] (some name) = .ok [name]
    | some (child', some parent) => child' = child ∧ ∃ ancestor,
        file.profiles.lookup ancestor = some parent ∧
        inheritanceChain file [] (some name) = .ok [name, ancestor] := by
  have first : inheritanceChain file [] (some name) =
      inheritanceChain file [name] child.extends := by
    rw [inheritanceChain, if_neg some_, if_neg List.not_mem_nil]
    simp only [found]
    rfl
  rw [first]
  unfold lineage
  simp only [found]
  cases extended : child.parentName with
  | none => exact ⟨rfl, inheritanceChain_end [name] extended⟩
  | some ancestor =>
      obtain ⟨is, other⟩ := Option.filter_eq_some_iff.mp extended
      dsimp only
      rw [is, inheritanceChain, if_neg (of_decide_eq_true other)]
      by_cases cycle : ancestor = name
      · rw [if_pos cycle, if_pos (List.mem_singleton.mpr cycle)]
        exact ⟨_, rfl⟩
      · rw [if_neg cycle, if_neg (fun mem => cycle (List.mem_singleton.mp mem))]
        cases there : file.profiles.lookup ancestor with
        | none => exact ⟨_, rfl⟩
        | some parent =>
            dsimp only
            rw [if_neg (show ¬1 < [name].length from Nat.lt_irrefl 1)]
            cases further : parent.parentName with
            | none =>
                rw [if_pos rfl]
                exact ⟨rfl, ancestor, there, inheritanceChain_end _ further⟩
            | some next =>
                rw [if_neg (by simp)]
                exact inheritanceChain_deep
                  (show 1 < [name, ancestor].length from Nat.lt_succ_self 1) further

/-! ### When inheritance is uniform -/

/-- What a profile with a name comes to. -/
theorem resolveProfile_of_lineage (some_ : name ≠ "") (child' : Profile) (parent : Option Profile)
    (has : lineage file name = some (child', parent)) :
    resolveProfile registry paths sandboxRoot file name =
      finishProfile registry paths sandboxRoot name (resolvedData child' parent) := by
  cases found : file.profiles.lookup name with
  | none => simp [lineage, found] at has
  | some child =>
      have chain := inheritanceChain_lineage some_ found
      rw [has] at chain
      unfold resolveProfile
      simp only [found]
      cases parent with
      | none =>
          obtain ⟨rfl, chain⟩ := chain
          rw [chain]
          rfl
      | some parent =>
          obtain ⟨rfl, ancestor, there, chain⟩ := chain
          rw [chain]
          simp only [bind, Except.bind]
          rw [if_pos (show 1 < [name, ancestor].length from Nat.lt_succ_self 1)]
          have last : ([name, ancestor].getLast?.bind fun ancestor =>
              file.profiles.lookup ancestor) = some parent := there
          rw [last]

/-- The one named by the empty text is resolved alone. -/
theorem resolveProfile_empty (found : file.profiles.lookup "" = some child) :
    resolveProfile registry paths sandboxRoot file "" =
      finishProfile registry paths sandboxRoot "" (resolvedData child none) := by
  have chain : inheritanceChain file [] (some "") = .ok [] := inheritanceChain_end [] (by decide)
  unfold resolveProfile
  simp only [found, chain]
  rfl

variable (registry paths sandboxRoot)

/-- Settings that come to the same profile. -/
def Alike (s t : ProfileSettings) : Prop :=
  s.router = t.router ∧ s.architect = t.architect ∧ s.executor = t.executor ∧
    resolveSandbox paths sandboxRoot s.sandbox = resolveSandbox paths sandboxRoot t.sandbox ∧
    s.hotContext.getD {} = t.hotContext.getD {} ∧ s.summary.getD {} = t.summary.getD {}

/-- Taken for the others, settings are refused alike or come to the same. -/
def StandIn (s t : ProfileSettings) : Prop :=
  (∃ e, checkSettings registry paths sandboxRoot s = .error e ∧
    checkSettings registry paths sandboxRoot t = .error e) ∨
  checkSettings registry paths sandboxRoot s = .ok () ∧ Alike paths sandboxRoot s t

/-- The condition: nothing of a parent's summary is lost. The profile named by the empty text,
for which the chain is not followed, has to come to the same alone. -/
def KeepsSummary (file : ProfileFile) (name : String) : Prop :=
  match lineage file name with
  | none => ∀ child, name = "" → file.profiles.lookup name = some child →
      ∃ message, checkSettings registry paths sandboxRoot (child.inherit none) =
        .error (.profileLoad message)
  | some (_, none) => True
  | some (child, some parent) =>
      if name = "" then
        StandIn registry paths sandboxRoot (child.inherit none) (child.inherit (some parent))
      else
        child.summary.isSet = true ∨ parent.summary.value.getD {} = {} ∨
          ∃ e, checkSettings registry paths sandboxRoot (child.inherit (some parent)) = .error e

variable {registry paths sandboxRoot}

/-- A profile resolved from `s` is one of `t` where `s` stands in for `t`. -/
theorem finishProfile_standIn_iff (name : String) (s t : ProfileSettings) :
    (match finishProfile registry paths sandboxRoot name s with
      | .ok resolved => Shows paths sandboxRoot t resolved
      | .error e => checkSettings registry paths sandboxRoot t = .error e) ↔
      StandIn registry paths sandboxRoot s t := by
  rcases finishProfile_cases name s with ⟨e, check, refused⟩ | ⟨check, resolved, ok, shows_⟩
  · rw [refused]
    dsimp only
    constructor
    · exact fun other => .inl ⟨e, check, other⟩
    · rintro (⟨e', check', other⟩ | ⟨passes, -⟩)
      · rw [check] at check'
        cases check'
        exact other
      · rw [check] at passes
        cases passes
  · rw [ok]
    dsimp only
    obtain ⟨router, architect, executor, sandbox, hotContext, summary⟩ := shows_
    constructor
    · rintro ⟨router', architect', executor', sandbox', hotContext', summary'⟩
      exact .inr ⟨check, router.symm.trans router', architect.symm.trans architect',
        executor.symm.trans executor', sandbox.trans sandbox'.symm,
        hotContext.symm.trans hotContext', summary.symm.trans summary'⟩
    · rintro (⟨e, refused, -⟩ | ⟨-, router', architect', executor', sandbox', hotContext', summary'⟩)
      · rw [check] at refused
        cases refused
      · exact ⟨router.trans router', architect.trans architect', executor.trans executor',
          sandbox'.symm.trans sandbox, hotContext.trans hotContext', summary.trans summary'⟩

/-- The summary is not among what is checked. -/
theorem checkSettings_summary (settings : ProfileSettings) (summary : Option SummaryConfig) :
    checkSettings registry paths sandboxRoot { settings with summary } =
      checkSettings registry paths sandboxRoot settings := rfl

/-- Without the parent's summary, settings stand in for all of them where it makes no
difference. -/
theorem standIn_resolvedData_iff (child parent : Profile) :
    StandIn registry paths sandboxRoot (resolvedData child (some parent))
        (child.inherit (some parent)) ↔
      child.summary.isSet = true ∨ parent.summary.value.getD {} = {} ∨
        ∃ e, checkSettings registry paths sandboxRoot (child.inherit (some parent)) = .error e := by
  rw [resolvedData_eq, StandIn, checkSettings_summary]
  have summary : (child.summary.overriding none).getD {} =
      ((child.inherit (some parent)).summary).getD {} ↔
        child.summary.isSet = true ∨ parent.summary.value.getD {} = {} := by
    show _ = (child.summary.overriding parent.summary.value).getD {} ↔ _
    cases child.summary with
    | unset => exact ⟨fun same => .inr same.symm, fun given => (given.resolve_left (by decide)).symm⟩
    | given value => exact iff_of_true rfl (.inl rfl)
  cases check : checkSettings registry paths sandboxRoot (child.inherit (some parent)) with
  | error e => exact iff_of_true (.inl ⟨e, rfl, rfl⟩) (.inr (.inr ⟨e, rfl⟩))
  | ok =>
      rw [← or_assoc, ← summary]
      constructor
      · rintro (⟨e, refused, -⟩ | ⟨-, alike⟩)
        · cases refused
        · exact .inl alike.2.2.2.2.2
      · rintro (same | ⟨e, refused⟩)
        · exact .inr ⟨rfl, rfl, rfl, rfl, rfl, rfl, same⟩
        · cases refused

theorem lookup_of_lineage {parent : Option Profile}
    (has : lineage file name = some (child, parent)) : file.profiles.lookup name = some child := by
  unfold lineage at has
  split at has
  · cases has
  · rename_i child' found
    split at has
    · cases has
      exact found
    · split at has
      · cases has
      · split at has
        · cases has
        · split at has
          · cases has
            exact found
          · cases has

/-- Without a lineage a profile with a name is not resolved. -/
theorem resolveProfile_of_no_lineage (some_ : name ≠ "") (has : lineage file name = none) :
    ∃ message,
      resolveProfile registry paths sandboxRoot file name = .error (.profileLoad message) := by
  unfold resolveProfile
  cases found : file.profiles.lookup name with
  | none => exact ⟨_, rfl⟩
  | some child =>
      have chain := inheritanceChain_lineage some_ found
      rw [has] at chain
      obtain ⟨message, chain⟩ := chain
      dsimp only
      rw [chain]
      exact ⟨message, rfl⟩

theorem finishProfile_profileLoad_iff (data : ProfileSettings) :
    (∃ message, finishProfile registry paths sandboxRoot name data =
      .error (.profileLoad message)) ↔
    ∃ message, checkSettings registry paths sandboxRoot data = .error (.profileLoad message) := by
  rcases finishProfile_cases name data with ⟨e, check, refused⟩ | ⟨check, resolved, ok, -⟩
  · rw [check, refused]
    simp only [Except.error.injEq]
  · rw [check, ok]
    simp

variable (registry paths sandboxRoot)

/-- **Inheritance is uniform exactly where no summary of a parent is lost.** -/
theorem resolveProfile_uniform_iff (file : ProfileFile) (name : String) :
    InheritsUniformly registry paths sandboxRoot file name ↔
      KeepsSummary registry paths sandboxRoot file name := by
  unfold InheritsUniformly KeepsSummary
  cases has : lineage file name with
  | none =>
      dsimp only
      by_cases empty : name = ""
      · subst empty
        cases found : file.profiles.lookup "" with
        | none =>
            refine iff_of_true ?_ fun child _ other => (by cases other)
            unfold resolveProfile
            rw [found]
            exact ⟨_, rfl⟩
        | some child =>
            rw [resolveProfile_empty found, finishProfile_profileLoad_iff]
            exact ⟨fun refused _ _ same => Option.some.inj same ▸ refused,
              fun refused => refused child rfl rfl⟩
      · exact iff_of_true (resolveProfile_of_no_lineage empty has)
          fun _ same => absurd same empty
  | some found =>
      obtain ⟨child, parent⟩ := found
      cases parent with
      | none =>
          dsimp only
          refine iff_of_true ?_ trivial
          have alone : resolveProfile registry paths sandboxRoot file name =
              finishProfile registry paths sandboxRoot name (child.inherit none) := by
            by_cases empty : name = ""
            · subst empty
              exact resolveProfile_empty (lookup_of_lineage has)
            · exact resolveProfile_of_lineage empty child none has
          rw [alone, finishProfile_standIn_iff]
          cases check : checkSettings registry paths sandboxRoot (child.inherit none) with
          | error e => exact .inl ⟨e, check, check⟩
          | ok => exact .inr ⟨check, rfl, rfl, rfl, rfl, rfl, rfl⟩
      | some parent =>
          dsimp only
          by_cases empty : name = ""
          · subst empty
            rw [if_pos rfl, resolveProfile_empty (lookup_of_lineage has),
              finishProfile_standIn_iff, resolvedData_none]
          · rw [if_neg empty, resolveProfile_of_lineage empty child (some parent) has,
              finishProfile_standIn_iff, standIn_resolvedData_iff]

/-- A child that sets no summary gets the default and not its parent's. -/
theorem summary_not_inherited :
    ¬InheritsUniformly {} .ok "/sandbox"
      { profiles := [("base", { summary := .given (some { keepRecentN := 12 }) }),
                     ("child", { «extends» := some "base" })] } "child" := by
  have has : lineage
      { profiles := [("base", { summary := .given (some { keepRecentN := 12 }) }),
                     ("child", { «extends» := some "base" })] } "child" =
      some ({ «extends» := some "base" },
        some { summary := .given (some { keepRecentN := 12 }) }) := by decide
  unfold InheritsUniformly
  rw [has, resolveProfile_of_lineage (by decide) _ _ has]
  exact fun shows_ => absurd shows_.2.2.2.2.2 (by decide)

end

end AgentOs
