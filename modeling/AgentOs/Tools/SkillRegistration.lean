import AgentOs.Lib.Toml.Document
import AgentOs.Tools.Skills
import Mathlib.Data.List.Nodup

/-!
Registering skills, one by one, in batches and from packages (`skills.py`,
`skill_packages.py`).

Here the registry is the dictionary itself, and every call says what it leaves in it also
where it raises. A batch is tried on a copy and then stored without checks.
`skill_registry_one_meaning`: after any calls no two words of the registered skills are the
same, and a batch does to the registry what its skills one by one would do, or nothing.
-/

namespace AgentOs

open AgentOs.Lib

/-! ### The registry -/

/-- `_skills`: the registered skills in the order they were stored, by their names. -/
abbrev SkillDict (H : Type) := List (RegisteredSkill H)

namespace SkillDict

variable {H : Type}

/-- `_skills[skill.name] = skill`. -/
def store (skills : SkillDict H) (skill : RegisteredSkill H) : SkillDict H :=
  if skills.any (·.name = skill.name) then
    skills.map fun existing => if existing.name = skill.name then skill else existing
  else skills ++ [skill]

/-- `SkillRegistry.register`. -/
def register (skill : RegisteredSkill H) (skills : SkillDict H) :
    Except String Unit × SkillDict H :=
  if skills.any (·.name = skill.name) then
    (.error ("Skill canonical name already registered: " ++ skill.name), skills)
  else
    match skills.findSome? (SkillRegistry.collision skill) with
    | some message => (.error message, skills)
    | none => (.ok (), skills.store skill)

/-- Register skills in turn, until one is refused. -/
def registerEach : List (RegisteredSkill H) → SkillDict H → Except String Unit × SkillDict H
  | [], skills => (.ok (), skills)
  | skill :: rest, skills =>
      match register skill skills with
      | (.error message, skills) => (.error message, skills)
      | (.ok (), skills) => registerEach rest skills

/-- `SkillRegistry.register_many`. -/
def registerMany (batch : List (RegisteredSkill H)) (skills : SkillDict H) :
    Except String Unit × SkillDict H :=
  match registerEach skills [] with
  | (.error message, _) => (.error message, skills)
  | (.ok (), shadow) =>
      match registerEach batch shadow with
      | (.error message, _) => (.error message, skills)
      | (.ok (), _) => (.ok (), batch.foldl store skills)

end SkillDict

/-! ### Commands -/

section Commands

variable {H : Type} (lower : String → String)

/-- `RegisteredSkill(name, aliases, handler)`, for the language's own `lower`. -/
def registeredSkill (name : String) (aliases : List String) (handler : H) :
    Except String (RegisteredSkill H) :=
  let normalizedName := lower (Text.strip name)
  let normalizedAliases := aliases.map fun alias_ => lower (Text.strip alias_)
  if hname : normalizedName = "" then .error "Skill name must not be empty"
  else if hempty : ∀ a ∈ normalizedAliases, a ≠ "" then
    if hmem : normalizedName ∈ normalizedAliases then
      .error "Skill aliases must not duplicate the canonical name"
    else if hdup : normalizedAliases.Nodup then
      .ok ⟨normalizedName, normalizedAliases, handler, hname, hempty, hmem, hdup⟩
    else .error "Skill aliases must be unique"
  else .error "Skill aliases must not be empty"

theorem registeredSkill_lower (name : String) (aliases : List String) (handler : H) :
    registeredSkill Text.lower name aliases handler = RegisteredSkill.make name aliases handler :=
  rfl

/-- `RegisteredSkill.matches`. -/
def RegisteredSkill.answers (skill : RegisteredSkill H) (command : String) : Bool :=
  match Text.words (lower (Text.strip command)) with
  | [] => false
  | firstWord :: _ => firstWord = skill.name || skill.aliases.contains firstWord

/-- `SkillRegistry.deterministic_match`. -/
def SkillDict.deterministicMatch (skills : SkillDict H) (text : String) :
    Option (RegisteredSkill H) :=
  skills.find? (·.answers lower text)

end Commands

/-! ### Packages -/

/-- What a name of a module stands for: a tool or a callable, or something else. -/
inductive ModuleAttr (H : Type) where
  | handler (handler : H)
  | other

/-- A module file: whether the import machinery has a loader for it, and what executing it
raises or defines. -/
structure ModuleFile (H : Type) where
  hasLoader : Bool
  exec : Except String (String → Option (ModuleAttr H))

/-- A package directory. -/
structure SkillPackage (H : Type) where
  manifestPath : String
  /-- `manifest.toml`, where it is a file: its tables, or why it cannot be parsed -/
  manifest : Option (Except String Toml.Dict)
  /-- the path of a module's parts, with the suffix `.py` -/
  modulePath : List String → String
  /-- the module, where that is a file -/
  module_ : List String → Option (ModuleFile H)

/-- What loading takes from the language: `lower`, `isidentifier` and `repr`. -/
structure LoaderLanguage where
  lower : String → String
  isIdentifier : String → Bool
  repr : Option Toml.Value → String

section Packages

variable {H : Type} (language : LoaderLanguage) (package : SkillPackage H)

def invalidEntrypoint (entrypoint : Option Toml.Value) : String :=
  "Invalid entrypoint " ++ language.repr entrypoint ++ " in " ++ package.manifestPath ++
    "; expected 'module:function'"

/-- The parts of the module and the function an entry point names. -/
def entrypointParts (entrypoint : String) : Option (List String × String) :=
  match entrypoint.toList.splitOn ':' with
  | [moduleName, funcName] =>
      let moduleParts := (moduleName.splitOn '.').map String.ofList
      if moduleName = [] || !moduleParts.all language.isIdentifier ||
          !language.isIdentifier (.ofList funcName) then none
      else some (moduleParts, .ofList funcName)
  | _ => none

/-- The handler an entry point names. -/
def loadEntrypoint (entrypoint : String) : Except String H :=
  match entrypointParts language entrypoint with
  | none => .error (invalidEntrypoint language package (some (.str entrypoint)))
  | some (moduleParts, funcName) =>
      let modulePath := package.modulePath moduleParts
      match package.module_ moduleParts with
      | none => .error ("Module " ++ modulePath ++ " not found for " ++ entrypoint ++ " in " ++
          package.manifestPath)
      | some file =>
          if !file.hasLoader then
            .error ("Failed to load " ++ modulePath ++ " from " ++ package.manifestPath)
          else
            match file.exec with
            | .error e => .error ("Failed to load " ++ entrypoint ++ " from " ++
                package.manifestPath ++ ": " ++ e)
            | .ok attributes =>
                match attributes funcName with
                | none => .error ("Function " ++ funcName ++ " not found in " ++ modulePath ++
                    " (" ++ package.manifestPath ++ ")")
                | some .other => .error ("Handler " ++ entrypoint ++ " is not callable in " ++
                    package.manifestPath)
                | some (.handler handler) => .ok handler

/-- The match values of a handler: a list of texts, none of them blank. -/
def matchValues (conf : Toml.Dict) : Option (List String) :=
  match (conf.lookup "match").bind Toml.Value.strings? with
  | some matches_ => if matches_ = [] || matches_.any Text.isBlank then none else some matches_
  | none => none

/-- One pass of the loop over handlers. -/
def loadHandler : Toml.Value → Except String (RegisteredSkill H)
  | .table conf =>
      match conf.lookup "entrypoint" with
      | some (.str entrypoint) => do
          let handler ← loadEntrypoint language package entrypoint
          match matchValues conf with
          | some (name :: aliases) => registeredSkill language.lower name aliases handler
          | _ => .error ("Handler " ++ entrypoint ++ " needs non-empty match values in " ++
              package.manifestPath)
      | entrypoint => .error (invalidEntrypoint language package entrypoint)
  | _ => .error ("Handler entries must be tables in " ++ package.manifestPath)

/-- `[skill].name` and `[skill].version`. -/
def checkSkillField (metadata : Toml.Dict) (field : String) : Except String Unit :=
  match metadata.lookup field with
  | some (.str value) =>
      if Text.isBlank value then
        .error ("[skill]." ++ field ++ " must be non-empty in " ++ package.manifestPath)
      else .ok ()
  | _ => .error ("[skill]." ++ field ++ " must be non-empty in " ++ package.manifestPath)

/-- The skills of a package. -/
def packageSkills : Except String (List (RegisteredSkill H)) :=
  match package.manifest with
  | none => .error ("Skill manifest not found: " ++ package.manifestPath)
  | some (.error e) =>
      .error ("Failed to parse manifest " ++ package.manifestPath ++ ": " ++ e)
  | some (.ok manifest) =>
      match manifest.lookup "skill" with
      | some (.table metadata) => do
          checkSkillField package metadata "name"
          checkSkillField package metadata "version"
          match metadata.lookup "handlers" with
          | some (.array (first :: rest)) => (first :: rest).mapM (loadHandler language package)
          | _ => .error ("[skill] must define at least one handler in " ++ package.manifestPath)
      | _ => .error ("Missing [skill] table in " ++ package.manifestPath)

/-- `SkillPackageLoader.load_package`. -/
def loadPackage (skills : SkillDict H) : Except String Unit × SkillDict H :=
  match packageSkills language package with
  | .error message => (.error message, skills)
  | .ok loaded => SkillDict.registerMany loaded skills

end Packages

/-! ### What registering does -/

namespace SkillDict

variable {H : Type} {skills skills' : SkillDict H} {skill : RegisteredSkill H}
  {batch : List (RegisteredSkill H)}

theorem name_mem_words (skill : RegisteredSkill H) : skill.name ∈ skill.words :=
  List.mem_cons_self

/-- A skill that shares no word with any is stored at the end. -/
theorem store_of_apart (apart : ∀ existing ∈ skills, existing.Apart skill) :
    skills.store skill = skills ++ [skill] := by
  refine if_neg fun there => ?_
  obtain ⟨existing, mem, same⟩ := List.any_eq_true.mp there
  have word := name_mem_words existing
  rw [of_decide_eq_true same] at word
  exact apart existing mem skill.name word (name_mem_words skill)

/-- A skill that shares no word with another is not complained about. -/
theorem collision_of_apart {existing : RegisteredSkill H} (apart : existing.Apart skill) :
    SkillRegistry.collision skill existing = none := by
  unfold SkillRegistry.collision
  rw [if_neg, Option.map_eq_none_iff, List.find?_eq_none]
  · intro word mem used
    have here : word ∈ skill.words := List.mem_cons_of_mem _ mem
    simp only [Bool.or_eq_true, decide_eq_true_eq, List.contains_iff_mem] at used
    rcases used with rfl | used
    · exact apart _ (name_mem_words existing) here
    · exact apart word (List.mem_cons_of_mem _ used) here
  · intro used
    exact apart skill.name (List.mem_cons_of_mem _ (List.contains_iff_mem.mp used))
      (name_mem_words skill)

/-- **What `register` does**: a skill that shares no word with any is added, and any other is
refused. -/
theorem register_cases (skill : RegisteredSkill H) (skills : SkillDict H) :
    ((∀ existing ∈ skills, existing.Apart skill) ∧
      register skill skills = (.ok (), skills ++ [skill])) ∨
    ((¬∀ existing ∈ skills, existing.Apart skill) ∧
      ∃ message, register skill skills = (.error message, skills)) := by
  by_cases apart : ∀ existing ∈ skills, existing.Apart skill
  · refine .inl ⟨apart, ?_⟩
    have free : skills.any (·.name = skill.name) = false := by
      refine Bool.eq_false_iff.mpr fun there => ?_
      obtain ⟨existing, mem, same⟩ := List.any_eq_true.mp there
      have word := name_mem_words existing
      rw [of_decide_eq_true same] at word
      exact apart existing mem skill.name word (name_mem_words skill)
    have quiet : skills.findSome? (SkillRegistry.collision skill) = none :=
      List.findSome?_eq_none_iff.mpr fun existing mem => collision_of_apart (apart existing mem)
    rw [register, if_neg (by rw [free]; exact Bool.false_ne_true), quiet, store_of_apart apart]
  · refine .inr ⟨apart, ?_⟩
    unfold register
    split
    · exact ⟨_, rfl⟩
    · rename_i free
      cases complaint : skills.findSome? (SkillRegistry.collision skill) with
      | some message => exact ⟨message, rfl⟩
      | none =>
          refine absurd (fun existing mem => ?_) apart
          refine SkillRegistry.apart_of_collision (fun same => free ?_)
            (List.findSome?_eq_none_iff.mp complaint existing mem)
          exact List.any_eq_true.mpr ⟨existing, mem, decide_eq_true same⟩

/-- A batch can be added: its skills share no words with each other or with others. -/
def Fits (batch : List (RegisteredSkill H)) (skills : SkillDict H) : Prop :=
  batch.Pairwise RegisteredSkill.Apart ∧ ∀ existing ∈ skills, ∀ skill ∈ batch, existing.Apart skill

/-- One by one, a batch is added or refused. -/
theorem registerEach_cases (batch : List (RegisteredSkill H)) (skills : SkillDict H) :
    (Fits batch skills ∧ registerEach batch skills = (.ok (), skills ++ batch)) ∨
    (¬Fits batch skills ∧ ∃ message skills', registerEach batch skills = (.error message, skills')) := by
  induction batch generalizing skills with
  | nil => exact .inl ⟨⟨.nil, by simp⟩, by rw [registerEach, List.append_nil]⟩
  | cons skill rest ih =>
      have split : Fits (skill :: rest) skills ↔
          (∀ existing ∈ skills, existing.Apart skill) ∧ Fits rest (skills ++ [skill]) := by
        simp only [Fits, List.pairwise_cons, List.mem_append, List.mem_cons, List.not_mem_nil,
          or_false]
        constructor
        · rintro ⟨⟨first, others⟩, apart⟩
          refine ⟨fun e mem => apart e mem skill (.inl rfl), others, ?_⟩
          rintro e (mem | rfl) s there
          · exact apart e mem s (.inr there)
          · exact first s there
        · rintro ⟨first, others, apart⟩
          refine ⟨⟨fun s there => apart skill (.inr rfl) s there, others⟩, ?_⟩
          rintro e mem s (rfl | there)
          · exact first e mem
          · exact apart e (.inl mem) s there
      rw [registerEach, split]
      rcases register_cases skill skills with ⟨apart, added⟩ | ⟨clash, message, refused⟩
      · rw [added]
        rcases ih (skills ++ [skill]) with ⟨fits, all⟩ | ⟨misfit, message, left, refused⟩
        · refine .inl ⟨⟨apart, fits⟩, ?_⟩
          dsimp only
          rw [all, List.append_assoc, List.singleton_append]
        · exact .inr ⟨fun ⟨_, fits⟩ => misfit fits, message, left, refused⟩
      · rw [refused]
        exact .inr ⟨fun ⟨apart, _⟩ => clash apart, message, skills, rfl⟩

/-- Storing a batch that fits adds it. -/
theorem foldl_store (fits : Fits batch skills) : batch.foldl store skills = skills ++ batch := by
  induction batch generalizing skills with
  | nil => rw [List.foldl_nil, List.append_nil]
  | cons skill rest ih =>
      obtain ⟨within, apart⟩ := fits
      obtain ⟨first, others⟩ := List.pairwise_cons.mp within
      rw [List.foldl_cons, store_of_apart fun e mem => apart e mem skill List.mem_cons_self, ih,
        List.append_assoc, List.singleton_append]
      refine ⟨others, fun e mem s there => ?_⟩
      rcases List.mem_append.mp mem with before | self
      · exact apart e before s (List.mem_cons_of_mem _ there)
      · rw [List.mem_singleton.mp self]
        exact first s there

/-- **What `register_many` does** on a registry without a clash: what its skills one by one
would do, or nothing. -/
theorem registerMany_cases (batch : List (RegisteredSkill H))
    (apart : skills.Pairwise RegisteredSkill.Apart) :
    (Fits batch skills ∧ registerMany batch skills = (.ok (), skills ++ batch)) ∨
    (¬Fits batch skills ∧ ∃ message, registerMany batch skills = (.error message, skills)) := by
  have shadow : registerEach skills [] = (.ok (), skills) := by
    rcases registerEach_cases skills [] with ⟨-, all⟩ | ⟨misfit, -⟩
    · rw [all, List.nil_append]
    · exact absurd ⟨apart, by simp⟩ misfit
  unfold registerMany
  rw [shadow]
  rcases registerEach_cases batch skills with ⟨fits, all⟩ | ⟨misfit, message, left, refused⟩
  · refine .inl ⟨fits, ?_⟩
    dsimp only
    rw [all, ← foldl_store fits]
  · refine .inr ⟨misfit, message, ?_⟩
    dsimp only
    rw [refused]

/-- Adding what fits keeps the words apart. -/
theorem pairwise_append (apart : skills.Pairwise RegisteredSkill.Apart)
    (fits : Fits batch skills) : (skills ++ batch).Pairwise RegisteredSkill.Apart :=
  List.pairwise_append.mpr ⟨apart, fits.1, fits.2⟩

/-- The words of skills that share none are all different. -/
theorem words_nodup (apart : skills.Pairwise RegisteredSkill.Apart) :
    (skills.flatMap RegisteredSkill.words).Nodup := by
  refine List.nodup_flatMap.mpr ⟨fun skill _ => ?_, apart.imp fun h w => h w⟩
  exact List.nodup_cons.mpr ⟨skill.name_notMem, skill.aliases_nodup⟩

/-- The dictionary of a registry follows the registry. -/
theorem register_registry (registry : SkillRegistry H) (skill : RegisteredSkill H) :
    match registry.register skill with
    | .ok registered => register skill registry.skills = (.ok (), registered.skills)
    | .error _ => ∃ message, register skill registry.skills = (.error message, registry.skills) := by
  rcases register_cases skill registry.skills with ⟨apart, added⟩ | ⟨clash, message, refused⟩
  · have names : ∀ existing ∈ registry.skills, existing.name ≠ skill.name := by
      intro existing mem same
      have word := name_mem_words existing
      rw [same] at word
      exact apart existing mem skill.name word (name_mem_words skill)
    have quiet : ∀ existing ∈ registry.skills, SkillRegistry.collision skill existing = none :=
      fun existing mem => collision_of_apart (apart existing mem)
    rw [SkillRegistry.register, dif_pos names, dif_pos quiet]
    exact added
  · unfold SkillRegistry.register
    split
    · rename_i registered
      split at registered
      · split at registered
        · rename_i names quiet
          exact absurd (fun existing mem =>
            SkillRegistry.apart_of_collision (names existing mem) (quiet existing mem)) clash
        · cases registered
      · cases registered
    · exact ⟨message, refused⟩

/-! ### Matching -/

/-- Two skills that share no word do not answer to one command. -/
theorem not_answers_of_apart (lower : String → String) {a b : RegisteredSkill H} {text : String}
    (apart : a.Apart b) (answers : a.answers lower text = true) : b.answers lower text = false := by
  unfold RegisteredSkill.answers at answers ⊢
  cases spoken : Text.words (lower (Text.strip text)) with
  | nil => rfl
  | cons first rest =>
      rw [spoken] at answers
      have mem : first ∈ a.words := by simpa [RegisteredSkill.words] using answers
      have other := apart first mem
      simpa [RegisteredSkill.words] using other

/-- **A command has one meaning**: the skill that answers to it, in whatever order the skills
were stored. -/
theorem deterministicMatch_eq_some_iff (lower : String → String)
    (apart : skills.Pairwise RegisteredSkill.Apart) (text : String) :
    skills.deterministicMatch lower text = some skill ↔
      skill ∈ skills ∧ skill.answers lower text = true := by
  induction skills with
  | nil => simp [deterministicMatch]
  | cons first rest ih =>
      obtain ⟨others, apart⟩ := List.pairwise_cons.mp apart
      rw [deterministicMatch, List.find?_cons]
      cases answers : first.answers lower text with
      | true =>
          have unique : ∀ other ∈ rest, other.answers lower text = false :=
            fun other mem => not_answers_of_apart lower (others other mem) answers
          constructor
          · intro found
            cases found
            exact ⟨List.mem_cons_self, answers⟩
          · rintro ⟨mem, answers'⟩
            rcases List.mem_cons.mp mem with rfl | mem
            · rfl
            · rw [unique skill mem] at answers'
              cases answers'
      | false =>
          refine (ih apart).trans ⟨fun ⟨mem, h⟩ => ⟨List.mem_cons_of_mem _ mem, h⟩, ?_⟩
          rintro ⟨mem, answers'⟩
          rcases List.mem_cons.mp mem with rfl | mem
          · rw [answers] at answers'
            cases answers'
          · exact ⟨mem, answers'⟩

/-- Registries of the same skills match alike. -/
theorem deterministicMatch_congr (lower : String → String)
    (apart : skills.Pairwise RegisteredSkill.Apart) (apart' : skills'.Pairwise RegisteredSkill.Apart)
    (same : ∀ skill, skill ∈ skills ↔ skill ∈ skills') (text : String) :
    skills.deterministicMatch lower text = skills'.deterministicMatch lower text := by
  refine Option.ext fun skill => ?_
  rw [deterministicMatch_eq_some_iff lower apart, deterministicMatch_eq_some_iff lower apart',
    same]

end SkillDict

/-! ### Sequences of calls -/

/-- A call that registers skills. -/
inductive RegistryCall (H : Type) where
  | register (skill : RegisteredSkill H)
  | registerMany (batch : List (RegisteredSkill H))
  | loadPackage (package : SkillPackage H)

section Calls

variable {H : Type} (language : LoaderLanguage)

/-- What a call does. -/
def RegistryCall.run : RegistryCall H → SkillDict H → Except String Unit × SkillDict H
  | .register skill, skills => skills.register skill
  | .registerMany batch, skills => skills.registerMany batch
  | .loadPackage package, skills => AgentOs.loadPackage language package skills

/-- The registry after calls in turn, whether they return or raise. -/
def registryAfter (calls : List (RegistryCall H)) : SkillDict H :=
  calls.foldl (fun skills call => (call.run language skills).2) []

/-- A call keeps the words of the skills apart. -/
theorem RegistryCall.run_apart (call : RegistryCall H) {skills : SkillDict H}
    (apart : skills.Pairwise RegisteredSkill.Apart) :
    (call.run language skills).2.Pairwise RegisteredSkill.Apart := by
  have many (batch : List (RegisteredSkill H)) :
      (skills.registerMany batch).2.Pairwise RegisteredSkill.Apart := by
    rcases SkillDict.registerMany_cases batch apart with ⟨fits, all⟩ | ⟨-, message, refused⟩
    · rw [all]
      exact SkillDict.pairwise_append apart fits
    · rw [refused]
      exact apart
  cases call with
  | register skill =>
      rcases SkillDict.register_cases skill skills with ⟨free, added⟩ | ⟨-, message, refused⟩
      · rw [run, added]
        exact SkillDict.pairwise_append apart
          ⟨List.pairwise_singleton _ _, fun e mem s there => List.mem_singleton.mp there ▸ free e mem⟩
      · rw [run, refused]
        exact apart
  | registerMany batch => exact many batch
  | loadPackage package =>
      rw [run, AgentOs.loadPackage]
      cases packageSkills language package with
      | error message => exact apart
      | ok loaded => exact many loaded

theorem registryAfter_apart (calls : List (RegistryCall H)) :
    (registryAfter language calls).Pairwise RegisteredSkill.Apart := by
  induction calls using List.reverseRecOn with
  | nil => exact .nil
  | append_singleton calls call ih =>
      rw [registryAfter, List.foldl_append]
      exact call.run_apart language ih

/-- **A command word has one meaning.** After any calls the words of the registered skills are
all different; a batch or a package that is refused leaves the registry, and one that is taken
does what its skills would one by one; and a command finds the same skill in every registry of
the same skills, and in every order in which skills can be registered. -/
theorem skill_registry_one_meaning (calls : List (RegistryCall H)) :
    let registry := registryAfter language calls
    (registry.flatMap RegisteredSkill.words).Nodup ∧
    (∀ batch left, (∀ message, registry.registerMany batch = (.error message, left) →
        left = registry) ∧
      (registry.registerMany batch = (.ok (), left) →
        registry.registerEach batch = (.ok (), left))) ∧
    (∀ package left, (∀ message, loadPackage language package registry = (.error message, left) →
        left = registry) ∧
      (loadPackage language package registry = (.ok (), left) →
        ∃ batch, packageSkills language package = .ok batch ∧
          registry.registerEach batch = (.ok (), left))) ∧
    (∀ calls', (∀ skill, skill ∈ registry ↔ skill ∈ registryAfter language calls') →
      ∀ text, registry.deterministicMatch language.lower text =
        (registryAfter language calls').deterministicMatch language.lower text) ∧
    ∀ batch batch' left, batch.Perm batch' → registry.registerEach batch = (.ok (), left) →
      ∃ left', registry.registerEach batch' = (.ok (), left') ∧
        ∀ text, left.deterministicMatch language.lower text =
          left'.deterministicMatch language.lower text := by
  intro registry
  have apart : registry.Pairwise RegisteredSkill.Apart := registryAfter_apart language calls
  have many (batch : List (RegisteredSkill H)) (left : SkillDict H) :
      (∀ message, registry.registerMany batch = (.error message, left) → left = registry) ∧
      (registry.registerMany batch = (.ok (), left) →
        registry.registerEach batch = (.ok (), left)) := by
    rcases SkillDict.registerMany_cases batch apart with ⟨fits, all⟩ | ⟨-, message, refused⟩
    · rw [all]
      refine ⟨fun message same => (by cases same), fun same => ?_⟩
      rcases SkillDict.registerEach_cases batch registry with ⟨-, each⟩ | ⟨misfit, -⟩
      · exact each.trans same
      · exact absurd fits misfit
    · rw [refused]
      refine ⟨fun message' same => ?_, fun same => (by cases same)⟩
      exact (Prod.mk.inj same).2.symm
  refine ⟨SkillDict.words_nodup apart, many, fun package left => ?_, fun calls' same text => ?_,
    fun batch batch' left perm each => ?_⟩
  · unfold loadPackage
    cases packageSkills language package with
    | error message =>
        refine ⟨fun message' same => (Prod.mk.inj same).2.symm, fun same => ?_⟩
        cases (Prod.mk.inj same).1
    | ok loaded =>
        exact ⟨(many loaded left).1, fun same => ⟨loaded, rfl, (many loaded left).2 same⟩⟩
  · exact SkillDict.deterministicMatch_congr language.lower apart
      (registryAfter_apart language calls') same text
  · rcases SkillDict.registerEach_cases batch registry with ⟨fits, all⟩ | ⟨-, message, l, refused⟩
    · rw [all] at each
      cases each
      have symmetric : Std.Symm (RegisteredSkill.Apart (H := H)) :=
        ⟨fun x y h w hy hx => h w hx hy⟩
      have fits' : SkillDict.Fits batch' registry :=
        ⟨(perm.pairwise_iff fun h => symmetric.symm _ _ h).mp fits.1,
          fun e mem s there => fits.2 e mem s (perm.mem_iff.mpr there)⟩
      rcases SkillDict.registerEach_cases batch' registry with ⟨-, all'⟩ | ⟨misfit, -⟩
      · refine ⟨_, all', SkillDict.deterministicMatch_congr language.lower
          (SkillDict.pairwise_append apart fits) (SkillDict.pairwise_append apart fits') ?_⟩
        intro skill
        rw [List.mem_append, List.mem_append, perm.mem_iff]
      · exact absurd fits' misfit
    · rw [refused] at each
      cases (Prod.mk.inj each).1

end Calls

end AgentOs
