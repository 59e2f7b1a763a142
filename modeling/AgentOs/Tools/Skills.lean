import AgentOs.Schemas
import Mathlib.Data.List.Pairwise

/-!
Registered skills and their registry (`skills.py`).

A skill's name and aliases are normalised when it is built, and a registry
holds skills whose names and aliases do not collide: both facts are fields, so
every registry has them. What a handler is stays open (`H`).

* `SkillRegistry.register` keeps the skills and adds one, or says why not.
* `SkillRegistry.matches_unique`: no word belongs to two skills.
* `SkillRegistry.deterministicMatch_eq_some_iff`: so the match does not depend
  on the registration order.
-/

namespace AgentOs

open AgentOs.Lib

/-- Normalised text of a name: `strip().lower()`. -/
def normalizeName (name : String) : String :=
  Text.lower (Text.strip name)

/-- A native or injected skill. -/
structure RegisteredSkill (H : Type) where
  name : String
  aliases : List String
  handler : H
  name_ne : name ≠ ""
  aliases_ne : ∀ a ∈ aliases, a ≠ ""
  name_notMem : name ∉ aliases
  aliases_nodup : aliases.Nodup

namespace RegisteredSkill

variable {H : Type}

/-- `RegisteredSkill.__post_init__`: normalise the texts, then check them. -/
def make (name : String) (aliases : List String) (handler : H) :
    Except String (RegisteredSkill H) :=
  let normalizedName := normalizeName name
  let normalizedAliases := aliases.map normalizeName
  if hname : normalizedName = "" then .error "Skill name must not be empty"
  else if hempty : ∀ a ∈ normalizedAliases, a ≠ "" then
    if hmem : normalizedName ∈ normalizedAliases then
      .error "Skill aliases must not duplicate the canonical name"
    else if hdup : normalizedAliases.Nodup then
      .ok ⟨normalizedName, normalizedAliases, handler, hname, hempty, hmem, hdup⟩
    else .error "Skill aliases must be unique"
  else .error "Skill aliases must not be empty"

/-- The words a skill answers to. -/
def words (skill : RegisteredSkill H) : List String :=
  skill.name :: skill.aliases

/-- `RegisteredSkill.matches`. -/
def matchesCommand (skill : RegisteredSkill H) (command : String) : Bool :=
  match Text.words (Text.lower (Text.strip command)) with
  | [] => false
  | firstWord :: _ => firstWord = skill.name || skill.aliases.contains firstWord

theorem matchesCommand_iff {skill : RegisteredSkill H} {command : String} :
    skill.matchesCommand command = true ↔
      ∃ w rest, Text.words (Text.lower (Text.strip command)) = w :: rest ∧ w ∈ skill.words := by
  unfold matchesCommand words
  cases Text.words (Text.lower (Text.strip command)) with
  | nil => simp
  | cons w rest => simp

end RegisteredSkill

/-- Two skills share no word. -/
def RegisteredSkill.Apart {H : Type} (a b : RegisteredSkill H) : Prop :=
  ∀ w ∈ a.words, w ∉ b.words

/-- The skills in registration order. -/
structure SkillRegistry (H : Type) where
  skills : List (RegisteredSkill H)
  apart : skills.Pairwise RegisteredSkill.Apart

namespace SkillRegistry

variable {H : Type}

def empty : SkillRegistry H := ⟨[], .nil⟩

/-- The first complaint about registering `skill` next to `existing`. -/
def collision (skill existing : RegisteredSkill H) : Option String :=
  if existing.aliases.contains skill.name then
    some ("Skill name '" ++ skill.name ++ "' is already used as an alias for '" ++
      existing.name ++ "'")
  else
    (skill.aliases.find? fun a => a = existing.name || existing.aliases.contains a).map fun a =>
      "Alias '" ++ a ++ "' already used by '" ++ existing.name ++ "'"

theorem apart_of_collision {skill existing : RegisteredSkill H} (name : existing.name ≠ skill.name)
    (h : collision skill existing = none) : RegisteredSkill.Apart existing skill := by
  unfold collision at h
  split at h
  · cases h
  · rename_i notAlias
    rw [Option.map_eq_none_iff, List.find?_eq_none] at h
    intro w hw hw'
    rcases List.mem_cons.mp hw' with rfl | walias
    · rcases List.mem_cons.mp hw with eq | other
      · exact name eq.symm
      · exact notAlias (List.contains_iff_mem.mpr other)
    · have := h w walias
      rcases List.mem_cons.mp hw with rfl | other
      · simp at this
      · simp [other] at this

/-- `SkillRegistry.register`. -/
def register (registry : SkillRegistry H) (skill : RegisteredSkill H) :
    Except String (SkillRegistry H) :=
  if hname : ∀ existing ∈ registry.skills, existing.name ≠ skill.name then
    if hfree : ∀ existing ∈ registry.skills, collision skill existing = none then
      .ok ⟨registry.skills ++ [skill], List.pairwise_append.mpr ⟨registry.apart,
        List.pairwise_singleton _ _, fun a ha b hb => by
          rw [List.mem_singleton.mp hb]
          exact apart_of_collision (hname a ha) (hfree a ha)⟩⟩
    else .error ((registry.skills.findSome? (collision skill)).getD "")
  else .error ("Skill canonical name already registered: " ++ skill.name)

/-- `SkillRegistry.get`. -/
def get (registry : SkillRegistry H) (name : String) : Option (RegisteredSkill H) :=
  registry.skills.find? fun s => s.name = normalizeName name

/-- `SkillRegistry.names`. -/
def names (registry : SkillRegistry H) : List String :=
  registry.skills.map (·.name)

/-- `SkillRegistry.deterministic_match`. -/
def deterministicMatch (registry : SkillRegistry H) (text : String) :
    Option (RegisteredSkill H) :=
  registry.skills.find? (·.matchesCommand text)

/-- No word belongs to two skills of a registry. -/
theorem matches_unique (registry : SkillRegistry H) {a b : RegisteredSkill H} {text : String}
    (ha : a ∈ registry.skills) (hb : b ∈ registry.skills) (ma : a.matchesCommand text = true)
    (mb : b.matchesCommand text = true) : a = b := by
  obtain ⟨w, rest, hw, wa⟩ := RegisteredSkill.matchesCommand_iff.mp ma
  obtain ⟨w', rest', hw', wb⟩ := RegisteredSkill.matchesCommand_iff.mp mb
  rw [hw] at hw'
  cases hw'
  by_contra hne
  have symmetric : Std.Symm (RegisteredSkill.Apart (H := H)) :=
    ⟨fun x y h w hy hx => h w hx hy⟩
  exact registry.apart.forall ha hb hne w wa wb

/-- The match is any skill of the registry that answers to the task: there is no
other. -/
theorem deterministicMatch_eq_some_iff (registry : SkillRegistry H) {text : String}
    {skill : RegisteredSkill H} :
    registry.deterministicMatch text = some skill ↔
      skill ∈ registry.skills ∧ skill.matchesCommand text = true := by
  unfold deterministicMatch
  constructor
  · intro h
    have answers := List.find?_some h
    exact ⟨List.mem_of_find?_eq_some h, answers⟩
  · rintro ⟨mem, answers⟩
    cases found : registry.skills.find? (·.matchesCommand text) with
    | none => exact absurd answers (List.find?_eq_none.mp found skill mem)
    | some other =>
        have answers' := List.find?_some found
        rw [registry.matches_unique (List.mem_of_find?_eq_some found) mem answers' answers]

end SkillRegistry

end AgentOs
