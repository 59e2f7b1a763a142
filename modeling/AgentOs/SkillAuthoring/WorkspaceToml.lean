import AgentOs.Lib.Json
import AgentOs.Lib.Lines

/-!
The skills list of `workspace.toml` (`skill_authoring.py`).

A skill's path is added by editing the text: the list is found by its key at the
start of a line, its end by counting brackets outside quotes, and the list is
written anew in its place. The TOML reader is a parameter: `loads` gives the
top-level `skills` of a text, where the text is TOML and where that is a list of
strings.
-/

namespace AgentOs

open AgentOs.Lib

/-- `tomllib.loads(text).get("skills")`: `none` where the text is not TOML, and
`some none` where this is not a list of strings. -/
abbrev TomlSkills := String → Option (Option (List String))

/-- `splitlines(keepends=True)`, after the characters of the line so far. -/
def splitLines (line : List Char) : List Char → List (List Char)
  | [] => if line = [] then [] else [line]
  | '\r' :: '\n' :: cs => (line ++ ['\r', '\n']) :: splitLines [] cs
  | c :: cs =>
      if isLineBreak c then (line ++ [c]) :: splitLines [] cs else splitLines (line ++ [c]) cs

/-- `_lines_with_offsets`, from an offset. -/
def linesWithOffsets (offset : ℕ) : List (List Char) → List (ℕ × List Char)
  | [] => []
  | line :: lines => (offset, line) :: linesWithOffsets (offset + line.length) lines

/-- The line assigns `skills`. -/
def assignsSkills (line : List Char) : Bool :=
  let stripped := line.dropWhile Text.isSpace
  "skills".toList.isPrefixOf stripped &&
    ['='].isPrefixOf ((stripped.drop "skills".toList.length).dropWhile Text.isSpace)

/-- `_top_level_skills_list_start`. -/
def topLevelSkillsListStart (content : List Char) : Except String ℕ :=
  match (linesWithOffsets 0 (splitLines [] content)).find? fun line => assignsSkills line.2 with
  | some (start, _) => .ok start
  | none => .error "workspace.toml has no writable top-level skills list"

/-- The loop of `_matching_list_end`, from the character at `index` on. -/
def scanListEnd (depth : ℕ) (quote : Option Char) (escaped : Bool) (index : ℕ) :
    List Char → Option ℕ
  | [] => none
  | c :: cs =>
      match quote with
      | some q =>
          if escaped then scanListEnd depth quote false (index + 1) cs
          else if c = '\\' then scanListEnd depth quote true (index + 1) cs
          else if c = q then scanListEnd depth none false (index + 1) cs
          else scanListEnd depth quote false (index + 1) cs
      | none =>
          if c = '\'' ∨ c = '"' then scanListEnd depth (some c) escaped (index + 1) cs
          else if c = '[' then scanListEnd (depth + 1) none escaped (index + 1) cs
          else if c = ']' then
            if depth - 1 = 0 then some (index + 1)
            else scanListEnd (depth - 1) none escaped (index + 1) cs
          else scanListEnd depth none escaped (index + 1) cs

/-- `_matching_list_end`. -/
def matchingListEnd (content : List Char) (start : ℕ) : Except String ℕ :=
  let before := (content.drop start).takeWhile (· ≠ '[')
  match (content.drop start).drop before.length with
  | [] => .error "workspace.toml skills list is malformed"
  | fromBracket =>
      match scanListEnd 0 none false (start + before.length) fromBracket with
      | some stop => .ok stop
      | none => .error "workspace.toml skills list is malformed"

/-- The list, written anew. -/
def renderSkills (skills : List String) : String :=
  "skills = [\n" ++ String.join (skills.map fun item => "  " ++ Json.quote true item ++ ",\n") ++ "]"

/-- `add_skill_path_to_workspace_toml`. -/
def addSkillPathToWorkspaceToml (loads : TomlSkills) (original path : String) :
    Except String String :=
  match loads original with
  | none => .error "TOMLDecodeError"
  | some none => .error "workspace.toml has no writable top-level skills list"
  | some (some skills) =>
      if path ∈ skills then .error "Skill path is already configured"
      else do
        let start ← topLevelSkillsListStart original.toList
        let stop ← matchingListEnd original.toList start
        let updated := String.ofList (original.toList.take start) ++
          renderSkills (skills ++ [path]) ++ String.ofList (original.toList.drop stop)
        match loads updated with
        | none => .error "Could not write a valid workspace skills list"
        | some _ => .ok updated

/-- The edit of a text does what it says: the path joins the list it reads back. -/
def EditAppends (loads : TomlSkills) (original path : String) : Prop :=
  ∀ updated, addSkillPathToWorkspaceToml loads original path = .ok updated →
    ∃ skills, loads original = some (some skills) ∧ loads updated = some (some (skills ++ [path]))

/-- The top-level list of a text contains the path. -/
def Listed (loads : TomlSkills) (text path : String) : Prop :=
  ∃ skills, loads text = some (some skills) ∧ path ∈ skills

end AgentOs
