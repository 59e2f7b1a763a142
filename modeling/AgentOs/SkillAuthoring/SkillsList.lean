import AgentOs.Lib.Toml.JsonTexts
import AgentOs.SkillAuthoring.WorkspaceToml

/-!
The edit of `workspace.toml`, against the TOML reader.

The edit finds the skills list by a line that begins with its key and by counting brackets
outside quotes. Neither knows TOML: such a line also stands in a text of several lines or in
a table, and a comment or a literal string may hold an odd quote. `skills_edit_exact` says
that the edit changes nothing but the list where both meet the statement that the reader
sees.
-/

namespace AgentOs

open AgentOs.Lib

/-- The `skills` of a text, for the TOML reader. -/
def tomlSkills : TomlSkills := fun text =>
  (Toml.loads text).map fun doc => (doc.lookup "skills").bind Toml.Value.strings?

/-- The texts of the `SkillAuthoringError`s of the edit. -/
def skillsListErrors : List String :=
  ["workspace.toml has no writable top-level skills list", "Skill path is already configured",
    "workspace.toml skills list is malformed", "Could not write a valid workspace skills list"]

/-- A list of strings. -/
def textsValue (texts : List String) : Toml.Value := .array (texts.map .str)

/-- The edit raises, or appends the path to the skills list and leaves the rest. -/
def EditsOnlySkills (original path : String) (doc : Toml.Dict) (skills : List String) : Prop :=
  match addSkillPathToWorkspaceToml tomlSkills original path with
  | .error e => e ∈ skillsListErrors
  | .ok updated =>
      Toml.loads updated = some (doc.replace "skills" (textsValue (skills ++ [path])))

/-- From `start` to `stop` the reader sees the statement that assigns an array to the
top-level `skills`. -/
def SkillsStatementAt (content : List Char) (start stop : ℕ) : Prop :=
  ∃ items out out', Toml.Assigns (content.take start) ((content.take stop).drop start) "skills"
    (.array items) out out'

/-- Where the line and the end of the list are found, they are those of the statement. -/
def FindsSkillsStatement (content : List Char) : Prop :=
  ∀ start stop, topLevelSkillsListStart content = .ok start →
    matchingListEnd content start = .ok stop → SkillsStatementAt content start stop

/-! ### What the edit finds -/

/-- The scan stops behind a closing bracket. -/
theorem scanListEnd_spec {depth : ℕ} {quote : Option Char} {escaped : Bool} {index stop : ℕ}
    {cs : List Char} (found : scanListEnd depth quote escaped index cs = some stop) :
    ∃ inner rest, cs = inner ++ ']' :: rest ∧ stop = index + inner.length + 1 := by
  induction cs generalizing depth quote escaped index with
  | nil => cases found
  | cons c cs ih =>
      have later : ∀ {depth quote escaped},
          scanListEnd depth quote escaped (index + 1) cs = some stop →
            ∃ inner rest, c :: cs = inner ++ ']' :: rest ∧ stop = index + inner.length + 1 := by
        intro depth quote escaped found
        obtain ⟨inner, rest, split, place⟩ := ih found
        refine ⟨c :: inner, rest, by rw [split]; rfl, ?_⟩
        rw [place, List.length_cons]
        omega
      unfold scanListEnd at found
      split at found
      · split_ifs at found
        · exact later found
        · exact later found
        · exact later found
        · exact later found
      · split_ifs at found with opens nests closes last
        · exact later found
        · exact later found
        · cases found
          exact ⟨[], cs, by rw [closes]; rfl, rfl⟩
        · exact later found
        · exact later found

/-- The list that is found ends with a closing bracket. -/
theorem matchingListEnd_spec {content : List Char} {start stop : ℕ}
    (found : matchingListEnd content start = .ok stop) :
    start ≤ stop ∧ ∃ inner, (content.take stop).drop start = inner ++ [']'] := by
  unfold matchingListEnd at found
  generalize opening : (content.drop start).takeWhile (· ≠ '[') = before at found
  have parts : before ++ (content.drop start).drop before.length = content.drop start := by
    rw [← opening]
    exact List.prefix_iff_eq_append.mp (List.takeWhile_prefix _)
  dsimp only at found
  split at found
  · cases found
  · split at found
    · rename_i scanned
      cases found
      obtain ⟨inner, rest, split, place⟩ := scanListEnd_spec scanned
      refine ⟨by omega, before ++ inner, ?_⟩
      rw [split] at parts
      have whole : content.drop start = before ++ inner ++ [']'] ++ rest := by
        rw [← parts]
        simp
      rw [List.drop_take, whole]
      refine List.take_left' ?_
      simp only [List.length_append, List.length_singleton]
      omega
    · cases found

theorem topLevelSkillsListStart_error {content : List Char} {e : String}
    (raised : topLevelSkillsListStart content = .error e) : e ∈ skillsListErrors := by
  unfold topLevelSkillsListStart at raised
  split at raised
  · cases raised
  · cases raised
    exact List.mem_cons_self

theorem matchingListEnd_error {content : List Char} {start : ℕ} {e : String}
    (raised : matchingListEnd content start = .error e) : e ∈ skillsListErrors := by
  have malformed : "workspace.toml skills list is malformed" ∈ skillsListErrors := by
    simp [skillsListErrors]
  unfold matchingListEnd at raised
  dsimp only at raised
  split at raised
  · cases raised
    exact malformed
  · split at raised
    · cases raised
    · cases raised
      exact malformed

/-- The text is what stands before the list's line, the statement and what follows it. -/
theorem content_parts (content : List Char) {start stop : ℕ} (ordered : start ≤ stop) :
    content = content.take start ++ (content.take stop).drop start ++ content.drop stop := by
  have first : content.take start = (content.take stop).take start := by
    rw [List.take_take, Nat.min_eq_left ordered]
  rw [first, List.take_append_drop, List.take_append_drop]

/-! ### What the edit writes -/

theorem renderSkills_toList (texts : List String) :
    (renderSkills texts).toList = "skills = [\n".toList ++
      texts.flatMap (fun item => ("  " ++ Json.quote true item ++ ",\n").toList) ++ [']'] := by
  unfold renderSkills
  rw [String.toList_append, String.toList_append, String.toList_join, List.flatMap_map]
  rfl

theorem ret_notMem_renderSkills (texts : List String) : '\r' ∉ (renderSkills texts).toList := by
  rw [renderSkills_toList]
  intro mem
  rcases List.mem_append.mp mem with mem | last
  · rcases List.mem_append.mp mem with first | mem
    · exact absurd first (by decide)
    · obtain ⟨item, _, mem⟩ := List.mem_flatMap.mp mem
      simp only [Json.quote, String.toList_append, String.toList_ofList, List.mem_append,
        List.mem_flatMap] at mem
      rcases mem with (blank | (opening | ⟨c, _, escaped⟩) | closing) | comma
      · exact absurd blank (by decide)
      · exact absurd opening (by decide)
      · exact Toml.ret_notMem_escapeChar c escaped
      · exact absurd closing (by decide)
      · exact absurd comma (by decide)
  · exact absurd last (by decide)

/-- The list that is written is read as the statement of its texts, or is refused. -/
theorem read_renderSkills {out out' : Toml.Output} {texts : List String}
    (assigns : out.apply (.keyValue ["skills"] (textsValue texts)) = some out') :
    let rendered := (renderSkills texts).toList
    Toml.read ⟨.lineStart, out⟩ rendered = none ∨
      Toml.read ⟨.lineStart, out⟩ rendered = some ⟨.afterStatement, out'⟩ := by
  intro rendered
  have begins : Toml.read ⟨.lineStart, out⟩ "skills = [\n".toList =
      some ⟨.value ["skills"] ⟨.item, [.array []]⟩, out⟩ := by
    rfl
  have closes : Toml.read ⟨.value ["skills"] ⟨.item, [.array (texts.map .str)]⟩, out⟩ [']'] =
      (out.apply (.keyValue ["skills"] (textsValue texts))).map fun out => ⟨.afterStatement, out⟩ := by
    rw [Toml.read_cons]
    exact Option.bind_fun_some _
  have whole : rendered = _ := renderSkills_toList texts
  rw [whole, Toml.read_append, Toml.read_append, begins, Option.bind_some]
  rcases Toml.read_items ["skills"] [] out texts with refused | taken
  · rw [refused]
    exact .inl rfl
  · refine .inr ?_
    rw [taken, Option.bind_some, List.nil_append, closes, assigns]
    rfl

/-! ### The edit -/

/-- A text that is written in the place of the statement reads as the same document, with the
path appended, if it reads as one. -/
theorem loads_edited {content : List Char} {start stop : ℕ} {doc : Toml.Dict}
    (statement : SkillsStatementAt content start stop)
    (found : matchingListEnd content start = .ok stop)
    (valid : Toml.loads (String.ofList content) = some doc) (texts : List String) :
    let updated := String.ofList (content.take start) ++ renderSkills texts ++
      String.ofList (content.drop stop)
    Toml.loads updated = none ∨
      Toml.loads updated = some (doc.replace "skills" (textsValue texts)) := by
  intro updated
  obtain ⟨items, out, out', assigns⟩ := statement
  obtain ⟨ordered, inner, last⟩ := matchingListEnd_spec found
  have cut := Toml.getLast?_ne_ret assigns.starts
  have ends : ((content.take stop).drop start).getLast? ≠ some '\r' := by
    rw [last, List.getLast?_concat]
    decide
  have ends' : (renderSkills texts).toList.getLast? ≠ some '\r' := by
    rw [renderSkills_toList, List.getLast?_concat]
    decide
  obtain ⟨_, other⟩ :=
    Toml.Output.keyValue_root (textsValue texts) assigns.root rfl rfl assigns.assigns
  have plain := Toml.normalizeNewlines_of_notMem (ret_notMem_renderSkills texts)
  have parts : updated = String.ofList (content.take start ++
      (renderSkills texts).toList ++ content.drop stop) := by
    rw [String.ofList_append, String.ofList_append, String.ofList_toList]
  rw [parts]
  rcases read_renderSkills other with refused | taken
  · refine .inl ?_
    unfold Toml.loads
    rw [String.toList_ofList, List.append_assoc, Toml.normalizeNewlines_append (.inl cut),
      Toml.normalizeNewlines_append (.inl ends'), List.append_assoc, List.append_assoc,
      Toml.read_append, assigns.starts, Option.bind_some, Toml.read_append, plain, refused]
    rfl
  · refine .inr ?_
    have assigns' : Toml.Assigns (content.take start) (renderSkills texts).toList
        "skills" (textsValue texts) out _ :=
      ⟨assigns.starts, assigns.root, other, by rw [plain]; exact taken⟩
    rw [Toml.loads_replace assigns assigns' rfl rfl cut ends ends',
      ← content_parts content ordered, valid]
    rfl

/-- Where the edit finds the statement of the list, it raises, or appends the path to the list
and leaves every other key, table and value as it was. -/
theorem skills_edit_exact (original path : String) (doc : Toml.Dict) (skills : List String)
    (valid : Toml.loads original = some doc)
    (listed : (doc.lookup "skills").bind Toml.Value.strings? = some skills)
    (fresh : path ∉ skills) (finds : FindsSkillsStatement original.toList) :
    EditsOnlySkills original path doc skills := by
  have before : tomlSkills original = some (some skills) := by
    rw [tomlSkills, valid, Option.map_some, listed]
  unfold EditsOnlySkills addSkillPathToWorkspaceToml
  rw [before]
  simp only [if_neg fresh, bind, Except.bind]
  cases line : topLevelSkillsListStart original.toList with
  | error e =>
      exact topLevelSkillsListStart_error line
  | ok start =>
      dsimp only
      cases bracket : matchingListEnd original.toList start with
      | error e =>
          exact matchingListEnd_error bracket
      | ok stop =>
          have statement := finds start stop line bracket
          have valid' : Toml.loads (String.ofList original.toList) = some doc := by
            rw [String.ofList_toList, valid]
          rcases loads_edited statement bracket valid' (skills ++ [path]) with refused | taken
          · simp only [tomlSkills, refused, Option.map_none, skillsListErrors, List.mem_cons,
              true_or, or_true]
          · simp only [tomlSkills, taken, Option.map_some]

/-- A list and a setting behind it. -/
def plainSettings : String := "skills = [\"a\"]\nname = 1\n"

theorem plain_settings_edit :
    EditsOnlySkills plainSettings "b" [("skills", textsValue ["a"]), ("name", .scalar "1")]
      ["a"] := by
  refine skills_edit_exact plainSettings "b" _ _ rfl rfl (by decide) ?_
  intro start stop line bracket
  have first : topLevelSkillsListStart plainSettings.toList = .ok 0 := by rfl
  rw [first] at line
  cases line
  have last : matchingListEnd plainSettings.toList 0 = .ok 14 := by rfl
  rw [last] at bracket
  cases bracket
  exact ⟨[.str "a"], {}, _, rfl, rfl, rfl, rfl⟩

/-- A list with a comment that holds an apostrophe, and a setting behind it. -/
def quotedComment : String := "skills = [ # it's\n  \"a\",\n]\nname = \"x\"\n# that's all]\n"

/-- The apostrophe opens a quote for the scan: the setting is lost. -/
theorem quoted_comment_loses_setting :
    ¬ ∀ original path doc skills, Toml.loads original = some doc →
      (doc.lookup "skills").bind Toml.Value.strings? = some skills → path ∉ skills →
        EditsOnlySkills original path doc skills := by
  intro exact
  let doc : Toml.Dict := [("skills", textsValue ["a"]), ("name", .str "x")]
  have valid : Toml.loads quotedComment = some doc := by rfl
  have edited : addSkillPathToWorkspaceToml tomlSkills quotedComment "p" =
      .ok "skills = [\n  \"a\",\n  \"p\",\n]\n" := by decide +kernel
  have only := exact quotedComment "p" doc ["a"] valid rfl (by decide)
  unfold EditsOnlySkills at only
  rw [edited] at only
  have lost : (Toml.loads "skills = [\n  \"a\",\n  \"p\",\n]\n").map List.length = some 1 := by
    decide +kernel
  rw [only] at lost
  cases lost

end AgentOs
