import AgentOs.Graph.Conversation
import AgentOs.Lib.RegexGroups
import AgentOs.Lib.Transaction
import AgentOs.Stores.MigrationRunner
import AgentOs.Validation

/-!
The executor's check of its own report (`nodes/executor.py`).

Each acceptance criterion of a plan becomes a rule: a written check (`contains: …`) or a phrase that
names a file is deterministic, any other criterion is put to a model. `self_check_exact` says when a
criterion counts as met, over every run of the agent graph.
-/

namespace AgentOs

open AgentOs.Lib

/-! ### Rules of criteria -/

/-- The checks of `_EXPLICIT_CHECK`. -/
def explicitChecks : List String := ["file_exists", "regex", "contains", "verify_cmd"]

/-- `.` -/
def isDot (c : Char) : Bool := c != '\n'

/-- The end of a text that is not empty, and does not end in a line break. -/
def endOfText : Regex := .boundary fun _ => true

/-- `_EXPLICIT_CHECK`, for one of the checks. The groups are the check and its parameter. -/
def explicitRegex (check : String) : Regex :=
  .seq (.group (.literal ignoreCase check.toList))
    (.seq (.optional (.many Text.isSpace))
      (.seq (.one (· == ':'))
        (.seq (.optional (.many Text.isSpace)) (.seq (.group (.many isDot)) endOfText))))

/-- A letter of `_FILE_EXISTS` under `re.IGNORECASE`. -/
def ignoreLetterCase (pattern c : Char) : Bool :=
  ignoreCase pattern c || (pattern == 'ệ' && c == 'Ệ') || (pattern == 'ồ' && c == 'Ồ') ||
    (pattern == 'ạ' && c == 'Ạ')

/-- A quote around a path. -/
def isPathQuote (c : Char) : Bool := c == '\u0060' || c == '"' || c == '\''

variable (runtime : ValidationRuntime)

/-- A character of a path that is named. -/
def isNamedPathChar (c : Char) : Bool :=
  runtime.words.isWord c || c == '.' || c == '/' || c == '-'

/-- `_FILE_EXISTS`, for one of its words, phrases and ends: which of them match makes no difference to
the path, which ends where a quote or white space begins. -/
def fileExistsRegex (word phrase : String) (ending : Regex) : Regex :=
  .seq (.literal ignoreLetterCase word.toList)
    (.seq (.many Text.isSpace)
      (.seq (.optional (.one isPathQuote))
        (.seq (.group (.many (isNamedPathChar runtime)))
          (.seq (.optional (.one isPathQuote))
            (.seq (.many Text.isSpace)
              (.seq (.literal ignoreLetterCase phrase.toList) ending))))))

/-- `_FILE_EXISTS` -/
def fileExistsRegexes : List Regex := do
  let word ← ["file", "tệp"]
  let phrase ← ["exists", "is present", "tồn tại"]
  let ending ← [.one fun c => c == '.' || c == '!' || c == '?', .one Text.isSpace, endOfText]
  return fileExistsRegex runtime word phrase ending

/-- The check that is written in a criterion, and its parameter. -/
def explicitCheck (normalized : String) : Option (String × String) :=
  match explicitChecks.findSome? fun check => (explicitRegex check).matchStart normalized.toList with
  | some ⟨_, [check, param]⟩ =>
      some (.ofList (runtime.cases.lower check), Text.strip (.ofList param))
  | _ => none

/-- The file that a criterion says to be there. -/
def namedFile (normalized : String) : Option String :=
  match Regex.find (fileExistsRegexes runtime) normalized.toList with
  | some ⟨_, path :: _⟩ => some (.ofList path)
  | _ => none

/-- `_validation_rule_for_criterion` -/
def validationRuleForCriterion (index : ℕ) (criterion : String) : ValidationRule :=
  let normalized := Text.strip criterion
  let rule (kind : ValidationMethod) : ValidationRule :=
    { id := "criterion-" ++ toString index, description := normalized, kind }
  match explicitCheck runtime normalized with
  | some (check, param) => { rule .deterministic with check := some check, param := some param }
  | none =>
      match namedFile runtime normalized with
      | some path =>
          { rule .deterministic with check := some "file_exists", param := some path }
      | none => rule .llm

/-- The criteria that are not blank, with their numbers. -/
def numberedCriteria (plan : PlanArtifact) : List (String × ℕ) :=
  (plan.acceptanceCriteria.zipIdx 1).filter fun criterion => !Text.isBlank criterion.1

/-- The rules of a plan. -/
def validationRules (plan : PlanArtifact) : List ValidationRule :=
  (numberedCriteria plan).map fun criterion => validationRuleForCriterion runtime criterion.2 criterion.1

/-! ### Evidence of a report -/

/-- `getattr(report, "verify_output", "")` -/
def ExecutionResult.verifyOutput (report : ExecutionResult) : String :=
  (report.coding.map CodingOutput.verifyOutput).getD ""

/-- `getattr(report, "diff", "")` -/
def ExecutionResult.diff (report : ExecutionResult) : String :=
  (report.coding.map CodingOutput.diff).getD ""

/-- `_VERIFY_EXIT_CODE`, for one of its words. -/
def exitCodeRegex (word : Regex) : Regex :=
  .seq (.boundary runtime.words.isWord)
    (.seq word
      (.seq (.optional (.many Text.isSpace))
        (.seq (.one fun c => c == ':' || c == '=')
          (.seq (.optional (.many Text.isSpace))
            (.seq (.group (.seq (.optional (.one (· == '-')))
                (.many fun c => (runtime.decimalDigit c).isSome)))
              (.boundary runtime.words.isWord))))))

/-- `_VERIFY_EXIT_CODE` -/
def verifyExitCode : List Regex :=
  [exitCodeRegex runtime (.seq (.literal ignoreCase "exit".toList)
      (.seq (.optional (.one fun c => c == '_' || c == ' ')) (.literal ignoreCase "code".toList))),
    exitCodeRegex runtime (.literal ignoreCase "returncode".toList)]

/-- `int` of such a number. -/
def readExitCode (text : List Char) : Except String ℤ :=
  let digits := text.filterMap runtime.decimalDigit
  if 4300 < digits.length then
    .error ("Exceeds the limit (4300 digits) for integer string conversion: value has " ++
      toString digits.length ++ " digits; use sys.set_int_max_str_digits() to increase the limit")
  else
    let value : ℤ := digits.foldl (fun n digit => 10 * n + digit) 0
    .ok (if text.head? = some '-' then -value else value)

/-- The exit code that a text names first. -/
def exitCodeIn (text : String) : Option (Except String ℤ) :=
  match Regex.find (verifyExitCode runtime) text.toList with
  | some ⟨_, number :: _⟩ => some (readExitCode runtime number)
  | _ => none

/-- `_execution_evidence` -/
def executionEvidence (plan : PlanArtifact) (report : ExecutionResult) : Except String Dict := do
  let context := [("verify_output", Json.str report.verifyOutput), ("diff", .str report.diff),
    ("artifacts", texts report.artifacts)]
  match plan.coding with
  | none => return context
  | some coding =>
      match exitCodeIn runtime report.verifyOutput with
      | none => return context
      | some exitCode =>
          return context ++ [("verify_commands", .obj [(coding.verifyCmd,
            .obj [("exit_code", .num (toString (← exitCode))),
              ("output", .str report.verifyOutput)])])]

/-! ### The check -/

/-- A model, where one can be built. -/
abbrev JudgeModel := Option ((system user : String) → ModelAnswer)

/-- The self-check of a report. -/
def selfCheckOf (model : JudgeModel) (plan : PlanArtifact) (report : ExecutionResult) :
    Except String Dict := do
  let rules := validationRules runtime plan
  let context ← executionEvidence runtime plan report
  let judge := if rules.any (·.kind = .llm) then model.map (buildLlmJudge runtime) else none
  return summarize (runValidation runtime rules context judge)

/-! ### When a criterion is met -/

/-- What an execution left behind. -/
def ExecutionResult.evidence (report : ExecutionResult) : List String :=
  report.verifyOutput :: report.diff :: report.artifacts

/-- A model's answer says that a criterion is met. -/
def SaysPass (content : String) : Prop :=
  ∃ line rest, Text.strippedLines content.toList = line :: rest ∧
    beginsWith runtime "PASS" (runtime.upper (.ofList line)) = true

/-- The evidence supports a rule. -/
inductive Supported (model : JudgeModel) (plan : PlanArtifact) (report : ExecutionResult)
    (rule : ValidationRule) : Prop where
  | contains {text part : String} : rule.kind = .deterministic → rule.check = some "contains" →
      rule.param = some text → part ∈ report.evidence → Occurs text part →
      Supported model plan report rule
  | file_exists {path : String} : rule.kind = .deterministic → rule.check = some "file_exists" →
      rule.param = some path → path ∈ report.artifacts ∨ Occurs path report.diff →
      Supported model plan report rule
  | regex {pattern : String} : rule.kind = .deterministic → rule.check = some "regex" →
      rule.param = some pattern →
      runtime.search pattern (Text.join "\n" (report.evidence.filter (· ≠ ""))) = .ok true →
      Supported model plan report rule
  | verify_cmd {coding : CodingPart} : rule.kind = .deterministic → rule.check = some "verify_cmd" →
      plan.coding = some coding → rule.param = some coding.verifyCmd →
      exitCodeIn runtime report.verifyOutput = some (.ok 0) → Supported model plan report rule
  | judged {answer : (system user : String) → ModelAnswer} {evidence : Dict} {content : String} :
      rule.kind = .llm → model = some answer →
      evidence = [("verify_output", .str report.verifyOutput), ("diff", .str report.diff),
        ("artifacts", texts report.artifacts)] →
      answer judgeSystemPrompt (judgePrompt rule evidence) = .text content →
      SaysPass runtime content → Supported model plan report rule

/-! ### Written checks -/

section Written

variable {runtime : ValidationRuntime} {check text name tail rest : List Char}
  {groups : List (List Char)}

/-- A check and what is behind its colon, as they stand in a text. -/
structure WrittenAs (check text name tail : List Char) : Prop where
  spelled : Regex.Spelled ignoreCase check name
  read : ∃ gap lead, (∀ c ∈ gap, Text.isSpace c = true) ∧ (∀ c ∈ lead, Text.isSpace c = true) ∧
    text = name ++ (gap ++ ':' :: (lead ++ tail))
  some : tail ≠ []
  line : ∀ c ∈ tail, isDot c = true

theorem endOfText_takes {left : List Char} : endOfText.Takes left text rest groups ↔
    text = [] ∧ groups = [] ∧ ¬ (left = [] ↔ rest = []) := by
  unfold endOfText
  rw [Regex.takes_boundary]
  cases left <;> cases rest <;> simp

theorem explicit_takes {word : String} : (explicitRegex word).Takes [] text rest groups ↔
    rest = [] ∧ ∃ name tail, groups = [name, tail] ∧ WrittenAs word.toList text name tail := by
  unfold explicitRegex
  simp only [Regex.takes_seq, Regex.takes_group, Regex.takes_literal, Regex.takes_star,
    Regex.takes_one, Regex.takes_many, endOfText_takes]
  constructor
  · rintro ⟨name, _, _, _, rfl, rfl, ⟨_, rfl, spelled, rfl⟩, gap, _, _, _, rfl, rfl, ⟨blank, rfl⟩,
      _, _, _, _, rfl, rfl, ⟨c, rfl, colon, rfl⟩, lead, _, _, _, rfl, rfl, ⟨blank', rfl⟩,
      tail, _, _, _, rfl, rfl, ⟨_, rfl, some, line, rfl⟩, rfl, rfl, apart⟩
    have last : rest = [] := by
      by_contra more
      refine apart (iff_of_false ?_ more)
      exact fun none => some (List.reverse_eq_nil_iff.mp (List.append_eq_nil_iff.mp none).1)
    refine ⟨last, name, tail, rfl, spelled, ⟨gap, lead, blank, blank', ?_⟩, some, line⟩
    rw [eq_of_beq colon, List.append_nil]
    rfl
  · rintro ⟨rfl, name, tail, rfl, spelled, ⟨gap, lead, blank, blank', rfl⟩, some, line⟩
    refine ⟨name, _, [name], [tail], rfl, rfl, ⟨_, rfl, spelled, rfl⟩, gap, _, [], _, rfl, rfl,
      ⟨blank, rfl⟩, [':'], _, [], _, rfl, rfl, ⟨_, rfl, rfl, rfl⟩, lead, _, [], _, rfl, rfl,
      ⟨blank', rfl⟩, tail, [], [tail], [], (List.append_nil _).symm, rfl, ⟨_, rfl, some, line, rfl⟩,
      rfl, rfl, ?_⟩
    simp [some]

theorem explicit_first {word : String} (known : word ∈ explicitChecks) :
    ∃ p rest, p ∈ ['f', 'r', 'c', 'v'] ∧ word.toList = p :: rest := by
  simp only [explicitChecks, List.mem_cons, List.not_mem_nil, or_false] at known
  rcases known with rfl | rfl | rfl | rfl
  · exact ⟨'f', "ile_exists".toList, by simp, by simp⟩
  · exact ⟨'r', "egex".toList, by simp, by simp⟩
  · exact ⟨'c', "ontains".toList, by simp, by simp⟩
  · exact ⟨'v', "erify_cmd".toList, by simp, by simp⟩

/-- The first letter of a check says which one it is. -/
theorem explicit_head {word : String} (known : word ∈ explicitChecks)
    (spelled : Regex.Spelled ignoreCase word.toList name) :
    ∃ c rest, name = c :: rest ∧ word.toList.head? = some c.toLower := by
  have alike : ∀ {p c : Char}, p ∈ ['f', 'r', 'c', 'v'] → ignoreCase p c = true → c.toLower = p := by
    intro p c mem same
    simp only [List.mem_cons, List.not_mem_nil, or_false] at mem
    rcases mem with rfl | rfl | rfl | rfl <;> simpa [ignoreCase] using same
  obtain ⟨p, rest, letter, text⟩ := explicit_first known
  rw [text] at spelled ⊢
  cases spelled with
  | @cons _ c _ name' same _ =>
      exact ⟨c, name', rfl, congrArg some (alike letter same).symm⟩

theorem explicit_inj {word word' : String} (known : word ∈ explicitChecks)
    (known' : word' ∈ explicitChecks) (heads : word.toList.head? = word'.toList.head?) :
    word = word' := by
  simp only [explicitChecks, List.mem_cons, List.not_mem_nil, or_false] at known known'
  rcases known with rfl | rfl | rfl | rfl <;> rcases known' with rfl | rfl | rfl | rfl <;>
    simp at heads ⊢

/-- A check is written in one way. -/
theorem WrittenAs.unique {word word' : String} {name' tail' : List Char}
    (known : word ∈ explicitChecks) (known' : word' ∈ explicitChecks)
    (written : WrittenAs word.toList text name tail)
    (written' : WrittenAs word'.toList text name' tail') :
    word = word' ∧ name = name' ∧ Text.trim tail = Text.trim tail' := by
  obtain ⟨gap, lead, blank, blank₂, read⟩ := written.read
  obtain ⟨gap', lead', blank', blank₂', read'⟩ := written'.read
  obtain ⟨c, front, starts, head⟩ := explicit_head known written.spelled
  obtain ⟨d, front', starts', head'⟩ := explicit_head known' written'.spelled
  have letter : c = d := by
    rw [read, starts, starts'] at read'
    injection read'
  have same : word = word' := explicit_inj known known' (by rw [head, head', letter])
  subst same
  have size : name.length = name'.length :=
    written.spelled.length_eq.symm.trans written'.spelled.length_eq
  rw [read] at read'
  obtain ⟨rfl, behind⟩ := List.append_inj read' size
  have colon : ∀ {gap : List Char}, (∀ c ∈ gap, Text.isSpace c = true) → ':' ∉ gap :=
    fun blank mem => absurd (blank ':' mem) (by decide)
  obtain ⟨-, same⟩ := Text.append_separator_inj (colon blank) (colon blank') behind
  refine ⟨rfl, rfl, ?_⟩
  rw [← Text.trim_blank_append blank₂, same, Text.trim_blank_append blank₂']

/-- What `explicitCheck` finds. -/
theorem explicitCheck_eq_some_iff {normalized check param : String} :
    explicitCheck runtime normalized = some (check, param) ↔ ∃ word ∈ explicitChecks,
      ∃ name tail, WrittenAs word.toList normalized.toList name tail ∧
        check = .ofList (runtime.cases.lower name) ∧ param = .ofList (Text.trim tail) := by
  have found : ∀ {matched : Matched}, (explicitChecks.findSome? fun check =>
      (explicitRegex check).matchStart normalized.toList) = some matched →
        ∃ word ∈ explicitChecks, ∃ name tail, matched.groups = [name, tail] ∧
          WrittenAs word.toList normalized.toList name tail := by
    intro matched found
    obtain ⟨word, known, starts⟩ := List.exists_of_findSome?_eq_some found
    obtain ⟨read, text, -, takes⟩ := Regex.mem_tries_iff_takes.mp (List.mem_of_head? starts)
    obtain ⟨last, name, tail, grouped, written⟩ := explicit_takes.mp takes
    rw [last, List.append_nil] at text
    rw [← text] at written
    exact ⟨word, known, name, tail, grouped, written⟩
  have stripped : ∀ tail : List Char, Text.strip (.ofList tail) = .ofList (Text.trim tail) := by
    intro tail
    rw [← String.toList_inj, Text.toList_strip, String.toList_ofList, String.toList_ofList]
  unfold explicitCheck
  constructor
  · intro checked
    split at checked
    · rename_i stop name tail first
      obtain ⟨word, known, name', tail', grouped, written⟩ := found first
      cases grouped
      cases checked
      exact ⟨word, known, name, tail, written, rfl, stripped tail⟩
    · cases checked
  · rintro ⟨word, known, name, tail, written, rfl, rfl⟩
    have tried : ⟨⟨normalized.toList.reverse, []⟩, [name, tail]⟩ ∈
        (explicitRegex word).tries ⟨[], normalized.toList⟩ := by
      refine Regex.mem_tries_iff_takes.mpr ⟨normalized.toList, (List.append_nil _).symm, ?_,
        explicit_takes.mpr ⟨rfl, name, tail, rfl, written⟩⟩
      rw [List.append_nil]
    have starts : ((explicitRegex word).matchStart normalized.toList).isSome = true := by
      rw [Regex.matchStart, List.isSome_head?]
      exact List.ne_nil_of_mem tried
    have some : (explicitChecks.findSome? fun check =>
        (explicitRegex check).matchStart normalized.toList).isSome = true :=
      List.findSome?_isSome_iff.mpr ⟨word, known, starts⟩
    obtain ⟨matched, first⟩ := Option.isSome_iff_exists.mp some
    obtain ⟨word', known', name', tail', grouped, written'⟩ := found first
    obtain ⟨stop, groups⟩ := matched
    cases grouped
    obtain ⟨-, rfl, trimmed⟩ := written.unique known known' written'
    rw [first]
    dsimp only
    rw [stripped, trimmed]

/-- What a written check is given is not blank where the text is stripped. -/
theorem WrittenAs.param (written : WrittenAs check text name tail)
    (trimmed : Text.trim text = text) : Text.trim tail ≠ [] ∧ '\n' ∉ Text.trim tail := by
  constructor
  · obtain ⟨gap, lead, -, -, rfl⟩ := written.read
    have read : name ++ (gap ++ ':' :: (lead ++ tail)) = (name ++ (gap ++ ':' :: lead)) ++ tail := by
      simp
    rw [read] at trimmed
    intro none
    obtain ⟨blank, spaces, same⟩ := Text.trimmed_end trimmed
    rw [none, List.append_nil] at same
    cases tail using List.reverseRecOn with
    | nil => exact written.some rfl
    | append_singleton tail c =>
        rw [← List.append_assoc] at trimmed
        have space := spaces c (same ▸ List.mem_append_right _ List.mem_cons_self)
        rw [Text.trimmed_last trimmed] at space
        cases space
  · intro mem
    have dot := written.line _ ((Text.trim_sublist tail).subset mem)
    cases dot

theorem namedFile_eq_some {normalized path : String}
    (named : namedFile runtime normalized = some path) : path ≠ "" ∧ '\n' ∉ path.toList := by
  have expressions : ∀ r ∈ fileExistsRegexes runtime, ∃ word phrase ending,
      r = fileExistsRegex runtime word phrase ending := by
    intro r mem
    simp only [fileExistsRegexes, List.bind_eq_flatMap, List.mem_flatMap, List.pure_def,
      List.mem_singleton] at mem
    obtain ⟨word, -, phrase, -, ending, -, rfl⟩ := mem
    exact ⟨word, phrase, ending, rfl⟩
  unfold namedFile at named
  split at named
  · rename_i stop text groups found
    cases named
    obtain ⟨r, mem, skipped, rest, -, tried⟩ := Regex.find_mem found
    obtain ⟨word, phrase, ending, rfl⟩ := expressions r mem
    obtain ⟨read, -, -, takes⟩ := Regex.mem_tries_iff_takes.mp tried
    unfold fileExistsRegex at takes
    simp only [Regex.takes_seq, Regex.takes_group, Regex.takes_literal, Regex.takes_many] at takes
    obtain ⟨_, _, _, _, -, grouped, ⟨-, rfl⟩, _, _, _, _, -, rfl, ⟨-, -, rfl⟩, _, _, quote, _, -, rfl,
      quoted, path, _, _, _, -, rfl, ⟨_, rfl, some, letters, -⟩, -⟩ := takes
    have unquoted : quote = [] := by
      rcases Regex.takes_optional.mp quoted with one | none
      · obtain ⟨_, _, _, none⟩ := Regex.takes_one.mp one
        exact none
      · exact none.2
    subst unquoted
    cases grouped
    constructor
    · intro none
      exact some (String.ofList_inj.mp none)
    · intro mem
      rw [String.toList_ofList] at mem
      have letter := letters _ mem
      unfold isNamedPathChar at letter
      rw [runtime.words.space '\n' rfl] at letter
      cases letter
  · cases named

/-- A deterministic rule has something to look for, on one line. -/
theorem deterministic_param {index : ℕ} {criterion : String}
    (kind : (validationRuleForCriterion runtime index criterion).kind = .deterministic) :
    ∃ check param, (validationRuleForCriterion runtime index criterion).check = some check ∧
      (validationRuleForCriterion runtime index criterion).param = some param ∧ param ≠ "" ∧
        '\n' ∉ param.toList := by
  unfold validationRuleForCriterion at kind ⊢
  dsimp only at kind ⊢
  split
  · rename_i check param explicit
    obtain ⟨word, known, name, tail, written, rfl, rfl⟩ := explicitCheck_eq_some_iff.mp explicit
    rw [Text.toList_strip] at written
    obtain ⟨some, line⟩ := written.param (Text.trim_trim _)
    refine ⟨_, _, rfl, rfl, fun none => some (String.ofList_inj.mp none), ?_⟩
    rw [String.toList_ofList]
    exact line
  · rename_i none
    rw [none] at kind
    dsimp only at kind
    split
    · rename_i path named
      obtain ⟨some, line⟩ := namedFile_eq_some named
      exact ⟨_, _, rfl, rfl, some, line⟩
    · rename_i none'
      rw [none'] at kind
      cases kind

/-- **A check is read as it is written**: in any case of its letters, with white space around its
colon. -/
theorem written_check {index : ℕ} {criterion word : String} {gap rest : List Char}
    (known : word ∈ explicitChecks)
    (read : (Text.strip criterion).toList = name ++ (gap ++ ':' :: rest))
    (letters : name.map Char.toLower = word.toList) (blank : ∀ c ∈ gap, Text.isSpace c = true)
    (some : Text.trim rest ≠ []) (line : '\n' ∉ Text.trim rest) :
    validationRuleForCriterion runtime index criterion =
      { id := "criterion-" ++ toString index, description := Text.strip criterion,
        kind := .deterministic, check := word, param := String.ofList (Text.trim rest) } := by
  have trimmed : Text.trim (Text.strip criterion).toList = (Text.strip criterion).toList := by
    rw [Text.toList_strip, Text.trim_trim]
  rw [read, ← List.append_assoc, ← List.singleton_append, ← List.append_assoc] at trimmed
  obtain ⟨lead, blank', whole⟩ := Text.trimmed_end trimmed
  have small : ∀ c ∈ word.toList, c.toNat < 128 ∧ c.toLower = c := by
    simp only [explicitChecks, List.mem_cons, List.not_mem_nil, or_false] at known
    rcases known with rfl | rfl | rfl | rfl <;> simp
  have ascii : ∀ c ∈ name, c.toNat < 128 := by
    intro c mem
    by_contra high
    have lowered := (small _ (letters ▸ List.mem_map_of_mem mem)).1
    rw [toLower_of_not_upper (by omega)] at lowered
    exact high lowered
  have spelled : Regex.Spelled ignoreCase word.toList name := by
    rw [← letters, Regex.Spelled, List.forall₂_map_left_iff, List.forall₂_same]
    intro c mem
    have same := (small _ (letters ▸ List.mem_map_of_mem mem)).2
    unfold ignoreCase
    rw [same, beq_self_eq_true, Bool.true_or]
  have explicit : explicitCheck runtime (Text.strip criterion) =
      Option.some (word, .ofList (Text.trim rest)) := by
    refine explicitCheck_eq_some_iff.mpr ⟨word, known, name, Text.trim rest,
      ⟨spelled, ⟨gap, lead, blank, blank', ?_⟩, some, fun c mem => ?_⟩, ?_, ?_⟩
    · rw [read, ← whole]
    · exact bne_iff_ne.mpr fun same => line (same ▸ mem)
    · rw [CaseTable.lower_ascii ascii, letters, String.ofList_toList]
    · rw [Text.trim_trim]
  unfold validationRuleForCriterion
  dsimp only
  rw [explicit]

end Written

/-! ### When a criterion is met -/

section Met

variable {runtime : ValidationRuntime} {model : JudgeModel} {plan : PlanArtifact}
  {report : ExecutionResult} {context : Dict} {rule : ValidationRule} {param : String}

variable (runtime) in
/-- The command that was run, with its exit code. -/
def ranCommand (plan : PlanArtifact) (report : ExecutionResult) : Option (String × ℤ) :=
  match plan.coding, exitCodeIn runtime report.verifyOutput with
  | some coding, some (.ok exitCode) => some (coding.verifyCmd, exitCode)
  | _, _ => none

/-- What the checks find in the evidence of a report. -/
structure EvidenceOf (runtime : ValidationRuntime) (plan : PlanArtifact) (report : ExecutionResult)
    (context : Dict) : Prop where
  parts : outputParts context = report.evidence
  diff : evidenceText (context.lookup "diff") = report.diff
  artifacts : evidenceArtifacts context = report.artifacts
  judged : judgeEvidence context = [("verify_output", .str report.verifyOutput),
    ("diff", .str report.diff), ("artifacts", texts report.artifacts)]
  commands : context.lookup "verify_commands" =
    (ranCommand runtime plan report).map fun ran => .obj [(ran.1,
      .obj [("exit_code", .num (toString ran.2)), ("output", .str report.verifyOutput)])]
  noOther : context.lookup "verify_cmds" = none

theorem evidenceOf_execution (computed : executionEvidence runtime plan report = .ok context) :
    EvidenceOf runtime plan report context := by
  have made : ∃ commands : Dict, context = [("verify_output", Json.str report.verifyOutput),
      ("diff", .str report.diff), ("artifacts", texts report.artifacts)] ++ commands ∧
      commands = (ranCommand runtime plan report).toList.map fun ran => ("verify_commands",
        .obj [(ran.1, .obj [("exit_code", .num (toString ran.2)),
          ("output", .str report.verifyOutput)])]) := by
    unfold executionEvidence at computed
    unfold ranCommand
    cases coding : plan.coding with
    | none =>
        rw [coding] at computed
        cases computed
        exact ⟨[], rfl, rfl⟩
    | some coding' =>
        rw [coding] at computed
        cases code : exitCodeIn runtime report.verifyOutput with
        | none =>
            rw [code] at computed
            cases computed
            exact ⟨[], rfl, rfl⟩
        | some exitCode =>
            rw [code] at computed
            cases exitCode with
            | error e => cases computed
            | ok n =>
                cases computed
                exact ⟨_, rfl, rfl⟩
  obtain ⟨commands, rfl, rfl⟩ := made
  have artifacts (commands : Dict) : evidenceArtifacts (("verify_output", .str report.verifyOutput) ::
      ("diff", .str report.diff) :: ("artifacts", texts report.artifacts) :: commands) =
      report.artifacts :=
    evidenceArtifacts_texts (by simp [List.lookup_cons])
  cases ran : ranCommand runtime plan report <;> exact
    { parts := by
        simp [outputParts, evidenceText, artifacts, List.lookup_cons, ExecutionResult.evidence]
      diff := by simp [evidenceText, List.lookup_cons]
      artifacts := artifacts _
      judged := by simp [judgeEvidence, List.lookup_cons]
      commands := by simp [List.lookup_cons, ran]
      noOther := by simp [List.lookup_cons] }

theorem ranCommand_eq_some_iff {command : String} {exitCode : ℤ} :
    ranCommand runtime plan report = some (command, exitCode) ↔
      ∃ coding, plan.coding = some coding ∧ command = coding.verifyCmd ∧
        exitCodeIn runtime report.verifyOutput = some (.ok exitCode) := by
  unfold ranCommand
  split
  · rename_i coding n here code
    rw [here, code]
    constructor
    · intro same
      cases same
      exact ⟨coding, rfl, rfl, rfl⟩
    · rintro ⟨_, same, rfl, same'⟩
      cases same
      cases same'
      rfl
  · rename_i other
    refine iff_of_false (by simp) ?_
    rintro ⟨coding, here, -, code⟩
    exact other coding exitCode here code

/-- What supports a deterministic rule, by the name of its check. -/
theorem supported_deterministic (kind : rule.kind = .deterministic)
    (looks : rule.param = some param) : Supported runtime model plan report rule ↔
      (rule.check = some "contains" ∧ ∃ part ∈ report.evidence, Occurs param part) ∨
      (rule.check = some "file_exists" ∧ (param ∈ report.artifacts ∨ Occurs param report.diff)) ∨
      (rule.check = some "regex" ∧
        runtime.search param (Text.join "\n" (report.evidence.filter (· ≠ ""))) = .ok true) ∨
      rule.check = some "verify_cmd" ∧ ranCommand runtime plan report = some (param, 0) := by
  constructor
  · intro supported
    cases supported with
    | contains _ check same mem occurs =>
        cases looks.symm.trans same
        exact .inl ⟨check, _, mem, occurs⟩
    | file_exists _ check same there =>
        cases looks.symm.trans same
        exact .inr (.inl ⟨check, there⟩)
    | regex _ check same found =>
        cases looks.symm.trans same
        exact .inr (.inr (.inl ⟨check, found⟩))
    | verify_cmd _ check coding same code =>
        cases looks.symm.trans same
        exact .inr (.inr (.inr ⟨check, ranCommand_eq_some_iff.mpr ⟨_, coding, rfl, code⟩⟩))
    | judged other => cases kind.symm.trans other
  · rintro (⟨check, part, mem, occurs⟩ | ⟨check, there⟩ | ⟨check, found⟩ | ⟨check, ran⟩)
    · exact .contains kind check looks mem occurs
    · exact .file_exists kind check looks there
    · exact .regex kind check looks found
    · obtain ⟨coding, here, rfl, code⟩ := ranCommand_eq_some_iff.mp ran
      exact .verify_cmd kind check here looks code

theorem actualOutput_evidence (evidence : EvidenceOf runtime plan report context) :
    actualOutput context = Text.join "\n" (report.evidence.filter (· ≠ "")) := by
  rw [actualOutput, evidence.parts]

/-- A text on one line is found where it stands in one part of the evidence. -/
theorem contains_passed_iff (evidence : EvidenceOf runtime plan report context)
    (some : param ≠ "") (line : '\n' ∉ param.toList) :
    (containsCheck param context).1 = true ↔ ∃ part ∈ report.evidence, Occurs param part := by
  have nonempty : ∀ part, Occurs param part → part ≠ "" := by
    rintro part occurs rfl
    rw [Occurs, String.toList_empty, List.infix_nil] at occurs
    exact some (String.toList_inj.mp occurs)
  rw [containsCheck_passed, and_iff_right some, actualOutput_evidence evidence]
  refine (@occurs_join_iff '\n' param (report.evidence.filter (· ≠ "")) some line).trans ⟨?_, ?_⟩
  · rintro ⟨part, mem, occurs⟩
    exact ⟨part, (List.mem_filter.mp mem).1, occurs⟩
  · rintro ⟨part, mem, occurs⟩
    exact ⟨part, List.mem_filter.mpr ⟨mem, decide_eq_true (nonempty part occurs)⟩, occurs⟩

theorem file_exists_passed_iff (evidence : EvidenceOf runtime plan report context)
    (some : param ≠ "") : (fileExists param context).1 = true ↔
      param ∈ report.artifacts ∨ Occurs param report.diff := by
  rw [fileExists_passed, and_iff_right some, evidence.artifacts, evidence.diff]

theorem regex_passed_iff (evidence : EvidenceOf runtime plan report context) (some : param ≠ "") :
    (regexCheck runtime.search param context).1 = true ↔
      runtime.search param (Text.join "\n" (report.evidence.filter (· ≠ ""))) = .ok true := by
  rw [regexCheck_passed, and_iff_right some, actualOutput_evidence evidence]

theorem verify_cmd_passed_iff (evidence : EvidenceOf runtime plan report context)
    (some : param ≠ "") :
    (verifyCommand param context).1 = true ↔
      ranCommand runtime plan report = Option.some (param, 0) := by
  have commands := evidence.commands
  cases ran : ranCommand runtime plan report with
  | none =>
      rw [ran] at commands
      exact iff_of_false (verifyCommand_unsupplied commands evidence.noOther) nofun
  | some command =>
      rw [ran] at commands
      rw [verifyCommand_passed commands, and_iff_right some, Option.some.injEq, Prod.ext_iff,
        @eq_comm _ param]

/-- A deterministic rule passes where the evidence supports it. -/
theorem deterministic_passed_iff (evidence : EvidenceOf runtime plan report context)
    {llmJudge : Option LlmJudge} (kind : rule.kind = .deterministic)
    (looks : rule.param = some param) (some : param ≠ "") (line : '\n' ∉ param.toList) :
    (validate runtime context llmJudge rule).passed = true ↔
      Supported runtime model plan report rule := by
  rw [supported_deterministic kind looks]
  unfold validate
  rw [kind, looks]
  dsimp only
  cases check : rule.check with
  | none =>
      have unknown : (deterministicCheckers runtime.search).lookup "" = none := rfl
      simp [unknown]
  | some name =>
      by_cases contains : name = "contains"
      · subst contains
        have known : (deterministicCheckers runtime.search).lookup "contains" =
            Option.some containsCheck := rfl
        simp [known, contains_passed_iff evidence some line]
      by_cases file : name = "file_exists"
      · subst file
        have known : (deterministicCheckers runtime.search).lookup "file_exists" =
            Option.some fileExists := rfl
        simp [known, file_exists_passed_iff evidence some]
      by_cases regex : name = "regex"
      · subst regex
        have known : (deterministicCheckers runtime.search).lookup "regex" =
            Option.some (regexCheck runtime.search) := rfl
        simp [known, regex_passed_iff evidence some]
      by_cases verify : name = "verify_cmd"
      · subst verify
        have known : (deterministicCheckers runtime.search).lookup "verify_cmd" =
            Option.some verifyCommand := rfl
        simp [known, verify_cmd_passed_iff evidence some]
      have unknown : (deterministicCheckers runtime.search).lookup name = none := by
        simp [deterministicCheckers, List.lookup_cons, beq_eq_false_iff_ne.mpr contains,
          beq_eq_false_iff_ne.mpr file, beq_eq_false_iff_ne.mpr regex,
          beq_eq_false_iff_ne.mpr verify]
      simp [unknown, contains, file, regex, verify]

/-- A semantic rule passes where a model says so. -/
theorem semantic_passed_iff (evidence : EvidenceOf runtime plan report context)
    (kind : rule.kind = .llm) :
    (validate runtime context (model.map (buildLlmJudge runtime)) rule).passed = true ↔
      Supported runtime model plan report rule := by
  unfold validate
  rw [kind]
  dsimp only
  rw [runLlmJudge_passed, evidence.judged]
  constructor
  · rintro ⟨judge, built, verdict⟩
    obtain ⟨answer, here, rfl⟩ := Option.map_eq_some_iff.mp built
    unfold buildLlmJudge at verdict
    cases said : answer judgeSystemPrompt (judgePrompt rule [("verify_output",
        .str report.verifyOutput), ("diff", .str report.diff),
        ("artifacts", texts report.artifacts)]) with
    | text content =>
        rw [said] at verdict
        have passed : (parseJudgeResponse runtime content).1 = true := by simpa using verdict
        exact .judged kind here rfl said (parseJudgeResponse_passed.mp passed)
    | timedOut =>
        rw [said] at verdict
        simp at verdict
    | raised exception =>
        rw [said] at verdict
        simp at verdict
  · intro supported
    cases supported with
    | judged _ here same said pass =>
        subst same
        refine ⟨_, Option.map_eq_some_iff.mpr ⟨_, here, rfl⟩, .inr ?_⟩
        unfold buildLlmJudge
        rw [said]
        dsimp only
        rw [parseJudgeResponse_passed.mpr pass]
        exact ⟨_, rfl⟩
    | contains other | file_exists other | regex other | verify_cmd other =>
        cases kind.symm.trans other

end Met

/-! ### The check of a report -/

section Checked

variable {runtime : ValidationRuntime} {model : JudgeModel} {plan : PlanArtifact}
  {report result : ExecutionResult} {selfCheck : Dict}

/-- A result that answers a criterion: it passes where the evidence supports the criterion. -/
structure Answers (runtime : ValidationRuntime) (model : JudgeModel) (plan : PlanArtifact)
    (report : ExecutionResult) (criterion : String × ℕ) (result : ValidationResult) : Prop where
  id : result.ruleId = "criterion-" ++ toString criterion.2
  method : result.method = (validationRuleForCriterion runtime criterion.2 criterion.1).kind
  passed : result.passed = true ↔ Supported runtime model plan report
    (validationRuleForCriterion runtime criterion.2 criterion.1)

/-- A report with its self-check: each criterion that is not blank is answered, in order, and nothing
else of the report changes. -/
structure Checked (runtime : ValidationRuntime) (plan : PlanArtifact) (report result : ExecutionResult) :
    Prop where
  kept : { result with selfCheck := report.selfCheck } = report
  unchecked : numberedCriteria plan = [] → result = report
  checked : numberedCriteria plan ≠ [] → ∃ model results, result.selfCheck = summarize results ∧
    List.Forall₂ (Answers runtime model plan report) (numberedCriteria plan) results

theorem validationRule_id (index : ℕ) (criterion : String) :
    (validationRuleForCriterion runtime index criterion).id = "criterion-" ++ toString index := by
  unfold validationRuleForCriterion
  dsimp only
  split
  · rfl
  · split <;> rfl

theorem numberedCriteria_eq_nil_iff :
    numberedCriteria plan = [] ↔ plan.acceptanceCriteria.all Text.isBlank = true := by
  unfold numberedCriteria
  rw [List.filter_eq_nil_iff, List.all_eq_true]
  constructor
  · intro blank criterion mem
    obtain ⟨i, here⟩ := List.mem_iff_getElem?.mp mem
    have numbered : (criterion, i + 1) ∈ plan.acceptanceCriteria.zipIdx 1 :=
      List.mk_mem_zipIdx_iff_le_and_getElem?_sub.mpr ⟨Nat.le_add_left 1 i, here⟩
    simpa using blank _ numbered
  · rintro blank ⟨criterion, index⟩ mem
    rw [blank criterion (List.fst_mem_of_mem_zipIdx mem)]
    exact Bool.false_ne_true

theorem selfCheckOf_eq_ok (computed : selfCheckOf runtime model plan report = .ok selfCheck) :
    ∃ context llmJudge, executionEvidence runtime plan report = .ok context ∧
      ((validationRules runtime plan).any (·.kind = .llm) = true →
        llmJudge = model.map (buildLlmJudge runtime)) ∧
      selfCheck =
        summarize (runValidation runtime (validationRules runtime plan) context llmJudge) := by
  unfold selfCheckOf at computed
  obtain ⟨context, evidence, done⟩ := bind_eq_ok_iff.mp computed
  exact ⟨context, _, evidence, fun semantic => if_pos semantic, (Except.ok.inj done).symm⟩

/-- Every criterion of a plan is answered. -/
theorem answers_of_selfCheckOf (computed : selfCheckOf runtime model plan report = .ok selfCheck) :
    ∃ results, selfCheck = summarize results ∧
      List.Forall₂ (Answers runtime model plan report) (numberedCriteria plan) results := by
  obtain ⟨context, llmJudge, evidence, judged, rfl⟩ := selfCheckOf_eq_ok computed
  refine ⟨runValidation runtime (validationRules runtime plan) context llmJudge, rfl, ?_⟩
  have found := evidenceOf_execution evidence
  suffices answered : ∀ criterion ∈ numberedCriteria plan, Answers runtime model plan report criterion
      (validate runtime context llmJudge
        (validationRuleForCriterion runtime criterion.2 criterion.1)) by
    unfold runValidation validationRules
    rw [List.forall₂_map_right_iff, List.forall₂_map_right_iff, List.forall₂_same]
    exact answered
  intro criterion mem
  refine ⟨validate_rule.1.trans (validationRule_id _ _), validate_rule.2, ?_⟩
  cases kind : (validationRuleForCriterion runtime criterion.2 criterion.1).kind with
  | deterministic =>
      obtain ⟨_, param, _, looks, some, line⟩ := deterministic_param kind
      exact deterministic_passed_iff found kind looks some line
  | llm =>
      have semantic : (validationRules runtime plan).any (·.kind = .llm) = true :=
        List.any_eq_true.mpr ⟨_, List.mem_map_of_mem mem, decide_eq_true kind⟩
      rw [judged semantic]
      exact semantic_passed_iff found kind

/-- What `_attach_self_check` makes of a report. -/
theorem checked_attach (computed : numberedCriteria plan ≠ [] →
    ∃ model, selfCheckOf runtime model plan report = .ok selfCheck) :
    Checked runtime plan report (attachSelfCheck report plan selfCheck) := by
  unfold attachSelfCheck
  split
  · rename_i blank
    exact ⟨rfl, fun _ => rfl, fun some => absurd (numberedCriteria_eq_nil_iff.mpr blank) some⟩
  · rename_i visible
    refine ⟨rfl, fun none => absurd (numberedCriteria_eq_nil_iff.mp none) visible, fun some => ?_⟩
    obtain ⟨model, made⟩ := computed some
    obtain ⟨results, same, answered⟩ := answers_of_selfCheckOf made
    exact ⟨model, results, same, answered⟩

end Checked

/-! ### Over the runs of the graph -/

section Runs

variable {H ω : Type} {tools : Toolbox H} {runtime : ValidationRuntime}

variable (runtime) in
/-- An executor checks its own report, with whichever model there is then. -/
def SelfChecks (state : SimonState) (o : Outside H ω) : Prop :=
  ∀ plan report, state.plan = some (.artifact plan) → o.executor.agent plan = .ok report →
    numberedCriteria plan ≠ [] →
      ∃ model, selfCheckOf runtime model plan report = .ok (o.executor.selfCheck report)

variable (runtime) in
/-- The report of a thread is one that an executor made of the plan it saw, with its check. -/
def ReportChecked (t : AgentThread ω) : Prop :=
  ∀ result, t.state.executorOutput = some (.report result) → ∃ visit ∈ t.trail,
    visit.node = .executor ∧
      visit.exit = .done { update := { executorOutput := some (some (.report result)) } } ∧
        ∃ plan report, visit.state.plan = some (.artifact plan) ∧
          Checked runtime plan report result

/-- What an executor writes. -/
theorem executor_writes {s : SimonState} {o : Outside H ω} {replies : List String} {w : ω}
    (checks : SelfChecks runtime s o) {result : NodeResult}
    (done : (runNode tools .executor s o replies w).1 = .done result) :
    ∃ plan report checked, s.plan = some (.artifact plan) ∧
      result = { update := { executorOutput := some (some (.report checked)) } } ∧
        Checked runtime plan report checked := by
  simp only [runNode, executorNode] at done
  cases here : s.planArtifact? with
  | none =>
      rw [here] at done
      cases done
  | some plan =>
      rw [here] at done
      cases answer : o.executor.agent plan with
      | error e =>
          simp only [answer] at done
          cases done
      | ok report =>
          simp only [answer] at done
          cases done
          have planned := SimonState.planArtifact?_eq_some_iff.mp here
          exact ⟨plan, report, _, planned, rfl, checked_attach (checks plan report planned answer)⟩

/-- Only an executor writes an output. -/
theorem output_silent {s : SimonState} {n : Node} {replies : List String} {result : NodeResult}
    (other : n ≠ .executor) (exits : NodeExit s n replies (.done result)) :
    result.update.executorOutput = none := by
  cases exits with
  | executed => exact absurd rfl other
  | planned | routed | drafted | answered | escalated | reported => rfl

/-- Every visit keeps the report checked. -/
theorem reportChecked_visit {t : AgentThread ω} {n : Node} {o : Outside H ω} {replies : List String}
    (checks : SelfChecks runtime t.state o) (checked : ReportChecked runtime t) :
    ReportChecked runtime ((agentGraph ω tools).visit t n replies o) := by
  have exits : NodeExit t.state n replies (runNode tools n t.state o replies t.world).1 := node_exit n
  intro result shown
  unfold Workflow.visit at shown ⊢
  rw [Workflow.close_trail]
  have before : t.state.executorOutput = some (.report result) →
      ∃ visit ∈ t.trail ++ [(agentGraph ω tools).visitOf t n replies o], visit.node = .executor ∧
        visit.exit = .done { update := { executorOutput := some (some (.report result)) } } ∧
        ∃ plan report, visit.state.plan = some (.artifact plan) ∧
          Checked runtime plan report result := by
    intro held
    obtain ⟨visit, mem, rest⟩ := checked result held
    exact ⟨visit, List.mem_append_left _ mem, rest⟩
  cases exit : (runNode tools n t.state o replies t.world).1 with
  | done update =>
      rw [exit] at exits
      simp only [Workflow.close, Workflow.visitOf, agentGraph, exit, SimonState.apply_executorOutput]
        at shown
      by_cases executor : n = .executor
      · subst executor
        obtain ⟨plan, report, written, planned, rfl, made⟩ := executor_writes checks exit
        cases shown
        exact ⟨_, List.mem_append_right _ (List.mem_singleton.mpr rfl), rfl, exit, plan, report,
          planned, made⟩
      · rw [output_silent executor exits] at shown
        exact before shown
  | paused prompt =>
      simp only [Workflow.close, Workflow.visitOf, agentGraph, exit] at shown
      exact before shown
  | raised e =>
      simp only [Workflow.close, Workflow.visitOf, agentGraph, exit] at shown
      exact before shown

/-- **Step lemma.** -/
theorem reportChecked_step {c c' : Conversation ω} {step : ConversationStep H ω}
    (checks : EveryVisit (SelfChecks runtime) c step) (checked : ReportChecked runtime c.thread)
    (h : (conversations tools).step c step = some c') : ReportChecked runtime c'.thread := by
  cases step with
  | task setup task runId =>
      cases h
      exact fun _ shown => by cases shown
  | cliTask setup task =>
      cases h
      exact fun _ shown => by cases shown
  | call call =>
      obtain ⟨thread, called, rfl⟩ := Option.map_eq_some_iff.mp h
      cases Workflow.step_iff.mp called with
      | execute here free => exact reportChecked_visit checks checked
      | resume here asked => exact reportChecked_visit checks checked
      | fail here => exact checked

end Runs

/-- A runtime for ASCII texts, in which no pattern is found. -/
def asciiRuntime : ValidationRuntime where
  search _ _ := .ok false
  upper text := text
  cases := asciiCases
  words := asciiWords
  decimalDigit c := if c.isDigit then some (c.toNat - '0'.toNat) else none

/-- A plan with a written check and a criterion for a model. -/
def criteriaPlan : PlanArtifact where
  acceptanceCriteria := ["Contains : ok", " ", "reads well"]

/-- A report of a verification that printed `ok`. -/
def okReport : ExecutionResult where
  status := .completed
  coding := some { verifyOutput := "ok" }

/-- An executor of that plan, whose report is checked where no model can be built. -/
def checkingOutside : Outside Unit Unit where
  architect := { agent := fun _ => .ok criteriaPlan }
  executor :=
    { agent := fun plan =>
        if plan.acceptanceCriteria = criteriaPlan.acceptanceCriteria ∧ plan.coding.isNone then
          .ok okReport
        else .error "another plan"
      selfCheck := fun report =>
        (selfCheckOf asciiRuntime none criteriaPlan report).toOption.getD [] }

/-- A task up to the gate, an approval, and the rest of the run. -/
def checkedTask : List (ConversationStep Unit Unit) :=
  .task {} "one" none :: List.replicate 6 (.call (.execute checkingOutside)) ++
    .call (.resume "y" checkingOutside) :: List.replicate 3 (.call (.execute checkingOutside))

end AgentOs
