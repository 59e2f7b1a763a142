import AgentOs.Lib.Lines
import AgentOs.Lib.Lowering
import AgentOs.Schedules.Store
import AgentOs.Stores.AdditiveGuard

/-!
Validation of what an execution left behind (`validation.py`, `semantic_judge.py`).

A rule is checked against the evidence that its caller supplies: a deterministic rule by one of four
checkers, a semantic one by a judge. The `_passed` lemmas say on which evidence each of them passes;
every other rule fails, whatever goes wrong.
-/

namespace AgentOs

open AgentOs.Lib

/-! ### Rules -/

inductive ValidationMethod where
  | deterministic
  | llm
deriving DecidableEq, Repr

def ValidationMethod.text : ValidationMethod → String
  | deterministic => "deterministic"
  | llm => "llm"

structure ValidationRule where
  id : String
  description : String
  kind : ValidationMethod
  check : Option String := none
  param : Option String := none
deriving DecidableEq, Repr

structure ValidationResult where
  ruleId : String
  passed : Bool
  method : ValidationMethod
  evidence : String
deriving DecidableEq, Repr

/-- What checking uses of the language: `re.search`, with the text of its error, the case tables and
the characters of `\w`. -/
structure ValidationRuntime where
  search : (pattern text : String) → Except String Bool
  upper : String → String
  cases : CaseTable
  words : WordTable
  /-- the value of a decimal digit, in any script -/
  decimalDigit : Char → Option ℕ

/-! ### Evidence -/

/-- `_text` -/
def evidenceText : Option Json → String
  | some (.str s) => s
  | _ => ""

/-- `_artifacts` -/
def evidenceArtifacts (context : Dict) : List String :=
  match context.lookup "artifacts" with
  | some (.str s) => [s]
  | some (.arr items) => items.filterMap fun
      | .str s => some s
      | _ => none
  | _ => []

theorem evidenceArtifacts_texts {context : Dict} {items : List String}
    (listed : context.lookup "artifacts" = some (texts items)) :
    evidenceArtifacts context = items := by
  unfold evidenceArtifacts
  rw [listed]
  unfold texts
  dsimp only
  clear listed
  induction items with
  | nil => rfl
  | cons item items ih => rw [List.map_cons, List.filterMap_cons, ih]

/-- What `_actual_output` joins. -/
def outputParts (context : Dict) : List String :=
  evidenceText (context.lookup "verify_output") :: evidenceText (context.lookup "diff") ::
    evidenceArtifacts context

/-- `_actual_output` -/
def actualOutput (context : Dict) : String :=
  Text.join "\n" ((outputParts context).filter (· ≠ ""))

/-! ### Deterministic checks -/

/-- An exit status: a Boolean is an integer, too. -/
def exitStatus? : Option Json → Option Json
  | some (.bool b) => some (.bool b)
  | some (.num text) =>
      if text.toList.all (fun c => c.isDigit || c == '-') then some (.num text) else none
  | _ => none

/-- `exit_code == 0` -/
def isZero : Json → Bool
  | .bool b => !b
  | .num text => text == "0"
  | _ => false

/-- `_verify_command` -/
def verifyCommand (param : String) (context : Dict) : Bool × String :=
  if param = "" then (false, "verify_cmd requires the command key in param.")
  else
    let commands := (context.lookup "verify_commands").orElse fun _ => context.lookup "verify_cmds"
    match commands.bind (Json.field? param) with
    | none => (false, "No supplied verification result for: " ++ param)
    | some (.bool outcome) =>
        (outcome, param ++ ": supplied boolean result=" ++ (Json.bool outcome).repr ++ ".")
    | some (.obj outcome) =>
        let output := evidenceText (outcome.lookup "output")
        let output := if output = "" then evidenceText (outcome.lookup "stdout") else output
        match exitStatus? ((outcome.lookup "exit_code").orElse fun _ =>
            outcome.lookup "returncode") with
        | none => (false, param ++ ": supplied result has no integer exit status.")
        | some exitCode =>
            (isZero exitCode, param ++ ": exit_code=" ++ exitCode.repr ++
              if output = "" then "" else "; output=" ++ output)
    | some outcome =>
        match exitStatus? (some outcome) with
        | some exitCode => (isZero exitCode, param ++ ": exit_code=" ++ exitCode.repr ++ ".")
        | none => (false, param ++ ": supplied result has no exit status.")

/-- `_file_exists` -/
def fileExists (param : String) (context : Dict) : Bool × String :=
  if param = "" then (false, "file_exists requires the expected path in param.")
  else if param ∈ evidenceArtifacts context then
    (true, "Found " ++ param ++ " in supplied artifacts.")
  else if Occurs param (evidenceText (context.lookup "diff")) then
    (true, "Found " ++ param ++ " in supplied diff.")
  else (false, param ++ " is absent from supplied artifacts and diff.")

/-- `_regex` -/
def regexCheck (search : String → String → Except String Bool) (param : String)
    (context : Dict) : Bool × String :=
  if param = "" then (false, "regex requires the pattern in param.")
  else
    match search param (actualOutput context) with
    | .error error => (false, "Invalid regex " ++ Json.reprText param ++ ": " ++ error ++ ".")
    | .ok matched => (matched, "Regex " ++ Json.reprText param ++
        (if matched then " matched" else " did not match") ++ " supplied output.")

/-- `_contains` -/
def containsCheck (param : String) (context : Dict) : Bool × String :=
  if param = "" then (false, "contains requires the expected text in param.")
  else
    let matched := decide (Occurs param (actualOutput context))
    (matched, "Text " ++ Json.reprText param ++
      (if matched then " was found in" else " was absent from") ++ " supplied output.")

/-- `_DETERMINISTIC_CHECKERS` -/
def deterministicCheckers (search : String → String → Except String Bool) :
    List (String × (String → Dict → Bool × String)) :=
  [("verify_cmd", verifyCommand), ("file_exists", fileExists), ("regex", regexCheck search),
    ("contains", containsCheck)]

/-! ### Judges -/

/-- What a judge comes back with. -/
inductive Judged where
  | verdict (passed : Bool)
  | explained (passed : Bool) (evidence : String)
  | raised (exception : String)
deriving DecidableEq, Repr

/-- A judge of a rule, on the evidence it is shown. -/
abbrev LlmJudge := ValidationRule → Dict → Judged

/-- What a judge is shown. -/
def judgeEvidence (context : Dict) : Dict :=
  ["verify_output", "diff", "artifacts"].filterMap fun key =>
    (context.lookup key).map fun value => (key, value)

/-- `_run_llm_judge` -/
def runLlmJudge (rule : ValidationRule) (context : Dict) (llmJudge : Option LlmJudge) :
    ValidationResult :=
  let result (passed : Bool) (evidence : String) : ValidationResult :=
    { ruleId := rule.id, passed, method := .llm, evidence }
  match llmJudge with
  | none => result false "No LLM judge was injected for this semantic rule."
  | some judge =>
      match judge rule (judgeEvidence context) with
      | .raised exception => result false ("LLM judge failed: " ++ exception ++ ".")
      | .explained passed evidence => result passed evidence
      | .verdict passed =>
          result passed "LLM judge evaluated the supplied independent evidence."

/-! ### Validation -/

variable (runtime : ValidationRuntime)

/-- The result of one rule. -/
def validate (context : Dict) (llmJudge : Option LlmJudge) (rule : ValidationRule) :
    ValidationResult :=
  match rule.kind with
  | .llm => runLlmJudge rule context llmJudge
  | .deterministic =>
      match (deterministicCheckers runtime.search).lookup (rule.check.getD "") with
      | none =>
          { ruleId := rule.id, passed := false, method := .deterministic,
            evidence := "Unknown deterministic checker: " ++
              (rule.check.map Json.reprText).getD "None" ++ "." }
      | some checker =>
          let checked := checker (rule.param.getD "") context
          { ruleId := rule.id, passed := checked.1, method := .deterministic,
            evidence := checked.2 }

/-- `run_validation` -/
def runValidation (rules : List ValidationRule) (context : Dict) (llmJudge : Option LlmJudge) :
    List ValidationResult :=
  rules.map (validate runtime context llmJudge)

/-- `model_dump` of a result. -/
def ValidationResult.toJson (result : ValidationResult) : Json :=
  .obj [("rule_id", .str result.ruleId), ("passed", .bool result.passed),
    ("method", .str result.method.text), ("evidence", .str result.evidence)]

/-- `summarize` -/
def summarize (results : List ValidationResult) : Dict :=
  [("total", .num (toString results.length)),
    ("met", .num (toString (results.countP (·.passed)))),
    ("results", .arr (results.map ValidationResult.toJson))]

/-! ### A model as a judge -/

/-- `_JUDGE_SYSTEM_PROMPT` -/
def judgeSystemPrompt : String :=
  "You are an objective acceptance criteria evaluator.\n" ++
  "Your role is to evaluate whether a specific acceptance criterion is met based STRICTLY AND ONLY " ++
    "on the provided execution evidence.\n\nRules:\n" ++
  "1. ONLY rely on the provided evidence (verify_output, diff, artifacts).\n" ++
  "2. Do NOT invent, assume, or extrapolate facts not directly present in the evidence.\n" ++
  "3. If the evidence lacks proof or is ambiguous, you must judge FAIL.\n" ++
  "4. Format:\n   First line MUST begin with either \"PASS\" or \"FAIL\".\n" ++
  "   Second line should provide a concise 1-sentence factual justification based on the evidence.\n"

/-- `_format_evidence_context` -/
def formatEvidenceContext (context : Dict) : String :=
  let part (key heading : String) (shown : Json → String) : List String :=
    ((context.lookup key).filter truthy).toList.map fun value =>
      "=== " ++ heading ++ " ===\n" ++ shown value
  let list : Json → String
    | .arr items => Text.join "\n" (items.map fun item => "- " ++ item.toText)
    | value => value.toText
  let parts := part "verify_output" "Verify Command Output" Json.toText ++
    part "diff" "Code / File Diff" Json.toText ++ part "artifacts" "Generated Artifacts" list
  if parts = [] then "(No execution evidence provided)" else Text.join "\n\n" parts

/-- What a judge asks its model. -/
def judgePrompt (rule : ValidationRule) (evidence : Dict) : String :=
  "Evaluate this acceptance criterion:\nCriterion ID: " ++ rule.id ++ "\nDescription: " ++
    rule.description ++ "\nParameter: " ++
    (if rule.param.getD "" = "" then "(none)" else rule.param.getD "") ++
    "\n\nExecution Evidence:\n" ++ formatEvidenceContext evidence ++ "\n"

/-- `^WORD\b` -/
def beginsWith (word : String) (line : String) : Bool :=
  ((Regex.seq (.literal (· == ·) word.toList) (.boundary runtime.words.isWord)).matchStart
    line.toList).isSome

/-- `_parse_judge_response` -/
def parseJudgeResponse (response : String) : Bool × String :=
  match ((Text.splitlines (Text.trim response.toList)).map Text.trim).filter (· ≠ []) with
  | [] => (false, "Judge returned empty response.")
  | line :: rest =>
      let line := String.ofList line
      let reasoning := (rest.head?.map String.ofList).getD line
      if beginsWith runtime "PASS" (runtime.upper line) then (true, reasoning)
      else if beginsWith runtime "FAIL" (runtime.upper line) then (false, reasoning)
      else (false, "Indeterminate judge response: " ++ line)

/-- What a model comes back with, in time or not. -/
inductive ModelAnswer where
  | text (content : String)
  | timedOut
  | raised (exception : String)

/-- `build_llm_judge`: the model is given the two prompts. -/
def buildLlmJudge (model : (system user : String) → ModelAnswer) : LlmJudge := fun rule evidence =>
  match model judgeSystemPrompt (judgePrompt rule evidence) with
  | .timedOut => .explained false "LLM judge timeout"
  | .raised exception => .explained false ("LLM judge execution error: " ++ exception)
  | .text content =>
      let parsed := parseJudgeResponse runtime content
      .explained parsed.1 parsed.2

/-! ### What passes -/

section

variable {runtime : ValidationRuntime} {param : String} {context : Dict}

/-- A check without a parameter does not pass. -/
theorem needsParam_passed {message : String} {checked : Bool × String} :
    (if param = "" then (false, message) else checked).1 = true ↔ param ≠ "" ∧ checked.1 = true := by
  split
  · rename_i empty
    exact iff_of_false Bool.false_ne_true fun passed => passed.1 empty
  · rename_i some
    exact (and_iff_right some).symm

theorem containsCheck_passed : (containsCheck param context).1 = true ↔
    param ≠ "" ∧ Occurs param (actualOutput context) := by
  unfold containsCheck
  rw [needsParam_passed]
  dsimp only
  rw [decide_eq_true_eq]

theorem regexCheck_passed {search : String → String → Except String Bool} :
    (regexCheck search param context).1 = true ↔
      param ≠ "" ∧ search param (actualOutput context) = .ok true := by
  unfold regexCheck
  rw [needsParam_passed]
  cases search param (actualOutput context) <;> simp

theorem fileExists_passed : (fileExists param context).1 = true ↔ param ≠ "" ∧
    (param ∈ evidenceArtifacts context ∨ Occurs param (evidenceText (context.lookup "diff"))) := by
  unfold fileExists
  rw [needsParam_passed]
  refine and_congr_right fun _ => ?_
  split
  · rename_i made
    exact iff_of_true rfl (.inl made)
  · rename_i notMade
    split
    · rename_i changed
      exact iff_of_true rfl (.inr changed)
    · rename_i unchanged
      exact iff_of_false Bool.false_ne_true (not_or.mpr ⟨notMade, unchanged⟩)

theorem toString_negSucc (m : ℕ) : toString (Int.negSucc m) = "-" ++ (m + 1).repr := rfl

/-- The text of an integer is that of zero for zero only. -/
theorem toString_int_eq_zero_iff (n : ℤ) : toString n = "0" ↔ n = 0 := by
  constructor
  · intro same
    cases n with
    | ofNat m =>
        have digits : Nat.toDigits 10 m = ['0'] := by
          rw [← Nat.toList_repr]
          exact congrArg String.toList same
        rw [Nat.toDigits_eq_if (by decide)] at digits
        split at digits
        · have zero : m = 0 := by simpa using digits
          rw [zero]
          rfl
        · have long := congrArg List.length digits
          have some := Nat.length_toDigits_pos (b := 10) (n := m / 10)
          rw [List.length_append, List.length_singleton, List.length_singleton] at long
          omega
    | negSucc m =>
        have text := congrArg String.toList ((toString_negSucc m).symm.trans same)
        rw [String.toList_append] at text
        cases text
  · rintro rfl
    rfl

/-- Every integer is an exit status. -/
theorem exitStatus?_int (n : ℤ) :
    exitStatus? (some (.num (toString n))) = some (.num (toString n)) := by
  have digits : ∀ m : ℕ, ∀ c ∈ m.repr.toList, (c.isDigit || c == '-') = true := by
    intro m c mem
    rw [Nat.toList_repr] at mem
    rw [Nat.isDigit_of_mem_toDigits (by decide) (by decide) mem, Bool.true_or]
  refine if_pos (List.all_eq_true.mpr ?_)
  cases n with
  | ofNat m => exact digits m
  | negSucc m =>
      intro c mem
      rw [toString_negSucc, String.toList_append] at mem
      rcases List.mem_cons.mp mem with rfl | mem
      · rfl
      · exact digits _ c mem

/-- A command passes where it is the one that was run, and its exit code is zero. -/
theorem verifyCommand_passed {command output : String} {exitCode : ℤ}
    (ran : context.lookup "verify_commands" = some (.obj [(command,
      .obj [("exit_code", .num (toString exitCode)), ("output", .str output)])])) :
    (verifyCommand param context).1 = true ↔ param ≠ "" ∧ param = command ∧ exitCode = 0 := by
  unfold verifyCommand
  rw [needsParam_passed, ran]
  refine and_congr_right fun _ => ?_
  by_cases same : param = command
  · subst same
    have zero : isZero (.num (toString exitCode)) = true ↔ exitCode = 0 :=
      beq_iff_eq.trans (toString_int_eq_zero_iff exitCode)
    simpa [-Int.toString_eq_repr, Json.field?, List.lookup_cons, exitStatus?_int] using zero
  · simp [Json.field?, List.lookup_cons, beq_eq_false_iff_ne.mpr same, same]

/-- Without a command that was run none passes. -/
theorem verifyCommand_unsupplied (unsupplied : context.lookup "verify_commands" = none)
    (unsupplied' : context.lookup "verify_cmds" = none) :
    ¬ (verifyCommand param context).1 = true := by
  unfold verifyCommand
  rw [needsParam_passed, unsupplied, unsupplied']
  exact fun passed => Bool.false_ne_true passed.2

/-- A semantic rule passes where a judge says so. -/
theorem runLlmJudge_passed {rule : ValidationRule} {llmJudge : Option LlmJudge} :
    (runLlmJudge rule context llmJudge).passed = true ↔
      ∃ judge, llmJudge = some judge ∧ (judge rule (judgeEvidence context) = .verdict true ∨
        ∃ evidence, judge rule (judgeEvidence context) = .explained true evidence) := by
  unfold runLlmJudge
  cases llmJudge with
  | none => simp
  | some judge =>
      simp only [Option.some.injEq, exists_eq_left']
      generalize judge rule (judgeEvidence context) = answer
      cases answer <;> simp

theorem parseJudgeResponse_passed {response : String} :
    (parseJudgeResponse runtime response).1 = true ↔
      ∃ line rest, Text.strippedLines response.toList = line :: rest ∧
        beginsWith runtime "PASS" (runtime.upper (.ofList line)) = true := by
  unfold parseJudgeResponse
  rw [Text.strippedLines_eq, ← Text.toList_strip, Text.strippedLines_strip]
  cases Text.strippedLines response.toList with
  | nil => simp
  | cons line rest =>
      dsimp only
      split
      · rename_i passes
        exact iff_of_true rfl ⟨line, rest, rfl, passes⟩
      · rename_i other
        refine iff_of_false ?_ ?_
        · split <;> exact Bool.false_ne_true
        · rintro ⟨_, _, same, passes⟩
          cases same
          exact other passes

/-- The result of a rule bears its name and its kind. -/
theorem validate_rule {llmJudge : Option LlmJudge} {rule : ValidationRule} :
    (validate runtime context llmJudge rule).ruleId = rule.id ∧
      (validate runtime context llmJudge rule).method = rule.kind := by
  unfold validate
  cases kind : rule.kind with
  | llm =>
      dsimp only
      unfold runLlmJudge
      dsimp only
      split
      · exact ⟨rfl, rfl⟩
      · split <;> exact ⟨rfl, rfl⟩
  | deterministic =>
      dsimp only
      split <;> exact ⟨rfl, rfl⟩

end

end AgentOs
