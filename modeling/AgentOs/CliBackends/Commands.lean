import AgentOs.CliBackends.Payloads
import AgentOs.CliBackends.Redaction
import AgentOs.Lib.Lowering

/-!
Running a command line backend, and what its exceptions show (`cli_backends.py`).

Every exception with an excerpt is a `Failure`: it knows the output and the slice of it. The message
ends with the redacted slice (`message_shown`), so what `Redaction` says of excerpts holds of the
messages.
-/

namespace AgentOs

open AgentOs.Lib

/-- The exceptions that quote an output. -/
inductive Failure where
  /-- `CliBackendTimeout` -/
  | timedOut (binary : String) (timeoutSeconds : Int) (stderr : String)
  /-- `CliBackendError`, or `CliBackendAuthenticationError` -/
  | exited (binary : String) (returncode : Int) (stderr : String)
  /-- `ValueError` of `parse_codex_output_file` -/
  | codexNotJson (error content : String)
  /-- `ValueError` of `parse_claude_stream_json` -/
  | noClaudePayload (stdout : String)
deriving DecidableEq, Repr

/-- The whole output. -/
def Failure.output : Failure → String
  | .timedOut _ _ stderr => stderr
  | .exited _ _ stderr => stderr
  | .codexNotJson _ content => content
  | .noClaudePayload stdout => stdout

/-- The slice of it that is quoted. -/
def Failure.cut : Failure → Cut
  | .timedOut .. => .last 500
  | .exited .. => .last 1000
  | .codexNotJson .. => .first 200
  | .noClaudePayload _ => .last 500

def authIndicators : List String :=
  ["authentication_failed", "oauth session expired", "invalid_api_key", "not logged in",
    "authentication required", "unauthorized"]

/-- Does an output look like that of a failed login? -/
def mentionsAuth (cases : CaseTable) (stderr : String) : Bool :=
  authIndicators.any fun indicator =>
    decide (indicator.toList <:+: cases.lower stderr.toList)

def loginGuidance (binary : String) : String :=
  if binary = "claude" then "Run \u0060claude auth login\u0060 before starting agent-os."
  else if binary = "codex" then "Run \u0060codex login\u0060 before starting agent-os."
  else "Authenticate " ++ binary ++ " before starting agent-os."

/-- The message up to the excerpt. -/
def Failure.lead (cases : CaseTable) : Failure → String
  | .timedOut binary timeoutSeconds _ =>
      "Command '" ++ binary ++ "' timed out after " ++ toString timeoutSeconds ++
        " seconds. Stderr excerpt: "
  | .exited binary returncode stderr =>
      if mentionsAuth cases stderr then
        "Command '" ++ binary ++ "' failed due to authentication. " ++ loginGuidance binary ++
          " Subprocesses are noninteractive and cannot complete login. Stderr excerpt: "
      else
        "Command '" ++ binary ++ "' failed with return code " ++ toString returncode ++
          ". Stderr excerpt: "
  | .codexNotJson error _ => "Failed to parse Codex JSON output: " ++ error ++ ". Excerpt: "
  | .noClaudePayload _ => "No valid JSON payload found in Claude output. Excerpt: "

/-- The message of an exception. -/
def Failure.message (cases : CaseTable) (letters : LetterTable) (env : Environ)
    (failure : Failure) : String :=
  failure.lead cases ++ excerpt letters env failure.cut failure.output

/-- The message shows no character of a secret in the output. -/
def Failure.HidesSecrets (letters : LetterTable) (env : Environ) (failure : Failure) : Prop :=
  AgentOs.HidesSecrets letters env failure.cut failure.output

/-! ### The commands -/

inductive CliException where
  /-- `CliBackendError` for an argument -/
  | forbidden (message : String)
  | valueError (message : String)
  | failed (failure : Failure)
deriving DecidableEq, Repr

/-- What the standard error of a stopped process holds. -/
inductive Captured where
  | missing
  | bytes (b : List UInt8)
  | text (s : String)
deriving DecidableEq, Repr

/-- `_coerce_text` -/
def coerceText (decode : List UInt8 → String) : Captured → String
  | .missing => ""
  | .bytes b => decode b
  | .text s => s

structure ProcessCall where
  cmd : List String
  cwd : String
  timeoutSeconds : Int
  env : Environ
deriving DecidableEq, Repr

inductive ProcessOutcome where
  /-- `subprocess.TimeoutExpired` -/
  | timedOut (stderr : Captured)
  | completed (returncode : Int) (stdout stderr : String)
deriving DecidableEq, Repr

/-- What a command meets. -/
structure CliWorld where
  letters : LetterTable
  cases : CaseTable
  environ : Environ
  which : String → Option String
  sandboxRoot : String
  subprocessRun : ProcessCall → ProcessOutcome
  /-- `bytes.decode` with `errors="replace"` -/
  decode : List UInt8 → String

/-- `_FORBIDDEN_CLI_ARGS` -/
def forbiddenCliArgs : List String :=
  ["-C", "--add-dir", "--allow-dangerously-skip-permissions", "--cd", "--cwd",
    "--dangerously-bypass-approvals-and-sandbox", "--dangerously-skip-permissions", "--workdir",
    "--working-directory"]

/-- `_FORBIDDEN_CLI_ARG_PREFIXES` -/
def forbiddenCliArgPrefixes : List String :=
  (forbiddenCliArgs.filter (Text.startsWith · "--")).map (· ++ "=")

/-- `_validate_cli_args`: the message of the exception. -/
def validateCliArgs : List String → Option String
  | [] => none
  | arg :: args =>
      if forbiddenCliArgs.contains arg || forbiddenCliArgPrefixes.any (Text.startsWith arg) then
        some ("CLI argument '" ++ arg ++ "' is forbidden because it can expand sandbox access")
      else if (arg = "-s" || arg = "--sandbox") && args.head? = some "danger-full-access" then
        some "CLI sandbox mode 'danger-full-access' is forbidden"
      else if arg = "--permission-mode" && args.head? = some "bypassPermissions" then
        some "CLI permission mode 'bypassPermissions' is forbidden"
      else if arg = "--sandbox=danger-full-access" then
        some "CLI sandbox mode 'danger-full-access' is forbidden"
      else if arg = "--permission-mode=bypassPermissions" then
        some "CLI permission mode 'bypassPermissions' is forbidden"
      else validateCliArgs args

/-- `ensure_binary` -/
def ensureBinary (world : CliWorld) (binaryName : String) : Except CliException String :=
  match world.which binaryName with
  | some path => .ok path
  | none => .error (.valueError ("Binary '" ++ binaryName ++
      "' not found on PATH. Please ensure it is installed and authenticated."))

/-- `build_safe_subprocess_env` -/
def buildSafeSubprocessEnv (letters : LetterTable) (env : Environ) : Environ :=
  env.filter fun variable_ => !isSensitiveKey letters variable_.1

/-- `run_cli_command`: the standard output and the standard error of a command that succeeds. -/
def runCliCommand (world : CliWorld) (binary : String) (args : List String)
    (timeoutSeconds : Int) : Except CliException (String × String) :=
  match validateCliArgs args with
  | some message => .error (.forbidden message)
  | none => do
      let binaryPath ← ensureBinary world binary
      match world.subprocessRun ⟨binaryPath :: args, world.sandboxRoot, timeoutSeconds,
        buildSafeSubprocessEnv world.letters world.environ⟩ with
      | .timedOut stderr =>
          .error (.failed (.timedOut binary timeoutSeconds (coerceText world.decode stderr)))
      | .completed returncode stdout stderr =>
          if returncode ≠ 0 then .error (.failed (.exited binary returncode stderr))
          else .ok (stdout, stderr)

/-- A Codex output file: its path, and its text or the error of reading it, if it exists. -/
structure CodexOutputFile where
  path : String
  contents : Option (Except String String)

/-- The name of a value's type. -/
def pyTypeName : Json → String
  | .null => "NoneType"
  | .bool _ => "bool"
  | .num text => if text.toList.all (fun c => c.isDigit || c = '-') then "int" else "float"
  | .str _ => "str"
  | .arr _ => "list"
  | .obj _ => "dict"

/-- `parse_codex_output_file`, with the texts of the reader's errors. -/
def parseCodexOutputFile (json : JsonReader) (errorText : String → String)
    (file : CodexOutputFile) : Except CliException Fields :=
  match file.contents with
  | none => .error (.valueError ("Codex output file not found: " ++ file.path))
  | some (.error e) => .error (.valueError ("Failed to read Codex output file: " ++ e))
  | some (.ok content) =>
      match json.read content with
      | .notJson => .error (.failed (.codexNotJson (errorText content) content))
      | .refused =>
          .error (.valueError ("Failed to read Codex output file: " ++ errorText content))
      | .value (.obj fields) => .ok fields
      | .value data => .error (.valueError
          ("Expected Codex output to be a JSON object, got " ++ pyTypeName data))

section

variable {cases : CaseTable} {letters : LetterTable} {env : Environ} {failure : Failure}

/-- A message is its lead, and the characters of the marked excerpt. -/
theorem message_shown : (failure.message cases letters env).toList =
    (failure.lead cases).toList ++
      (markedExcerpt letters env failure.cut failure.output).map Prod.fst := by
  rw [Failure.message, String.toList_append, map_markedExcerpt]

/-- **No exception shows a part of a secret, where its slice cuts no occurrence of one and no step
of the redaction breaks one.** -/
theorem failure_hides_secrets (letters : LetterTable) (env : Environ) (failure : Failure)
    (whole : CutsNoSecret letters env failure.cut failure.output)
    (unbroken : BreaksNoSecret letters env failure.cut failure.output) :
    failure.HidesSecrets letters env :=
  excerpt_hides_secrets whole unbroken

/-- The letters of ASCII. -/
def asciiLetters : LetterTable := ⟨fun c => [c.toUpper], fun c d => c.toLower = d.toLower⟩

theorem failure_hides_token :
    (Failure.exited "codex" 1 "x abcd y").HidesSecrets asciiLetters [("API_TOKEN", "abcd")] :=
  failure_hides_secrets _ _ _ (by decide +kernel) (by decide +kernel)

/-- **Of a value that contains one of an earlier variable, the rest is shown.** -/
theorem nested_secret_shown : ¬ ∀ (letters : LetterTable) (env : Environ) (failure : Failure),
    failure.HidesSecrets letters env := by
  intro hides
  have shown : ('e', some 4) ∈ markedExcerpt asciiLetters
      [("A_TOKEN", "abcd"), ("B_TOKEN", "abcdefgh")] (.last 1000) "abcdefgh" := by decide +kernel
  refine hides asciiLetters [("A_TOKEN", "abcd"), ("B_TOKEN", "abcdefgh")]
    (.exited "codex" 1 "abcdefgh") 'e' 4 shown ?_
  exact ⟨"abcdefgh".toList, by decide +kernel, 0, by decide +kernel, by decide, by decide⟩

/-- The whole output of a failed command is the standard error of its process. -/
theorem runCliCommand_failed {world : CliWorld} {binary : String} {args : List String}
    {timeoutSeconds : Int}
    (raised : runCliCommand world binary args timeoutSeconds = .error (.failed failure)) :
    ∃ call, (∃ stderr, world.subprocessRun call = .timedOut stderr ∧
        failure.output = coerceText world.decode stderr) ∨
      ∃ returncode stdout, world.subprocessRun call = .completed returncode stdout failure.output := by
  unfold runCliCommand at raised
  split at raised
  · cases raised
  · unfold ensureBinary at raised
    cases found : world.which binary with
    | none =>
        rw [found] at raised
        cases raised
    | some path =>
        rw [found] at raised
        let call : ProcessCall := ⟨path :: args, world.sandboxRoot, timeoutSeconds,
          buildSafeSubprocessEnv world.letters world.environ⟩
        refine ⟨call, ?_⟩
        change (match world.subprocessRun call with
          | .timedOut stderr => _
          | .completed returncode stdout stderr => _) = _ at raised
        split at raised
        · rename_i stderr outcome
          cases raised
          exact .inl ⟨stderr, outcome, rfl⟩
        · rename_i returncode stdout stderr outcome
          split_ifs at raised
          cases raised
          exact .inr ⟨returncode, stdout, outcome⟩

end

end AgentOs
