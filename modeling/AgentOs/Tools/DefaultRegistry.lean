import AgentOs.Tools.Skills

/-!
Parsing explicit commands without a model (`default_registry.py`).

`parseTier1Request` answers `.ok none` where the task is no explicit command (or
its handler has no single text argument), and an error where the command is
malformed.
-/

namespace AgentOs

open AgentOs.Lib

/-! ### `shlex.split` -/

/-- The scanner's state. In `escaped q` the last character was a backslash; `q`
is the quote it stands in, if any. -/
inductive ShlexState where
  | blank
  | word
  | quoted (quote : Char)
  | escaped (inside : Option Char)
deriving DecidableEq, Repr

def isQuote (c : Char) : Bool := c = '"' || c = '\''

def isShellSpace (c : Char) : Bool := c = ' ' || c = '\t' || c = '\r' || c = '\n'

/-- Scan the rest of a text. `token` is the current token reversed, `anyQuote`
says whether a quote was opened in it (an empty quoted token counts), and `out`
holds the finished tokens reversed. -/
def shlexScan : ShlexState → (token : List Char) → (anyQuote : Bool) → (out : List String) →
    List Char → Except String (List String)
  | .quoted _, _, _, _, [] => .error "No closing quotation"
  | .escaped _, _, _, _, [] => .error "No escaped character"
  | _, token, anyQuote, out, [] =>
      .ok (if token ≠ [] || anyQuote then (.ofList token.reverse :: out).reverse else out.reverse)
  | .blank, token, anyQuote, out, c :: cs =>
      if isShellSpace c then shlexScan .blank token anyQuote out cs
      else if c = '\\' then shlexScan (.escaped none) token anyQuote out cs
      else if isQuote c then shlexScan (.quoted c) token true out cs
      else shlexScan .word (c :: token) anyQuote out cs
  | .word, token, anyQuote, out, c :: cs =>
      if isShellSpace c then
        if token ≠ [] || anyQuote then
          shlexScan .blank [] false (.ofList token.reverse :: out) cs
        else shlexScan .blank token anyQuote out cs
      else if isQuote c then shlexScan (.quoted c) token true out cs
      else if c = '\\' then shlexScan (.escaped none) token anyQuote out cs
      else shlexScan .word (c :: token) anyQuote out cs
  | .quoted q, token, anyQuote, out, c :: cs =>
      if c = q then shlexScan .word token anyQuote out cs
      else if c = '\\' && q = '"' then shlexScan (.escaped (some q)) token anyQuote out cs
      else shlexScan (.quoted q) (c :: token) anyQuote out cs
  | .escaped none, token, anyQuote, out, c :: cs =>
      shlexScan .word (c :: token) anyQuote out cs
  | .escaped (some q), token, anyQuote, out, c :: cs =>
      -- inside double quotes a backslash escapes only itself and the quote
      if c ≠ '\\' && c ≠ q then shlexScan (.quoted q) (c :: '\\' :: token) anyQuote out cs
      else shlexScan (.quoted q) (c :: token) anyQuote out cs

/-- `shlex.split`. -/
def shlexSplit (s : String) : Except String (List String) :=
  shlexScan .blank [] false [] s.toList

/-! ### The tier-1 parser -/

section Parser

variable {H : Type} (parameters : H → List String)

/-- `_single_text_argument_name`: the only argument a handler takes. -/
def singleTextArgumentName (skill : RegisteredSkill H) : Option String :=
  match parameters skill.handler with
  | [name] => some name
  | _ => none

/-- The arguments of an explicit `write_file` command. -/
def parseWriteFile (argumentsText : String) : Except String RouterDecision :=
  match Text.cut argumentsText "::" with
  | none => .error "Malformed write command: missing '::' separator"
  | some (path, content) =>
      if Text.strip path = "" then .error "Missing path for write command"
      else if Text.strip content = "" then .error "Missing content for write command"
      else .ok (.certain "write_file"
        [("path", .str (Text.strip path)), ("content", .str (Text.strip content))])

/-- The arguments of an explicit `bash` command. -/
def parseBash (argumentsText : String) : Except String RouterDecision :=
  match shlexSplit argumentsText with
  | .error e => .error ("Malformed bash command: " ++ e)
  | .ok [] => .error "Empty bash command"
  | .ok args => .ok (.certain "bash" [("cmd_args", texts args)])

/-- The mode and the reference of a memory write: one or two words before `::`. -/
def parseDestination (destination : String) : Except String (String × String) :=
  let malformed := "Malformed memory write command. Use " ++
    "memory_write [\x7bappend|create|overwrite\x7d] <ref> :: <content>"
  match Text.words (Text.strip destination) with
  | [ref] => .ok ("create", ref)
  | [mode, ref] =>
      if (MemoryWriteMode.ofText? mode).isSome then .ok (mode, ref) else .error malformed
  | _ => .error malformed

/-- The arguments of an explicit `memory_write` command. -/
def parseMemoryWrite (argumentsText : String) : Except String RouterDecision :=
  match Text.cut argumentsText "::" with
  | none => .error "Malformed memory write command: missing '::' separator"
  | some (destination, content) =>
      if Text.strip content = "" then .error "Missing content for memory write command"
      else do
        let (mode, ref) ← parseDestination destination
        if ref = "" then .error "Missing ref for memory write command"
        else
          .ok (.certain "memory_write"
            [("ref", .str ref), ("content", .str (Text.strip content)), ("mode", .str mode)])

/-- `parse_tier1_request`. -/
def parseTier1Request (text : String) (registry : SkillRegistry H) :
    Except String (Option RouterDecision) :=
  match registry.deterministicMatch text with
  | none => .ok none
  | some skill =>
      match Text.splitFirst (Text.strip text) with
      | _ :: argumentsWord :: _ =>
          let argumentsText := Text.strip argumentsWord
          if skill.name = "read_file" then
            .ok (some (.certain "read_file" [("path", .str argumentsText)]))
          else if skill.name = "write_file" then (parseWriteFile argumentsText).map some
          else if skill.name = "bash" then (parseBash argumentsText).map some
          else if skill.name = "memory_write" then (parseMemoryWrite argumentsText).map some
          else
            .ok ((singleTextArgumentName parameters skill).map fun argumentName =>
              .certain skill.name [(argumentName, .str argumentsText)])
      | _ => .error ("Missing arguments for command '" ++ skill.name ++ "'")

/-- A task no skill answers to is no explicit command. -/
theorem parseTier1Request_of_no_match {text : String} {registry : SkillRegistry H}
    (h : registry.deterministicMatch text = none) :
    parseTier1Request parameters text registry = .ok none := by
  simp only [parseTier1Request, h]

example : shlexSplit "git commit -m \"a \\\"b\\\" 'c'\" ''" =
    .ok ["git", "commit", "-m", "a \"b\" 'c'", ""] := by decide

end Parser

end AgentOs
