import AgentOs.Lib.JsonPretty
import AgentOs.Server.RunExecutor

/-!
A failed skill result on its way to the ledger.

The dispatcher writes the result as JSON into the tool channel, at most 50 KiB of it
(`nodes/tool_dispatcher.py`), and the end of the run reads the JSON again for the status and the
errors (`server/run_executor.py`). A text that was cut is no JSON, and the reader then falls
back on it as the one error.

`failure_survives_iff` says which results keep their status and errors.
-/

namespace AgentOs

open AgentOs.Lib

/-! ### Integers that the reader refuses -/

/-- `sys.get_int_max_str_digits()`. -/
def intMaxStrDigits : ℕ := 4300

/-- A character of a number. -/
def isNumberChar (c : Char) : Bool :=
  c.isDigit || c ∈ ['-', '+', '.', 'e', 'E']

/-- The number of digits of an integer that has too many. -/
def tooManyDigits (literal : List Char) : Option ℕ :=
  let digits := literal.dropWhile (· = '-')
  if digits.all Char.isDigit && intMaxStrDigits < digits.length then some digits.length else none

/-- The first integer of too many digits in a JSON text, after the number characters `literal`. -/
def longInteger (quoted escaped : Bool) (literal : List Char) : List Char → Option ℕ
  | [] => tooManyDigits literal
  | c :: cs =>
      if quoted then
        if escaped then longInteger true false [] cs
        else if c = '\\' then longInteger true true [] cs
        else longInteger (c ≠ '"') false [] cs
      else if isNumberChar c then longInteger false false (literal ++ [c]) cs
      else (tooManyDigits literal).orElse fun _ => longInteger (c = '"') false [] cs

/-- What `json.loads` raises of a text that is JSON. -/
def jsonValueError (text : String) : Option String :=
  (longInteger false false [] text.toList).map fun digits =>
    "Exceeds the limit (4300 digits) for integer string conversion: value has " ++
      toString digits ++ " digits; use sys.set_int_max_str_digits() to increase the limit"

/-! ### What is recorded -/

/-- The status and message that `execute_run` records of an unsuccessful tool: only a
`JSONDecodeError` is caught where the output is read, and what else is raised there ends the
run. -/
def recordedFailure (state : SimonState) : Option (RunStatus × String) :=
  match terminalToolFailure state with
  | none => none
  | some failure =>
      match state.toolResult.bind fun result =>
          if (Json.loads result.output).isSome then jsonValueError result.output else none with
      | some raised => some (.error, raised)
      | none => some failure

/-- The state after the dispatcher has reported what a skill returned. -/
def reported (state : SimonState) (tool : String) (r : ExecutionResult) : SimonState :=
  state.apply (reportTool tool (.result r)).update

/-- A failure is recorded, as cancelled exactly for a cancelled result and else as an error, and
its message has every error of the result that says something. -/
def FailureSurvives (r : ExecutionResult) (recorded : Option (RunStatus × String)) : Prop :=
  ∃ status message, recorded = some (status, message) ∧
    status = (if r.status = .cancelled then .cancelled else .error) ∧
    ∀ e ∈ r.errors, ¬ Text.isBlank e → Occurs e message

/-- The JSON text of a result. -/
def ExecutionResult.json (r : ExecutionResult) : String :=
  r.toJson.pretty

/-- The JSON text fits and has no integer that the reader refuses. -/
def ReadsBack (r : ExecutionResult) : Prop :=
  Text.utf8Length r.json ≤ dispatcherOutputMaxBytes ∧ longInteger false false [] r.json.toList = none

/-- The message that stands for the errors of a result that is not read back. -/
def shownInstead (tool : String) (r : ExecutionResult) : String :=
  if Text.utf8Length r.json ≤ dispatcherOutputMaxBytes then (jsonValueError r.json).getD ""
  else
    let kept := (truncateUtf8 r.json dispatcherOutputMaxBytes).1
    if kept = "" then (if tool = "" then "tool" else tool) ++ " did not complete successfully"
    else kept

/-! ### A text that is read back -/

section

variable (r : ExecutionResult)

theorem normalItems_texts (items : List String) :
    Json.normalItems (items.map .str) = items.map .str := by
  induction items with
  | nil => rfl
  | cons item items ih =>
      rw [List.map_cons, Json.normalItems, Json.normal, ih]

/-- The status is among what a reader of the JSON gets. -/
theorem normal_toJson_status :
    r.toJson.normal.field? "status" = some (.str r.status.text) := by
  unfold ExecutionResult.toJson
  cases r.coding <;>
    simp [Json.normal, Json.normalFields, Json.setField, Json.field?, texts]

theorem normal_toJson_errors :
    r.toJson.normal.field? "errors" = some (.arr (r.errors.map .str)) := by
  unfold ExecutionResult.toJson
  cases r.coding <;>
    simp [Json.normal, Json.normalFields, Json.setField, Json.field?, texts, List.lookup_cons,
      normalItems_texts]

theorem reportsCancelled_normal :
    reportsCancelled (some r.toJson.normal) = decide (r.status = .cancelled) := by
  unfold reportsCancelled
  rw [Option.bind_some, normal_toJson_status]
  cases r.status <;> rfl

theorem listedErrors_normal :
    listedErrors (some r.toJson.normal) = r.errors.filter fun e => !Text.isBlank e := by
  unfold listedErrors
  rw [Option.bind_some, normal_toJson_errors]
  simp only [List.map_map]
  congr 1
  exact List.map_id _

end

/-! ### A text that was cut -/

/-- A text that begins with the truncation marker is no JSON. -/
theorem loads_marked (cs : List Char) : Json.loads (.ofList ("[truncated ".toList ++ cs)) = none := by
  have no_value : ∀ n rest, Json.value n ('t' :: 'r' :: 'u' :: 'n' :: rest) = none := by
    intro n rest
    cases n with
    | zero => rfl
    | succ n => rfl
  have no_items : ∀ n rest, Json.items n ('t' :: 'r' :: 'u' :: 'n' :: rest) = none := by
    intro n rest
    cases n with
    | zero => rfl
    | succ n =>
        rw [Json.items, Json.skipWs_token (by decide), no_value]
        rfl
  unfold Json.loads
  rw [String.toList_ofList]
  have none : ∀ n, Json.value n ('[' :: 't' :: 'r' :: 'u' :: 'n' :: ("cated ".toList ++ cs)) = none := by
    intro n
    cases n with
    | zero => rfl
    | succ n =>
        rw [Json.value_arr (by rw [Json.skipWs_token (by decide)]; simp), no_items]
        rfl
  rw [show "[truncated ".toList ++ cs = '[' :: 't' :: 'r' :: 'u' :: 'n' :: ("cated ".toList ++ cs)
    from rfl, Json.skipWs_token (by decide), none]

theorem marked (bytes : ℕ) (kept : List Char) : truncationMarker bytes ++ String.ofList kept =
    .ofList ("[truncated ".toList ++ ((toString bytes).toList ++ (" bytes]\n".toList ++ kept))) := by
  refine String.toList_inj.mp ?_
  simp only [truncationMarker, String.toList_append, String.toList_ofList, List.append_assoc]

/-- What is kept of a text that is cut: nothing, or the marker and a part of it. -/
theorem truncateUtf8_of_lt {text : String} {maxBytes : ℕ} (long : maxBytes < Text.utf8Length text) :
    (truncateUtf8 text maxBytes).1 = "" ∨
      ∃ cs, (truncateUtf8 text maxBytes).1 = .ofList ("[truncated ".toList ++ cs) := by
  unfold truncateUtf8
  simp only [if_neg (Nat.not_le.mpr long)]
  split_ifs
  · exact .inl rfl
  · exact .inr ⟨_, marked _ _⟩

/-! ### The message -/

theorem join_ne_empty {sep : String} {parts : List String} {part : String} (mem : part ∈ parts)
    (some_ : part ≠ "") : Text.join sep parts ≠ "" := by
  intro empty
  have inside := occurs_join sep mem
  rw [Occurs, empty] at inside
  exact some_ (String.toList_inj.mp (List.eq_nil_of_infix_nil inside))

section

variable (state : SimonState) (tool : String) {r : ExecutionResult}

theorem reported_toolResult (r : ExecutionResult) : (reported state tool r).toolResult =
    some { tool := tool, output := (truncateUtf8 r.json dispatcherOutputMaxBytes).1,
           success := r.success } := rfl

theorem success_eq_false (failed : r.status ≠ .completed) : r.success = false := by
  simpa [ExecutionResult.success] using failed

/-- What is recorded of a result whose text fits. -/
theorem terminalToolFailure_of_fits (failed : r.status ≠ .completed) (written : r.toJson.Written)
    (fits : Text.utf8Length r.json ≤ dispatcherOutputMaxBytes) :
    ∃ message, terminalToolFailure (reported state tool r) =
        some (if r.status = .cancelled then .cancelled else .error, message) ∧
      ∀ e ∈ r.errors, ¬ Text.isBlank e → Occurs e message := by
  have reads : Json.loads r.json = some r.toJson.normal := Json.loads_pretty written
  unfold terminalToolFailure
  rw [reported_toolResult, truncateUtf8_of_le fits, success_eq_false failed]
  simp only [Bool.false_eq_true, if_false, reads, reportsCancelled_normal, listedErrors_normal,
    decide_eq_true_eq]
  refine ⟨_, rfl, fun e mem tells => ?_⟩
  have listed : e ∈ r.errors.filter fun e => !Text.isBlank e :=
    List.mem_filter.mpr ⟨mem, by simpa using tells⟩
  have some_ : e ≠ "" := by
    rintro rfl
    exact tells rfl
  rw [if_neg (by
    rw [if_neg (by simp [List.ne_nil_of_mem listed])]
    exact join_ne_empty listed some_), if_neg (by simp [List.ne_nil_of_mem listed])]
  exact occurs_join _ listed

/-- What is recorded of a result whose text is cut. -/
theorem terminalToolFailure_of_cut (failed : r.status ≠ .completed)
    (long : ¬ Text.utf8Length r.json ≤ dispatcherOutputMaxBytes) :
    Json.loads (truncateUtf8 r.json dispatcherOutputMaxBytes).1 = none ∧
      terminalToolFailure (reported state tool r) = some (.error, shownInstead tool r) := by
  unfold terminalToolFailure shownInstead
  rw [reported_toolResult, success_eq_false failed, if_neg long]
  rcases truncateUtf8_of_lt (Nat.not_le.mp long) with none | ⟨cs, marked⟩
  · rw [none]
    exact ⟨by decide, rfl⟩
  · rw [marked]
    have refused := loads_marked cs
    have some_ : String.ofList ("[truncated ".toList ++ cs) ≠ "" := by
      intro empty
      have := congrArg String.toList empty
      rw [String.toList_ofList] at this
      cases this
    have tells : Text.isBlank (.ofList ("[truncated ".toList ++ cs)) = false := by
      rw [Text.isBlank, String.toList_ofList]
      rfl
    refine ⟨refused, ?_⟩
    simp only [Bool.false_eq_true, if_false, refused, reportsCancelled, listedErrors,
      Option.bind_none, tells, Bool.not_false, Bool.and_true, decide_true, if_true,
      String.intercalate_singleton, Text.join, if_neg some_]

/-- What is recorded as an error. -/
theorem survives_error_iff (r : ExecutionResult) (message : String) :
    FailureSurvives r (some (.error, message)) ↔
      r.status ≠ .cancelled ∧ ∀ e ∈ r.errors, ¬ Text.isBlank e → Occurs e message := by
  constructor
  · rintro ⟨_, _, same, status, errors⟩
    cases same
    refine ⟨fun cancelled => ?_, errors⟩
    rw [if_pos cancelled] at status
    cases status
  · rintro ⟨other, errors⟩
    exact ⟨_, _, rfl, (if_neg other).symm, errors⟩

end

/-- **Failures survive exactly where the text is read back.** Elsewhere a failure is recorded
as an error, with a text that holds the result's errors by chance. -/
theorem failure_survives_iff (state : SimonState) (tool : String) (r : ExecutionResult)
    (failed : r.status ≠ .completed) (written : r.toJson.Written) :
    FailureSurvives r (recordedFailure (reported state tool r)) ↔
      ReadsBack r ∨ r.status ≠ .cancelled ∧
        ∀ e ∈ r.errors, ¬ Text.isBlank e → Occurs e (shownInstead tool r) := by
  by_cases fits : Text.utf8Length r.json ≤ dispatcherOutputMaxBytes
  · have reads : Json.loads r.json = some r.toJson.normal := Json.loads_pretty written
    obtain ⟨message, decoded, errors⟩ := terminalToolFailure_of_fits state tool failed written fits
    cases refused : longInteger false false [] r.json.toList with
    | none =>
        have recorded : recordedFailure (reported state tool r) =
            some (if r.status = .cancelled then .cancelled else .error, message) := by
          simp only [recordedFailure, decoded, reported_toolResult, truncateUtf8_of_le fits,
            Option.bind_some, reads, jsonValueError, refused, Option.map_none, ite_self]
        exact iff_of_true ⟨_, message, recorded, rfl, errors⟩ (.inl ⟨fits, refused⟩)
    | some digits =>
        have recorded : recordedFailure (reported state tool r) =
            some (.error, shownInstead tool r) := by
          simp only [recordedFailure, decoded, reported_toolResult, truncateUtf8_of_le fits,
            Option.bind_some, reads, jsonValueError, refused, Option.map_some, Option.isSome_some,
            if_true, shownInstead, if_pos fits, Option.getD_some]
        rw [recorded, survives_error_iff]
        exact (or_iff_right fun back => by cases refused.symm.trans back.2).symm
  · obtain ⟨unread, decoded⟩ := terminalToolFailure_of_cut state tool failed fits
    have recorded : recordedFailure (reported state tool r) =
        some (.error, shownInstead tool r) := by
      simp only [recordedFailure, decoded, reported_toolResult, Option.bind_some, unread,
        Option.isSome_none, Bool.false_eq_true, if_false]
    rw [recorded, survives_error_iff]
    exact (or_iff_right fun back => fits back.1).symm

/-- A cancelled result with one error. -/
def stoppedByUser : ExecutionResult where
  status := .cancelled
  errors := ["stopped by the user"]

theorem stopped_survives :
    FailureSurvives stoppedByUser (recordedFailure (reported {} "bash" stoppedByUser)) := by
  refine (failure_survives_iff {} "bash" stoppedByUser (by decide) ?_).mpr (.inl ⟨?_, ?_⟩)
  · simp [stoppedByUser, ExecutionResult.toJson, texts, Json.Written, Json.WrittenFields,
      Json.WrittenItems]
  · decide +kernel
  · decide +kernel

/-- A cancelled result with an output. -/
def cancelledAfter (stdout : String) : ExecutionResult where
  status := .cancelled
  outputs := [("stdout", .str stdout)]

theorem length_le_utf8Length (text : String) : text.toList.length ≤ Text.utf8Length text := by
  unfold Text.utf8Length
  induction text.toList with
  | nil => exact Nat.le_refl 0
  | cons c cs ih =>
      have := Char.utf8Size_pos c
      rw [List.map_cons, List.sum_cons, List.length_cons]
      omega

/-- The output is a part of the text. -/
theorem length_le_cancelledAfter (stdout : String) :
    stdout.toList.length < Text.utf8Length (cancelledAfter stdout).json := by
  refine Nat.lt_of_lt_of_le ?_ (length_le_utf8Length _)
  have body := Json.length_le_escape stdout.toList
  simp only [ExecutionResult.json, Json.pretty, ExecutionResult.toJson, cancelledAfter,
    List.cons_append, Json.toList_obj]
  simp only [Json.fieldsText, Json.toList_prettyFields, Json.toList_obj, List.drop_succ_cons,
    List.drop_zero, List.length_cons, List.length_append]
  simp only [Json.prettyAt, Json.toList_quote, List.length_cons, List.length_append]
  omega

/-- A cancelled run with 50 KiB of output is recorded as an error. -/
theorem long_cancellation_lost : ¬ ∀ (state : SimonState) (tool : String) (r : ExecutionResult),
    r.status ≠ .completed → r.toJson.Written →
      FailureSurvives r (recordedFailure (reported state tool r)) := by
  intro all
  obtain ⟨stdout, size⟩ : ∃ stdout : String, stdout.toList.length = dispatcherOutputMaxBytes :=
    ⟨.ofList (List.replicate dispatcherOutputMaxBytes 'x'), by
      rw [String.toList_ofList, List.length_replicate]⟩
  have written : (cancelledAfter stdout).toJson.Written := by
    simp [cancelledAfter, ExecutionResult.toJson, texts, Json.Written, Json.WrittenFields,
      Json.WrittenItems]
  have long : ¬ Text.utf8Length (cancelledAfter stdout).json ≤ dispatcherOutputMaxBytes := by
    rw [← size]
    exact Nat.not_le.mpr (length_le_cancelledAfter stdout)
  have failed : (cancelledAfter stdout).status ≠ .completed := fun same => by cases same
  obtain ⟨unread, decoded⟩ := terminalToolFailure_of_cut {} "bash" failed long
  have survives := all {} "bash" _ failed written
  simp only [recordedFailure, decoded, reported_toolResult, Option.bind_some, unread,
    Option.isSome_none, Bool.false_eq_true, if_false, survives_error_iff] at survives
  exact survives.1 rfl

end AgentOs
