import AgentOs.Lib.Cutting
import AgentOs.Lib.JsonBrackets
import AgentOs.Lib.LazySearch

/-!
Payloads in the output of a command line backend (`cli_backends.py`).

`parseJsonTextPayload` reads a JSON object from a text in which it may stand inside of a Markdown
fence, and `extractClaudeEventPayload` takes the payload out of one event of the stream.

The fence is searched before the text is read as JSON. `payload_roundtrip_iff`: the object comes
back, bare and fenced, exactly where its text has no three backticks in a row.
-/

namespace AgentOs

open AgentOs.Lib

/-- The members of a JSON object: a `dict`. -/
abbrev Fields := List (String × Json)

/-- What `json.loads` does with a text. -/
inductive JsonReading where
  | value (j : Json)
  /-- it raises `JSONDecodeError` -/
  | notJson
  /-- it raises an error of another kind: at an integer of more than 4300 digits, or where the
  values are nested beyond the recursion limit -/
  | refused

/-- `json.loads`, with the interpreter's own limits. -/
structure JsonReader where
  read : String → JsonReading
  loads_of_value : ∀ {text j}, read text = .value j → Json.loads text = some j
  loads_of_notJson : ∀ {text}, read text = .notJson → Json.loads text = none

/-- An exception. -/
inductive Raised where
  | valueError (message : String)
  /-- the error of a reader that refuses a text -/
  | refused
  /-- `unhashable type` -/
  | typeError
deriving DecidableEq, Repr

/-- ```` ```(?:json)?\s* ```` -/
def fenceStart : Regex :=
  .seq (.literal (· == ·) "```".toList)
    (.seq (.optional (.literal (· == ·) "json".toList)) (.optional (.many Text.isSpace)))

/-- ```` \s*``` ```` -/
def fenceEnd : Regex :=
  .seq (.optional (.many Text.isSpace)) (.literal (· == ·) "```".toList)

/-- The object that was read, if it is one. -/
def JsonReading.object : JsonReading → Except Raised (Option Fields)
  | .value (.obj fields) => .ok (some fields)
  | .value _ => .ok none
  | .notJson => .ok none
  | .refused => .error .refused

/-- `_parse_json_text_payload` -/
def parseJsonTextPayload (json : JsonReader) (text : String) : Except Raised (Option Fields) :=
  let text := Text.strip text
  if text = "" then .ok none
  else
    match Regex.searchBetween fenceStart fenceEnd text.toList with
    | some group => (json.read (Text.strip (.ofList group))).object
    | none => (json.read text).object

/-- The loop over the content blocks of a message. -/
def firstTextPayload (json : JsonReader) : List Json → Except Raised (Option Fields)
  | [] => .ok none
  | .obj block :: blocks =>
      match block.lookup "type" with
      | some (.str "text") => do
          match ← parseJsonTextPayload json ((block.lookup "text").getD (.str "")).toText with
          | some fields => return some fields
          | none => firstTextPayload json blocks
      | _ => firstTextPayload json blocks
  | _ :: blocks => firstTextPayload json blocks

/-- `_extract_claude_event_payload` -/
def extractClaudeEventPayload (json : JsonReader) (event : Fields) :
    Except Raised (Option Fields) :=
  match event.lookup "type" with
  | some (.str "result") =>
      match event.lookup "structured_output", event.lookup "result" with
      | some (.obj fields), _ => .ok (some fields)
      | _, some (.obj fields) => .ok (some fields)
      | _, some (.str text) => parseJsonTextPayload json text
      | _, _ => .ok none
  | some (.str "assistant") | some (.str "message") =>
      match (event.lookup "message").bind (Json.field? "content") with
      | some (.arr content) => firstTextPayload json content.reverse
      | _ => .ok none
  -- the test against a set of names hashes the type
  | some (.arr _) | some (.obj _) => .error .typeError
  | some .null | none => .ok (some event)
  | some _ => .ok none

/-- The text of a JSON object. -/
structure ObjectText where
  text : String
  fields : Fields
  inner : List Char
  braces : text = .ofList ('\x7b' :: inner ++ ['\x7d'])
  reads : Json.loads text = some (.obj fields)

/-- A fence around a text, with white space around it and inside. -/
structure FenceSetting where
  before : List Char
  opened : List Char
  closed : List Char
  after : List Char
  blank : ∀ c ∈ before ++ opened ++ closed ++ after, Text.isSpace c = true

/-- The text in its fence. -/
def FenceSetting.around (setting : FenceSetting) (text : String) : String :=
  .ofList (setting.before ++ "```json".toList ++ setting.opened ++ text.toList ++
    setting.closed ++ "```".toList ++ setting.after)

/-- The object comes back from its text, bare and in any fence. -/
def ComesBack (json : JsonReader) (object : ObjectText) : Prop :=
  parseJsonTextPayload json object.text = .ok (some object.fields) ∧
    ∀ setting : FenceSetting,
      parseJsonTextPayload json (setting.around object.text) = .ok (some object.fields)

/-- Three backticks in a row. -/
def HasFence (text : String) : Prop := "```".toList <:+: text.toList

section

variable {json : JsonReader} {left right text gap : List Char} {object : ObjectText}

/-! ### The fence expressions -/

theorem fenceStart_absent (absent : ¬ "```".toList <+: right) :
    fenceStart.tries ⟨left, right⟩ = [] := by
  by_contra present
  obtain ⟨matched, mem⟩ := List.exists_mem_of_ne_nil _ present
  obtain ⟨read, rest, spelled, same, _⟩ := Regex.of_seq_literal mem
  rw [Regex.spelled_eq spelled] at same
  exact absent ⟨rest, same.symm⟩

/-- The start of a fence reads the white space in front of an object. -/
theorem fenceStart_head (blank : ∀ c ∈ gap, Text.isSpace c = true) :
    (fenceStart.tries ⟨left, "```".toList ++ ("json".toList ++ (gap ++ '\x7b' :: text))⟩).head? =
      some { stop := ⟨gap.reverse ++ ("json".toList.reverse ++ ("```".toList.reverse ++ left)),
        '\x7b' :: text⟩ } := by
  have same : ∀ c : Char, (c == c) = true := beq_self_eq_true
  have space : ∀ c, ('\x7b' :: text).head? = some c → Text.isSpace c = false := by
    rintro c ⟨⟩
    decide
  exact Regex.head_seq (Regex.head_literal same)
    (Regex.head_seq (Regex.head_optional (Regex.head_literal same))
      (Regex.head_optional_many blank space))

/-- The end of a fence is three backticks behind white space. -/
theorem fenceEnd_tries : fenceEnd.tries ⟨left, right⟩ ≠ [] ↔
    ∃ gap rest, (∀ c ∈ gap, Text.isSpace c = true) ∧ right = gap ++ ("```".toList ++ rest) := by
  constructor
  · intro closes
    obtain ⟨matched, mem⟩ := List.exists_mem_of_ne_nil _ closes
    obtain ⟨first, space, second, fence, rfl⟩ := Regex.mem_tries_seq.mp mem
    obtain ⟨_, read, spelled, same, _⟩ := Regex.mem_tries_literal.mp fence
    rw [Regex.spelled_eq spelled] at same
    rcases Regex.mem_tries_optional.mp space with some | rfl
    · obtain ⟨_, run, _, all, whole, _⟩ := Regex.mem_tries_many.mp some
      exact ⟨run, second.stop.right, all, by rw [← same]; exact whole⟩
    · exact ⟨[], second.stop.right, fun _ mem => (by cases mem), same⟩
  · rintro ⟨gap, rest, blank, rfl⟩
    have fence : ∀ before, { stop := ⟨"```".toList.reverse ++ before, rest⟩ } ∈
        (Regex.literal (· == ·) "```".toList).tries ⟨before, "```".toList ++ rest⟩ :=
      fun before => Regex.mem_tries_literal.mpr ⟨rfl, _, Regex.spelled_self _, rfl, rfl⟩
    cases gap with
    | nil =>
        exact List.ne_nil_of_mem (Regex.mem_tries_seq.mpr
          ⟨_, Regex.mem_tries_optional.mpr (.inr rfl), _, fence left, rfl⟩)
    | cons c gap =>
        refine List.ne_nil_of_mem (Regex.mem_tries_seq.mpr
          ⟨{ stop := ⟨(c :: gap).reverse ++ left, "```".toList ++ rest⟩ },
            Regex.mem_tries_optional.mpr (.inl ?_), _, fence _, rfl⟩)
        exact Regex.mem_tries_many.mpr ⟨rfl, c :: gap, List.cons_ne_nil _ _, blank, rfl, rfl⟩

/-! ### What the fence captures -/

theorem ObjectText.toList_text (object : ObjectText) :
    object.text.toList = '\x7b' :: (object.inner ++ ['\x7d']) := by
  rw [object.braces, String.toList_ofList, List.cons_append]

/-- A text without a fence of its own is captured whole. -/
theorem upTo_whole (blank : ∀ c ∈ gap, Text.isSpace c = true) (absent : ¬ HasFence object.text) :
    fenceEnd.upTo left (object.text.toList ++ (gap ++ "```".toList)) = some object.text.toList := by
  obtain ⟨group, found, rest, same⟩ :=
    @Regex.upTo_le _ left object.text.toList (gap ++ "```".toList)
    (fenceEnd_tries.mpr ⟨gap, [], blank, by rw [List.append_nil]⟩)
  obtain ⟨behind, whole, closes⟩ := Regex.upTo_closes found
  obtain ⟨gap', more, blank', rfl⟩ := fenceEnd_tries.mp closes
  rw [← same, List.append_assoc, List.append_cancel_left_eq, ← List.append_assoc gap'] at whole
  rcases List.append_eq_append_iff.mp whole with ⟨further, inside, _⟩ | ⟨further, inside, _⟩
  · -- the closing brace is neither white space nor a backtick
    have none : rest = [] := by
      by_contra nonempty
      have brace : '\x7d' ∈ gap' ++ "```".toList := by
        rw [inside]
        refine List.mem_append_left _ (List.mem_of_getLast? ?_)
        rw [← List.getLast?_append_of_ne_nil group nonempty, same, object.toList_text,
          ← List.cons_append, List.getLast?_concat]
      rcases List.mem_append.mp brace with space | fence
      · exact absurd (blank' _ space) (by decide)
      · exact absurd fence (by decide)
    rw [found, ← same, none, List.append_nil]
  · refine absurd ⟨group ++ gap', further, ?_⟩ absent
    rw [← same, inside]
    simp only [List.append_assoc]

/-- Of a text with a fence of its own, the group is what stands in front of that. -/
theorem upTo_cut (present : HasFence object.text) : ∃ cs more,
    fenceEnd.upTo left (object.text.toList ++ (gap ++ "```".toList)) = some ('\x7b' :: cs) ∧
      object.text.toList = '\x7b' :: (cs ++ more) ∧ '\u0060' ∈ more := by
  obtain ⟨before, after, parts⟩ := present
  have text : object.text.toList ++ (gap ++ "```".toList) =
      before ++ ("```".toList ++ (after ++ (gap ++ "```".toList))) := by
    rw [← parts]
    simp only [List.append_assoc]
  obtain ⟨group, found, rest, rfl⟩ := @Regex.upTo_le _ left _ _
    (fenceEnd_tries.mpr ⟨[], _, fun _ mem => (by cases mem), rfl⟩ :
      fenceEnd.tries ⟨before.reverse ++ left, "```".toList ++ (after ++ (gap ++ "```".toList))⟩ ≠ [])
  rw [← text] at found
  obtain ⟨behind, whole, closes⟩ := Regex.upTo_closes found
  obtain ⟨gap', more, blank', rfl⟩ := fenceEnd_tries.mp closes
  rw [object.toList_text] at whole parts
  cases group with
  | nil =>
      -- an object does not begin with the end of a fence
      cases gap' with
      | nil => exact absurd (List.cons.inj whole).1 (by decide)
      | cons c gap' =>
          obtain ⟨rfl, _⟩ := List.cons.inj whole
          exact absurd (blank' _ List.mem_cons_self) (by decide)
  | cons c cs =>
      obtain ⟨rfl, _⟩ := List.cons.inj whole
      refine ⟨cs, rest ++ ("```".toList ++ after), found, ?_, ?_⟩
      · rw [object.toList_text, ← parts]
        simp only [List.append_assoc, List.cons_append]
      · exact List.mem_append_right _ (List.mem_append_left _ (by decide))

/-! ### The payload -/

theorem strip_ofList_cons {cs : List Char} :
    Text.strip (.ofList ('\x7b' :: cs)) = .ofList ('\x7b' :: cs.rdropWhile Text.isSpace) := by
  unfold Text.strip
  rw [String.toList_ofList, List.dropWhile_cons_of_neg (by decide)]
  exact congrArg String.ofList (@Text.rdropWhile_append_cons [] _ _ _ (by decide))

/-- The beginning of an object's text in front of a backtick is no JSON text. -/
theorem cut_unread {cs more : List Char} (whole : object.text.toList = '\x7b' :: (cs ++ more))
    (tick : '\u0060' ∈ more) : Json.loads (Text.strip (.ofList ('\x7b' :: cs))) = none := by
  by_contra reads
  obtain ⟨j, reads⟩ := Option.ne_none_iff_exists'.mp reads
  rw [strip_ofList_cons] at reads
  have reads' := object.reads
  rw [← String.ofList_toList (s := object.text), whole,
    ← List.rdropWhile_append_rtakeWhile (p := Text.isSpace) (l := cs), List.append_assoc] at reads'
  have none := List.dropWhile_eq_nil_iff.mp (Json.loads_prefix reads reads') _
    (List.mem_append_right _ tick)
  exact absurd none (by decide)

theorem ObjectText.strip_text (object : ObjectText) : Text.strip object.text = object.text := by
  rw [object.braces, List.cons_append, strip_ofList_cons, List.rdropWhile_concat_neg _ _ _
    (by decide)]

/-- What is not refused is read. -/
theorem JsonReader.read_object (json : JsonReader) (object : ObjectText)
    (taken : json.read object.text ≠ .refused) :
    json.read object.text = .value (.obj object.fields) := by
  cases reading : json.read object.text with
  | value j =>
      have reads := json.loads_of_value reading
      rw [object.reads, Option.some.injEq] at reads
      rw [reads]
  | notJson =>
      have none := json.loads_of_notJson reading
      rw [object.reads] at none
      cases none
  | refused => exact absurd reading taken

/-- Without a fence of its own, the text is read as it is. -/
theorem parse_bare (absent : ¬ HasFence object.text) :
    parseJsonTextPayload json object.text = (json.read object.text).object := by
  have some : object.text ≠ "" := by
    intro none
    have text := object.toList_text
    rw [none] at text
    cases text
  unfold parseJsonTextPayload
  rw [object.strip_text, if_neg some, Regex.searchBetween_none]
  intro skipped rest split
  refine fenceStart_absent fun begins => absent ?_
  rw [HasFence, split]
  exact begins.isInfix.trans (List.suffix_append _ _).isInfix

/-- A fence around the text, without the white space around it. -/
def fenced (setting : FenceSetting) (object : ObjectText) : List Char :=
  "```".toList ++ ("json".toList ++ (setting.opened ++
    (object.text.toList ++ (setting.closed ++ "```".toList))))

theorem strip_around (setting : FenceSetting) :
    (Text.strip (setting.around object.text)).toList = fenced setting object := by
  have ticks : "```".toList = ['\u0060', '\u0060', '\u0060'] := rfl
  have json : "```json".toList = '\u0060' :: ("``".toList ++ "json".toList) := rfl
  have before : ∀ c ∈ setting.before, Text.isSpace c = true := fun c mem =>
    setting.blank c (by simp only [List.mem_append, mem, true_or])
  have after : setting.after.rdropWhile Text.isSpace = [] :=
    List.rdropWhile_eq_nil_iff.mpr fun c mem => setting.blank c (List.mem_append_right _ mem)
  have stripped := @Text.strip_between
    ("``".toList ++ "json".toList ++ setting.opened ++ object.text.toList ++ setting.closed ++
      "``".toList) setting.after _ _ '\u0060' before
    (by decide : Text.isSpace '\u0060' = false) (by decide)
  rw [after] at stripped
  have around : setting.around object.text = .ofList (setting.before ++ ('\u0060' ::
      ("``".toList ++ "json".toList ++ setting.opened ++ object.text.toList ++ setting.closed ++
        "``".toList) ++ '\u0060' :: setting.after)) := by
    rw [FenceSetting.around, json, ticks]
    refine congrArg String.ofList ?_
    simp only [List.append_assoc, List.cons_append]
    rfl
  rw [around, stripped, fenced, ticks]
  simp only [List.append_assoc, List.cons_append]
  rfl

/-- What the start of the fence has read, last character first. -/
def FenceSetting.read (setting : FenceSetting) : List Char :=
  setting.opened.reverse ++ ("json".toList.reverse ++ "```".toList.reverse)

/-- In a fence, what the fence captures is read. -/
theorem parse_fenced {group : List Char} (setting : FenceSetting)
    (captured : fenceEnd.upTo setting.read
      (object.text.toList ++ (setting.closed ++ "```".toList)) = some group) :
    parseJsonTextPayload json (setting.around object.text) =
      (json.read (Text.strip (.ofList group))).object := by
  have some : Text.strip (setting.around object.text) ≠ "" := by
    intro none
    have text := @strip_around object setting
    rw [none] at text
    cases text
  have opened : ∀ c ∈ setting.opened, Text.isSpace c = true := fun c mem =>
    setting.blank c (by simp only [List.mem_append, mem, true_or, or_true])
  have search : Regex.searchBetween fenceStart fenceEnd (fenced setting object) = group := by
    rw [fenced]
    rw [object.toList_text, List.cons_append] at captured ⊢
    exact Regex.searchBetween_start (fenceStart_head opened) captured
  unfold parseJsonTextPayload
  rw [if_neg some, strip_around, search]

theorem FenceSetting.closed_blank (setting : FenceSetting) :
    ∀ c ∈ setting.closed, Text.isSpace c = true := fun c mem =>
  setting.blank c (by simp only [List.mem_append, mem, true_or, or_true])

/-- A fence with nothing around or between. -/
def FenceSetting.bare : FenceSetting := ⟨[], [], [], [], fun _ mem => by cases mem⟩

/-- An object whose text has a fence of its own does not come back. -/
theorem not_comesBack (json : JsonReader) (present : HasFence object.text) :
    ¬ ComesBack json object := by
  rintro ⟨_, fenced⟩
  have back := fenced .bare
  obtain ⟨cs, more, captured, whole, tick⟩ :=
    @upTo_cut FenceSetting.bare.read [] object present
  rw [parse_fenced .bare captured] at back
  have unread := cut_unread whole tick
  cases reading : json.read (Text.strip (.ofList ('\x7b' :: cs))) with
  | value j =>
      rw [json.loads_of_value reading] at unread
      cases unread
  | notJson =>
      rw [reading] at back
      cases back
  | refused =>
      rw [reading] at back
      cases back

/-- **An object comes back from its text exactly where the text has no three backticks in a row**
(and the reader does not refuse it). -/
theorem payload_roundtrip_iff (json : JsonReader) (object : ObjectText) :
    ComesBack json object ↔ ¬ HasFence object.text ∧ json.read object.text ≠ .refused := by
  constructor
  · intro back
    have absent : ¬ HasFence object.text := fun present => not_comesBack json present back
    refine ⟨absent, fun refused => ?_⟩
    have bare := back.1
    rw [parse_bare absent, refused] at bare
    cases bare
  · rintro ⟨absent, taken⟩
    have reading := json.read_object object taken
    refine ⟨by rw [parse_bare absent, reading]; rfl, fun setting => ?_⟩
    rw [parse_fenced setting (upTo_whole setting.closed_blank absent), String.ofList_toList,
      object.strip_text, reading]
    rfl

/-- A reader without limits. -/
def JsonReader.unlimited : JsonReader where
  read text :=
    match Json.loads text with
    | some j => .value j
    | none => .notJson
  loads_of_value := by
    intro text j reading
    cases reads : Json.loads text with
    | some j' =>
        rw [reads] at reading
        cases reading
        rfl
    | none =>
        rw [reads] at reading
        cases reading
  loads_of_notJson := by
    intro text reading
    cases reads : Json.loads text with
    | some j' =>
        rw [reads] at reading
        cases reading
    | none => rfl

/-- Between the braces of an object's indented text. -/
def prettyInner : Fields → List Char
  | [] => []
  | field :: fields => Json.fieldsText 1 (field :: fields) ++ ['\n']

theorem toList_pretty (fields : Fields) :
    (Json.obj fields).pretty.toList = '\x7b' :: prettyInner fields ++ ['\x7d'] := by
  cases fields with
  | nil => rfl
  | cons field fields =>
      rw [Json.pretty, Json.toList_obj, prettyInner, List.cons_append, List.append_assoc]
      rfl

/-- The indented text of an object. -/
def ObjectText.pretty (fields : Fields) (written : (Json.obj fields).Written) : ObjectText where
  text := (Json.obj fields).pretty
  fields := Json.normalFields [] fields
  inner := prettyInner fields
  braces := by rw [← toList_pretty, String.ofList_toList]
  reads := Json.loads_pretty written

/-- A plan with a code block. -/
def planWithCode : ObjectText := .pretty [("plan", .str "```\nmake\n```")] ⟨trivial, trivial⟩

/-- **An object with a code block in one of its strings does not come back.** -/
theorem code_block_lost : ¬ ∀ (json : JsonReader) (object : ObjectText), ComesBack json object :=
  fun back => not_comesBack JsonReader.unlimited
    (by decide +kernel : "```".toList <:+: planWithCode.text.toList)
    (back JsonReader.unlimited planWithCode)

end

end AgentOs
