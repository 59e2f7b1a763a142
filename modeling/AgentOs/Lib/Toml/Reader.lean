import AgentOs.Lib.Toml.Document
import AgentOs.Lib.Toml.Scalars

/-!
The TOML reader.

The reader takes one character after another, so what it has not taken it has not seen:
where it is after a text depends on that text alone (`read_append`). A part that ends at a
delimiter ends one character late, and says so (`Outcome.over`).
-/

namespace AgentOs.Lib.Toml

/-- What a character does to a part of the text that is being read: the part goes on, ends
with this character, or has ended before it. -/
inductive Outcome (σ α : Type) where
  | more (state : σ)
  | done (result : α)
  | over (result : α)

/-! ### Characters -/

def isBlank (c : Char) : Bool := c = ' ' || c = '\t'

def isBareKeyChar (c : Char) : Bool := c.isAlphanum || c = '-' || c = '_'

/-- Characters of which none but the tab, and the newline where there may be several lines,
stands in a text or a comment. -/
def isControl (c : Char) : Bool := c.toNat < 32 || c.toNat = 127

def isQuote (c : Char) : Bool := c = '"' || c = '\''

/-- Characters that end a scalar. -/
def isDelimiter (c : Char) : Bool := c ∈ [' ', '\t', '\n', ',', ']', '\x7d', '#']

/-! ### Strings -/

/-- What has been read of an escape. -/
inductive Escape where
  | none
  /-- the backslash -/
  | open
  /-- a number of which some hexadecimal digits are to come -/
  | hex (left value : ℕ)
  /-- blanks after a backslash, which a newline has to follow -/
  | lineEnd
  /-- blanks and newlines that such an end of a line takes away -/
  | trim
deriving DecidableEq, Repr

/-- A string that is being read. -/
inductive Quoted where
  /-- one delimiter -/
  | opened (delim : Char)
  /-- two delimiters -/
  | paired (delim : Char)
  /-- three delimiters: a newline directly after them is dropped -/
  | tripled (delim : Char)
  /-- on one line -/
  | short (delim : Char) (text : List Char) (escape : Escape)
  /-- on several lines, with a number of delimiters just read -/
  | long (delim : Char) (text : List Char) (escape : Escape) (delims : ℕ)
deriving DecidableEq, Repr

def escapeReplacement (c : Char) : Option Char :=
  [('b', Char.ofNat 8), ('t', '\t'), ('n', '\n'), ('f', Char.ofNat 12), ('r', '\r'), ('"', '"'),
    ('\\', '\\')].lookup c

/-- The character after a backslash. -/
def openEscape (isLong : Bool) (text : List Char) (c : Char) : Option (List Char × Escape) :=
  match escapeReplacement c with
  | some replacement => some (text ++ [replacement], .none)
  | none =>
      if c = 'u' then some (text, .hex 4 0)
      else if c = 'U' then some (text, .hex 8 0)
      else if isLong && isBlank c then some (text, .lineEnd)
      else if isLong && c = '\n' then some (text, .trim)
      else none

/-- A digit of a numeric escape, which has to name a character. -/
def hexEscape (text : List Char) (left value : ℕ) (c : Char) : Option (List Char × Escape) := do
  let digit ← hexValue c
  let value := value * 16 + digit
  if 1 < left then some (text, .hex (left - 1) value)
  else if value.isValidChar then some (text ++ [Char.ofNat value], .none)
  else none

def shortStep (delim : Char) (text : List Char) (escape : Escape) (c : Char) :
    Option (Outcome Quoted String) :=
  match escape with
  | .open =>
      (openEscape false text c).map fun next => .more (.short delim next.1 next.2)
  | .hex left value =>
      (hexEscape text left value c).map fun next => .more (.short delim next.1 next.2)
  | .none | .lineEnd | .trim =>
      if c = delim then some (.done (String.ofList text))
      else if c = '\\' ∧ delim = '"' then some (.more (.short delim text .open))
      else if isControl c ∧ c ≠ '\t' then none
      else some (.more (.short delim (text ++ [c]) .none))

/-- A character of a string on several lines, outside escapes: the third delimiter in a row
ends it, unless more follow. -/
def longPlain (delim : Char) (text : List Char) (delims : ℕ) (c : Char) :
    Option (Outcome Quoted String) :=
  if c = delim ∧ delims < 5 then some (.more (.long delim text .none (delims + 1)))
  else if 3 ≤ delims then some (.over (String.ofList (text ++ List.replicate (delims - 3) delim)))
  else
    let text := text ++ List.replicate delims delim
    if c = '\\' ∧ delim = '"' then some (.more (.long delim text .open 0))
    else if isControl c ∧ c ≠ '\t' ∧ c ≠ '\n' then none
    else some (.more (.long delim (text ++ [c]) .none 0))

def longStep (delim : Char) (text : List Char) (escape : Escape) (delims : ℕ) (c : Char) :
    Option (Outcome Quoted String) :=
  match escape with
  | .none => longPlain delim text delims c
  | .open => (openEscape true text c).map fun next => .more (.long delim next.1 next.2 0)
  | .hex left value =>
      (hexEscape text left value c).map fun next => .more (.long delim next.1 next.2 0)
  | .lineEnd =>
      if isBlank c then some (.more (.long delim text .lineEnd 0))
      else if c = '\n' then some (.more (.long delim text .trim 0))
      else none
  | .trim =>
      if isBlank c || c = '\n' then some (.more (.long delim text .trim 0))
      else longPlain delim text 0 c

def quotedStep : Quoted → Char → Option (Outcome Quoted String)
  | .opened delim, c =>
      if c = delim then some (.more (.paired delim)) else shortStep delim [] .none c
  | .paired delim, c => if c = delim then some (.more (.tripled delim)) else some (.over "")
  | .tripled delim, c =>
      if c = '\n' then some (.more (.long delim [] .none 0)) else longStep delim [] .none 0 c
  | .short delim text escape, c => shortStep delim text escape c
  | .long delim text escape delims, c => longStep delim text escape delims c

/-! ### Keys -/

inductive KeyPlace where
  /-- before a part -/
  | start
  | bare (text : List Char)
  | quoted (string : Quoted)
  /-- after a part -/
  | after
deriving DecidableEq, Repr

/-- A dotted key that is being read. -/
structure KeyReading where
  parts : Key := []
  place : KeyPlace := .start
deriving DecidableEq, Repr

/-- A character after a part of a key. -/
def afterPart (parts : Key) (c : Char) : Outcome KeyReading Key :=
  if isBlank c then .more ⟨parts, .after⟩
  else if c = '.' then .more ⟨parts, .start⟩
  else .over parts

def keyStep (key : KeyReading) (c : Char) : Option (Outcome KeyReading Key) :=
  match key.place with
  | .start =>
      if isBlank c then some (.more key)
      else if isBareKeyChar c then some (.more { key with place := .bare [c] })
      else if isQuote c then some (.more { key with place := .quoted (.short c [] .none) })
      else none
  | .bare text =>
      if isBareKeyChar c then some (.more { key with place := .bare (text ++ [c]) })
      else some (afterPart (key.parts ++ [String.ofList text]) c)
  | .quoted string =>
      match quotedStep string c with
      | some (.more string) => some (.more { key with place := .quoted string })
      | some (.done text) => some (.more ⟨key.parts ++ [text], .after⟩)
      | _ => none
  | .after => some (afterPart key.parts c)

/-! ### Values -/

/-- An inline array or table that is open, with what is complete of it. -/
inductive Frame where
  | array (items : List Value)
  /-- and the key of the value that comes next -/
  | table (entries : List (Key × Value)) (key : Key)

def Frame.add (value : Value) : Frame → Frame
  | .array items => .array (items ++ [value])
  | .table entries key => .table (entries ++ [(key, value)]) key

inductive ValuePlace where
  /-- before a value -/
  | start
  /-- before an item of an array -/
  | item
  /-- in a comment of an array, before an item or after one -/
  | comment (after : Bool)
  | quoted (string : Quoted)
  | scalar (text : List Char)
  /-- after a date and a blank, which a time may follow -/
  | date (text : List Char)
  /-- after a value in an array or a table -/
  | separator
  | tableStart
  | tableKey (key : KeyReading)

/-- A value that is being read. -/
structure ValueReading where
  place : ValuePlace := .start
  frames : List Frame := []

/-- A value is complete, with its last character. -/
def complete (value : Value) : List Frame → Outcome ValueReading Value
  | [] => .done value
  | frame :: frames => .more ⟨.separator, frame.add value :: frames⟩

/-- A character after a value in an array or a table. -/
def separatorStep (c : Char) : List Frame → Option (Outcome ValueReading Value)
  | [] => none
  | .array items :: frames =>
      if isBlank c || c = '\n' then some (.more ⟨.separator, .array items :: frames⟩)
      else if c = '#' then some (.more ⟨.comment true, .array items :: frames⟩)
      else if c = ',' then some (.more ⟨.item, .array items :: frames⟩)
      else if c = ']' then some (complete (.array items) frames)
      else none
  | .table entries key :: frames =>
      if isBlank c then some (.more ⟨.separator, .table entries key :: frames⟩)
      else if c = ',' then some (.more ⟨.tableKey {}, .table entries key :: frames⟩)
      else if c = '\x7d' then (inlineTable entries).map fun value => complete value frames
      else none

/-- A value was complete before this character. -/
def ended (value : Value) (c : Char) : List Frame → Option (Outcome ValueReading Value)
  | [] => some (.over value)
  | frame :: frames => separatorStep c (frame.add value :: frames)

/-- The first character of a value. -/
def beginValue (c : Char) (frames : List Frame) : Option (Outcome ValueReading Value) :=
  if isQuote c then some (.more ⟨.quoted (.opened c), frames⟩)
  else if c = '[' then some (.more ⟨.item, .array [] :: frames⟩)
  else if c = '\x7b' then some (.more ⟨.tableStart, .table [] [] :: frames⟩)
  else if isDelimiter c then none
  else some (.more ⟨.scalar [c], frames⟩)

/-- A character of a key of an inline table. -/
def tableKeyStep (key : KeyReading) (c : Char) (frames : List Frame) :
    Option (Outcome ValueReading Value) :=
  match keyStep key c, frames with
  | some (.more key), _ => some (.more ⟨.tableKey key, frames⟩)
  | some (.over key), .table entries _ :: frames =>
      if c = '=' then some (.more ⟨.start, .table entries key :: frames⟩) else none
  | _, _ => none

def valueStep (reading : ValueReading) (c : Char) : Option (Outcome ValueReading Value) :=
  let frames := reading.frames
  match reading.place with
  | .start => if isBlank c then some (.more reading) else beginValue c frames
  | .item =>
      if isBlank c || c = '\n' then some (.more reading)
      else if c = '#' then some (.more ⟨.comment false, frames⟩)
      else if c = ']' then
        match frames with
        | .array items :: frames => some (complete (.array items) frames)
        | _ => none
      else beginValue c frames
  | .comment after =>
      if c = '\n' then some (.more ⟨if after then .separator else .item, frames⟩)
      else if isControl c && c ≠ '\t' then none
      else some (.more reading)
  | .quoted string =>
      match quotedStep string c with
      | some (.more string) => some (.more ⟨.quoted string, frames⟩)
      | some (.done text) => some (complete (.str text) frames)
      | some (.over text) => ended (.str text) c frames
      | none => none
  | .scalar text =>
      if !isDelimiter c then some (.more ⟨.scalar (text ++ [c]), frames⟩)
      else if !isScalar text then none
      else if c = ' ' && isDate text then some (.more ⟨.date text, frames⟩)
      else ended (.scalar (String.ofList text)) c frames
  | .date text =>
      if c.isDigit then some (.more ⟨.scalar (text ++ [' ', c]), frames⟩)
      else ended (.scalar (String.ofList text)) c frames
  | .separator => separatorStep c frames
  | .tableStart =>
      if isBlank c then some (.more reading)
      else if c = '\x7d' then
        match frames with
        | .table entries _ :: frames =>
            (inlineTable entries).map fun value => complete value frames
        | _ => none
      else tableKeyStep {} c frames
  | .tableKey key => tableKeyStep key c frames

/-! ### Documents -/

/-- Where the reader is in a document. -/
inductive Place where
  | lineStart
  | comment
  | key (key : KeyReading)
  | value (key : Key) (reading : ValueReading)
  /-- after the bracket that begins a header -/
  | bracket
  | header (isArray : Bool) (key : KeyReading)
  /-- after the first of two closing brackets -/
  | headerEnd (key : Key)
  | afterStatement

/-- A character after a statement. -/
def afterStatementStep (c : Char) : Option Place :=
  if isBlank c then some .afterStatement
  else if c = '#' then some .comment
  else if c = '\n' then some .lineStart
  else none

def statementKeyStep (key : KeyReading) (c : Char) : Option Place :=
  match keyStep key c with
  | some (.more key) => some (.key key)
  | some (.over key) => if c = '=' then some (.value key {}) else none
  | _ => none

def headerStep (isArray : Bool) (key : KeyReading) (c : Char) :
    Option (Place × Option Statement) :=
  match keyStep key c with
  | some (.more key) => some (.header isArray key, none)
  | some (.over key) =>
      if c ≠ ']' then none
      else if isArray then some (.headerEnd key, none)
      else some (.afterStatement, some (.table key))
  | _ => none

/-- Where the reader comes to, and the statement that is complete, if any. -/
def placeStep (place : Place) (c : Char) : Option (Place × Option Statement) :=
  match place with
  | .lineStart =>
      if isBlank c || c = '\n' then some (.lineStart, none)
      else if c = '#' then some (.comment, none)
      else if c = '[' then some (.bracket, none)
      else (statementKeyStep {} c).map (·, none)
  | .comment =>
      if c = '\n' then some (.lineStart, none)
      else if isControl c && c ≠ '\t' then none
      else some (.comment, none)
  | .key key => (statementKeyStep key c).map (·, none)
  | .value key value =>
      match valueStep value c with
      | some (.more value) => some (.value key value, none)
      | some (.done value) => some (.afterStatement, some (.keyValue key value))
      | some (.over value) => (afterStatementStep c).map (·, some (.keyValue key value))
      | none => none
  | .bracket => if c = '[' then some (.header true {}, none) else headerStep false {} c
  | .header isArray key => headerStep isArray key c
  | .headerEnd key => if c = ']' then some (.afterStatement, some (.arrayTable key)) else none
  | .afterStatement => (afterStatementStep c).map (·, none)

/-- A document that is being read. -/
structure Reading where
  place : Place := .lineStart
  out : Output := {}

def step (reading : Reading) (c : Char) : Option Reading :=
  (placeStep reading.place c).bind fun
    | (place, none) => some ⟨place, reading.out⟩
    | (place, some statement) => (reading.out.apply statement).map fun out => ⟨place, out⟩

/-- Read a text, from where the reader is. -/
def read (reading : Reading) (text : List Char) : Option Reading :=
  text.foldlM step reading

/-- `"\r\n"` is a newline. -/
def normalizeNewlines : List Char → List Char
  | '\r' :: '\n' :: cs => '\n' :: normalizeNewlines cs
  | c :: cs => c :: normalizeNewlines cs
  | [] => []

/-- `tomllib.loads`. The end of the text ends its last line. -/
def loads (text : String) : Option Dict :=
  match read {} (normalizeNewlines text.toList ++ ['\n']) with
  | some ⟨.lineStart, out⟩ => some out.data
  | _ => none

/-! ### Where the reader is -/

variable {reading reading' : Reading} {key : String} {value : Value}

theorem read_append (reading : Reading) (before after : List Char) :
    read reading (before ++ after) = (read reading before).bind (read · after) :=
  List.foldlM_append

theorem read_cons (reading : Reading) (c : Char) (after : List Char) :
    read reading (c :: after) = (step reading c).bind (read · after) := rfl

theorem normalizeNewlines_cons {c : Char} {cs : List Char}
    (other : ∀ rest, c = '\r' → cs = '\n' :: rest → False) :
    normalizeNewlines (c :: cs) = c :: normalizeNewlines cs := by
  rw [normalizeNewlines]
  exact other

theorem normalizeNewlines_of_notMem {text : List Char} (plain : '\r' ∉ text) :
    normalizeNewlines text = text := by
  induction text with
  | nil => rfl
  | cons c cs ih =>
      rw [List.mem_cons, not_or] at plain
      rw [normalizeNewlines_cons fun _ same => absurd same.symm plain.1, ih plain.2]

/-- A text is normalised part by part, unless it is cut in front of the newline of a pair. -/
theorem normalizeNewlines_append {before after : List Char}
    (apart : before.getLast? ≠ some '\r' ∨ after.head? ≠ some '\n') :
    normalizeNewlines (before ++ after) = normalizeNewlines before ++ normalizeNewlines after := by
  induction before using normalizeNewlines.induct with
  | case1 cs ih =>
      have rest : cs.getLast? ≠ some '\r' ∨ after.head? ≠ some '\n' := by
        refine apart.imp_left fun apart last => apart ?_
        rw [List.getLast?_cons_cons, List.getLast?_cons, last]
        rfl
      simp only [List.cons_append, normalizeNewlines, ih rest]
  | case2 c cs other ih =>
      have rest : cs.getLast? ≠ some '\r' ∨ after.head? ≠ some '\n' := by
        refine apart.imp_left fun apart last => apart ?_
        rw [List.getLast?_cons, last]
        rfl
      have whole : ∀ rest, c = '\r' → cs ++ after = '\n' :: rest → False := by
        rintro rest rfl split
        cases cs with
        | nil =>
            rcases apart with apart | apart
            · exact apart rfl
            · rw [List.nil_append] at split
              exact apart (by rw [split]; rfl)
        | cons d cs =>
            cases split
            exact other cs rfl rfl
      rw [List.cons_append, normalizeNewlines_cons whole, normalizeNewlines_cons other, ih rest]
      rfl
  | case3 => rfl

/-- The reader with another value behind a top-level key. -/
def Reading.replace (key : String) (value : Value) (reading : Reading) : Reading :=
  { reading with out := reading.out.replace key value }

theorem step_replace (closed : reading.out.Closed key) (c : Char) :
    step (reading.replace key value) c = (step reading c).map (·.replace key value) := by
  unfold step Reading.replace
  cases placeStep reading.place c with
  | none => rfl
  | some next =>
      obtain ⟨place, statement⟩ := next
      cases statement with
      | none => rfl
      | some statement =>
          dsimp only [Option.bind_some]
          rw [Output.apply_replace closed, Option.map_map, Option.map_map]
          rfl

theorem closed_step {c : Char} (closed : reading.out.Closed key)
    (went : step reading c = some reading') : reading'.out.Closed key := by
  obtain ⟨⟨place, statement⟩, _, went⟩ := Option.bind_eq_some_iff.mp went
  cases statement with
  | none =>
      cases went
      exact closed
  | some statement =>
      obtain ⟨out, did, rfl⟩ := Option.map_eq_some_iff.mp went
      exact Output.closed_apply closed did

/-- **The rest of a text** does the same whatever a closed key holds. -/
theorem read_replace (reading : Reading) (value : Value) (closed : reading.out.Closed key)
    (text : List Char) :
    read (reading.replace key value) text = (read reading text).map (·.replace key value) := by
  induction text generalizing reading with
  | nil => rfl
  | cons c text ih =>
      rw [read_cons, read_cons, step_replace closed]
      cases went : step reading c with
      | none => rfl
      | some next => exact ih next (closed_step closed went)

theorem statementKeyStep_ne {keyReading : KeyReading} {c : Char} {place : Place}
    (went : statementKeyStep keyReading c = some place) : place ≠ .lineStart := by
  unfold statementKeyStep at went
  split at went
  · cases went
    exact Place.noConfusion
  · obtain ⟨_, went⟩ := Option.ite_none_right_eq_some.mp went
    cases went
    exact Place.noConfusion
  · cases went

theorem headerStep_ne {isArray : Bool} {keyReading : KeyReading} {c : Char}
    {next : Place × Option Statement} (went : headerStep isArray keyReading c = some next) :
    next.1 ≠ .lineStart := by
  unfold headerStep at went
  split at went
  · cases went
    exact Place.noConfusion
  · obtain ⟨_, went⟩ := Option.ite_none_left_eq_some.mp went
    split at went
    · cases went
      exact Place.noConfusion
    · cases went
      exact Place.noConfusion
  · cases went

/-- A carriage return does not end a line. -/
theorem placeStep_ret {place : Place} {next : Place × Option Statement}
    (went : placeStep place '\r' = some next) : next.1 ≠ .lineStart := by
  unfold placeStep at went
  split at went
  · cases went
  · cases went
  · obtain ⟨place, key, rfl⟩ := Option.map_eq_some_iff.mp went
    exact statementKeyStep_ne key
  · split at went
    · cases went
      exact Place.noConfusion
    · cases went
      exact Place.noConfusion
    · cases went
    · cases went
  · exact headerStep_ne (by simpa using went)
  · exact headerStep_ne went
  · cases went
  · cases went

/-- What stands before a line does not end with a carriage return alone. -/
theorem getLast?_ne_ret {text : List Char} {out : Output}
    (ends : read reading (normalizeNewlines text) = some ⟨.lineStart, out⟩) :
    text.getLast? ≠ some '\r' := by
  intro last
  have whole := List.dropLast_append_getLast? '\r' last
  rw [← whole, normalizeNewlines_append (.inr (by decide)), read_append] at ends
  obtain ⟨middle, _, ends⟩ := Option.bind_eq_some_iff.mp ends
  obtain ⟨final, went, ended⟩ := Option.bind_eq_some_iff.mp (read_cons middle '\r' [] ▸ ends)
  cases ended
  obtain ⟨⟨place, statement⟩, moved, went⟩ := Option.bind_eq_some_iff.mp went
  have other := placeStep_ret moved
  cases statement with
  | none =>
      cases went
      exact other rfl
  | some statement =>
      obtain ⟨out, _, same⟩ := Option.map_eq_some_iff.mp went
      cases same
      exact other rfl

/-! ### Another statement in the place of one -/

/-- After `before` the reader is at the start of a line and no table is open; the statement
that follows assigns a value to a top-level key. -/
structure Assigns (before statement : List Char) (key : String) (value : Value) (out out' : Output) :
    Prop where
  starts : read {} (normalizeNewlines before) = some ⟨.lineStart, out⟩
  root : out.header = []
  assigns : out.apply (.keyValue [key] value) = some out'
  ends : read ⟨.lineStart, out⟩ (normalizeNewlines statement) = some ⟨.afterStatement, out'⟩

section

variable {before statement : List Char} {out out' : Output}

/-- The text after a statement is read from where the statement ends. -/
theorem Assigns.read_rest (assigns : Assigns before statement key value out out')
    (cut : before.getLast? ≠ some '\r') (last : statement.getLast? ≠ some '\r')
    (after : List Char) :
    read {} (normalizeNewlines (before ++ statement ++ after) ++ ['\n']) =
      read ⟨.afterStatement, out'⟩ (normalizeNewlines after ++ ['\n']) := by
  rw [List.append_assoc, normalizeNewlines_append (.inl cut), normalizeNewlines_append (.inl last),
    List.append_assoc, List.append_assoc, read_append, assigns.starts, Option.bind_some,
    read_append, assigns.ends, Option.bind_some]

/-- **A statement is replaced.** Where an inline array or table is assigned to a top-level
key, a text with another one there reads as the same document, but for its value. -/
theorem loads_replace {statement' : List Char} {value' : Value} {out'' : Output}
    (assigns : Assigns before statement key value out out')
    (assigns' : Assigns before statement' key value' out out'') (isNamespace : value.isNamespace)
    (isNamespace' : value'.isNamespace) (cut : before.getLast? ≠ some '\r')
    (last : statement.getLast? ≠ some '\r') (last' : statement'.getLast? ≠ some '\r')
    (after : List Char) :
    loads (String.ofList (before ++ statement' ++ after)) =
      (loads (String.ofList (before ++ statement ++ after))).map (·.replace key value') := by
  obtain ⟨closed, other⟩ :=
    Output.keyValue_root value' assigns.root isNamespace isNamespace' assigns.assigns
  obtain rfl := Option.some.inj (assigns'.assigns.symm.trans other)
  have rest := read_replace ⟨.afterStatement, out'⟩ value' closed
    (normalizeNewlines after ++ ['\n'])
  unfold loads
  rw [String.toList_ofList, String.toList_ofList, assigns.read_rest cut last,
    assigns'.read_rest cut last']
  unfold Reading.replace at rest
  rw [rest]
  cases read ⟨.afterStatement, out'⟩ (normalizeNewlines after ++ ['\n']) with
  | none => rfl
  | some last =>
      obtain ⟨place, out⟩ := last
      cases place <;> rfl

end

end AgentOs.Lib.Toml
