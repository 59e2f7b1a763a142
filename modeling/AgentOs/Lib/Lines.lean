import AgentOs.Lib.Cutting

/-!
Lines of a text, at all the characters that end a line.

`strippedLines` are the lines that are not blank, without the white space around them. White space
around the text changes nothing about them, and behind the end of a line they begin anew.
-/

namespace AgentOs

/-- The characters at which `splitlines` ends a line. -/
def isLineBreak (c : Char) : Bool :=
  c ∈ ['\n', '\r', '\x0b', '\x0c', '\x1c', '\x1d', '\x1e', '\x85', '\u2028', '\u2029']

/-- `read_text`: every line end is read as a newline. -/
def universalNewlines : List Char → List Char
  | [] => []
  | '\r' :: '\n' :: cs => '\n' :: universalNewlines cs
  | '\r' :: cs => '\n' :: universalNewlines cs
  | c :: cs => c :: universalNewlines cs

/-- The text that `read_text` returns. -/
def readText (config : String) : String := .ofList (universalNewlines config.toList)

namespace Lib.Text

/-- A character in front of the first line. -/
def consLine (c : Char) : List (List Char) → List (List Char)
  | [] => [[c]]
  | line :: lines => (c :: line) :: lines

/-- `splitlines` -/
def splitlines : List Char → List (List Char)
  | [] => []
  | '\r' :: '\n' :: cs => [] :: splitlines cs
  | c :: cs => if isLineBreak c then [] :: splitlines cs else consLine c (splitlines cs)

/-- `strip`, on characters. -/
def trim (text : List Char) : List Char := (text.dropWhile isSpace).rdropWhile isSpace

/-- The lines that are not blank, stripped. -/
def strippedLines (text : List Char) : List (List Char) :=
  ((findRuns (fun c => !isLineBreak c) text).map trim).filter (· ≠ [])

variable {text behind left right run : List Char} {c : Char}

theorem toList_strip (s : String) : (strip s).toList = trim s.toList := by
  rw [strip, String.toList_ofList, trim]

/-! ### Lines and runs -/

/-- The lines agree with the parts between the ends of lines: there is one more of these, or an empty
one between `\r` and `\n`. -/
theorem splitlines_parts (text : List Char) : ∃ part parts,
    text.splitOnP isLineBreak = part :: parts ∧
      (splitlines text = [] ∧ part = [] ∧ parts.filter (· ≠ []) = [] ∨
        ∃ lines, splitlines text = part :: lines ∧
          lines.filter (· ≠ []) = parts.filter (· ≠ [])) := by
  have rest : ∀ {text : List Char}, (∃ part parts, text.splitOnP isLineBreak = part :: parts ∧
      (splitlines text = [] ∧ part = [] ∧ parts.filter (· ≠ []) = [] ∨
        ∃ lines, splitlines text = part :: lines ∧
          lines.filter (· ≠ []) = parts.filter (· ≠ []))) →
      (splitlines text).filter (· ≠ []) = (text.splitOnP isLineBreak).filter (· ≠ []) := by
    rintro text ⟨part, parts, split, ⟨none, rfl, blank⟩ | ⟨lines, some, same⟩⟩
    · rw [none, split, List.filter_cons, if_neg (by simp), blank]
      rfl
    · rw [some, split, List.filter_cons, List.filter_cons, same]
  induction text using splitlines.induct with
  | case1 => exact ⟨[], [], rfl, .inl ⟨rfl, rfl, rfl⟩⟩
  | case2 cs ih =>
      refine ⟨[], [] :: cs.splitOnP isLineBreak, ?_, .inr ⟨splitlines cs, rfl, ?_⟩⟩
      · rw [List.splitOnP_cons_eq_if_modifyHead, if_pos (by decide),
          List.splitOnP_cons_eq_if_modifyHead, if_pos (by decide)]
      · rw [List.filter_cons, if_neg (by simp)]
        exact rest ih
  | case3 c cs notPair ends ih =>
      refine ⟨[], cs.splitOnP isLineBreak, ?_, .inr ⟨splitlines cs, ?_, rest ih⟩⟩
      · rw [List.splitOnP_cons_eq_if_modifyHead, if_pos ends]
      · rw [splitlines, if_pos ends]
        exact notPair
  | case4 c cs notPair other ih =>
      have lines : splitlines (c :: cs) = consLine c (splitlines cs) := by
        rw [splitlines, if_neg other]
        exact notPair
      obtain ⟨part, parts, split, ⟨none, rfl, blank⟩ | ⟨more, some, same⟩⟩ := ih
      · refine ⟨[c], parts, ?_, .inr ⟨[], ?_, blank.symm⟩⟩
        · rw [List.splitOnP_cons_eq_if_modifyHead, if_neg other, split, List.modifyHead_cons]
        · rw [lines, none, consLine]
      · refine ⟨c :: part, parts, ?_, .inr ⟨more, ?_, same⟩⟩
        · rw [List.splitOnP_cons_eq_if_modifyHead, if_neg other, split, List.modifyHead_cons]
        · rw [lines, some, consLine]

theorem filter_splitlines (text : List Char) :
    (splitlines text).filter (· ≠ []) = findRuns (fun c => !isLineBreak c) text := by
  obtain ⟨part, parts, split, same⟩ := splitlines_parts text
  have whole : (text.splitOnP fun c => !!isLineBreak c) = part :: parts := by
    rw [← split]
    exact congrArg (text.splitOnP ·) (funext fun c => Bool.not_not _)
  rw [findRuns, whole]
  rcases same with ⟨none, rfl, blank⟩ | ⟨lines, some, same⟩
  · rw [none, List.filter_cons, if_neg (by simp), blank]
    rfl
  · rw [some, List.filter_cons, List.filter_cons, same]

theorem trim_nil : trim [] = [] := rfl

theorem filter_map_trim (lines : List (List Char)) : (lines.map trim).filter (· ≠ []) =
    ((lines.filter (· ≠ [])).map trim).filter (· ≠ []) := by
  induction lines with
  | nil => rfl
  | cons line lines ih =>
      cases line with
      | nil =>
          rw [List.map_cons, trim_nil, List.filter_cons, if_neg (by simp), ih, List.filter_cons,
            if_neg (by simp)]
      | cons c line =>
          have kept : ((c :: line) :: lines).filter (· ≠ []) =
              (c :: line) :: lines.filter (· ≠ []) := rfl
          rw [kept, List.map_cons, List.map_cons, List.filter_cons, List.filter_cons, ih]

/-- What a loop over the lines finds that strips each line and passes over blank ones. -/
theorem strippedLines_eq (text : List Char) :
    ((splitlines text).map trim).filter (· ≠ []) = strippedLines text := by
  rw [filter_map_trim, filter_splitlines, strippedLines]

/-! ### White space around a text -/

theorem strippedLines_nil : strippedLines [] = [] := rfl

theorem strippedLines_break (ends : isLineBreak c = true) :
    strippedLines (text ++ c :: behind) = strippedLines text ++ strippedLines behind := by
  rw [strippedLines, findRuns_append_cons (by rw [ends]; rfl), List.map_append, List.filter_append]
  rfl

/-- A text of one line. -/
theorem strippedLines_line (all : ∀ c ∈ text, isLineBreak c = false) :
    strippedLines text = [trim text].filter (· ≠ []) := by
  cases text with
  | nil => rfl
  | cons c text =>
      rw [strippedLines, findRuns_run (List.cons_ne_nil c text) fun d mem => by rw [all d mem]; rfl]
      rfl

theorem trim_cons (space : isSpace c = true) : trim (c :: text) = trim text := by
  rw [trim, List.dropWhile_cons_of_pos space, trim]

theorem trim_concat (space : isSpace c = true) : trim (text ++ [c]) = trim text := by
  induction text with
  | nil => rw [List.nil_append, trim_cons space]
  | cons d text ih =>
      rcases Bool.eq_false_or_eq_true (isSpace d) with blank | visible
      · rw [List.cons_append, trim_cons blank, ih, trim_cons blank]
      · have starts : isSpace d ≠ true := by
          rw [visible]
          exact Bool.false_ne_true
        rw [trim, trim, List.cons_append, List.dropWhile_cons_of_neg starts,
          List.dropWhile_cons_of_neg starts, ← List.cons_append, List.rdropWhile_concat_pos _ _ _ space]

theorem trim_trim (text : List Char) : trim (trim text) = trim text := by
  unfold trim
  cases rest : text.dropWhile isSpace with
  | nil => rfl
  | cons c rest' =>
      have visible : isSpace c = false := by
        have head := List.head_dropWhile_not isSpace (l := text)
          (by rw [rest]; exact List.cons_ne_nil _ _)
        simpa only [rest, List.head_cons] using head
      have kept : ∀ more : List Char,
          (c :: more).rdropWhile isSpace = c :: more.rdropWhile isSpace := fun more =>
        @rdropWhile_append_cons [] more c isSpace visible
      rw [kept, List.dropWhile_cons_of_neg (by rw [visible]; exact Bool.false_ne_true), kept,
        List.rdropWhile_idempotent]

theorem trim_blank_append (blank : ∀ c ∈ left, isSpace c = true) :
    trim (left ++ text) = trim text := by
  induction left with
  | nil => rfl
  | cons c left ih =>
      rw [List.cons_append, trim_cons (blank c List.mem_cons_self)]
      exact ih fun d mem => blank d (List.mem_cons_of_mem c mem)

theorem trim_sublist (text : List Char) : (trim text).Sublist text :=
  (List.rdropWhile_prefix isSpace _).sublist.trans (List.dropWhile_suffix isSpace).sublist

/-- A stripped text does not end in white space. -/
theorem trimmed_last (trimmed : trim (text ++ [c]) = text ++ [c]) : isSpace c = false := by
  by_contra space
  rw [Bool.not_eq_false] at space
  rw [trim_concat space] at trimmed
  have short := (trim_sublist text).length_le
  rw [trimmed, List.length_append] at short
  exact absurd short (Nat.not_succ_le_self _)

/-- The end of a stripped text is stripped on its right. -/
theorem trimmed_end (trimmed : trim (text ++ behind) = text ++ behind) :
    ∃ lead, (∀ c ∈ lead, isSpace c = true) ∧ behind = lead ++ trim behind := by
  obtain ⟨lead, right, blank, blank', whole⟩ := strip_text (.ofList behind)
  rw [String.toList_ofList, toList_strip, String.toList_ofList] at whole
  cases right using List.reverseRecOn with
  | nil =>
      rw [List.append_nil] at whole
      exact ⟨lead, blank, whole⟩
  | append_singleton right c =>
      rw [whole, ← List.append_assoc lead, ← List.append_assoc _ right, ← List.append_assoc] at trimmed
      have visible := trimmed_last trimmed
      rw [blank' c (List.mem_append_right _ List.mem_cons_self)] at visible
      cases visible

/-- A text is a line, and the end of a line with more text behind it. -/
theorem line_first (text : List Char) : ∃ run, (∀ c ∈ run, isLineBreak c = false) ∧
    (text = run ∨ ∃ c rest, isLineBreak c = true ∧ text = run ++ c :: rest) := by
  induction text with
  | nil => exact ⟨[], fun _ mem => (by cases mem), .inl rfl⟩
  | cons d text ih =>
      rcases Bool.eq_false_or_eq_true (isLineBreak d) with ends | other
      · exact ⟨[], fun _ mem => (by cases mem), .inr ⟨d, text, ends, rfl⟩⟩
      · obtain ⟨run, all, parts⟩ := ih
        refine ⟨d :: run, List.forall_mem_cons.mpr ⟨other, all⟩, ?_⟩
        rcases parts with rfl | ⟨c, rest, ends, rfl⟩
        · exact .inl rfl
        · exact .inr ⟨c, rest, ends, rfl⟩

theorem line_last (text : List Char) : ∃ run, (∀ c ∈ run, isLineBreak c = false) ∧
    (text = run ∨ ∃ front c, isLineBreak c = true ∧ text = front ++ c :: run) := by
  obtain ⟨run, all, parts⟩ := line_first text.reverse
  refine ⟨run.reverse, fun c mem => all c (List.mem_reverse.mp mem), ?_⟩
  rcases parts with same | ⟨c, rest, ends, same⟩
  · exact .inl (by rw [← same, List.reverse_reverse])
  · refine .inr ⟨rest.reverse, c, ends, ?_⟩
    rw [← List.reverse_reverse text, same, List.reverse_append, List.reverse_cons,
      List.append_assoc, List.singleton_append]

theorem strippedLines_cons (space : isSpace c = true) :
    strippedLines (c :: text) = strippedLines text := by
  rcases Bool.eq_false_or_eq_true (isLineBreak c) with ends | other
  · have split := @strippedLines_break [] text c ends
    rwa [List.nil_append, strippedLines_nil, List.nil_append] at split
  · obtain ⟨run, all, parts⟩ := line_first text
    have line : strippedLines (c :: run) = strippedLines run := by
      rw [strippedLines_line (List.forall_mem_cons.mpr ⟨other, all⟩), strippedLines_line all,
        trim_cons space]
    rcases parts with rfl | ⟨d, rest, ends, rfl⟩
    · exact line
    · rw [← List.cons_append, strippedLines_break ends, strippedLines_break ends, line]

theorem strippedLines_concat (space : isSpace c = true) :
    strippedLines (text ++ [c]) = strippedLines text := by
  rcases Bool.eq_false_or_eq_true (isLineBreak c) with ends | other
  · rw [strippedLines_break ends, strippedLines_nil, List.append_nil]
  · obtain ⟨run, all, parts⟩ := line_last text
    have line : strippedLines (run ++ [c]) = strippedLines run := by
      rw [strippedLines_line, strippedLines_line all, trim_concat space]
      intro d mem
      rcases List.mem_append.mp mem with mem | mem
      · exact all d mem
      · rw [List.mem_singleton.mp mem, other]
    rcases parts with rfl | ⟨front, d, ends, rfl⟩
    · exact line
    · rw [List.append_assoc, List.cons_append, strippedLines_break ends, strippedLines_break ends,
        line]

/-- White space around a text changes nothing about its lines. -/
theorem strippedLines_around (blank : ∀ c ∈ left, isSpace c = true)
    (blank' : ∀ c ∈ right, isSpace c = true) :
    strippedLines (left ++ (text ++ right)) = strippedLines text := by
  induction left with
  | cons c left ih =>
      rw [List.cons_append, strippedLines_cons (blank c List.mem_cons_self)]
      exact ih fun d mem => blank d (List.mem_cons_of_mem c mem)
  | nil =>
      rw [List.nil_append]
      induction right using List.reverseRecOn with
      | nil => rw [List.append_nil]
      | append_singleton right c ih =>
          rw [← List.append_assoc, strippedLines_concat
            (blank' c (List.mem_append_right _ (List.mem_singleton.mpr rfl)))]
          exact ih fun d mem => blank' d (List.mem_append_left _ mem)

theorem strippedLines_strip (s : String) :
    strippedLines (strip s).toList = strippedLines s.toList := by
  obtain ⟨left, right, blank, blank', whole⟩ := strip_text s
  rw [whole, strippedLines_around blank blank']

end Lib.Text

end AgentOs
