import AgentOs.Lib.Dictionary
import AgentOs.Lib.LazySearch
import AgentOs.Lib.Lines

/-!
Front matter of a note (`connectors.py`).

`parseFrontmatter` reads the lines between the delimiters at the start of a note, and
`serializeMarkdownWithFrontmatter` writes them. The reader ends at the first line break that is
followed by `---`, so what is written is read back as long as no line begins with it:
`frontmatter_roundtrip`. A line begins with its key.
-/

namespace AgentOs

open AgentOs.Lib

/-- A `dict` of texts. -/
abbrev Frontmatter := Dictionary String String

/-! ### Reading and writing -/

/-- `^---\n` -/
def frontmatterStart : Regex := .literal (· == ·) "---\n".toList

/-- `\n---` -/
def frontmatterEnd : Regex := .literal (· == ·) "\n---".toList

/-- A line of the front matter. -/
def readFrontmatterLine (res : Frontmatter) (line : List Char) : Frontmatter :=
  match Text.cut (.ofList line) ":" with
  | some (k, v) => res.set (Text.strip k) (Text.strip v)
  | none => res

/-- `_parse_frontmatter` -/
def parseFrontmatter (content : String) : Frontmatter :=
  match Regex.betweenAt frontmatterStart frontmatterEnd ⟨[], content.toList⟩ with
  | some fm => (fm.splitOn '\n').foldl readFrontmatterLine {}
  | none => {}

/-- `f"{k}: {v}"` -/
def frontmatterLine (entry : String × String) : String :=
  entry.1 ++ ": " ++ entry.2

/-- `_serialize_markdown_with_frontmatter` -/
def serializeMarkdownWithFrontmatter (content : String) (frontmatter : Frontmatter) : String :=
  if frontmatter.entries = [] then content
  else Text.join "\n"
    (["---"] ++ frontmatter.entries.map frontmatterLine ++ ["---", "", content])

/-! ### Up to the closing delimiter -/

theorem upTo_frontmatterEnd_line {left line rest : List Char} (one : '\n' ∉ line) :
    frontmatterEnd.upTo left (line ++ rest) =
      (frontmatterEnd.upTo (line.reverse ++ left) rest).map (line ++ ·) := by
  induction line generalizing left with
  | nil => simp
  | cons c line ih =>
      have open_ : frontmatterEnd.tries ⟨left, c :: (line ++ rest)⟩ = [] := by
        by_contra closes
        obtain ⟨breaks, -⟩ := List.cons_prefix_cons.mp (Regex.tries_literal_ne_nil_iff.mp closes)
        exact one (breaks ▸ List.mem_cons_self)
      have further := @ih (c :: left) fun mem => one (List.mem_cons_of_mem c mem)
      rw [List.cons_append, Regex.upTo_cons, if_pos open_, further, Option.map_map,
        List.reverse_cons, List.append_assoc]
      rfl

/-- The lines in front of the closing delimiter are read to their end when none of them begins
with a delimiter. -/
theorem upTo_frontmatterEnd {left rest : List Char} {lines : List (List Char)} (some_ : lines ≠ [])
    (one : ∀ line ∈ lines, '\n' ∉ line)
    (plain : ∀ line ∈ lines, ∀ rest, ¬"---".toList <+: line ++ rest) :
    frontmatterEnd.upTo left (['\n'].intercalate lines ++ ("\n---".toList ++ rest)) =
      some (['\n'].intercalate lines) := by
  induction lines generalizing left with
  | nil => exact absurd rfl some_
  | cons line lines ih =>
      cases lines with
      | nil =>
          have closes : frontmatterEnd.tries ⟨line.reverse ++ left, "\n---".toList ++ rest⟩ ≠ [] :=
            Regex.tries_literal_ne_nil_iff.mpr (List.prefix_append _ _)
          rw [List.intercalate_singleton, upTo_frontmatterEnd_line (one line List.mem_cons_self),
            Regex.upTo_here closes, Option.map_some, List.append_nil]
      | cons next lines =>
          have open_ : ∀ behind, frontmatterEnd.tries ⟨line.reverse ++ left, '\n' ::
              (['\n'].intercalate (next :: lines) ++ behind)⟩ = [] := by
            intro behind
            by_contra closes
            obtain ⟨-, begins⟩ :=
              List.cons_prefix_cons.mp (Regex.tries_literal_ne_nil_iff.mp closes)
            have starts : ∃ further, ['\n'].intercalate (next :: lines) = next ++ further := by
              cases lines with
              | nil => exact ⟨[], by rw [List.intercalate_singleton, List.append_nil]⟩
              | cons other lines =>
                  exact ⟨_, by rw [List.intercalate_cons_cons, List.append_assoc]⟩
            obtain ⟨further, same⟩ := starts
            rw [same, List.append_assoc] at begins
            exact plain next (by simp) _ begins
          have behind := @ih ('\n' :: (line.reverse ++ left)) (List.cons_ne_nil _ _)
            (fun other mem => one other (List.mem_cons_of_mem _ mem))
            (fun other mem => plain other (List.mem_cons_of_mem _ mem))
          rw [List.intercalate_cons_cons, List.append_assoc, List.append_assoc,
            upTo_frontmatterEnd_line (one line List.mem_cons_self), List.singleton_append,
            Regex.upTo_cons, if_pos (open_ _), behind, Option.map_some, Option.map_some,
            List.append_assoc]
          rfl

/-! ### What can be written -/

/-- A key that is read back as it is. -/
structure PlainKey (key : String) : Prop where
  trimmed : Text.strip key = key
  nonempty : key ≠ ""
  noColon : ':' ∉ key.toList
  noBreak : '\n' ∉ key.toList
  noDelimiter : ¬"---".toList <+: key.toList

structure PlainValue (value : String) : Prop where
  trimmed : Text.strip value = value
  noBreak : '\n' ∉ value.toList

theorem toList_frontmatterLine (entry : String × String) :
    (frontmatterLine entry).toList = entry.1.toList ++ ':' :: ' ' :: entry.2.toList := by
  rw [frontmatterLine, String.toList_append, String.toList_append, List.append_assoc]
  rfl

/-- A line does not begin with a delimiter: the colon stands behind the key. -/
theorem PlainKey.line_plain {key : String} (plain : PlainKey key) (rest : List Char) :
    ¬"---".toList <+: key.toList ++ ':' :: rest := by
  intro begins
  rcases le_or_gt "---".toList.length key.toList.length with short | long
  · exact plain.noDelimiter
      (List.prefix_of_prefix_length_le begins (List.prefix_append _ _) short)
  · have colon : key.toList ++ [':'] <+: key.toList ++ ':' :: rest :=
      ⟨rest, by rw [List.append_assoc]; rfl⟩
    have inside : key.toList ++ [':'] <+: "---".toList :=
      List.prefix_of_prefix_length_le colon begins (by rw [List.length_append]; exact long)
    have mem : ':' ∈ "---".toList := inside.subset (by simp)
    exact absurd mem (by decide)

theorem cutList_of_notMem {c : Char} {text : List Char} (rest : List Char) (absent : c ∉ text) :
    Text.cutList [c] (text ++ c :: rest) = some (text, rest) := by
  induction text with
  | nil => simp [Text.cutList]
  | cons d text ih =>
      have other : c ≠ d := fun same => absent (same ▸ List.mem_cons_self)
      have further := ih fun mem => absent (List.mem_cons_of_mem d mem)
      rw [List.cons_append, Text.cutList, if_neg (by simpa using other), further]
      rfl

/-- A line is read as the entry it was written for. -/
theorem readFrontmatterLine_line (res : Frontmatter) {entry : String × String}
    (key : PlainKey entry.1) (value : PlainValue entry.2) :
    readFrontmatterLine res (frontmatterLine entry).toList = res.set entry.1 entry.2 := by
  have spaced : Text.strip (.ofList (' ' :: entry.2.toList)) = entry.2 := by
    rw [← String.toList_inj, Text.toList_strip, String.toList_ofList, Text.trim_cons (by decide),
      ← Text.toList_strip, value.trimmed]
  have cut : Text.cut (.ofList (frontmatterLine entry).toList) ":" =
      some (entry.1, .ofList (' ' :: entry.2.toList)) := by
    have colon : Text.cutList [':'] (entry.1.toList ++ ':' :: ' ' :: entry.2.toList) =
        some (entry.1.toList, ' ' :: entry.2.toList) := cutList_of_notMem _ key.noColon
    rw [Text.cut, toList_frontmatterLine, String.toList_ofList, String.toList_ofList, colon,
      Option.map_some, String.ofList_toList]
  rw [readFrontmatterLine, cut]
  dsimp only
  rw [key.trimmed, spaced]

/-- Reading lines adds their entries, when their keys are new. -/
theorem foldl_readFrontmatterLine {entries : List (String × String)}
    (keys : ∀ entry ∈ entries, PlainKey entry.1) (values : ∀ entry ∈ entries, PlainValue entry.2)
    {res : Frontmatter} (new : ((res.entries ++ entries).map Prod.fst).Nodup) :
    ((entries.map fun entry => (frontmatterLine entry).toList).foldl
      readFrontmatterLine res).entries = res.entries ++ entries := by
  induction entries generalizing res with
  | nil => exact (List.append_nil _).symm
  | cons entry entries ih =>
      have absent : entry.1 ∉ res.entries.map Prod.fst := by
        rw [List.map_append, List.map_cons] at new
        exact fun mem => List.disjoint_of_nodup_append new mem List.mem_cons_self
      have added : (res.set entry.1 entry.2).entries = res.entries ++ [entry] :=
        res.entries_set_of_notMem entry.1 entry.2 absent
      rw [List.map_cons, List.foldl_cons, readFrontmatterLine_line res
        (keys entry List.mem_cons_self) (values entry List.mem_cons_self)]
      rw [ih (fun other mem => keys other (List.mem_cons_of_mem _ mem))
        (fun other mem => values other (List.mem_cons_of_mem _ mem))
        (by rw [added, List.append_assoc]; exact new), added, List.append_assoc]
      rfl

/-! ### The round trip -/

/-- What is written, part by part. -/
theorem toList_serialize (content : String) {frontmatter : Frontmatter}
    (some_ : frontmatter.entries ≠ []) :
    (serializeMarkdownWithFrontmatter content frontmatter).toList = "---\n".toList ++
      (['\n'].intercalate (frontmatter.entries.map fun entry => (frontmatterLine entry).toList) ++
        ("\n---".toList ++ ("\n\n".toList ++ content.toList))) := by
  have lines : frontmatter.entries.map frontmatterLine ≠ [] :=
    fun none => some_ (List.map_eq_nil_iff.mp none)
  rw [serializeMarkdownWithFrontmatter, if_neg some_, Text.join,
    String.intercalate_append_of_ne_nil (by simp) (by simp),
    String.intercalate_append_of_ne_nil (by simp) lines, String.intercalate_singleton,
    String.intercalate_cons_cons, String.intercalate_cons_cons, String.intercalate_singleton]
  simp only [String.toList_append, String.toList_intercalate, List.map_map, List.append_assoc]
  rfl

/-- **Front matter is read back as it was written**, whatever the note contains, and the note
ends with its content. -/
theorem frontmatter_roundtrip (content : String) {frontmatter : Frontmatter}
    (some_ : frontmatter.entries ≠ [])
    (keys : ∀ entry ∈ frontmatter.entries, PlainKey entry.1)
    (values : ∀ entry ∈ frontmatter.entries, PlainValue entry.2) :
    parseFrontmatter (serializeMarkdownWithFrontmatter content frontmatter) = frontmatter ∧
      content.toList <:+ (serializeMarkdownWithFrontmatter content frontmatter).toList := by
  have text := toList_serialize content some_
  have one : ∀ line ∈ frontmatter.entries.map fun entry => (frontmatterLine entry).toList,
      '\n' ∉ line := by
    intro line mem
    obtain ⟨entry, there, rfl⟩ := List.mem_map.mp mem
    rw [toList_frontmatterLine]
    have key := (keys entry there).noBreak
    have value := (values entry there).noBreak
    simp [key, value]
  have plain : ∀ line ∈ frontmatter.entries.map fun entry => (frontmatterLine entry).toList,
      ∀ rest, ¬"---".toList <+: line ++ rest := by
    intro line mem rest
    obtain ⟨entry, there, rfl⟩ := List.mem_map.mp mem
    rw [toList_frontmatterLine, List.append_assoc, List.cons_append]
    exact (keys entry there).line_plain _
  have lines : frontmatter.entries.map (fun entry => (frontmatterLine entry).toList) ≠ [] :=
    fun none => some_ (List.map_eq_nil_iff.mp none)
  constructor
  · have fm : Regex.betweenAt frontmatterStart frontmatterEnd ⟨[], (serializeMarkdownWithFrontmatter
        content frontmatter).toList⟩ = some (['\n'].intercalate
          (frontmatter.entries.map fun entry => (frontmatterLine entry).toList)) := by
      rw [text]
      exact Regex.betweenAt_first (Regex.head_literal fun c => beq_self_eq_true c)
        (upTo_frontmatterEnd lines one plain)
    have read := @foldl_readFrontmatterLine _ keys values {} frontmatter.distinct
    rw [parseFrontmatter, fm]
    dsimp only
    rw [List.splitOn_intercalate _ one lines]
    exact Dictionary.ext read
  · rw [text]
    simp only [← List.append_assoc]
    exact List.suffix_append _ _

/-- Delimiters and colons in a value and in the content. -/
theorem frontmatter_roundtrip_delimiters :
    let frontmatter : Frontmatter := ⟨[("-", ""), ("title", "a: b ---")], by decide⟩
    parseFrontmatter (serializeMarkdownWithFrontmatter "x: y\n---\n" frontmatter) = frontmatter ∧
      "x: y\n---\n".toList <:+
        (serializeMarkdownWithFrontmatter "x: y\n---\n" frontmatter).toList := by
  intro frontmatter
  refine frontmatter_roundtrip "x: y\n---\n" (List.cons_ne_nil _ _) ?_ ?_
  · intro entry mem
    have here : entry = ("-", "") ∨ entry = ("title", "a: b ---") := by simpa [frontmatter] using mem
    rcases here with rfl | rfl
    · exact ⟨by decide, by decide, by decide, by decide, by decide⟩
    · exact ⟨by decide, by decide, by decide, by decide, by decide⟩
  · intro entry mem
    have here : entry = ("-", "") ∨ entry = ("title", "a: b ---") := by simpa [frontmatter] using mem
    rcases here with rfl | rfl
    · exact ⟨by decide, by decide⟩
    · exact ⟨by decide, by decide⟩

end AgentOs
