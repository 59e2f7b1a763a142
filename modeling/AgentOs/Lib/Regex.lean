import Mathlib.Data.List.Basic

/-!
Backtracking regular expressions.

A match is looked for at a place of a text. `tries` lists how an expression can match there, in
the order in which a backtracking matcher tries them: the first is the match that it reports.
`searches` asks for a match at any place.

`mem_tries_*` say what each construct matches, and `searches_phrase` what a search for words with
white space between them finds.
-/

namespace AgentOs.Lib

/-- A place of a text: what is to its left, last character first, and to its right. -/
structure Place where
  left : List Char
  right : List Char
deriving DecidableEq, Repr

/-- Where a match ends, and what its groups captured. -/
structure Matched where
  stop : Place
  groups : List (List Char) := []
deriving DecidableEq, Repr

inductive Regex where
  | empty
  /-- one character of a class -/
  | one (p : Char → Bool)
  /-- one or more characters of a class, as many as possible -/
  | many (p : Char → Bool)
  /-- preferably with `r` -/
  | optional (r : Regex)
  | seq (r s : Regex)
  /-- captures what `r` matches -/
  | group (r : Regex)
  /-- between a character of `word` and none -/
  | boundary (word : Char → Bool)

namespace Regex

/-- The ends of runs of a class that begin at a place, longest first. -/
def runs (p : Char → Bool) : List Char → List Char → List Place
  | _, [] => []
  | left, c :: right =>
      if p c then runs p (c :: left) right ++ [⟨c :: left, right⟩] else []

/-- The matches at a place, in the order of preference. -/
def tries : Regex → Place → List Matched
  | empty, place => [{ stop := place }]
  | one p, place =>
      match place.right with
      | [] => []
      | c :: right => if p c then [{ stop := ⟨c :: place.left, right⟩ }] else []
  | many p, place => (runs p place.left place.right).map fun stop => { stop }
  | optional r, place => r.tries place ++ [{ stop := place }]
  | seq r s, place =>
      (r.tries place).flatMap fun first =>
        (s.tries first.stop).map fun second =>
          { second with groups := first.groups ++ second.groups }
  | group r, place =>
      (r.tries place).map fun matched =>
        { matched with
          groups := place.right.take (place.right.length - matched.stop.right.length) ::
            matched.groups }
  | boundary word, place =>
      if place.left.head?.any word = place.right.head?.any word then [] else [{ stop := place }]

/-- The match at the start of a text. -/
def matchStart (r : Regex) (text : List Char) : Option Matched := (r.tries ⟨[], text⟩).head?

/-- Is there a match at this place or further right? -/
def searchFrom (r : Regex) : List Char → List Char → Bool
  | left, [] => !(r.tries ⟨left, []⟩).isEmpty
  | left, c :: right => !(r.tries ⟨left, c :: right⟩).isEmpty || r.searchFrom (c :: left) right

/-- Is there a match in the text? -/
def searches (r : Regex) (text : List Char) : Bool := r.searchFrom [] text

/-- The characters of a text in turn, under a comparison. -/
def literal (same : Char → Char → Bool) : List Char → Regex
  | [] => empty
  | c :: cs => seq (one (same c)) (literal same cs)

/-- A text that a literal matches. -/
def Spelled (same : Char → Char → Bool) (word text : List Char) : Prop :=
  List.Forall₂ (fun w c => same w c = true) word text

/-- Character by character, a literal matches itself. -/
theorem spelled_self (w : List Char) : Spelled (· == ·) w w := by
  induction w with
  | nil => exact .nil
  | cons c w ih => exact .cons (beq_self_eq_true c) ih

theorem spelled_eq {w read : List Char} (spelled : Spelled (· == ·) w read) : read = w := by
  induction spelled with
  | nil => rfl
  | cons same _ ih => rw [eq_of_beq same, ih]

/-- Words with runs of `space` between them. -/
def spaced (same : Char → Char → Bool) (space : Char → Bool) : List (List Char) → Regex
  | [] => empty
  | [w] => literal same w
  | w :: ws => seq (literal same w) (seq (many space) (spaced same space ws))

/-- Whole words with runs of `space` between them. -/
def phrase (same : Char → Char → Bool) (space word : Char → Bool) (ws : List (List Char)) : Regex :=
  seq (boundary word) (seq (spaced same space ws) (boundary word))

/-- A text that is spelled as words with white space between them. -/
inductive Spaced (same : Char → Char → Bool) (space : Char → Bool) :
    List (List Char) → List Char → Prop where
  | last {w read : List Char} : Spelled same w read → Spaced same space [w] read
  | next {w read gap rest : List Char} {ws : List (List Char)} :
      Spelled same w read → gap ≠ [] → (∀ c ∈ gap, space c = true) → ws ≠ [] →
      Spaced same space ws rest → Spaced same space (w :: ws) (read ++ (gap ++ rest))

/-- One of the two texts begins or ends with a character of `word` where they meet, and the other
does not. -/
def Apart (word : Char → Bool) (before after : List Char) : Prop :=
  before.getLast?.any word ≠ after.head?.any word

/-- The words stand in the text as whole words, with white space between them. -/
def HasPhrase (same : Char → Char → Bool) (space word : Char → Bool) (ws : List (List Char))
    (text : List Char) : Prop :=
  ∃ before read after, text = before ++ (read ++ after) ∧ Spaced same space ws read ∧
    Apart word before (read ++ after) ∧ Apart word (before ++ read) after

section

variable {p word : Char → Bool} {r s : Regex} {place : Place} {matched : Matched}
  {same : Char → Char → Bool} {left right text : List Char}

/-! ### The definitions, case by case -/

theorem runs_cons {c : Char} : runs p left (c :: right) =
    if p c = true then runs p (c :: left) right ++ [⟨c :: left, right⟩] else [] := rfl

theorem tries_empty : empty.tries place = [{ stop := place }] := rfl

theorem tries_one : (one p).tries place = match place.right with
    | [] => []
    | c :: right => if p c then [{ stop := ⟨c :: place.left, right⟩ }] else [] := rfl

theorem tries_many : (many p).tries place =
    (runs p place.left place.right).map fun stop => { stop } := rfl

theorem tries_optional :
    (optional r).tries place = r.tries place ++ [{ stop := place }] := rfl

theorem tries_seq : (seq r s).tries place = (r.tries place).flatMap fun first =>
    (s.tries first.stop).map fun second =>
      { second with groups := first.groups ++ second.groups } := rfl

theorem tries_group : (group r).tries place = (r.tries place).map fun matched =>
    { matched with
      groups := place.right.take (place.right.length - matched.stop.right.length) ::
        matched.groups } := rfl

theorem tries_boundary : (boundary word).tries place =
    if place.left.head?.any word = place.right.head?.any word then [] else [{ stop := place }] :=
  rfl

theorem searchFrom_nil : r.searchFrom left [] = !(r.tries ⟨left, []⟩).isEmpty := rfl

theorem searchFrom_cons {c : Char} : r.searchFrom left (c :: right) =
    (!(r.tries ⟨left, c :: right⟩).isEmpty || r.searchFrom (c :: left) right) := rfl

theorem literal_nil : literal same [] = empty := rfl

theorem literal_cons {c : Char} {cs : List Char} :
    literal same (c :: cs) = seq (one (same c)) (literal same cs) := rfl

theorem spaced_one {space : Char → Bool} {w : List Char} :
    spaced same space [w] = literal same w := rfl

theorem spaced_cons {space : Char → Bool} {v w : List Char} {ws : List (List Char)} :
    spaced same space (w :: v :: ws) =
      seq (literal same w) (seq (many space) (spaced same space (v :: ws))) := rfl

/-! ### What is matched -/

theorem mem_runs {stop : Place} : stop ∈ runs p left right ↔
    ∃ run, run ≠ [] ∧ (∀ c ∈ run, p c = true) ∧ right = run ++ stop.right ∧
      stop.left = run.reverse ++ left := by
  induction right generalizing left with
  | nil =>
      constructor
      · intro mem
        cases mem
      · rintro ⟨run, some, _, text, _⟩
        exact absurd (List.append_eq_nil_iff.mp text.symm).1 some
  | cons c right ih =>
      rw [runs_cons]
      constructor
      · intro mem
        split at mem
        · rename_i has
          rcases List.mem_append.mp mem with further | here
          · obtain ⟨run, _, all, text, before⟩ := ih.mp further
            refine ⟨c :: run, List.cons_ne_nil _ _, ?_, by rw [text]; rfl, ?_⟩
            · rintro d (_ | ⟨_, mem⟩)
              · exact has
              · exact all d mem
            · rw [before, List.reverse_cons, List.append_assoc]
              rfl
          · rw [List.mem_singleton.mp here]
            exact ⟨[c], List.cons_ne_nil _ _, fun d mem => by
              rw [List.mem_singleton.mp mem]; exact has, rfl, rfl⟩
        · cases mem
      · rintro ⟨run, some, all, text, before⟩
        cases run with
        | nil => exact absurd rfl some
        | cons d run =>
            obtain ⟨rfl, rest⟩ := List.cons.inj text
            rw [if_pos (all c List.mem_cons_self)]
            cases run with
            | nil =>
                refine List.mem_append_right _ (List.mem_singleton.mpr ?_)
                obtain ⟨stopLeft, stopRight⟩ := stop
                cases before
                cases rest
                rfl
            | cons e run =>
                refine List.mem_append_left _ (ih.mpr ⟨e :: run, List.cons_ne_nil _ _,
                  fun x mem => all x (List.mem_cons_of_mem _ mem), rest, ?_⟩)
                rw [before, List.reverse_cons, List.append_assoc]
                rfl

theorem mem_tries_seq : matched ∈ (seq r s).tries place ↔
    ∃ first ∈ r.tries place, ∃ second ∈ s.tries first.stop,
      matched = { second with groups := first.groups ++ second.groups } := by
  simp only [tries_seq, List.mem_flatMap, List.mem_map, eq_comm]

theorem mem_tries_many : matched ∈ (many p).tries place ↔ matched.groups = [] ∧
    ∃ run, run ≠ [] ∧ (∀ c ∈ run, p c = true) ∧ place.right = run ++ matched.stop.right ∧
      matched.stop.left = run.reverse ++ place.left := by
  rw [tries_many, List.mem_map]
  constructor
  · rintro ⟨stop, mem, rfl⟩
    exact ⟨rfl, mem_runs.mp mem⟩
  · rintro ⟨groups, run⟩
    obtain ⟨stop, _⟩ := matched
    cases groups
    exact ⟨stop, mem_runs.mpr run, rfl⟩

theorem mem_tries_boundary : matched ∈ (boundary word).tries place ↔
    matched = { stop := place } ∧ place.left.head?.any word ≠ place.right.head?.any word := by
  rw [tries_boundary]
  split
  · rename_i alike
    exact ⟨fun mem => (by cases mem), fun ⟨_, unlike⟩ => absurd alike unlike⟩
  · rename_i unlike
    exact ⟨fun mem => ⟨List.mem_singleton.mp mem, unlike⟩,
      fun ⟨here, _⟩ => List.mem_singleton.mpr here⟩

theorem mem_tries_one : matched ∈ (one p).tries place ↔
    ∃ c right, place.right = c :: right ∧ p c = true ∧
      matched = { stop := ⟨c :: place.left, right⟩ } := by
  rw [tries_one]
  cases place.right with
  | nil => exact ⟨fun mem => (by cases mem), fun ⟨_, _, same, _⟩ => (by cases same)⟩
  | cons c right =>
      dsimp only
      split
      · rename_i has
        constructor
        · intro mem
          exact ⟨c, right, rfl, has, List.mem_singleton.mp mem⟩
        · rintro ⟨_, _, same, _, rfl⟩
          cases same
          exact List.mem_singleton.mpr rfl
      · rename_i hasNot
        refine ⟨fun mem => (by cases mem), ?_⟩
        rintro ⟨_, _, same, has, _⟩
        cases same
        exact absurd has hasNot

theorem mem_tries_optional : matched ∈ (optional r).tries place ↔
    matched ∈ r.tries place ∨ matched = { stop := place } := by
  rw [tries_optional, List.mem_append, List.mem_singleton]

/-- A run of any length. -/
theorem mem_tries_star : matched ∈ (optional (many p)).tries place ↔ matched.groups = [] ∧
    ∃ run, (∀ c ∈ run, p c = true) ∧ place.right = run ++ matched.stop.right ∧
      matched.stop.left = run.reverse ++ place.left := by
  rw [mem_tries_optional, mem_tries_many]
  constructor
  · rintro (⟨groups, run, -, all, text, before⟩ | rfl)
    · exact ⟨groups, run, all, text, before⟩
    · exact ⟨rfl, [], fun _ mem => (by cases mem), rfl, rfl⟩
  · rintro ⟨groups, run, all, text, before⟩
    cases run with
    | nil =>
        obtain ⟨⟨_, _⟩, _⟩ := matched
        obtain ⟨_, _⟩ := place
        cases groups
        cases text
        cases before
        exact .inr rfl
    | cons c run => exact .inl ⟨groups, c :: run, List.cons_ne_nil _ _, all, text, before⟩

theorem mem_tries_group : matched ∈ (group r).tries place ↔
    ∃ inner ∈ r.tries place, matched = { inner with
      groups := place.right.take (place.right.length - inner.stop.right.length) ::
        inner.groups } := by
  simp only [tries_group, List.mem_map, eq_comm]

theorem mem_tries_literal {cs : List Char} : matched ∈ (literal same cs).tries place ↔
    matched.groups = [] ∧ ∃ read, Spelled same cs read ∧
      place.right = read ++ matched.stop.right ∧ matched.stop.left = read.reverse ++ place.left := by
  induction cs generalizing place with
  | nil =>
      simp only [literal_nil, tries_empty, List.mem_singleton]
      constructor
      · rintro rfl
        exact ⟨rfl, [], .nil, rfl, rfl⟩
      · rintro ⟨groups, read, spelled, right, left⟩
        cases spelled
        obtain ⟨⟨_, _⟩, _⟩ := matched
        obtain ⟨_, _⟩ := place
        cases groups
        cases right
        cases left
        rfl
  | cons c cs ih =>
      rw [literal_cons, mem_tries_seq]
      constructor
      · rintro ⟨first, one, second, rest, rfl⟩
        obtain ⟨d, right, starts, alike, rfl⟩ := mem_tries_one.mp one
        obtain ⟨groups, read, spelled, text, before⟩ := ih.mp rest
        refine ⟨groups, d :: read, .cons alike spelled, ?_, ?_⟩
        · rw [starts]
          exact congrArg (d :: ·) text
        · rw [before, List.reverse_cons, List.append_assoc]
          rfl
      · rintro ⟨groups, read, spelled, text, before⟩
        cases spelled with
        | @cons _ d _ read alike spelled =>
            refine ⟨_, mem_tries_one.mpr ⟨d, read ++ matched.stop.right, text, alike, rfl⟩,
              matched, ih.mpr ⟨groups, read, spelled, rfl, ?_⟩, rfl⟩
            rw [before, List.reverse_cons, List.append_assoc]
            rfl

/-- What begins with a literal goes on behind it. -/
theorem of_seq_literal {cs : List Char} (h : matched ∈ (seq (literal same cs) r).tries place) :
    ∃ read rest, Spelled same cs read ∧ place.right = read ++ rest ∧
      matched ∈ r.tries ⟨read.reverse ++ place.left, rest⟩ := by
  obtain ⟨first, reads, second, further, rfl⟩ := mem_tries_seq.mp h
  obtain ⟨groups, read, spelled, text, left⟩ := mem_tries_literal.mp reads
  refine ⟨read, first.stop.right, spelled, text, ?_⟩
  rw [groups, ← left]
  exact further

/-- What begins with a run goes on behind it. -/
theorem of_seq_many (h : matched ∈ (seq (many p) r).tries place) :
    ∃ run rest, run ≠ [] ∧ (∀ c ∈ run, p c = true) ∧ place.right = run ++ rest ∧
      matched ∈ r.tries ⟨run.reverse ++ place.left, rest⟩ := by
  obtain ⟨first, reads, second, further, rfl⟩ := mem_tries_seq.mp h
  obtain ⟨groups, run, some, all, text, left⟩ := mem_tries_many.mp reads
  refine ⟨run, first.stop.right, some, all, text, ?_⟩
  rw [groups, ← left]
  exact further

/-- A literal is read, and then the rest. -/
theorem seq_literal_tries {cs read rest : List Char} (spelled : Spelled same cs read)
    (further : r.tries ⟨read.reverse ++ left, rest⟩ ≠ []) :
    (seq (literal same cs) r).tries ⟨left, read ++ rest⟩ ≠ [] := by
  obtain ⟨matched, mem⟩ := List.exists_mem_of_ne_nil _ further
  exact List.ne_nil_of_mem (mem_tries_seq.mpr
    ⟨{ stop := ⟨read.reverse ++ left, rest⟩ },
      mem_tries_literal.mpr ⟨rfl, read, spelled, rfl, rfl⟩, matched, mem, rfl⟩)

/-- A run is read, and then the rest. -/
theorem seq_many_tries {run rest : List Char} (some : run ≠ []) (all : ∀ c ∈ run, p c = true)
    (further : r.tries ⟨run.reverse ++ left, rest⟩ ≠ []) :
    (seq (many p) r).tries ⟨left, run ++ rest⟩ ≠ [] := by
  obtain ⟨matched, mem⟩ := List.exists_mem_of_ne_nil _ further
  exact List.ne_nil_of_mem (mem_tries_seq.mpr
    ⟨{ stop := ⟨run.reverse ++ left, rest⟩ },
      mem_tries_many.mpr ⟨rfl, run, some, all, rfl, rfl⟩, matched, mem, rfl⟩)

theorem searchFrom_iff : r.searchFrom left right = true ↔
    ∃ skipped rest, right = skipped ++ rest ∧
      r.tries ⟨skipped.reverse ++ left, rest⟩ ≠ [] := by
  have found : ∀ place : Place, (!(r.tries place).isEmpty) = true ↔ r.tries place ≠ [] := by
    intro place
    rw [Bool.not_eq_true', List.isEmpty_eq_false_iff]
  induction right generalizing left with
  | nil =>
      rw [searchFrom_nil, found]
      constructor
      · exact fun here => ⟨[], [], rfl, here⟩
      · rintro ⟨skipped, rest, text, here⟩
        obtain ⟨rfl, rfl⟩ := List.append_eq_nil_iff.mp text.symm
        exact here
  | cons c right ih =>
      rw [searchFrom_cons, Bool.or_eq_true, found]
      constructor
      · rintro (here | further)
        · exact ⟨[], c :: right, rfl, here⟩
        · obtain ⟨skipped, rest, text, there⟩ := ih.mp further
          refine ⟨c :: skipped, rest, congrArg (c :: ·) text, ?_⟩
          rw [List.reverse_cons, List.append_assoc]
          exact there
      · rintro ⟨skipped, rest, text, there⟩
        cases skipped with
        | nil =>
            cases text
            exact .inl there
        | cons d skipped =>
            obtain ⟨rfl, further⟩ := List.cons.inj text
            refine .inr (ih.mpr ⟨skipped, rest, further, ?_⟩)
            rw [List.reverse_cons, List.append_assoc] at there
            exact there

theorem searches_iff : r.searches text = true ↔
    ∃ skipped rest, text = skipped ++ rest ∧ r.tries ⟨skipped.reverse, rest⟩ ≠ [] := by
  have searched := @searchFrom_iff r [] text
  simp only [List.append_nil] at searched
  exact searched

theorem mem_tries_spaced {space : Char → Bool} {ws : List (List Char)} (some : ws ≠ []) :
    matched ∈ (spaced same space ws).tries place ↔ matched.groups = [] ∧
      ∃ read, Spaced same space ws read ∧ place.right = read ++ matched.stop.right ∧
        matched.stop.left = read.reverse ++ place.left := by
  induction ws generalizing place matched with
  | nil => exact absurd rfl some
  | cons w ws ih =>
      cases ws with
      | nil =>
          rw [spaced_one, mem_tries_literal]
          refine and_congr_right fun _ => exists_congr fun read => and_congr_left fun _ => ?_
          constructor
          · exact .last
          · rintro (spelled | ⟨_, _, _, none, _⟩)
            · exact spelled
            · exact absurd rfl none
      | cons v ws =>
          rw [spaced_cons, mem_tries_seq]
          constructor
          · rintro ⟨first, one, second, rest, rfl⟩
            obtain ⟨groups, read, spelled, text, before⟩ := mem_tries_literal.mp one
            obtain ⟨gap, many, third, more, rfl⟩ := mem_tries_seq.mp rest
            obtain ⟨none, run, wide, blank, text', before'⟩ := mem_tries_many.mp many
            obtain ⟨groups', read', spaced, text'', before''⟩ :=
              (ih (List.cons_ne_nil _ _)).mp more
            refine ⟨?_, read ++ (run ++ read'),
              .next spelled wide blank (List.cons_ne_nil _ _) spaced, ?_, ?_⟩
            · rw [groups, none, groups']
              rfl
            · rw [text, text', text'']
              simp only [List.append_assoc]
            · rw [before'', before', before]
              simp only [List.reverse_append, List.append_assoc]
          · rintro ⟨groups, read, spaced, text, before⟩
            cases spaced with
            | @next _ read run rest _ spelled wide blank _ spaced =>
                simp only [List.append_assoc] at text
                let second : Place := ⟨read.reverse ++ place.left,
                  run ++ (rest ++ matched.stop.right)⟩
                let third : Place := ⟨run.reverse ++ second.left, rest ++ matched.stop.right⟩
                have more : matched ∈ (Regex.spaced same space (v :: ws)).tries third := by
                  refine (ih (List.cons_ne_nil _ _)).mpr ⟨groups, rest, spaced, rfl, ?_⟩
                  rw [before]
                  simp only [third, second, List.reverse_append, List.append_assoc]
                refine ⟨{ stop := second }, mem_tries_literal.mpr ⟨rfl, read, spelled, text, rfl⟩,
                  matched, ?_, rfl⟩
                exact mem_tries_seq.mpr ⟨{ stop := third },
                  mem_tries_many.mpr ⟨rfl, run, wide, blank, rfl, rfl⟩, matched, more, rfl⟩

/-- A search for whole words finds them where they stand. -/
theorem searches_phrase {space : Char → Bool} {ws : List (List Char)} (some : ws ≠ []) :
    (phrase same space word ws).searches text = true ↔ HasPhrase same space word ws text := by
  rw [searches_iff]
  constructor
  · rintro ⟨before, rest, rfl, found⟩
    obtain ⟨matched, found⟩ := List.exists_mem_of_ne_nil _ found
    obtain ⟨first, starts, second, reads, rfl⟩ := mem_tries_seq.mp found
    obtain ⟨rfl, apart⟩ := mem_tries_boundary.mp starts
    obtain ⟨third, middle, fourth, stops, rfl⟩ := mem_tries_seq.mp reads
    obtain ⟨rfl, apart'⟩ := mem_tries_boundary.mp stops
    obtain ⟨_, read, spaced, text, left⟩ := (mem_tries_spaced some).mp middle
    dsimp only at text left apart
    refine ⟨before, read, third.stop.right, by rw [text], spaced, ?_, ?_⟩
    · rw [← text, Apart, ← List.head?_reverse]
      exact apart
    · rw [Apart, ← List.head?_reverse, List.reverse_append, ← left]
      exact apart'
  · rintro ⟨before, read, after, rfl, spaced, apart, apart'⟩
    rw [Apart, ← List.head?_reverse] at apart apart'
    rw [List.reverse_append] at apart'
    let stop : Place := ⟨read.reverse ++ before.reverse, after⟩
    have stops : { stop } ∈ (seq (Regex.spaced same space ws) (boundary word)).tries
        ⟨before.reverse, read ++ after⟩ :=
      mem_tries_seq.mpr ⟨{ stop }, (mem_tries_spaced some).mpr ⟨rfl, read, spaced, rfl, rfl⟩,
        { stop }, mem_tries_boundary.mpr ⟨rfl, apart'⟩, rfl⟩
    refine ⟨before, read ++ after, rfl, List.ne_nil_of_mem (a := { stop }) ?_⟩
    exact mem_tries_seq.mpr ⟨_, mem_tries_boundary.mpr ⟨rfl, apart⟩, _, stops, rfl⟩

end

/-! ### The first match -/

/-- The match of the first of some expressions that matches, at the leftmost place where one does. -/
def findFrom (rs : List Regex) : List Char → List Char → Option Matched
  | left, [] => rs.findSome? fun r => (r.tries ⟨left, []⟩).head?
  | left, c :: right =>
      (rs.findSome? fun r => (r.tries ⟨left, c :: right⟩).head?).orElse fun _ =>
        findFrom rs (c :: left) right

/-- `findFrom` the start of a text. -/
def find (rs : List Regex) (text : List Char) : Option Matched := findFrom rs [] text

section

variable {rs : List Regex} {left right text : List Char} {matched : Matched}

theorem findFrom_mem (found : findFrom rs left right = some matched) : ∃ r ∈ rs,
    ∃ skipped rest, right = skipped ++ rest ∧ matched ∈ r.tries ⟨skipped.reverse ++ left, rest⟩ := by
  have here : ∀ place : Place, (rs.findSome? fun r => (r.tries place).head?) = some matched →
      ∃ r ∈ rs, matched ∈ r.tries place := by
    intro place first
    obtain ⟨r, mem, head⟩ := List.exists_of_findSome?_eq_some first
    exact ⟨r, mem, List.mem_of_head? head⟩
  induction right generalizing left with
  | nil =>
      obtain ⟨r, mem, tried⟩ := here _ found
      exact ⟨r, mem, [], [], rfl, tried⟩
  | cons c right ih =>
      rw [findFrom, Option.orElse_eq_or, Option.or_eq_some_iff] at found
      rcases found with now | ⟨-, later⟩
      · obtain ⟨r, mem, tried⟩ := here _ now
        exact ⟨r, mem, [], c :: right, rfl, tried⟩
      · obtain ⟨r, mem, skipped, rest, rfl, tried⟩ := ih later
        refine ⟨r, mem, c :: skipped, rest, rfl, ?_⟩
        rw [List.reverse_cons, List.append_assoc]
        exact tried

/-- The first match is a match somewhere. -/
theorem find_mem (found : find rs text = some matched) : ∃ r ∈ rs,
    ∃ skipped rest, text = skipped ++ rest ∧ matched ∈ r.tries ⟨skipped.reverse, rest⟩ := by
  have there := findFrom_mem found
  simpa only [List.append_nil] using there

end

end Regex

end AgentOs.Lib
