import AgentOs.Lib.Regex

/-!
Searching for the shortest text between two expressions.

`searchBetween` is a search for an expression, a group that reads as little as possible, and a
second expression: what the group captures. Every way to match the first expression is tried in its
order, and then the group is made longer character by character.
-/

namespace AgentOs.Lib.Regex

/-- The shortest text in front of a match of an expression. -/
def upTo (close : Regex) : List Char → List Char → Option (List Char)
  | left, [] => if close.tries ⟨left, []⟩ = [] then none else some []
  | left, c :: right =>
      if close.tries ⟨left, c :: right⟩ = [] then (upTo close (c :: left) right).map (c :: ·)
      else some []

/-- The group of a match at a place. -/
def betweenAt (start close : Regex) (place : Place) : Option (List Char) :=
  (start.tries place).findSome? fun matched => close.upTo matched.stop.left matched.stop.right

/-- The group of the first match from a place on. -/
def searchBetweenFrom (start close : Regex) : List Char → List Char → Option (List Char)
  | left, [] => betweenAt start close ⟨left, []⟩
  | left, c :: right =>
      (betweenAt start close ⟨left, c :: right⟩).orElse fun _ =>
        searchBetweenFrom start close (c :: left) right

/-- The group of the first match in a text. -/
def searchBetween (start close : Regex) (text : List Char) : Option (List Char) :=
  searchBetweenFrom start close [] text

section

variable {p : Char → Bool} {r s start close : Regex} {place : Place} {matched : Matched}
  {left right before after : List Char} {same : Char → Char → Bool}

theorem upTo_nil :
    close.upTo left [] = if close.tries ⟨left, []⟩ = [] then none else some [] := rfl

theorem upTo_cons {c : Char} : close.upTo left (c :: right) =
    if close.tries ⟨left, c :: right⟩ = [] then (close.upTo (c :: left) right).map (c :: ·)
    else some [] := rfl

theorem upTo_here (closes : close.tries ⟨left, right⟩ ≠ []) : close.upTo left right = some [] := by
  cases right with
  | nil => exact if_neg closes
  | cons c right => exact if_neg closes

/-- The text that is read is as short as any. -/
theorem upTo_le (closes : close.tries ⟨before.reverse ++ left, after⟩ ≠ []) :
    ∃ group, close.upTo left (before ++ after) = some group ∧ group <+: before := by
  induction before generalizing left with
  | nil =>
      exact ⟨[], upTo_here closes, List.nil_prefix⟩
  | cons c before ih =>
      rw [List.cons_append, upTo_cons]
      split
      · rw [List.reverse_cons, List.append_assoc] at closes
        obtain ⟨group, found, short⟩ := ih closes
        rw [List.singleton_append] at found
        exact ⟨c :: group, congrArg (Option.map (c :: ·)) found,
          List.cons_prefix_cons.mpr ⟨rfl, short⟩⟩
      · exact ⟨[], rfl, List.nil_prefix⟩

/-- Behind the text that is read there is a match. -/
theorem upTo_closes {group : List Char} (found : close.upTo left right = some group) :
    ∃ rest, right = group ++ rest ∧ close.tries ⟨group.reverse ++ left, rest⟩ ≠ [] := by
  induction right generalizing left group with
  | nil =>
      rw [upTo_nil] at found
      split_ifs at found with here
      cases found
      exact ⟨[], rfl, here⟩
  | cons c right ih =>
      rw [upTo_cons] at found
      split_ifs at found with here
      · obtain ⟨shorter, further, rfl⟩ := Option.map_eq_some_iff.mp found
        obtain ⟨rest, rfl, closes⟩ := ih further
        refine ⟨rest, rfl, ?_⟩
        rw [List.reverse_cons, List.append_assoc]
        exact closes
      · cases found
        exact ⟨c :: right, rfl, here⟩

theorem betweenAt_none (absent : start.tries place = []) : betweenAt start close place = none := by
  rw [betweenAt, absent, List.findSome?_nil]

theorem searchBetweenFrom_none (absent : ∀ skipped rest, right = skipped ++ rest →
    start.tries ⟨skipped.reverse ++ left, rest⟩ = []) :
    searchBetweenFrom start close left right = none := by
  induction right generalizing left with
  | nil => exact betweenAt_none (absent [] [] rfl)
  | cons c right ih =>
      have here : start.tries ⟨left, c :: right⟩ = [] := absent [] (c :: right) rfl
      rw [searchBetweenFrom, betweenAt_none here]
      refine ih fun skipped rest split => ?_
      have further := absent (c :: skipped) rest (congrArg (c :: ·) split)
      rw [List.reverse_cons, List.append_assoc] at further
      exact further

/-- Without a match of the first expression there is none. -/
theorem searchBetween_none {text : List Char} (absent : ∀ skipped rest, text = skipped ++ rest →
    start.tries ⟨skipped.reverse, rest⟩ = []) : searchBetween start close text = none := by
  refine searchBetweenFrom_none fun skipped rest split => ?_
  rw [List.append_nil]
  exact absent skipped rest split

/-- The first way to match is taken where a match follows. -/
theorem betweenAt_first {group : List Char} (first : (start.tries place).head? = some matched)
    (found : close.upTo matched.stop.left matched.stop.right = some group) :
    betweenAt start close place = some group := by
  obtain ⟨others, tries⟩ := List.head?_eq_some_iff.mp first
  rw [betweenAt, tries, List.findSome?_cons, found]

theorem searchBetween_start {text group : List Char}
    (first : (start.tries ⟨[], text⟩).head? = some matched)
    (found : close.upTo matched.stop.left matched.stop.right = some group) :
    searchBetween start close text = some group := by
  have here := betweenAt_first first found
  cases text with
  | nil => exact here
  | cons c text =>
      rw [searchBetween, searchBetweenFrom, here]
      rfl

/-! ### The first way to match -/

theorem head_seq {first second : Matched} (starts : (r.tries place).head? = some first)
    (goesOn : (s.tries first.stop).head? = some second) :
    ((seq r s).tries place).head? =
      some { second with groups := first.groups ++ second.groups } := by
  obtain ⟨others, tries⟩ := List.head?_eq_some_iff.mp starts
  obtain ⟨others', tries'⟩ := List.head?_eq_some_iff.mp goesOn
  rw [tries_seq, tries, List.flatMap_cons, tries']
  rfl

theorem head_optional (starts : (r.tries place).head? = some matched) :
    ((optional r).tries place).head? = some matched := by
  obtain ⟨others, tries⟩ := List.head?_eq_some_iff.mp starts
  rw [tries_optional, tries]
  rfl

theorem head_optional_none (absent : r.tries place = []) :
    ((optional r).tries place).head? = some { stop := place } := by
  rw [tries_optional, absent]
  rfl

theorem head_literal (alike : ∀ c, same c c = true) {cs rest : List Char} :
    ((literal same cs).tries ⟨left, cs ++ rest⟩).head? =
      some { stop := ⟨cs.reverse ++ left, rest⟩ } := by
  induction cs generalizing left with
  | nil => rfl
  | cons c cs ih =>
      have one : ((Regex.one (same c)).tries ⟨left, c :: (cs ++ rest)⟩).head? =
          some { stop := ⟨c :: left, cs ++ rest⟩ } := by
        rw [tries_one]
        dsimp only
        rw [if_pos (alike c)]
        rfl
      rw [List.cons_append, literal_cons, head_seq one ih, List.reverse_cons, List.append_assoc]
      rfl

/-- A literal matches where the text goes on with it. -/
theorem tries_literal_ne_nil_iff {cs : List Char} :
    (literal (· == ·) cs).tries ⟨left, right⟩ ≠ [] ↔ cs <+: right := by
  constructor
  · intro matches_
    obtain ⟨matched, mem⟩ := List.exists_mem_of_ne_nil _ matches_
    obtain ⟨-, read, spelled, text, -⟩ := mem_tries_literal.mp mem
    exact ⟨matched.stop.right, by rw [← spelled_eq spelled]; exact text.symm⟩
  · rintro ⟨rest, rfl⟩
    have first := @head_literal left _ (fun c => beq_self_eq_true c) cs rest
    rintro nothing
    rw [nothing] at first
    cases first

theorem head_runs {run rest : List Char} (nonempty : run ≠ []) (all : ∀ c ∈ run, p c = true)
    (stops : ∀ c, rest.head? = some c → p c = false) :
    (runs p left (run ++ rest)).head? = some ⟨run.reverse ++ left, rest⟩ := by
  induction run generalizing left with
  | nil => exact absurd rfl nonempty
  | cons c run ih =>
      rw [List.cons_append, runs_cons, if_pos (all c List.mem_cons_self)]
      cases run with
      | nil =>
          have ends : runs p (c :: left) rest = [] := by
            cases rest with
            | nil => rfl
            | cons d rest =>
                rw [runs_cons, if_neg]
                rw [stops d rfl]
                exact Bool.false_ne_true
          rw [List.nil_append, ends]
          rfl
      | cons d run =>
          have further := @ih (c :: left) (List.cons_ne_nil _ _)
            fun x mem => all x (List.mem_cons_of_mem _ mem)
          rw [List.head?_append, further, List.reverse_cons (a := c), List.append_assoc]
          rfl

/-- A run of a class that may be missing is read to its end. -/
theorem head_optional_many {run rest : List Char} (all : ∀ c ∈ run, p c = true)
    (stops : ∀ c, rest.head? = some c → p c = false) :
    ((optional (many p)).tries ⟨left, run ++ rest⟩).head? =
      some { stop := ⟨run.reverse ++ left, rest⟩ } := by
  cases run with
  | nil =>
      refine head_optional_none ?_
      rw [tries_many]
      cases rest with
      | nil => rfl
      | cons d rest =>
          rw [List.nil_append, runs_cons, if_neg]
          · rfl
          · rw [stops d rfl]
            exact Bool.false_ne_true
  | cons c run =>
      refine head_optional ?_
      rw [tries_many, List.head?_map, head_runs (List.cons_ne_nil c run) all stops]
      rfl

end

end AgentOs.Lib.Regex
