import AgentOs.Lib.Regex

/-!
What an expression takes, with its groups.

`Takes r left read rest groups`: behind `left` and before `rest`, one of the ways in which `r` matches
is to read `read`, with these groups. The `takes_*` lemmas say it for each construct, so what a
composed expression captures is read off its parts.
-/

namespace AgentOs.Lib.Regex

/-- One of the matches of `r` reads `read`. -/
def Takes (r : Regex) (left read rest : List Char) (groups : List (List Char)) : Prop :=
  ⟨⟨read.reverse ++ left, rest⟩, groups⟩ ∈ r.tries ⟨left, read ++ rest⟩

variable {r s : Regex} {p : Char → Bool} {left right read rest : List Char}
  {groups : List (List Char)} {matched : Matched}

theorem takes_one : (one p).Takes left read rest groups ↔
    ∃ c, read = [c] ∧ p c = true ∧ groups = [] := by
  rw [Takes, mem_tries_one]
  constructor
  · rintro ⟨c, right, text, has, same⟩
    injection same with stop none
    injection stop with before after
    rw [← after] at text
    have single : read = [c] := List.append_cancel_right text
    exact ⟨c, single, has, none⟩
  · rintro ⟨c, rfl, has, rfl⟩
    exact ⟨c, rest, rfl, has, rfl⟩

theorem takes_many : (many p).Takes left read rest groups ↔
    read ≠ [] ∧ (∀ c ∈ read, p c = true) ∧ groups = [] := by
  rw [Takes, mem_tries_many]
  constructor
  · rintro ⟨none, run, some, all, text, -⟩
    obtain rfl := List.append_cancel_right text
    exact ⟨some, all, none⟩
  · rintro ⟨some, all, rfl⟩
    exact ⟨rfl, read, some, all, rfl, rfl⟩

theorem takes_star : (optional (many p)).Takes left read rest groups ↔
    (∀ c ∈ read, p c = true) ∧ groups = [] := by
  rw [Takes, mem_tries_star]
  constructor
  · rintro ⟨none, run, all, text, -⟩
    obtain rfl := List.append_cancel_right text
    exact ⟨all, none⟩
  · rintro ⟨all, rfl⟩
    exact ⟨rfl, read, all, rfl, rfl⟩

theorem takes_literal {same : Char → Char → Bool} {cs : List Char} :
    (literal same cs).Takes left read rest groups ↔ Spelled same cs read ∧ groups = [] := by
  rw [Takes, mem_tries_literal]
  constructor
  · rintro ⟨none, run, spelled, text, -⟩
    obtain rfl := List.append_cancel_right text
    exact ⟨spelled, none⟩
  · rintro ⟨spelled, rfl⟩
    exact ⟨rfl, read, spelled, rfl, rfl⟩

theorem takes_boundary {word : Char → Bool} : (boundary word).Takes left read rest groups ↔
    read = [] ∧ groups = [] ∧ left.head?.any word ≠ rest.head?.any word := by
  rw [Takes, mem_tries_boundary]
  constructor
  · rintro ⟨same, apart⟩
    injection same with stop none
    injection stop with before text
    have empty : read = [] := List.self_eq_append_left.mp text
    subst empty
    exact ⟨rfl, none, apart⟩
  · rintro ⟨rfl, rfl, apart⟩
    exact ⟨rfl, apart⟩

/-- A match goes on from where it began. -/
theorem exists_takes (r : Regex) {place : Place} (tried : matched ∈ r.tries place) :
    ∃ read, place.right = read ++ matched.stop.right ∧
      matched.stop.left = read.reverse ++ place.left := by
  induction r generalizing place matched with
  | empty =>
      rw [List.mem_singleton.mp tried]
      exact ⟨[], rfl, rfl⟩
  | one p =>
      obtain ⟨c, right, text, -, rfl⟩ := mem_tries_one.mp tried
      exact ⟨[c], text, rfl⟩
  | many p =>
      obtain ⟨-, run, -, -, text, before⟩ := mem_tries_many.mp tried
      exact ⟨run, text, before⟩
  | optional r ih =>
      rcases mem_tries_optional.mp tried with tried | rfl
      · exact ih tried
      · exact ⟨[], rfl, rfl⟩
  | seq r s ihr ihs =>
      obtain ⟨first, early, second, late, rfl⟩ := mem_tries_seq.mp tried
      obtain ⟨read, text, before⟩ := ihr early
      obtain ⟨read', text', before'⟩ := ihs late
      refine ⟨read ++ read', ?_, ?_⟩
      · rw [text, text', List.append_assoc]
      · rw [before', before, List.reverse_append, List.append_assoc]
  | group r ih =>
      obtain ⟨inner, within, rfl⟩ := mem_tries_group.mp tried
      have read := ih within
      exact read
  | boundary word =>
      obtain ⟨rfl, -⟩ := mem_tries_boundary.mp tried
      exact ⟨[], rfl, rfl⟩

/-- Every match is of what it takes. -/
theorem mem_tries_iff_takes : matched ∈ r.tries ⟨left, right⟩ ↔
    ∃ read, right = read ++ matched.stop.right ∧ matched.stop.left = read.reverse ++ left ∧
      r.Takes left read matched.stop.right matched.groups := by
  constructor
  · intro tried
    obtain ⟨read, text, before⟩ := exists_takes r tried
    dsimp only at text before
    refine ⟨read, text, before, ?_⟩
    rw [Takes, ← before, ← text]
    exact tried
  · rintro ⟨read, rfl, before, takes⟩
    rw [Takes, ← before] at takes
    exact takes

theorem takes_optional : (optional r).Takes left read rest groups ↔
    r.Takes left read rest groups ∨ read = [] ∧ groups = [] := by
  rw [Takes, mem_tries_optional]
  refine or_congr_right ?_
  constructor
  · intro same
    injection same with stop none
    injection stop with before text
    exact ⟨List.self_eq_append_left.mp text, none⟩
  · rintro ⟨rfl, rfl⟩
    rfl

theorem takes_seq : (seq r s).Takes left read rest groups ↔
    ∃ a b first second, read = a ++ b ∧ groups = first ++ second ∧
      r.Takes left a (b ++ rest) first ∧ s.Takes (a.reverse ++ left) b rest second := by
  rw [Takes, mem_tries_seq]
  constructor
  · rintro ⟨first, tried, second, tried', same⟩
    obtain ⟨a, text, before, takes⟩ := mem_tries_iff_takes.mp tried
    obtain ⟨b, text', before', takes'⟩ := mem_tries_iff_takes.mp tried'
    injection same with stop grouped
    rw [← stop] at text' takes'
    dsimp only at text' takes'
    rw [text', ← List.append_assoc] at text
    rw [text'] at takes
    rw [before] at takes'
    exact ⟨a, b, _, _, List.append_cancel_right text, grouped, takes, takes'⟩
  · rintro ⟨a, b, first, second, rfl, rfl, takes, takes'⟩
    refine ⟨⟨⟨a.reverse ++ left, b ++ rest⟩, first⟩, ?_,
      ⟨⟨b.reverse ++ (a.reverse ++ left), rest⟩, second⟩, takes', ?_⟩
    · rw [List.append_assoc]
      exact takes
    · rw [List.reverse_append, List.append_assoc]

theorem takes_group : (group r).Takes left read rest groups ↔
    ∃ inner, groups = read :: inner ∧ r.Takes left read rest inner := by
  have taken : (read ++ rest).take ((read ++ rest).length - rest.length) = read := by
    rw [List.length_append, Nat.add_sub_cancel, List.take_left]
  rw [Takes, mem_tries_group]
  constructor
  · rintro ⟨inner, tried, same⟩
    injection same with stop grouped
    rw [← stop, taken] at grouped
    refine ⟨inner.groups, grouped, ?_⟩
    rw [Takes, stop]
    exact tried
  · rintro ⟨inner, rfl, takes⟩
    exact ⟨_, takes, by rw [taken]⟩

end AgentOs.Lib.Regex
