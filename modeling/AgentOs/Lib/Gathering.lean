import AgentOs.Lib.Text

/-!
Texts gathered under a budget.

The texts will be joined by newlines, and their characters are counted as they are added. A text
that fits what remains keeps the joined text within the budget (`Within.add`). `gather` adds texts
in turn and cuts the one that does not fit, which is then the last (`gather_written`).
-/

namespace AgentOs.Lib

namespace Text

theorem sliceTo_prefix (s : String) (n : Int) : (sliceTo s n).toList <+: s.toList := by
  unfold sliceTo take
  split <;> rw [String.toList_ofList] <;> exact List.take_prefix _ _

theorem sliceTo_length_le (s : String) {n : Int} (nonneg : 0 ≤ n) :
    ((sliceTo s n).length : Int) ≤ n := by
  unfold sliceTo take
  rw [if_pos nonneg, ← String.length_toList, String.toList_ofList, List.length_take]
  omega

theorem sliceTo_length {s : String} {n : Int} (nonneg : 0 ≤ n) (le : n ≤ s.length) :
    ((sliceTo s n).length : Int) = n := by
  unfold sliceTo take
  rw [if_pos nonneg, ← String.length_toList, String.toList_ofList, List.length_take,
    String.length_toList]
  omega

end Text

/-- Texts, and the length that they have when they are joined. -/
structure Gathered where
  contentParts : List String := []
  currentChars : Int := 0

namespace Gathered

/-- The newline in front of one more text. -/
def joinLen (g : Gathered) : Int := if g.currentChars > 0 then 1 else 0

/-- What is left of a budget for one more text. -/
def remaining (g : Gathered) (maxChars : Int) : Int := maxChars - g.currentChars - g.joinLen

def add (g : Gathered) (part : String) : Gathered where
  contentParts := g.contentParts ++ [part]
  currentChars := g.currentChars + (part.length + g.joinLen)

/-- The texts, joined by newlines. -/
def text (g : Gathered) : String := Text.join "\n" g.contentParts

/-- The count is right and within the budget, and no text is empty. -/
structure Within (g : Gathered) (maxChars : Int) : Prop where
  counted : g.currentChars = g.text.length
  fits : g.currentChars ≤ maxChars
  some : ∀ part ∈ g.contentParts, part ≠ ""

variable {g : Gathered} {maxChars : Int} {part : String} {parts : List String}

theorem Within.nil (budget : 0 ≤ maxChars) : ({} : Gathered).Within maxChars where
  counted := rfl
  fits := budget
  some _ mem := by cases mem

theorem text_add (some : g.contentParts ≠ []) : (g.add part).text = g.text ++ "\n" ++ part := by
  unfold text add Text.join
  rw [String.intercalate_append_of_ne_nil some (List.cons_ne_nil _ _),
    String.intercalate_singleton]

theorem text_add_nil (none : g.contentParts = []) : (g.add part).text = part := by
  unfold text add Text.join
  rw [none, List.nil_append, String.intercalate_singleton]

theorem text_nil (none : g.contentParts = []) : g.text = "" := by
  unfold text Text.join
  rw [none, String.intercalate_nil]

/-- Something is counted exactly where there is a text. -/
theorem Within.currentChars_pos (within : g.Within maxChars) :
    g.currentChars > 0 ↔ g.contentParts ≠ [] := by
  rw [within.counted]
  constructor
  · intro pos none
    rw [text_nil none] at pos
    exact absurd pos (by decide)
  · intro some
    cases parts : g.contentParts with
    | nil => exact absurd parts some
    | cons first rest =>
        have occurs : Occurs first g.text := occurs_join "\n" (parts ▸ List.mem_cons_self)
        have firstSome := within.some first (parts ▸ List.mem_cons_self)
        have length : 0 < first.length := Nat.pos_of_ne_zero fun zero =>
          firstSome (String.length_eq_zero_iff.mp zero)
        have le : first.length ≤ g.text.length := by
          rw [← String.length_toList, ← String.length_toList]
          exact occurs.length_le
        omega

/-- A text that fits what remains is added within the budget. -/
theorem Within.add (within : g.Within maxChars) (some : part ≠ "")
    (fits : part.length ≤ g.remaining maxChars) : (g.add part).Within maxChars where
  counted := by
    by_cases none : g.contentParts = []
    · have zero : ¬ g.currentChars > 0 := fun pos => within.currentChars_pos.mp pos none
      have counted := within.counted
      rw [text_nil none] at counted
      rw [text_add_nil none, Gathered.add, joinLen, if_neg zero, counted]
      simp
    · have pos := within.currentChars_pos.mpr none
      rw [text_add none, Gathered.add, joinLen, if_pos pos, within.counted]
      simp only [String.length_append]
      have one : "\n".length = 1 := rfl
      omega
  fits := by
    unfold remaining at fits
    rw [Gathered.add]
    dsimp only
    omega
  some other mem := by
    rcases List.mem_append.mp mem with before | last
    · exact within.some other before
    · rw [List.mem_singleton.mp last]
      exact some

/-- The texts in turn while there is room, the last one cut to it. -/
def gather (maxChars : Int) : Gathered → List String → Gathered
  | g, [] => g
  | g, part :: parts =>
      if g.currentChars ≥ maxChars then g
      else if g.remaining maxChars ≤ 0 then g
      else
        gather maxChars
          (g.add (if part.length > g.remaining maxChars then
            Text.sliceTo part (g.remaining maxChars) else part)) parts

/-- All texts are written, or the budget is used up: the texts are written up to one, which may be
cut. -/
def WrittenWithin (maxChars : Int) (parts written : List String) : Prop :=
  written = parts ∨
    maxChars ≤ (Text.join "\n" written).length + 1 ∧ ∃ initial last rest,
      parts = initial ++ last :: rest ∧
        (written = initial ∨ ∃ cut, cut.toList <+: last.toList ∧ written = initial ++ [cut])

theorem gather_cons : gather maxChars g (part :: parts) =
    if g.currentChars ≥ maxChars then g
    else if g.remaining maxChars ≤ 0 then g
    else gather maxChars (g.add (if part.length > g.remaining maxChars then
      Text.sliceTo part (g.remaining maxChars) else part)) parts := rfl

/-- Nothing is added to a full budget. -/
theorem gather_full (full : g.currentChars ≥ maxChars) : gather maxChars g parts = g := by
  cases parts with
  | nil => rfl
  | cons part parts => rw [gather_cons, if_pos full]

/-- The first of the texts is written, whole or cut to what remains. -/
theorem Within.gather_add (within : g.Within maxChars) (some : part ≠ "")
    (room : ¬ g.remaining maxChars ≤ 0) :
    (g.add (if part.length > g.remaining maxChars then
      Text.sliceTo part (g.remaining maxChars) else part)).Within maxChars := by
  split
  · rename_i long
    have length := Text.sliceTo_length (s := part) (n := g.remaining maxChars) (by omega) (by omega)
    refine within.add ?_ (Int.le_of_eq length)
    intro none
    rw [none] at length
    exact room (Int.le_of_eq length.symm)
  · exact within.add some (by omega)

/-- What `gather` adds. -/
theorem gather_written (within : g.Within maxChars) (some : ∀ part ∈ parts, part ≠ "") :
    (gather maxChars g parts).Within maxChars ∧ ∃ added,
      (gather maxChars g parts).contentParts = g.contentParts ++ added ∧
        (added = parts ∨ maxChars ≤ (gather maxChars g parts).currentChars + 1 ∧
          ∃ initial last rest, parts = initial ++ last :: rest ∧
            (added = initial ∨ ∃ cut, cut.toList <+: last.toList ∧ added = initial ++ [cut])) := by
  induction parts generalizing g with
  | nil => exact ⟨within, [], (List.append_nil _).symm, .inl rfl⟩
  | cons part parts ih =>
      have stops : maxChars ≤ g.currentChars + 1 → ∃ added, g.contentParts = g.contentParts ++ added ∧
          (added = part :: parts ∨ maxChars ≤ g.currentChars + 1 ∧ ∃ initial last rest,
            part :: parts = initial ++ last :: rest ∧
              (added = initial ∨ ∃ cut, cut.toList <+: last.toList ∧ added = initial ++ [cut])) :=
        fun full => ⟨[], (List.append_nil _).symm, .inr ⟨full, [], part, parts, rfl, .inl rfl⟩⟩
      rw [gather_cons]
      split
      · rename_i full
        exact ⟨within, stops (by omega)⟩
      split
      · rename_i full
        refine ⟨within, stops ?_⟩
        unfold remaining joinLen at full
        split at full <;> omega
      · rename_i room
        have within' := within.gather_add (some part List.mem_cons_self) room
        split
        · -- the text is cut, and the budget is full
          rename_i long
          rw [if_pos long] at within'
          have length := Text.sliceTo_length (s := part) (n := g.remaining maxChars)
            (by omega) (by omega)
          have full : (g.add (Text.sliceTo part (g.remaining maxChars))).currentChars = maxChars := by
            rw [Gathered.add]
            dsimp only
            rw [length]
            unfold remaining
            omega
          rw [gather_full (Int.le_of_eq full.symm)]
          exact ⟨within', [Text.sliceTo part (g.remaining maxChars)], rfl,
            .inr ⟨by omega, [], part, parts, rfl, .inr ⟨_, Text.sliceTo_prefix _ _, rfl⟩⟩⟩
        · rename_i short
          rw [if_neg short] at within'
          obtain ⟨fits, added, whole, written⟩ :=
            ih within' fun other mem => some other (List.mem_cons_of_mem _ mem)
          refine ⟨fits, part :: added, ?_, ?_⟩
          · rw [whole, Gathered.add, List.append_assoc]
            rfl
          · rcases written with rfl | ⟨full, initial, last, rest, rfl, written⟩
            · exact .inl rfl
            · refine .inr ⟨full, part :: initial, last, rest, rfl, ?_⟩
              rcases written with rfl | ⟨cut, start, rfl⟩
              · exact .inl rfl
              · exact .inr ⟨cut, start, rfl⟩

/-- From nothing, `gather` writes the texts within the budget. -/
theorem gather_start (budget : 0 ≤ maxChars) (some : ∀ part ∈ parts, part ≠ "") :
    ((gather maxChars {} parts).text.length : Int) ≤ maxChars ∧
      WrittenWithin maxChars parts (gather maxChars {} parts).contentParts := by
  obtain ⟨within, added, written, cut⟩ := gather_written (.nil budget) some
  have same : (gather maxChars {} parts).contentParts = added := written
  have counted := within.counted
  have fits := within.fits
  refine ⟨counted ▸ fits, ?_⟩
  rw [same]
  rcases cut with rfl | ⟨full, cut⟩
  · exact .inl rfl
  · refine .inr ⟨?_, cut⟩
    rw [counted, text, same] at full
    exact full

end Gathered

end AgentOs.Lib
