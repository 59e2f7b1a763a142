import AgentOs.Lib.Regex

/-!
The texts a regular expression matches whole.

`Lang` is the language of an expression in which no word boundary stands, and `tries` finds
exactly the beginnings of a text that are in it (`exists_stop_iff`). A match of a whole text
asks for one that ends where the text does (`fullMatches_iff`).
-/

namespace AgentOs.Lib.Regex

/-- No boundary stands in the expression. -/
def Plain : Regex → Prop
  | empty | one _ | many _ => True
  | optional r | group r => r.Plain
  | seq r s => r.Plain ∧ s.Plain
  | boundary _ => False

/-- What a plain expression matches. -/
def Lang : Regex → List Char → Prop
  | empty, text => text = []
  | one p, text => ∃ c, p c = true ∧ text = [c]
  | many p, text => text ≠ [] ∧ ∀ c ∈ text, p c = true
  | optional r, text => r.Lang text ∨ text = []
  | seq r s, text => ∃ a b, text = a ++ b ∧ r.Lang a ∧ s.Lang b
  | group r, text => r.Lang text
  | boundary _, _ => False

/-- Does the expression match the whole text? -/
def fullMatches (r : Regex) (text : List Char) : Bool :=
  (r.tries ⟨[], text⟩).any fun matched => matched.stop.right = []

/-- A match that ends at `stop`. -/
def Stops (r : Regex) (place stop : Place) : Prop :=
  ∃ matched ∈ r.tries place, matched.stop = stop

/-- The text between two places. -/
def Reads (place stop : Place) (read : List Char) : Prop :=
  place.right = read ++ stop.right ∧ stop.left = read.reverse ++ place.left

variable {r s : Regex} {place middle stop : Place} {a b : List Char}

theorem Reads.nil_iff : Reads place stop [] ↔ stop = place := by
  obtain ⟨left, right⟩ := place
  obtain ⟨left', right'⟩ := stop
  rw [Reads, List.reverse_nil, List.nil_append, List.nil_append, Place.mk.injEq]
  exact ⟨fun ⟨same, same'⟩ => ⟨same', same.symm⟩, fun ⟨same, same'⟩ => ⟨same'.symm, same⟩⟩

theorem Reads.append (first : Reads place middle a) (second : Reads middle stop b) :
    Reads place stop (a ++ b) := by
  obtain ⟨right, left⟩ := first
  obtain ⟨right', left'⟩ := second
  refine ⟨?_, ?_⟩
  · rw [right, right', List.append_assoc]
  · rw [left', left, List.reverse_append, List.append_assoc]

/-- What is read in two goes stops in between. -/
theorem Reads.cut (read : Reads place stop (a ++ b)) :
    ∃ middle, Reads place middle a ∧ Reads middle stop b := by
  obtain ⟨right, left⟩ := read
  refine ⟨⟨a.reverse ++ place.left, b ++ stop.right⟩, ⟨?_, rfl⟩, ⟨rfl, ?_⟩⟩
  · rw [right, List.append_assoc]
  · rw [left, List.reverse_append, List.append_assoc]

theorem stops_seq_iff : (seq r s).Stops place stop ↔
    ∃ middle, r.Stops place middle ∧ s.Stops middle stop := by
  constructor
  · rintro ⟨matched, mem, rfl⟩
    obtain ⟨first, one, second, two, rfl⟩ := mem_tries_seq.mp mem
    exact ⟨first.stop, ⟨first, one, rfl⟩, second, two, rfl⟩
  · rintro ⟨middle, ⟨first, one, rfl⟩, second, two, rfl⟩
    exact ⟨_, mem_tries_seq.mpr ⟨first, one, second, two, rfl⟩, rfl⟩

/-- **What is tried is the language.** -/
theorem stops_iff (plain : r.Plain) :
    r.Stops place stop ↔ ∃ read, r.Lang read ∧ Reads place stop read := by
  induction r generalizing place stop with
  | empty =>
      simp only [Stops, tries_empty, List.mem_singleton, exists_eq_left, Lang, Reads.nil_iff]
      exact eq_comm
  | one p =>
      constructor
      · rintro ⟨matched, mem, rfl⟩
        obtain ⟨c, right, text, has, rfl⟩ := mem_tries_one.mp mem
        exact ⟨[c], ⟨c, has, rfl⟩, text, rfl⟩
      · rintro ⟨read, ⟨c, has, rfl⟩, right, left⟩
        obtain ⟨left', right'⟩ := stop
        cases left
        exact ⟨_, mem_tries_one.mpr ⟨c, right', right, has, rfl⟩, rfl⟩
  | many p =>
      constructor
      · rintro ⟨matched, mem, rfl⟩
        obtain ⟨-, run, some_, all, right, left⟩ := mem_tries_many.mp mem
        exact ⟨run, ⟨some_, all⟩, right, left⟩
      · rintro ⟨run, ⟨some_, all⟩, right, left⟩
        exact ⟨{ stop }, mem_tries_many.mpr ⟨rfl, run, some_, all, right, left⟩, rfl⟩
  | optional r ih =>
      constructor
      · rintro ⟨matched, mem, rfl⟩
        rcases mem_tries_optional.mp mem with inner | rfl
        · obtain ⟨read, lang, reads⟩ := (ih plain).mp ⟨matched, inner, rfl⟩
          exact ⟨read, .inl lang, reads⟩
        · exact ⟨[], .inr rfl, Reads.nil_iff.mpr rfl⟩
      · rintro ⟨read, lang | rfl, reads⟩
        · obtain ⟨matched, inner, stop⟩ := (ih plain).mpr ⟨read, lang, reads⟩
          exact ⟨matched, mem_tries_optional.mpr (.inl inner), stop⟩
        · exact ⟨_, mem_tries_optional.mpr (.inr rfl), (Reads.nil_iff.mp reads).symm⟩
  | seq r s ihr ihs =>
      rw [stops_seq_iff]
      constructor
      · rintro ⟨middle, first, second⟩
        obtain ⟨a, langA, readsA⟩ := (ihr plain.1).mp first
        obtain ⟨b, langB, readsB⟩ := (ihs plain.2).mp second
        exact ⟨a ++ b, ⟨a, b, rfl, langA, langB⟩, readsA.append readsB⟩
      · rintro ⟨read, ⟨a, b, rfl, langA, langB⟩, reads⟩
        obtain ⟨middle, readsA, readsB⟩ := reads.cut
        exact ⟨middle, (ihr plain.1).mpr ⟨a, langA, readsA⟩,
          (ihs plain.2).mpr ⟨b, langB, readsB⟩⟩
  | group r ih =>
      refine Iff.trans ?_ (ih plain)
      constructor
      · rintro ⟨matched, mem, rfl⟩
        obtain ⟨inner, here, rfl⟩ := mem_tries_group.mp mem
        exact ⟨inner, here, rfl⟩
      · rintro ⟨inner, here, rfl⟩
        exact ⟨_, mem_tries_group.mpr ⟨inner, here, rfl⟩, rfl⟩
  | boundary word => exact plain.elim

/-- **A text is matched whole where it is in the language.** -/
theorem fullMatches_iff (plain : r.Plain) {text : List Char} :
    r.fullMatches text = true ↔ r.Lang text := by
  rw [fullMatches, List.any_eq_true]
  constructor
  · rintro ⟨matched, mem, ends⟩
    obtain ⟨read, lang, right, -⟩ := (stops_iff plain).mp ⟨matched, mem, rfl⟩
    rw [of_decide_eq_true ends, List.append_nil] at right
    have whole : text = read := right
    exact whole ▸ lang
  · intro lang
    have reads : Reads ⟨[], text⟩ ⟨text.reverse, []⟩ text :=
      ⟨(List.append_nil text).symm, (List.append_nil _).symm⟩
    obtain ⟨matched, mem, ends⟩ := (stops_iff plain).mpr ⟨text, lang, reads⟩
    exact ⟨matched, mem, by simp [ends]⟩

end AgentOs.Lib.Regex
