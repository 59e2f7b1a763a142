import AgentOs.Lib.Text

/-!
Cutting texts.

`before` is what stands in front of the first occurrence of a marker, and `findRuns` the runs of a
class of characters. `before_append` finds the first occurrence behind a text in which none begins.
-/

namespace AgentOs.Lib.Text

variable {marker text behind skipped : List Char} {c : Char} {p : Char → Bool}

/-- `text.split(marker, maxsplit=1)[0]` -/
def before (marker text : List Char) : List Char :=
  ((cutList marker text).map Prod.fst).getD text

/-- The longest runs of the characters of a class, in turn. -/
def findRuns (p : Char → Bool) (text : List Char) : List (List Char) :=
  (text.splitOnP fun c => !p c).filter (· ≠ [])

/-! ### The first occurrence of a marker -/

theorem before_nil : before marker [] = [] := by
  unfold before cutList
  split <;> rfl

theorem before_cons : before marker (c :: text) =
    if marker.isPrefixOf (c :: text) then [] else c :: before marker text := by
  unfold before
  rw [cutList]
  split
  · rfl
  · cases cutList marker text <;> rfl

theorem before_marker (some : marker ≠ []) : before marker (marker ++ text) = [] := by
  cases marker with
  | nil => exact absurd rfl some
  | cons c marker =>
      rw [List.cons_append, before_cons, if_pos]
      exact List.isPrefixOf_iff_prefix.mpr (List.prefix_append (c :: marker) text)

/-- No occurrence begins in the text. -/
theorem before_append
    (apart : ∀ rest, rest <:+ text → rest ≠ [] → ¬ marker <+: rest ++ behind) :
    before marker (text ++ behind) = text ++ before marker behind := by
  induction text with
  | nil => rfl
  | cons c text ih =>
      have no : ¬ marker.isPrefixOf (c :: (text ++ behind)) = true := fun occurs =>
        apart (c :: text) List.suffix_rfl (List.cons_ne_nil _ _)
          (List.isPrefixOf_iff_prefix.mp occurs)
      rw [List.cons_append, before_cons, if_neg no]
      exact congrArg (c :: ·) (ih fun rest suffix =>
        apart rest (suffix.trans (List.suffix_cons c text)))

theorem before_eq_self (none : ¬ marker <:+: text) : before marker text = text := by
  cases text with
  | nil => exact before_nil
  | cons c text =>
      have whole := @before_append marker (c :: text) []
        fun rest suffix _ occurs => none (by
          rw [List.append_nil] at occurs
          exact occurs.isInfix.trans suffix.isInfix)
      rw [before_nil, List.append_nil] at whole
      exact whole

/-- The first occurrence is no later than any. -/
theorem before_prefix (some : marker ≠ []) :
    before marker (text ++ (marker ++ behind)) <+: text := by
  induction text with
  | nil => simp [before_marker some]
  | cons c text ih =>
      rw [List.cons_append, before_cons]
      split
      · exact List.nil_prefix
      · exact List.cons_prefix_cons.mpr ⟨rfl, ih⟩

/-- A marker without a character does not reach over it. -/
theorem prefix_of_not_mem (not_mem : c ∉ marker) (occurs : marker <+: text ++ c :: behind) :
    marker <+: text := by
  induction text generalizing marker with
  | nil =>
      cases marker with
      | nil => exact List.prefix_rfl
      | cons d marker =>
          obtain ⟨rfl, _⟩ := List.cons_prefix_cons.mp occurs
          exact absurd List.mem_cons_self not_mem
  | cons d text ih =>
      cases marker with
      | nil => exact List.nil_prefix
      | cons e marker =>
          obtain ⟨rfl, further⟩ := List.cons_prefix_cons.mp occurs
          exact List.cons_prefix_cons.mpr
            ⟨rfl, ih (fun mem => not_mem (List.mem_cons_of_mem _ mem)) further⟩

/-- Two readings of a text up to the first occurrence of a character are one. -/
theorem append_cons_inj {left right left' right' : List Char} (no : c ∉ left) (no' : c ∉ left')
    (same : left ++ c :: right = left' ++ c :: right') : left = left' ∧ right = right' := by
  induction left generalizing left' with
  | nil =>
      cases left' with
      | nil => exact ⟨rfl, (List.cons.inj same).2⟩
      | cons d left' =>
          obtain ⟨rfl, _⟩ := List.cons.inj same
          exact absurd List.mem_cons_self no'
  | cons d left ih =>
      cases left' with
      | nil =>
          obtain ⟨rfl, _⟩ := List.cons.inj same
          exact absurd List.mem_cons_self no
      | cons e left' =>
          obtain ⟨rfl, further⟩ := List.cons.inj same
          obtain ⟨rfl, rest⟩ := ih (fun mem => no (List.mem_cons_of_mem _ mem))
            (fun mem => no' (List.mem_cons_of_mem _ mem)) further
          exact ⟨rfl, rest⟩

/-! ### Stripped texts -/

/-- A text is its stripped form between white space. -/
theorem strip_text (s : String) : ∃ left right : List Char,
    (∀ c ∈ left, isSpace c = true) ∧ (∀ c ∈ right, isSpace c = true) ∧
      s.toList = left ++ ((strip s).toList ++ right) := by
  refine ⟨s.toList.takeWhile isSpace, (s.toList.dropWhile isSpace).rtakeWhile isSpace,
    fun c mem => List.mem_takeWhile_imp mem, fun c mem => List.mem_rtakeWhile_imp mem, ?_⟩
  unfold strip
  rw [String.toList_ofList, List.rdropWhile_append_rtakeWhile, List.takeWhile_append_dropWhile]

theorem rdropWhile_append_cons (stops : p c = false) :
    (text ++ c :: behind).rdropWhile p = text ++ c :: behind.rdropWhile p := by
  induction behind using List.reverseRecOn with
  | nil =>
      rw [List.rdropWhile_nil]
      exact List.rdropWhile_concat_neg _ _ _ (by rw [stops]; exact Bool.false_ne_true)
  | append_singleton behind d ih =>
      rw [← List.cons_append, ← List.append_assoc, List.rdropWhile_concat, List.rdropWhile_concat]
      split
      · exact ih
      · rw [List.append_assoc, List.cons_append]

/-- Stripping leaves what is between two characters that are no white space. -/
theorem strip_between {left : List Char} {first last : Char}
    (blank : ∀ c ∈ left, isSpace c = true) (starts : isSpace first = false)
    (stops : isSpace last = false) :
    (strip (.ofList (left ++ (first :: text ++ last :: behind)))).toList =
      first :: text ++ last :: behind.rdropWhile isSpace := by
  unfold strip
  rw [String.toList_ofList, String.toList_ofList, List.dropWhile_append_of_pos blank,
    List.cons_append, List.dropWhile_cons_of_neg (by rw [starts]; exact Bool.false_ne_true)]
  exact @rdropWhile_append_cons (first :: text) _ _ _ stops

/-! ### Runs -/

theorem findRuns_nil : findRuns p [] = [] := rfl

/-- A run ends at a character of another class. -/
theorem findRuns_append_cons (other : p c = false) :
    findRuns p (text ++ c :: behind) = findRuns p text ++ findRuns p behind := by
  unfold findRuns
  rw [List.splitOnP_append_cons _ _ (by rw [other]; rfl), List.filter_append]

theorem findRuns_append (other : ∀ c ∈ skipped, p c = false) :
    findRuns p (skipped ++ text) = findRuns p text := by
  induction skipped with
  | nil => rfl
  | cons c skipped ih =>
      have split := @findRuns_append_cons [] (skipped ++ text) _ _
        (other c List.mem_cons_self)
      rw [findRuns_nil, List.nil_append, List.nil_append] at split
      rw [List.cons_append, split, ih fun d mem => other d (List.mem_cons_of_mem _ mem)]

theorem findRuns_append_right (other : ∀ c ∈ skipped, p c = false) :
    findRuns p (text ++ skipped) = findRuns p text := by
  cases skipped with
  | nil => rw [List.append_nil]
  | cons c skipped =>
      have rest := @findRuns_append [] _ _
        fun d mem => other d (List.mem_cons_of_mem c mem)
      rw [List.append_nil] at rest
      rw [findRuns_append_cons (other c List.mem_cons_self), rest, findRuns_nil, List.append_nil]

theorem findRuns_run (some : text ≠ []) (all : ∀ c ∈ text, p c = true) :
    findRuns p text = [text] := by
  unfold findRuns
  rw [List.splitOnP_eq_singleton fun c mem => by rw [all c mem]; rfl]
  exact List.filter_eq_self.mpr fun run mem => by
    rw [List.mem_singleton.mp mem]
    exact decide_eq_true some

end AgentOs.Lib.Text
