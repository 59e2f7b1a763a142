import AgentOs.Lib.Decoding
import AgentOs.Tools.OutputLimits

/-!
What a truncated output is (`output_limits.py`).

The code cuts bytes, decodes what is left and asserts that the result fits. On characters
this is `truncateUtf8` (`truncateEncoded_eq`): the assertion never fails, since a marker for
fewer bytes is not longer.
-/

namespace AgentOs

open AgentOs.Lib

inductive TruncateError where
  | valueError (message : String)
  | assertionError
  deriving DecidableEq, Repr

/-- `truncate_utf8`, on bytes as the code has it. -/
def truncateEncoded (text : String) (maxBytes : ℤ) : Except TruncateError (String × Bool) :=
  if maxBytes < 0 then
    .error (.valueError "max_bytes must be non-negative")
  else
    let encoded := utf8 text.toList
    if encoded.length ≤ maxBytes then .ok (text, false)
    else
      let conservativeMarker := utf8 (truncationMarker encoded.length).toList
      let payloadBudget : ℤ := maxBytes - conservativeMarker.length
      if payloadBudget < 0 then .ok ("", true)
      else
        let retained := decodeIgnoring 0 (encoded.take payloadBudget.toNat)
        let retainedBytes := utf8 retained
        let omittedBytes := encoded.length - retainedBytes.length
        let result := truncationMarker omittedBytes ++ .ofList retained
        if (utf8 result.toList).length ≤ maxBytes then .ok (result, true)
        else .error .assertionError

/-! ### The marker -/

/-- A smaller number has no more digits. -/
theorem length_toDigits_le {m n : ℕ} (le : m ≤ n) :
    (Nat.toDigits 10 m).length ≤ (Nat.toDigits 10 n).length := by
  induction n using Nat.strong_induction_on generalizing m with
  | _ n ih =>
      rw [Nat.toDigits_eq_if (n := m) (by decide), Nat.toDigits_eq_if (n := n) (by decide)]
      by_cases one : n < 10
      · rw [if_pos one, if_pos (by omega)]
        exact Nat.le_refl _
      · rw [if_neg one, List.length_append]
        split
        · exact Nat.le_add_left _ _
        · rw [List.length_append]
          exact Nat.add_le_add_right (ih (n / 10) (by omega) (Nat.div_le_div_right le)) _

theorem utf8Length_eq (text : String) : Text.utf8Length text = (utf8 text.toList).length :=
  (length_utf8 text.toList).symm

theorem utf8Length_append (s t : String) :
    Text.utf8Length (s ++ t) = Text.utf8Length s + Text.utf8Length t := by
  rw [Text.utf8Length, String.toList_append, List.map_append, List.sum_append]
  rfl

theorem utf8Length_toString (n : ℕ) :
    Text.utf8Length (toString n) = (Nat.toDigits 10 n).length := by
  have ascii : ∀ c ∈ Nat.toDigits 10 n, c.utf8Size = 1 := by
    intro c mem
    have digit := Nat.isDigit_of_mem_toDigits (by decide) (by decide) mem
    simp only [Char.isDigit, Bool.and_eq_true, decide_eq_true_eq] at digit
    exact Char.utf8Size_eq_one_iff.mpr (Nat.le_trans digit.2 (by decide))
  have digits : (toString n).toList = Nat.toDigits 10 n := String.toList_ofList
  rw [Text.utf8Length, digits, List.map_congr_left ascii, List.map_const', List.sum_replicate_nat,
    Nat.mul_one]

theorem utf8Length_truncationMarker (bytes : ℕ) :
    Text.utf8Length (truncationMarker bytes) = 19 + (Nat.toDigits 10 bytes).length := by
  rw [truncationMarker, utf8Length_append, utf8Length_append, utf8Length_toString]
  have front : Text.utf8Length "[truncated " = 11 := by decide
  have back : Text.utf8Length " bytes]\n" = 8 := by decide
  omega

/-- The marker for a part is not longer than the one for the whole. -/
theorem utf8Length_truncationMarker_le {part whole : ℕ} (le : part ≤ whole) :
    Text.utf8Length (truncationMarker part) ≤ Text.utf8Length (truncationMarker whole) := by
  have digits := length_toDigits_le le
  rw [utf8Length_truncationMarker, utf8Length_truncationMarker]
  omega

theorem utf8Length_ofList (cs : List Char) : Text.utf8Length (.ofList cs) = (utf8 cs).length := by
  rw [utf8Length_eq, String.toList_ofList]

/-! ### The result -/

/-- A text that is cut where the marker has room: the marker for what is left out and the
longest beginning that fits beside the marker for the whole. -/
theorem truncateUtf8_of_room {text : String} {maxBytes : ℕ}
    (long : maxBytes < Text.utf8Length text)
    (room : Text.utf8Length (truncationMarker (Text.utf8Length text)) ≤ maxBytes) :
    let budget := maxBytes - Text.utf8Length (truncationMarker (Text.utf8Length text))
    let kept := Text.takeBytes budget text.toList
    truncateUtf8 text maxBytes =
      (truncationMarker (Text.utf8Length text - (utf8 kept).length) ++ .ofList kept, true) := by
  simp only [truncateUtf8, if_neg (Nat.not_le.mpr long), if_neg (Nat.not_lt.mpr room),
    length_utf8]

/-- A text that is cut where the marker has no room. -/
theorem truncateUtf8_of_no_room {text : String} {maxBytes : ℕ}
    (long : maxBytes < Text.utf8Length text)
    (small : maxBytes < Text.utf8Length (truncationMarker (Text.utf8Length text))) :
    truncateUtf8 text maxBytes = ("", true) := by
  simp only [truncateUtf8, if_neg (Nat.not_le.mpr long), if_pos small]

/-- The bound holds for what is returned. -/
theorem utf8Length_truncateUtf8_le (text : String) (maxBytes : ℕ) :
    Text.utf8Length (truncateUtf8 text maxBytes).1 ≤ maxBytes := by
  by_cases fits : Text.utf8Length text ≤ maxBytes
  · rw [truncateUtf8_of_le fits]
    exact fits
  · by_cases room : Text.utf8Length (truncationMarker (Text.utf8Length text)) ≤ maxBytes
    · rw [truncateUtf8_of_room (Nat.not_le.mp fits) room, utf8Length_append, utf8Length_ofList,
        length_utf8]
      have kept := Text.takeBytes_le
        (maxBytes - Text.utf8Length (truncationMarker (Text.utf8Length text))) text.toList
      have marker := utf8Length_truncationMarker_le
        (Nat.sub_le (Text.utf8Length text) ((Text.takeBytes (maxBytes - Text.utf8Length
          (truncationMarker (Text.utf8Length text))) text.toList).map Char.utf8Size).sum)
      omega
    · rw [truncateUtf8_of_no_room (Nat.not_le.mp fits) (Nat.not_le.mp room)]
      exact Nat.zero_le _

/-- **The code on bytes is the model on characters.** -/
theorem truncateEncoded_eq (text : String) (maxBytes : ℕ) :
    truncateEncoded text maxBytes = .ok (truncateUtf8 text maxBytes) := by
  have bound := utf8Length_truncateUtf8_le text maxBytes
  unfold truncateEncoded
  rw [if_neg (by omega)]
  simp only [← utf8Length_eq, Int.ofNat_le]
  by_cases fits : Text.utf8Length text ≤ maxBytes
  · rw [if_pos fits, truncateUtf8_of_le fits]
  · rw [if_neg fits]
    by_cases room : Text.utf8Length (truncationMarker (Text.utf8Length text)) ≤ maxBytes
    · have budget : ((maxBytes : ℤ) - Text.utf8Length
          (truncationMarker (Text.utf8Length text))).toNat =
          maxBytes - Text.utf8Length (truncationMarker (Text.utf8Length text)) := by omega
      rw [truncateUtf8_of_room (Nat.not_le.mp fits) room] at bound ⊢
      rw [if_neg (by omega), budget, decodeIgnoring_take, if_pos bound]
    · rw [if_pos (by omega), truncateUtf8_of_no_room (Nat.not_le.mp fits) (Nat.not_le.mp room)]

/-- **`truncate_utf8` is exact.** -/
theorem truncateEncoded_exact (text : String) (maxBytes : ℕ) :
    ∃ result cut, truncateEncoded text maxBytes = .ok (result, cut) ∧
      (utf8 result.toList).length ≤ maxBytes ∧
      ((utf8 text.toList).length ≤ maxBytes ↔ result = text) ∧
      ((utf8 text.toList).length ≤ maxBytes ↔ cut = false) ∧
      (maxBytes < (utf8 text.toList).length →
        let marker := utf8 (truncationMarker (utf8 text.toList).length).toList
        if maxBytes < marker.length then result = ""
        else
          ∃ p, p <+: text.toList ∧
            result = "[truncated " ++
              toString ((utf8 text.toList).length - (utf8 p).length) ++ " bytes]\n" ++ .ofList p ∧
            ∀ q, q <+: text.toList → marker.length + (utf8 q).length ≤ maxBytes →
              q.length ≤ p.length) := by
  have bound := utf8Length_truncateUtf8_le text maxBytes
  refine ⟨(truncateUtf8 text maxBytes).1, (truncateUtf8 text maxBytes).2,
    truncateEncoded_eq text maxBytes, ?_⟩
  simp only [← utf8Length_eq]
  by_cases fits : Text.utf8Length text ≤ maxBytes
  · rw [truncateUtf8_of_le fits]
    exact ⟨fits, iff_of_true fits rfl, iff_of_true fits rfl,
      fun long => absurd fits (Nat.not_le.mpr long)⟩
  · have other : (truncateUtf8 text maxBytes).1 ≠ text := by
      intro same
      rw [same] at bound
      exact fits bound
    have long := Nat.not_le.mp fits
    by_cases room : Text.utf8Length (truncationMarker (Text.utf8Length text)) ≤ maxBytes
    · rw [truncateUtf8_of_room long room] at bound other ⊢
      refine ⟨bound, iff_of_false fits other, iff_of_false fits Bool.noConfusion, fun _ => ?_⟩
      rw [if_neg (Nat.not_lt.mpr room)]
      refine ⟨_, Text.takeBytes_prefix _ _, rfl, fun q start beside => ?_⟩
      refine length_le_takeBytes start ?_
      rw [← length_utf8]
      omega
    · rw [truncateUtf8_of_no_room long (Nat.not_le.mp room)] at bound other ⊢
      refine ⟨bound, iff_of_false fits other, iff_of_false fits Bool.noConfusion, fun _ => ?_⟩
      rw [if_pos (Nat.not_le.mp room)]

end AgentOs
