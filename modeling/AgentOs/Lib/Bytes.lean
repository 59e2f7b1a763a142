import Mathlib.Data.Char
import Mathlib.Data.List.Lex
import Mathlib.Tactic.SplitIfs

/-!
Texts as UTF-8 bytes.

A byte sequence is the encoding of one text (`utf8_inj`), and only the NUL character
has a NUL byte in its encoding (`zero_mem_utf8`). `TextLt` is how bytes are compared,
which is how characters are (`textLt_iff`).
-/

namespace AgentOs.Lib

/-- The UTF-8 bytes of characters. -/
def utf8 (cs : List Char) : List UInt8 := cs.flatMap String.utf8EncodeChar

/-- `memcmp`, and the shorter text first where it is the beginning of the other. -/
def TextLt (s t : String) : Prop := utf8 s.toList < utf8 t.toList

def TextLe (s t : String) : Prop := ¬TextLt t s

instance (s t : String) : Decidable (TextLt s t) := inferInstanceAs (Decidable (_ < _))

instance (s t : String) : Decidable (TextLe s t) := inferInstanceAs (Decidable (¬_))

theorem utf8_append (cs ds : List Char) : utf8 (cs ++ ds) = utf8 cs ++ utf8 ds :=
  List.flatMap_append

/-- A common beginning does not count. -/
theorem utf8_append_lt_iff (cs s t : List Char) :
    utf8 (cs ++ s) < utf8 (cs ++ t) ↔ utf8 s < utf8 t := by
  have common : ∀ (bytes a b : List UInt8), bytes ++ a < bytes ++ b ↔ a < b := by
    intro bytes a b
    induction bytes with
    | nil => rfl
    | cons byte bytes ih => simp [ih]
  rw [utf8_append, utf8_append, common]

/-! ### Reading bytes back -/

theorem utf8_toByteArray (cs : List Char) : (utf8 cs).toByteArray = cs.utf8Encode := rfl

/-- **The encoding is unambiguous.** -/
theorem utf8_inj {cs ds : List Char} (h : utf8 cs = utf8 ds) : cs = ds := by
  have bytes : cs.utf8Encode = ds.utf8Encode := by
    rw [← utf8_toByteArray, h, utf8_toByteArray]
  have decoded := List.utf8Decode?_utf8Encode (l := cs)
  rw [bytes, List.utf8Decode?_utf8Encode] at decoded
  simpa using decoded.symm

theorem ofNat_ne_zero {n : Nat} (pos : 0 < n) (small : n < 256) : (0 : UInt8) ≠ UInt8.ofNat n := by
  intro h
  have := congrArg UInt8.toNat h
  simp [UInt8.toNat_ofNat'] at this
  omega

/-- A NUL byte encodes the NUL character. -/
theorem zero_mem_utf8EncodeChar {c : Char} (h : 0 ∈ String.utf8EncodeChar c) : c = '\x00' := by
  unfold String.utf8EncodeChar at h
  dsimp only at h
  split at h
  · rename_i ascii
    by_contra other
    have pos : 0 < c.val.toNat := by
      by_contra zero
      apply other
      apply Char.ext
      apply UInt32.toNat_inj.mp
      simp at zero ⊢
      simp [zero]
    exact ofNat_ne_zero pos (by omega) (List.mem_singleton.mp h)
  · exfalso
    split at h
    · simp only [List.mem_cons, List.not_mem_nil, or_false] at h
      rcases h with h | h
      · exact ofNat_ne_zero (by omega) (by omega) h
      · exact ofNat_ne_zero (by omega) (by omega) h
    · split at h
      · simp only [List.mem_cons, List.not_mem_nil, or_false] at h
        rcases h with h | h | h
        all_goals exact ofNat_ne_zero (by omega) (by omega) h
      · simp only [List.mem_cons, List.not_mem_nil, or_false] at h
        rcases h with h | h | h | h
        all_goals exact ofNat_ne_zero (by omega) (by omega) h

theorem zero_mem_utf8 {cs : List Char} (h : 0 ∈ utf8 cs) : '\x00' ∈ cs := by
  obtain ⟨c, mem, zero⟩ := List.mem_flatMap.mp h
  exact zero_mem_utf8EncodeChar zero ▸ mem

/-! ### Order -/

theorem ofNat_lt_iff {m n : ℕ} (hm : m < 256) (hn : n < 256) :
    UInt8.ofNat m < UInt8.ofNat n ↔ m < n := by
  rw [UInt8.lt_iff_toNat_lt, UInt8.toNat_ofNat', UInt8.toNat_ofNat', Nat.mod_eq_of_lt hm,
    Nat.mod_eq_of_lt hn]

theorem ofNat_eq_iff {m n : ℕ} (hm : m < 256) (hn : n < 256) :
    UInt8.ofNat m = UInt8.ofNat n ↔ m = n := by
  rw [← UInt8.toNat_inj, UInt8.toNat_ofNat', UInt8.toNat_ofNat', Nat.mod_eq_of_lt hm,
    Nat.mod_eq_of_lt hn]

/-- A smaller character has smaller bytes, whatever follows. -/
theorem utf8EncodeChar_lt {c d : Char} (h : c < d) (xs ys : List UInt8) :
    String.utf8EncodeChar c ++ xs < String.utf8EncodeChar d ++ ys := by
  have lt : c.val.toNat < d.val.toNat := h
  have valid : d.val.toNat < 0x110000 := by
    have valid := d.valid
    simp only [UInt32.isValidChar, Nat.isValidChar] at valid
    omega
  unfold String.utf8EncodeChar
  dsimp only
  generalize c.val.toNat = m at *
  generalize d.val.toNat = n at *
  have hm : m / 64 / 64 = m / 4096 ∧ m / 4096 / 64 = m / 262144 :=
    ⟨Nat.div_div_eq_div_mul .., Nat.div_div_eq_div_mul ..⟩
  have hn : n / 64 / 64 = n / 4096 ∧ n / 4096 / 64 = n / 262144 :=
    ⟨Nat.div_div_eq_div_mul .., Nat.div_div_eq_div_mul ..⟩
  -- the first place at which the numbers differ, six bits at a time
  have digits : m / 262144 < n / 262144 ∨ m / 262144 = n / 262144 ∧
      (m / 4096 < n / 4096 ∨ m / 4096 = n / 4096 ∧
        (m / 64 < n / 64 ∨ m / 64 = n / 64 ∧ m % 64 < n % 64)) := by
    omega
  split_ifs
  all_goals try omega
  all_goals simp only [List.cons_append, List.nil_append, List.cons_lt_cons_iff]
  all_goals simp (disch := omega) only [ofNat_lt_iff, ofNat_eq_iff]
  all_goals rcases digits with first | ⟨first, second | ⟨second, third | ⟨third, fourth⟩⟩⟩
  all_goals omega

/-- **Bytes are ordered as characters.** -/
theorem utf8_lt_utf8_iff (cs ds : List Char) : utf8 cs < utf8 ds ↔ cs < ds := by
  induction cs generalizing ds with
  | nil =>
      cases ds with
      | nil => simp
      | cons d ds =>
          have bytes := String.utf8EncodeChar_ne_nil (c := d)
          obtain ⟨byte, rest, cut⟩ := List.exists_cons_of_ne_nil bytes
          simp [utf8, cut]
  | cons c cs ih =>
      cases ds with
      | nil => simp [utf8]
      | cons d ds =>
          rcases lt_trichotomy c d with lt | rfl | gt
          · exact iff_of_true (utf8EncodeChar_lt lt _ _) (List.cons_lt_cons_iff.mpr (.inl lt))
          · have rest := utf8_append_lt_iff [c] cs ds
            rw [List.cons_append, List.cons_append, List.nil_append, List.nil_append] at rest
            rw [rest, ih, List.cons_lt_cons_iff]
            simp
          · have after : utf8 (d :: ds) < utf8 (c :: cs) := utf8EncodeChar_lt gt _ _
            have after' : d :: ds < c :: cs := List.cons_lt_cons_iff.mpr (.inl gt)
            exact iff_of_false (List.lt_asymm after) (List.lt_asymm after')

theorem textLt_iff (s t : String) : TextLt s t ↔ s.toList < t.toList :=
  utf8_lt_utf8_iff s.toList t.toList

end AgentOs.Lib
