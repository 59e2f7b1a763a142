import AgentOs.Lib.Bytes
import AgentOs.Lib.Text

/-!
Reading UTF-8 that may be broken off.

`decodeIgnoring` reads what it can and leaves the rest out. On the first bytes of an
encoded text it gives the characters that lie in them whole, and nothing of a character
that was cut (`decodeIgnoring_take`).
-/

namespace AgentOs.Lib

/-- `bytes.decode("utf-8", errors="ignore")`. The first argument counts the bytes that
belong to a character read already. A byte at which no character starts is left out;
what follows a broken start is no start of another, so whether the two are dropped
together or one by one makes no difference. -/
def decodeIgnoring : ℕ → List UInt8 → List Char
  | _, [] => []
  | skip + 1, _ :: bytes => decodeIgnoring skip bytes
  | 0, byte :: bytes =>
      match (byte :: bytes).toByteArray.utf8DecodeChar? 0 with
      | some c => c :: decodeIgnoring (c.utf8Size - 1) bytes
      | none => decodeIgnoring 0 bytes

theorem decodeIgnoring_skip (skipped bytes : List UInt8) :
    decodeIgnoring skipped.length (skipped ++ bytes) = decodeIgnoring 0 bytes := by
  induction skipped with
  | nil => rfl
  | cons byte skipped ih => exact ih

/-- A whole character at the front is read. -/
theorem decodeIgnoring_char (c : Char) (bytes : List UInt8) :
    decodeIgnoring 0 (String.utf8EncodeChar c ++ bytes) = c :: decodeIgnoring 0 bytes := by
  have reads := ByteArray.utf8DecodeChar?_utf8EncodeChar_append (b := bytes.toByteArray) (c := c)
  rw [← List.toByteArray_append] at reads
  obtain ⟨byte, rest, cut⟩ := List.exists_cons_of_ne_nil (String.utf8EncodeChar_ne_nil (c := c))
  have size : rest.length = c.utf8Size - 1 := by
    have := congrArg List.length cut
    rw [String.length_utf8EncodeChar, List.length_cons] at this
    omega
  rw [cut, List.cons_append] at reads ⊢
  rw [decodeIgnoring, reads]
  dsimp only
  rw [← size, decodeIgnoring_skip]

/-- At a byte that continues a character, none starts. -/
theorem decodeChar_eq_none_of_not_first {byte : UInt8} {bytes : List UInt8}
    (inner : ¬byte.IsUTF8FirstByte) :
    (byte :: bytes).toByteArray.utf8DecodeChar? 0 = none := by
  cases read : (byte :: bytes).toByteArray.utf8DecodeChar? 0 with
  | none => rfl
  | some c =>
      have first := ByteArray.isUTF8FirstByte_of_isSome_utf8DecodeChar?
        (Option.isSome_of_mem read)
      rw [List.getElem_toByteArray] at first
      exact absurd first inner

/-- Bytes that all continue a character are left out. -/
theorem decodeIgnoring_inner {bytes : List UInt8}
    (inner : ∀ byte ∈ bytes, ¬byte.IsUTF8FirstByte) : decodeIgnoring 0 bytes = [] := by
  induction bytes with
  | nil => rfl
  | cons byte bytes ih =>
      rw [decodeIgnoring, decodeChar_eq_none_of_not_first (inner byte List.mem_cons_self)]
      exact ih fun b mem => inner b (List.mem_cons_of_mem _ mem)

/-- The beginning of a character, without its end, is no character. -/
theorem decodeChar_take_eq_none {c : Char} {n : ℕ} (short : n < c.utf8Size) :
    ((String.utf8EncodeChar c).take n).toByteArray.utf8DecodeChar? 0 = none := by
  cases read : ((String.utf8EncodeChar c).take n).toByteArray.utf8DecodeChar? 0 with
  | none => rfl
  | some d =>
      have whole := ByteArray.utf8DecodeChar?_append_eq_some read
        ((String.utf8EncodeChar c).drop n).toByteArray
      rw [← List.toByteArray_append, List.take_append_drop] at whole
      have same := ByteArray.utf8DecodeChar?_utf8EncodeChar_append (b := .empty) (c := c)
      rw [ByteArray.append_empty, whole] at same
      have fits := ByteArray.le_size_of_utf8DecodeChar?_eq_some read
      rw [List.size_toByteArray, List.length_take, String.length_utf8EncodeChar,
        Option.some.inj same] at fits
      omega

/-- Every byte of a character but the first continues it. -/
theorem not_first_of_mem_tail {c : Char} {byte : UInt8}
    (mem : byte ∈ (String.utf8EncodeChar c).tail) : ¬byte.IsUTF8FirstByte := by
  obtain ⟨i, bound, rfl⟩ := List.getElem_of_mem mem
  rw [List.getElem_tail, UInt8.isUTF8FirstByte_getElem_utf8EncodeChar]
  omega

/-- A character that was cut is left out. -/
theorem decodeIgnoring_broken {c : Char} {n : ℕ} (short : n < c.utf8Size) :
    decodeIgnoring 0 ((String.utf8EncodeChar c).take n) = [] := by
  cases n with
  | zero => rfl
  | succ n =>
      have none := decodeChar_take_eq_none short
      have inner := @not_first_of_mem_tail c
      obtain ⟨byte, rest, cut⟩ :=
        List.exists_cons_of_ne_nil (String.utf8EncodeChar_ne_nil (c := c))
      rw [cut, List.take_succ_cons] at none ⊢
      rw [cut, List.tail_cons] at inner
      rw [decodeIgnoring, none]
      exact decodeIgnoring_inner fun b mem => inner (List.mem_of_mem_take mem)

/-- **The first bytes of a text hold the characters that fit into them.** -/
theorem decodeIgnoring_take (n : ℕ) (cs : List Char) :
    decodeIgnoring 0 ((utf8 cs).take n) = Text.takeBytes n cs := by
  induction cs generalizing n with
  | nil => simp [utf8, decodeIgnoring, Text.takeBytes]
  | cons c cs ih =>
      have front : utf8 (c :: cs) = String.utf8EncodeChar c ++ utf8 cs := List.flatMap_cons
      rw [front, List.take_append, String.length_utf8EncodeChar, Text.takeBytes]
      split
      · rename_i fits
        rw [List.take_of_length_le (by rw [String.length_utf8EncodeChar]; exact fits),
          decodeIgnoring_char, ih]
      · rename_i long
        have rest : n - c.utf8Size = 0 := by omega
        rw [rest, List.take_zero, List.append_nil]
        exact decodeIgnoring_broken (Nat.not_le.mp long)

theorem length_utf8 (cs : List Char) : (utf8 cs).length = (cs.map Char.utf8Size).sum := by
  induction cs with
  | nil => rfl
  | cons c cs ih =>
      rw [utf8, List.flatMap_cons, List.length_append, String.length_utf8EncodeChar,
        List.map_cons, List.sum_cons, ← ih]
      rfl

/-- Among the beginnings of a text that fit, `takeBytes` has the longest. -/
theorem length_le_takeBytes {n : ℕ} {kept cs : List Char} (start : kept <+: cs)
    (fits : (kept.map Char.utf8Size).sum ≤ n) : kept.length ≤ (Text.takeBytes n cs).length := by
  induction cs generalizing n kept with
  | nil => rw [List.prefix_nil.mp start]; exact Nat.zero_le _
  | cons c cs ih =>
      cases kept with
      | nil => exact Nat.zero_le _
      | cons d kept =>
          obtain ⟨rfl, after⟩ := List.cons_prefix_cons.mp start
          rw [List.map_cons, List.sum_cons] at fits
          rw [Text.takeBytes, if_pos (by omega)]
          exact Nat.succ_le_succ (ih after (by omega))

end AgentOs.Lib
