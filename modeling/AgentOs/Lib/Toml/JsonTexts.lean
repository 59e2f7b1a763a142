import AgentOs.Lib.Json
import AgentOs.Lib.Toml.Reader

/-!
JSON texts, read as TOML.

The reader takes what `Json.quote` writes of a text for the same text, or for no string at
all: JSON writes a character outside the basic plane as two escapes, of which TOML knows
neither (`read_quote`).
-/

namespace AgentOs.Lib.Toml

section

variable {key : Key} {frames : List Frame} {out : Output} {text : List Char} {c : Char}

/-- The reader in a string of a value. -/
def inString (key : Key) (frames : List Frame) (out : Output) (string : Quoted) : Reading :=
  ⟨.value key ⟨.quoted string, frames⟩, out⟩

theorem step_inString_more {string string' : Quoted}
    (more : quotedStep string c = some (.more string')) :
    step (inString key frames out string) c = some (inString key frames out string') := by
  unfold step inString placeStep valueStep
  dsimp only
  rw [more]
  rfl

theorem step_inString_none {string : Quoted} (refused : quotedStep string c = none) :
    step (inString key frames out string) c = none := by
  unfold step inString placeStep valueStep
  dsimp only
  rw [refused]
  rfl

/-! ### Escapes -/

theorem hexValue_hexDigit {n : ℕ} (small : n < 16) : hexValue (Json.hexDigit n) = some n := by
  have table : ∀ n : Fin 16, hexValue (Json.hexDigit n) = some n.val := by decide
  exact table ⟨n, small⟩

/-- A hexadecimal digit of an escape, before the last one. -/
theorem step_hexDigit {left value n : ℕ} (small : n < 16) (more : 1 < left) :
    step (inString key frames out (.short '"' text (.hex left value))) (Json.hexDigit n) =
      some (inString key frames out (.short '"' text (.hex (left - 1) (value * 16 + n)))) := by
  apply step_inString_more
  unfold quotedStep shortStep hexEscape
  simp [hexValue_hexDigit small, more]

/-- The last one: the number has to be a character's. -/
theorem step_lastDigit {value n : ℕ} (small : n < 16) :
    step (inString key frames out (.short '"' text (.hex 1 value))) (Json.hexDigit n) =
      if (value * 16 + n).isValidChar then
        some (inString key frames out
          (.short '"' (text ++ [Char.ofNat (value * 16 + n)]) .none))
      else none := by
  split
  · rename_i valid
    apply step_inString_more
    unfold quotedStep shortStep hexEscape
    simp [hexValue_hexDigit small, valid]
  · rename_i invalid
    apply step_inString_none
    unfold quotedStep shortStep hexEscape
    simp [hexValue_hexDigit small, invalid]

theorem read_unicodeEscape {n : ℕ} (small : n < 65536) :
    read (inString key frames out (.short '"' text .none)) (Json.unicodeEscape n) =
      if n.isValidChar then
        some (inString key frames out (.short '"' (text ++ [Char.ofNat n]) .none))
      else none := by
  have backslash : step (inString key frames out (.short '"' text .none)) '\\' =
      some (inString key frames out (.short '"' text .open)) := step_inString_more rfl
  have letter : step (inString key frames out (.short '"' text .open)) 'u' =
      some (inString key frames out (.short '"' text (.hex 4 0))) := step_inString_more rfl
  have number : (((0 * 16 + n / 4096 % 16) * 16 + n / 256 % 16) * 16 + n / 16 % 16) * 16 + n % 16 =
      n := by omega
  have last : ∀ r : Reading, read r [] = some r := fun _ => rfl
  unfold Json.unicodeEscape
  rw [read_cons, backslash, Option.bind_some, read_cons, letter, Option.bind_some, read_cons,
    step_hexDigit (Nat.mod_lt _ (by omega)) (by omega), Option.bind_some, read_cons,
    step_hexDigit (Nat.mod_lt _ (by omega)) (by omega), Option.bind_some, read_cons,
    step_hexDigit (Nat.mod_lt _ (by omega)) (by omega), Option.bind_some, read_cons,
    step_lastDigit (Nat.mod_lt _ (by omega)), number]
  split
  · rfl
  · rfl

/-- The escapes with a letter are the same. -/
theorem escapeReplacement_of_shortEscape {letter : Char} (short : Json.shortEscape c = some letter) :
    escapeReplacement letter = some c := by
  unfold Json.shortEscape at short
  split_ifs at short with quote backslash newline ret tab backspace feed
  all_goals obtain rfl := Option.some.inj short
  · rw [quote]
    rfl
  · rw [backslash]
    rfl
  · rw [newline]
    rfl
  · rw [ret]
    rfl
  · rw [tab]
    rfl
  · rw [← Char.ofNat_toNat c, backspace]
    rfl
  · rw [← Char.ofNat_toNat c, feed]
    rfl

theorem isValidChar_toNat (c : Char) : c.toNat.isValidChar := c.valid

/-- What JSON writes of a character is read as this character, or is refused. -/
theorem read_escapeChar (key : Key) (frames : List Frame) (out : Output) (text : List Char)
    (c : Char) :
    read (inString key frames out (.short '"' text .none)) (Json.escapeChar true c) = none ∨
      read (inString key frames out (.short '"' text .none)) (Json.escapeChar true c) =
        some (inString key frames out (.short '"' (text ++ [c]) .none)) := by
  have read_as : ∀ n, n = c.toNat → n < 65536 →
      read (inString key frames out (.short '"' text .none)) (Json.unicodeEscape n) =
        some (inString key frames out (.short '"' (text ++ [c]) .none)) := by
    rintro n rfl small
    rw [read_unicodeEscape small, if_pos (isValidChar_toNat c), Char.ofNat_toNat]
  unfold Json.escapeChar
  cases short : Json.shortEscape c with
  | some letter =>
      refine .inr ?_
      have backslash : step (inString key frames out (.short '"' text .none)) '\\' =
          some (inString key frames out (.short '"' text .open)) := step_inString_more rfl
      have replaced : step (inString key frames out (.short '"' text .open)) letter =
          some (inString key frames out (.short '"' (text ++ [c]) .none)) := by
        apply step_inString_more
        unfold quotedStep shortStep openEscape
        simp only [escapeReplacement_of_shortEscape short, Option.map_some]
      dsimp only
      rw [read_cons, backslash, Option.bind_some, read_cons, replaced]
      rfl
  | none =>
      dsimp only
      split
      · rename_i control
        exact .inr (read_as c.toNat rfl (by omega))
      · rename_i printable
        split
        · split
          · rename_i basic
            exact .inr (read_as c.toNat rfl basic)
          · -- the first of two escapes does not name a character
            rename_i beyond
            refine .inl ?_
            have bound : c.toNat < 0x110000 := by
              rcases isValidChar_toNat c with low | high
              · omega
              · omega
            have surrogate : ¬(0xd800 + (c.toNat - 0x10000) / 0x400).isValidChar := by
              unfold Nat.isValidChar
              omega
            rw [read_append, read_unicodeEscape (by omega), if_neg surrogate]
            rfl
        · rename_i ascii
          refine .inr ?_
          have plain : step (inString key frames out (.short '"' text .none)) c =
              some (inString key frames out (.short '"' (text ++ [c]) .none)) := by
            have not_quote : c ≠ '"' := by
              rintro rfl
              cases short
            have not_backslash : c ≠ '\\' := by
              rintro rfl
              cases short
            have visible : isControl c = false := by
              unfold isControl
              simp only [Bool.and_eq_true, decide_eq_true_eq, true_and] at ascii
              simp only [Bool.or_eq_false_iff, decide_eq_false_iff_not]
              omega
            apply step_inString_more
            unfold quotedStep shortStep
            simp [not_quote, not_backslash, visible]
          rw [read_cons, plain]
          rfl

theorem hexDigit_ne_ret (n : ℕ) : Json.hexDigit (n % 16) ≠ '\r' := by
  have table : ∀ n : Fin 16, Json.hexDigit n ≠ '\r' := by decide
  exact table ⟨n % 16, Nat.mod_lt _ (by omega)⟩

theorem ret_notMem_unicodeEscape (n : ℕ) : '\r' ∉ Json.unicodeEscape n := by
  unfold Json.unicodeEscape
  simp [(hexDigit_ne_ret _).symm]

/-- JSON writes no carriage return. -/
theorem ret_notMem_escapeChar (c : Char) : '\r' ∉ Json.escapeChar true c := by
  unfold Json.escapeChar
  cases short : Json.shortEscape c with
  | some letter =>
      have other : letter ≠ '\r' := by
        rintro rfl
        have none_such := escapeReplacement_of_shortEscape short
        cases none_such
      simp [other.symm]
  | none =>
      dsimp only
      split
      · exact ret_notMem_unicodeEscape _
      · split
        · split
          · exact ret_notMem_unicodeEscape _
          · rw [List.mem_append, not_or]
            exact ⟨ret_notMem_unicodeEscape _, ret_notMem_unicodeEscape _⟩
        · rw [List.mem_singleton]
          rintro rfl
          cases short

/-! ### Texts -/

/-- After part of a text, what JSON writes of the rest is read as the rest, or is refused. -/
theorem read_escapeChars (key : Key) (frames : List Frame) (out : Output) (text cs : List Char) :
    read (inString key frames out (.short '"' text .none))
        (cs.flatMap (Json.escapeChar true)) = none ∨
      read (inString key frames out (.short '"' text .none)) (cs.flatMap (Json.escapeChar true)) =
        some (inString key frames out (.short '"' (text ++ cs) .none)) := by
  induction cs generalizing text with
  | nil => exact .inr (by rw [List.append_nil]; rfl)
  | cons c cs ih =>
      rw [List.flatMap_cons, read_append]
      rcases read_escapeChar key frames out text c with refused | taken
      · rw [refused]
        exact .inl rfl
      · have whole : text ++ c :: cs = text ++ [c] ++ cs := List.append_cons ..
        rw [taken, Option.bind_some, whole]
        exact ih (text ++ [c])

/-- No escape begins with a quotation mark. -/
theorem escapeChar_head (c : Char) :
    ∃ first rest, Json.escapeChar true c = first :: rest ∧ first ≠ '"' := by
  unfold Json.escapeChar
  cases short : Json.shortEscape c with
  | some letter => exact ⟨_, _, rfl, by decide⟩
  | none =>
      dsimp only
      split
      · exact ⟨_, _, rfl, by decide⟩
      · split
        · split
          · exact ⟨_, _, rfl, by decide⟩
          · exact ⟨_, _, rfl, by decide⟩
        · refine ⟨c, [], rfl, ?_⟩
          rintro rfl
          cases short

/-- After one quotation mark a text that does not begin with another is on one line. -/
theorem read_opened {first : Char} (rest : List Char) (other : first ≠ '"') :
    read (inString key frames out (.opened '"')) (first :: rest) =
      read (inString key frames out (.short '"' [] .none)) (first :: rest) := by
  have same : quotedStep (.opened '"') first = quotedStep (.short '"' [] .none) first := by
    unfold quotedStep
    exact if_neg other
  rw [read_cons, read_cons]
  congr 1
  unfold step inString placeStep valueStep
  dsimp only
  rw [same]

/-- A line of an array with a text that JSON writes is read as an item, or is refused. -/
theorem read_item (key : Key) (items : List Value) (out : Output) (item : String) :
    let before : Reading := ⟨.value key ⟨.item, [.array items]⟩, out⟩
    let line := ("  " ++ Json.quote true item ++ ",\n").toList
    read before line = none ∨
      read before line = some ⟨.value key ⟨.item, [.array (items ++ [.str item])]⟩, out⟩ := by
  intro before line
  have written : line = ' ' :: ' ' :: '"' ::
      (item.toList.flatMap (Json.escapeChar true) ++ ['"', ',', '\n']) := by
    simp [line, Json.quote]
  have opens : read before line = read (inString key [.array items] out (.opened '"'))
      (item.toList.flatMap (Json.escapeChar true) ++ ['"', ',', '\n']) := by
    rw [written]
    rfl
  rw [opens]
  cases chars : item.toList with
  | nil =>
      refine .inr ?_
      have empty : item = "" := String.toList_inj.mp chars
      rw [empty]
      rfl
  | cons c cs =>
      obtain ⟨first, rest, begins, other⟩ := escapeChar_head c
      have short : read (inString key [.array items] out (.opened '"'))
          ((c :: cs).flatMap (Json.escapeChar true) ++ ['"', ',', '\n']) =
        read (inString key [.array items] out (.short '"' [] .none))
          ((c :: cs).flatMap (Json.escapeChar true) ++ ['"', ',', '\n']) := by
        rw [List.flatMap_cons, begins]
        exact read_opened _ other
      rw [short, read_append]
      rcases read_escapeChars key [.array items] out [] (c :: cs) with refused | taken
      · rw [refused]
        exact .inl rfl
      · refine .inr ?_
        have text : item = String.ofList (c :: cs) := by
          rw [← chars, String.ofList_toList]
        rw [taken, Option.bind_some, text]
        rfl

/-- So are several lines. -/
theorem read_items (key : Key) (items : List Value) (out : Output) (texts : List String) :
    let before : Reading := ⟨.value key ⟨.item, [.array items]⟩, out⟩
    let lines := texts.flatMap fun item => ("  " ++ Json.quote true item ++ ",\n").toList
    read before lines = none ∨
      read before lines =
        some ⟨.value key ⟨.item, [.array (items ++ texts.map .str)]⟩, out⟩ := by
  intro before lines
  induction texts generalizing items with
  | nil =>
      refine .inr ?_
      rw [List.map_nil, List.append_nil]
      rfl
  | cons item texts ih =>
      have whole : items ++ (item :: texts).map .str = items ++ [.str item] ++ texts.map .str :=
        List.append_cons ..
      show read _ (_ ++ _) = none ∨ read _ (_ ++ _) = _
      rw [read_append]
      rcases read_item key items out item with refused | taken
      · rw [refused]
        exact .inl rfl
      · rw [taken, Option.bind_some, whole]
        exact ih (items ++ [.str item])

end

end AgentOs.Lib.Toml
