import AgentOs.Lib.Regex
import AgentOs.Lib.Replacing
import AgentOs.Lib.Text
import Mathlib.Data.List.Infix

/-!
Excerpts of output in exceptions, and the secrets in them (`cli_backends.py`).

An excerpt is cut out of the output first and redacted then: the values of the sensitive variables
are replaced one after the other, and then what follows a word such as `token` and a sign. The
redaction is defined on any characters, so that it also runs on characters with their places in the
output (`markedExcerpt`), and one can say which characters of the output an excerpt shows.

`nested_secret_shown`: of a value that contains an earlier one, the rest is shown.
`excerpt_hides_secrets` gives the condition under which no part of a secret is.
-/

namespace AgentOs

open AgentOs.Lib

/-- `os.environ`, in its order. -/
abbrev Environ := List (String × String)

/-- What the redaction knows of letters. -/
structure LetterTable where
  /-- the upper-case form of a character -/
  upper : Char → List Char
  /-- does a character of an expression match one of the text, whatever its case? -/
  same : Char → Char → Bool

section

variable (letters : LetterTable)

def sensitiveSubstrings : List String :=
  ["API_KEY", "TOKEN", "SECRET", "PASSWORD", "CREDENTIAL", "AUTH"]

/-- `_is_sensitive_key` -/
def isSensitiveKey (key : String) : Bool :=
  sensitiveSubstrings.any fun part => decide (part.toList <:+: key.toList.flatMap letters.upper)

/-- The words of the expression for credentials:
`api[_-]?key|token|secret|password|credential|auth`. -/
def credentialWords : List Regex :=
  [.seq (.literal letters.same "api".toList)
      (.seq (.optional (.one fun c => c = '_' || c = '-')) (.literal letters.same "key".toList)),
    .literal letters.same "token".toList, .literal letters.same "secret".toList,
    .literal letters.same "password".toList, .literal letters.same "credential".toList,
    .literal letters.same "auth".toList]

/-- `\s*[=:]\s*` -/
def credentialSign : Regex :=
  .seq (.optional (.many Text.isSpace))
    (.seq (.one fun c => c = '=' || c = ':') (.optional (.many Text.isSpace)))

/-- `[^\s'\";,]+` -/
def credentialValue : Regex :=
  .many fun c => !Text.isSpace c && c != '\'' && c != '"' && c != ';' && c != ','

/-- How many characters of a credential at the start of a text are kept, and how many of them are
replaced. -/
def credentialAt (text : List Char) : Option (ℕ × ℕ) :=
  let found := (credentialWords letters).flatMap fun word =>
    (Regex.seq (.group word) (.seq (.group credentialSign) (.group credentialValue))).tries ⟨[], text⟩
  match found.head? with
  | some { groups := [word, sign, value], .. } => some (word.length + sign.length, value.length)
  | _ => none

/-- Is a variable one whose value is replaced? -/
def isSecret (variable_ : String × String) : Bool :=
  isSensitiveKey letters variable_.1 && variable_.2 ≠ "" && variable_.2.length > 3

/-- `_redact_secrets_in_text`, on any kind of characters. -/
def redactCharacters {α : Type} (char : α → Char) (mark : List α) (env : Environ) (text : List α) :
    List α :=
  if text.isEmpty then text
  else
    let redacted := env.foldl (fun redacted variable_ =>
      if isSecret letters variable_ then replace char variable_.2.toList mark redacted
      else redacted) text
    substitute char mark (credentialAt letters) redacted

/-- What stands in place of a secret. -/
def redactedMark : List Char := "[REDACTED]".toList

/-- `_redact_secrets_in_text` -/
def redactSecretsInText (env : Environ) (text : String) : String :=
  .ofList (redactCharacters letters id redactedMark env text.toList)

end

/-- The slice of an output that goes into an exception. -/
inductive Cut where
  /-- `[:n]` -/
  | first (n : ℕ)
  /-- `[-n:]` -/
  | last (n : ℕ)
deriving DecidableEq, Repr

def Cut.apply {α : Type} (text : List α) : Cut → List α
  | .first n => text.take n
  | .last n => text.drop (text.length - n)

/-- Where a slice of a text begins. -/
def Cut.start (length : ℕ) : Cut → ℕ
  | .first _ => 0
  | .last n => length - n

/-- Where a slice of a text ends. -/
def Cut.stop (length : ℕ) : Cut → ℕ
  | .first n => n
  | .last _ => length

section

variable (letters : LetterTable) (env : Environ)

/-- The redacted slice of an output. -/
def excerpt (cut : Cut) (output : String) : String :=
  redactSecretsInText letters env (.ofList (cut.apply output.toList))

/-- The values that are replaced, in their order. -/
def secretValues : List (List Char) :=
  (env.filter (isSecret letters)).map fun variable_ => variable_.2.toList

/-- The mark, as characters that have no place in an output. -/
def placedMark : List Placed := redactedMark.map fun c => (c, none)

/-- The redacted slice of an output, with the places of its characters in that output. -/
def markedExcerpt (cut : Cut) (output : String) : List Placed :=
  redactCharacters letters Prod.fst placedMark env (cut.apply (placedFrom 0 output.toList))

/-- Does the character at a place of an output belong to an occurrence of a secret? -/
def BelongsToSecret (output : String) (i : ℕ) : Prop :=
  ∃ value ∈ secretValues letters env, ∃ at_, StandsAt id value output.toList at_ ∧
    at_ ≤ i ∧ i < at_ + value.length

/-- No character of an excerpt belongs to an occurrence of a secret in the whole output. -/
def HidesSecrets (cut : Cut) (output : String) : Prop :=
  ∀ c i, (c, some i) ∈ markedExcerpt letters env cut output → ¬ BelongsToSecret letters env output i

/-- Every occurrence of a secret stands inside of the slice or outside. -/
def CutsNoSecret (cut : Cut) (output : String) : Prop :=
  ∀ value ∈ secretValues letters env, ∀ i < output.length, StandsAt id value output.toList i →
    i + value.length ≤ cut.start output.length ∨ cut.stop output.length ≤ i ∨
      cut.start output.length ≤ i ∧ i + value.length ≤ cut.stop output.length

instance (cut : Cut) (output : String) : Decidable (CutsNoSecret letters env cut output) :=
  inferInstanceAs (Decidable (∀ value ∈ _, ∀ i < output.length, _))

/-- Whenever a value is replaced, no occurrence of it takes a part of a secret that is still to be
replaced, and leaves a part. -/
def BreaksNoSecret (cut : Cut) (output : String) : Prop :=
  SparesInTurn Prod.fst placedMark (fun placed : Placed => placed.2.isSome)
    (secretValues letters env) (cut.apply (placedFrom 0 output.toList))

instance (cut : Cut) (output : String) : Decidable (BreaksNoSecret letters env cut output) :=
  decidableSparesInTurn _ _ _ _ _

end

section

variable {letters : LetterTable} {env : Environ} {cut : Cut} {output : String} {i : ℕ}

/-! ### The marked excerpt is the excerpt -/

theorem foldl_redact {α : Type} {char : α → Char} {mark : List α} (text : List α) :
    env.foldl (fun redacted variable_ =>
      if isSecret letters variable_ then replace char variable_.2.toList mark redacted
      else redacted) text = replaceAll char mark (secretValues letters env) text := by
  induction env generalizing text with
  | nil => rfl
  | cons variable_ env ih =>
      rw [List.foldl_cons, ih, secretValues, secretValues, List.filter_cons]
      split <;> rfl

theorem redactCharacters_eq {α : Type} {char : α → Char} {mark text : List α} :
    redactCharacters letters char mark env text =
      if text.isEmpty then text
      else substitute char mark (credentialAt letters)
        (replaceAll char mark (secretValues letters env) text) := by
  rw [redactCharacters, foldl_redact]

theorem Cut.map_apply {α β : Type} (f : α → β) (text : List α) :
    (cut.apply text).map f = cut.apply (text.map f) := by
  cases cut with
  | first n => exact List.map_take
  | last n =>
      rw [Cut.apply, Cut.apply, List.map_drop, List.length_map]

/-- Without the places, the marked excerpt is the excerpt. -/
theorem map_markedExcerpt :
    (markedExcerpt letters env cut output).map Prod.fst = (excerpt letters env cut output).toList := by
  have mark : placedMark.map Prod.fst = redactedMark := by
    rw [placedMark, List.map_map]
    exact List.map_id _
  have text : (cut.apply (placedFrom 0 output.toList)).map Prod.fst = cut.apply output.toList := by
    rw [Cut.map_apply, map_placedFrom]
  rw [excerpt, redactSecretsInText, String.toList_ofList, String.toList_ofList, markedExcerpt,
    redactCharacters_eq, redactCharacters_eq, ← text, List.isEmpty_map]
  split
  · rfl
  · have same : ∀ placed : Placed, id placed.1 = placed.1 := fun _ => rfl
    rw [map_substitute Prod.fst same, map_replaceAll Prod.fst same, mark]

/-! ### What an excerpt shows -/

theorem secretValues_some : ∀ value ∈ secretValues letters env, value ≠ [] := by
  intro value mem none
  obtain ⟨variable_, listed, rfl⟩ := List.mem_map.mp mem
  have secret := (List.mem_filter.mp listed).2
  rw [String.toList_eq_nil_iff] at none
  simp only [isSecret, Bool.and_eq_true, decide_eq_true_eq] at secret
  exact secret.1.2 none

theorem placedMark_none : ∀ placed ∈ placedMark, placed.2.isSome = false := by
  intro placed mem
  obtain ⟨_, _, rfl⟩ := List.mem_map.mp mem
  rfl

/-- The slice, with the places it is cut from. -/
theorem Cut.apply_placed {text : List Char} : cut.apply (placedFrom 0 text) =
    placedFrom (cut.start text.length)
      ((text.take (cut.stop text.length)).drop (cut.start text.length)) := by
  cases cut with
  | first n => exact take_placedFrom
  | last n =>
      rw [Cut.apply, Cut.start, Cut.stop, length_placedFrom, drop_placedFrom, List.take_length,
        Nat.zero_add]

/-- An occurrence inside of the slice. -/
theorem slice_parts {text value : List Char} {start stop at_ : ℕ} (nonempty : value ≠ [])
    (stands : StandsAt id value text at_) (lower : start ≤ at_) (upper : at_ + value.length ≤ stop) :
    ∃ before after, before.length = at_ - start ∧
      (text.take stop).drop start = before ++ (value ++ after) := by
  have within := stands.lt nonempty
  rw [StandsAt, List.map_id] at stands
  obtain ⟨behind, split⟩ := stands
  have size : (text.take at_).length = at_ := List.length_take_of_le within.le
  have whole : text = text.take at_ ++ (value ++ behind) := by rw [split, List.take_append_drop]
  generalize text.take at_ = front at whole size
  subst whole
  refine ⟨front.drop start, behind.take (stop - at_ - value.length), ?_, ?_⟩
  · rw [List.length_drop, size]
  · rw [List.take_append, List.take_append, size, List.take_of_length_le (by omega),
      List.take_of_length_le (by omega), List.drop_append_of_le_length (by omega)]

/-- **No part of a secret is shown where the slice cuts no occurrence of one, and no step of the
redaction breaks one.** -/
theorem excerpt_hides_secrets (whole : CutsNoSecret letters env cut output)
    (unbroken : BreaksNoSecret letters env cut output) : HidesSecrets letters env cut output := by
  rintro c i shown ⟨value, listed, at_, stands, le, lt⟩
  have nonempty := secretValues_some value listed
  have left : (c, some i) ∈ replaceAll Prod.fst placedMark (secretValues letters env)
      (cut.apply (placedFrom 0 output.toList)) := by
    rw [markedExcerpt, redactCharacters_eq] at shown
    split at shown
    · rename_i empty
      rw [List.isEmpty_iff.mp empty] at shown
      cases shown
    · rcases mem_substitute shown with kept | marked
      · exact kept
      · cases placedMark_none _ marked
  have inside : (c, some i) ∈ cut.apply (placedFrom 0 output.toList) := by
    rcases mem_replaceAll secretValues_some left with kept | marked
    · exact kept
    · cases placedMark_none _ marked
  have shownAt := inside
  rw [Cut.apply_placed] at shownAt
  have bounds := place_of_mem shownAt
  rw [List.length_drop, List.length_take] at bounds
  rcases whole value listed at_ (stands.lt nonempty) stands with front | behind | ⟨lower, upper⟩
  · rw [String.length_toList] at bounds
    omega
  · rw [String.length_toList] at bounds
    omega
  · rw [String.length_toList] at shownAt
    obtain ⟨before, after, size, split⟩ := slice_parts nonempty stands lower upper
    have parts : cut.apply (placedFrom 0 output.toList) =
        placedFrom (cut.start output.length) before ++
          (placedFrom at_ value ++ placedFrom (at_ + value.length) after) := by
      rw [Cut.apply_placed, String.length_toList, split, placedFrom_append, placedFrom_append, size,
        Nat.add_sub_cancel' lower]
    rw [parts] at inside left
    have part : (c, some i) ∈ placedFrom at_ value := by
      rcases List.mem_append.mp inside with front | inside
      · have := (place_of_mem front).2
        omega
      · rcases List.mem_append.mp inside with here | behind
        · exact here
        · have := (place_of_mem behind).1
          omega
    rw [BreaksNoSecret, parts] at unbroken
    refine gone_replaceAll secretValues_some placedMark_none ?_ unbroken
      (fun _ mem => placed_of_mem mem) (by rw [map_placedFrom]; exact listed) _ part left
    rw [← parts, Cut.apply_placed]
    exact nodup_placedFrom.filter _

end

end AgentOs
