import AgentOs.Lib.Bytes
import AgentOs.Lib.Cutting
import AgentOs.Lib.Json
import AgentOs.Lib.Lowering
import AgentOs.Lib.Regex
import AgentOs.Stores.MigrationRunner
import Mathlib.Data.List.Infix

/-!
Task signatures (`observations.py`).

`task_signature_for_input` hashes the words of a task. The private context of a dispatch envelope
is cut off where its marker stands first, and the envelope's first words and its id are removed by
a pattern that ends at a colon.

An id that ends with the words of the marker makes its colon the end of a marker
(`context_id_splits`): the title and the body are cut off, and what is left has no colon, so that
the id stays. `taskSignature_unsplit_iff`: every other id leaves the signature of the title and the
body as it is.
-/

namespace AgentOs

open AgentOs.Lib

section

variable (cases : CaseTable) (words : WordTable) (sha256 : List UInt8 → String)

/-- `TASK_SIGNATURE_PREFIX` -/
def taskSignaturePrefix : String := "sha256:v1:"

/-- `_PRIVATE_CONTEXT_MARKER` -/
def privateContextMarker : List Char := "private application context:".toList

/-- `_SIGNATURE_STOPWORDS` -/
def signatureStopwords : List (List Char) :=
  ["a", "an", "and", "for", "in", "of", "on", "or", "the", "to", "with", "please", "private",
    "application", "context", "requested", "workspace"].map String.toList

/-- `simonos\s+private\s+task\s+[^:\n]+:\s*` -/
def envelopePattern : Regex :=
  .seq (.literal (· == ·) "simonos".toList) (.seq (.many Text.isSpace)
    (.seq (.literal (· == ·) "private".toList) (.seq (.many Text.isSpace)
      (.seq (.literal (· == ·) "task".toList) (.seq (.many Text.isSpace)
        (.seq (.many fun c => c != ':' && c != '\n')
          (.seq (.literal (· == ·) [':']) (.optional (.many Text.isSpace)))))))))

/-- `re.sub` of the pattern at the start of a text by nothing -/
def withoutEnvelope (text : List Char) : List Char :=
  match envelopePattern.matchStart text with
  | some matched => matched.stop.right
  | none => text

/-- `[^\W_]` -/
def isTokenChar (c : Char) : Bool := words.isWord c && c != '_'

/-- The tokens of a text that are no stop words. -/
def signatureTokens (text : List Char) : List (List Char) :=
  (Text.findRuns (isTokenChar words) text).filter fun token => !signatureStopwords.contains token

/-- The digest of tokens, if there are any. -/
def tokenDigest (tokens : List (List Char)) : Option String :=
  if tokens = [] then none
  else some (taskSignaturePrefix ++ sha256 (utf8 ([' '].intercalate tokens)))

/-- `task_signature_for_input` -/
def taskSignatureForInput : Json → Option String
  | .str task =>
      let raw := Text.strip task
      if raw = "" then none
      else
        let taskBody := withoutEnvelope (Text.before privateContextMarker (cases.lower raw.toList))
        tokenDigest sha256 (signatureTokens words taskBody)
  | _ => none

end

/-! ### Dispatch envelopes -/

/-- The id of a dispatch: a text without a colon or a newline. -/
structure DispatchId where
  text : String
  some : text ≠ ""
  colon : ':' ∉ text.toList
  newline : '\n' ∉ text.toList

/-- What a dispatch puts behind the marker, and white space around the envelope. -/
structure EnvelopeSetting where
  context : String
  left : String
  right : String
  blankLeft : ∀ c ∈ left.toList, Text.isSpace c = true
  blankRight : ∀ c ∈ right.toList, Text.isSpace c = true

/-- A title over a body. -/
def taskText (title body : String) : String := title ++ "\n\n" ++ body

/-- The envelope of a task. -/
def envelope (id : DispatchId) (around : EnvelopeSetting) (title body : String) : String :=
  around.left ++ ("SimonOS private task " ++ id.text ++ ": " ++ taskText title body ++
    "\n\nPrivate application context:" ++ around.context) ++ around.right

/-- `simonos`, `private`, `task` and an id, with white space between them, in front of a colon -/
def BeginsAsEnvelope (text : List Char) : Prop :=
  ∃ gap₁ gap₂ gap₃ id rest : List Char,
    (∀ gap ∈ [gap₁, gap₂, gap₃], gap ≠ [] ∧ ∀ c ∈ gap, Text.isSpace c = true) ∧
      id ≠ [] ∧ (∀ c ∈ id, c ≠ ':' ∧ c ≠ '\n') ∧
        text = "simonos".toList ++ (gap₁ ++ ("private".toList ++ (gap₂ ++ ("task".toList ++
          (gap₃ ++ (id ++ ':' :: rest))))))

section

variable {cases : CaseTable} {words : WordTable} {sha256 : List UInt8 → String}
  {text rest gap id : List Char} {matched : Matched}

/-! ### The pattern -/

/-- What the pattern reads, up to the colon and the white space behind it. -/
theorem of_mem_envelope {place : Place} (mem : matched ∈ envelopePattern.tries place) :
    ∃ gap₁ gap₂ gap₃ id gap : List Char,
      (∀ gap ∈ [gap₁, gap₂, gap₃], gap ≠ [] ∧ ∀ c ∈ gap, Text.isSpace c = true) ∧
        id ≠ [] ∧ (∀ c ∈ id, c ≠ ':' ∧ c ≠ '\n') ∧ (∀ c ∈ gap, Text.isSpace c = true) ∧
          place.right = "simonos".toList ++ (gap₁ ++ ("private".toList ++ (gap₂ ++
            ("task".toList ++ (gap₃ ++ (id ++ ':' :: (gap ++ matched.stop.right))))))) := by
  obtain ⟨read₁, rest₁, spelled₁, text₁, mem⟩ := Regex.of_seq_literal mem
  obtain ⟨gap₁, rest₂, some₁, blank₁, text₂, mem⟩ := Regex.of_seq_many mem
  obtain ⟨read₂, rest₃, spelled₂, text₃, mem⟩ := Regex.of_seq_literal mem
  obtain ⟨gap₂, rest₄, some₂, blank₂, text₄, mem⟩ := Regex.of_seq_many mem
  obtain ⟨read₃, rest₅, spelled₃, text₅, mem⟩ := Regex.of_seq_literal mem
  obtain ⟨gap₃, rest₆, some₃, blank₃, text₆, mem⟩ := Regex.of_seq_many mem
  obtain ⟨id, rest₇, some, plain, text₇, mem⟩ := Regex.of_seq_many mem
  obtain ⟨read₄, rest₈, spelled₄, text₈, mem⟩ := Regex.of_seq_literal mem
  dsimp only at text₂ text₃ text₄ text₅ text₆ text₇ text₈
  have ends : ∃ gap : List Char, (∀ c ∈ gap, Text.isSpace c = true) ∧
      rest₈ = gap ++ matched.stop.right := by
    rcases Regex.mem_tries_optional.mp mem with many | rfl
    · obtain ⟨_, run, _, blank, text, _⟩ := Regex.mem_tries_many.mp many
      exact ⟨run, blank, text⟩
    · exact ⟨[], fun c mem => (by cases mem), rfl⟩
  obtain ⟨gap, blank, text₉⟩ := ends
  refine ⟨gap₁, gap₂, gap₃, id, gap, ?_, some, ?_, blank, ?_⟩
  · intro gap mem
    rcases List.mem_cons.mp mem with rfl | mem
    · exact ⟨some₁, blank₁⟩
    rcases List.mem_cons.mp mem with rfl | mem
    · exact ⟨some₂, blank₂⟩
    rw [List.mem_singleton.mp mem]
    exact ⟨some₃, blank₃⟩
  · intro c mem
    have both := plain c mem
    rw [Bool.and_eq_true, bne_iff_ne, bne_iff_ne] at both
    exact both
  · rw [text₁, text₂, text₃, text₄, text₅, text₆, text₇, text₈, text₉, Regex.spelled_eq spelled₁,
      Regex.spelled_eq spelled₂, Regex.spelled_eq spelled₃, Regex.spelled_eq spelled₄]
    rfl

/-- The text of an envelope up to its id. -/
def envelopeStart : List Char :=
  "simonos".toList ++ ([' '] ++ ("private".toList ++ ([' '] ++ ("task".toList ++ [' ']))))

theorem envelope_tries (some : id ≠ []) (plain : ∀ c ∈ id, c ≠ ':' ∧ c ≠ '\n') :
    envelopePattern.tries ⟨[], envelopeStart ++ (id ++ ':' :: rest)⟩ ≠ [] := by
  have blank : ∀ c ∈ [' '], Text.isSpace c = true := List.all_eq_true.mp (by decide)
  have class_ : ∀ c ∈ id, (c != ':' && c != '\n') = true := fun c mem => by
    rw [bne_iff_ne.mpr (plain c mem).1, bne_iff_ne.mpr (plain c mem).2]
    rfl
  have text : envelopeStart ++ (id ++ ':' :: rest) = "simonos".toList ++ ([' '] ++
      ("private".toList ++ ([' '] ++ ("task".toList ++ ([' '] ++ (id ++ ':' :: rest)))))) := by
    unfold envelopeStart
    repeat rw [List.append_assoc]
  rw [text]
  refine Regex.seq_literal_tries (Regex.spelled_self _) ?_
  refine Regex.seq_many_tries (List.cons_ne_nil _ _) blank ?_
  refine Regex.seq_literal_tries (Regex.spelled_self _) ?_
  refine Regex.seq_many_tries (List.cons_ne_nil _ _) blank ?_
  refine Regex.seq_literal_tries (Regex.spelled_self _) ?_
  refine Regex.seq_many_tries (List.cons_ne_nil _ _) blank ?_
  refine Regex.seq_many_tries some class_ ?_
  refine @Regex.seq_literal_tries _ _ _ _ [':'] _ (Regex.spelled_self _) ?_
  exact List.ne_nil_of_mem (Regex.mem_tries_optional.mpr (.inr rfl))

/-- Without the start of an envelope, a text stays as it is. -/
theorem withoutEnvelope_plain (plain : ¬ BeginsAsEnvelope text) : withoutEnvelope text = text := by
  unfold withoutEnvelope Regex.matchStart
  cases found : envelopePattern.tries ⟨[], text⟩ with
  | nil => rfl
  | cons matched _ =>
      obtain ⟨gap₁, gap₂, gap₃, id, gap, gaps, some, class_, _, read⟩ :=
        of_mem_envelope (found ▸ List.mem_cons_self)
      exact absurd ⟨gap₁, gap₂, gap₃, id, _, gaps, some, class_, read⟩ plain

/-- From an envelope, everything up to the colon is removed, and white space behind it. -/
theorem withoutEnvelope_envelope (some : id ≠ []) (plain : ∀ c ∈ id, c ≠ ':' ∧ c ≠ '\n') :
    ∃ gap : List Char, (∀ c ∈ gap, Text.isSpace c = true) ∧
      rest = gap ++ withoutEnvelope (envelopeStart ++ (id ++ ':' :: rest)) := by
  unfold withoutEnvelope Regex.matchStart
  cases found : envelopePattern.tries ⟨[], envelopeStart ++ (id ++ ':' :: rest)⟩ with
  | nil => exact absurd found (envelope_tries some plain)
  | cons matched _ =>
      obtain ⟨gap₁, gap₂, gap₃, id', gap, gaps, _, plain', blank, read⟩ :=
        of_mem_envelope (found ▸ List.mem_cons_self)
      refine ⟨gap, blank, ?_⟩
      -- the colon is the first one in both readings
      have colons : envelopeStart ++ id ++ ':' :: rest = ("simonos".toList ++ (gap₁ ++
          ("private".toList ++ (gap₂ ++ ("task".toList ++ (gap₃ ++ id')))))) ++
          ':' :: (gap ++ matched.stop.right) := by
        rw [List.append_assoc]
        refine read.trans ?_
        simp only [List.append_assoc]
      have noColon : ':' ∉ envelopeStart ++ id := by
        rintro mem
        rcases List.mem_append.mp mem with start | inId
        · exact absurd start (by decide)
        · exact (plain _ inId).1 rfl
      have noColon' : ':' ∉ "simonos".toList ++ (gap₁ ++ ("private".toList ++ (gap₂ ++
          ("task".toList ++ (gap₃ ++ id'))))) := by
        have noGap : ∀ gap ∈ [gap₁, gap₂, gap₃], ':' ∉ gap := fun gap mem colon =>
          absurd ((gaps gap mem).2 _ colon) (by decide)
        simp only [List.mem_append, not_or]
        refine ⟨by decide, noGap gap₁ List.mem_cons_self, by decide, noGap gap₂ ?_, by decide,
          noGap gap₃ ?_, fun inId => (plain' _ inId).1 rfl⟩
        · exact List.mem_cons_of_mem _ List.mem_cons_self
        · exact List.mem_cons_of_mem _ (List.mem_cons_of_mem _ List.mem_cons_self)
      exact (Text.append_cons_inj noColon noColon' colons).2

/-! ### The lowered envelope -/

/-- The words of the marker, which has a colon behind them. -/
def markerWords : List Char := "private application context".toList

theorem privateContextMarker_eq : privateContextMarker = markerWords ++ [':'] := by decide

theorem privateContextMarker_some : privateContextMarker ≠ [] := by decide

variable {dispatchId : DispatchId} {around : EnvelopeSetting} {title body : String}

/-- Stripped, an envelope lacks the white space around it and at the end of its context. -/
theorem strip_envelope : ∃ context : List Char,
    (Text.strip (envelope dispatchId around title body)).toList = "SimonOS private task".toList ++ ' ' ::
      (dispatchId.text.toList ++ ':' :: ' ' :: ((taskText title body).toList ++ '\n' :: '\n' ::
        ("Private application context:".toList ++ context))) := by
  have text : envelope dispatchId around title body = .ofList (around.left.toList ++ ('S' ::
      ("imonOS private task".toList ++ ' ' :: (dispatchId.text.toList ++ ':' :: ' ' ::
        ((taskText title body).toList ++ '\n' :: '\n' ::
          "Private application context".toList))) ++ ':' ::
            (around.context.toList ++ around.right.toList))) := by
    rw [← String.toList_inj, String.toList_ofList]
    have first : "SimonOS private task ".toList = 'S' :: ("imonOS private task".toList ++ [' ']) := by
      decide
    have last : "\n\nPrivate application context:".toList =
        '\n' :: '\n' :: ("Private application context".toList ++ [':']) := by decide
    have colon : ": ".toList = [':', ' '] := by decide
    simp only [envelope, String.toList_append, first, last, colon, List.append_assoc,
      List.cons_append, List.nil_append]
  have stripped := @Text.strip_between ("imonOS private task".toList ++ ' ' ::
      (dispatchId.text.toList ++ ':' :: ' ' :: ((taskText title body).toList ++ '\n' :: '\n' ::
        "Private application context".toList))) (around.context.toList ++ around.right.toList)
    _ _ _ around.blankLeft
    (by decide : Text.isSpace 'S' = false) (by decide : Text.isSpace ':' = false)
  refine ⟨(around.context.toList ++ around.right.toList).rdropWhile Text.isSpace, ?_⟩
  rw [text, stripped]
  have first : "SimonOS private task".toList = 'S' :: "imonOS private task".toList := by decide
  have last : "Private application context:".toList =
      "Private application context".toList ++ [':'] := by decide
  simp only [first, last, List.append_assoc, List.cons_append, List.nil_append]

theorem envelope_notBlank : Text.strip (envelope dispatchId around title body) ≠ "" := by
  obtain ⟨context, stripped⟩ := @strip_envelope dispatchId around title body
  intro blank
  rw [blank] at stripped
  exact List.cons_ne_nil _ _ stripped.symm

theorem isAscii_of_all (all : text.all (fun c => decide (c.toNat < 128)) = true) :
    ∀ c ∈ text, c.toNat < 128 := fun c mem =>
  of_decide_eq_true (List.all_eq_true.mp all c mem)

theorem lower_envelope {context : List Char} : ∃ context' : List Char,
    cases.lower ("SimonOS private task".toList ++ ' ' ::
      (id ++ ':' :: ' ' :: (text ++ '\n' :: '\n' ::
        ("Private application context:".toList ++ context)))) =
    envelopeStart ++ (cases.lower id ++ ':' :: ' ' :: (cases.lower text ++ '\n' :: '\n' ::
      (privateContextMarker ++ context'))) := by
  have space : Text.isSpace ' ' = true := by decide
  have newline : Text.isSpace '\n' = true := by decide
  have colon : cases.casedNext [':'] = false := by
    rw [CaseTable.casedNext_cons, cases.asciiCased ':' (by decide)]
    split <;> rfl
  have named : cases.lower (id ++ [':']) = cases.lower id ++ [':'] := by
    unfold CaseTable.lower
    rw [CaseTable.lowerFrom_append colon, CaseTable.lowerFrom_cons,
      CaseTable.lowerChar_ascii (by decide)]
    rfl
  have start : cases.lower "SimonOS private task".toList = "simonos private task".toList := by
    rw [CaseTable.lower_ascii (isAscii_of_all (by decide))]
    decide
  have marker : cases.lower ("Private application context:".toList ++ context) =
      privateContextMarker ++
        cases.lowerFrom ("Private application context:".toList.reverse ++ []) context := by
    unfold CaseTable.lower
    rw [CaseTable.lowerFrom_ascii (isAscii_of_all (by decide))]
    exact congrArg (· ++ _) (by decide)
  have named' : ∀ behind, cases.lower (id ++ ':' :: ' ' :: behind) =
      cases.lower id ++ ':' :: ' ' :: cases.lower behind := fun behind => by
    have apart := @CaseTable.lower_space cases behind (id ++ [':']) _ space
    rw [named, List.append_assoc, List.append_assoc] at apart
    exact apart
  exact ⟨_, calc
    _ = cases.lower "SimonOS private task".toList ++ ' ' ::
          (cases.lower id ++ ':' :: ' ' :: cases.lower (text ++ '\n' :: '\n' ::
            ("Private application context:".toList ++ context))) := by
        rw [CaseTable.lower_space space, named']
    _ = cases.lower "SimonOS private task".toList ++ ' ' ::
          (cases.lower id ++ ':' :: ' ' :: (cases.lower text ++ '\n' :: '\n' ::
            cases.lower ("Private application context:".toList ++ context))) := by
        rw [CaseTable.lower_space newline, CaseTable.lower_cons_space newline]
    _ = _ := by
        rw [start, marker]
        exact List.append_cons _ ' ' _⟩

/-! ### The marker -/

theorem markerWords_not_suffix (apart : ¬ markerWords <:+ id) :
    ¬ markerWords <:+ envelopeStart ++ id := by
  have begins : ∀ start ∈ envelopeStart.tails, start <+: markerWords → start = [] := by decide
  intro ends
  rcases List.suffix_or_suffix_of_suffix ends (List.suffix_append envelopeStart id) with whole | part
  · exact apart whole
  · obtain ⟨start, same⟩ := part
    rw [← same] at ends
    have within : start <:+ envelopeStart := List.suffix_append_self_iff.mp ends
    have none := begins start ((List.mem_tails _ _).mpr within) ⟨id, same⟩
    rw [none, List.nil_append] at same
    exact apart (same ▸ List.suffix_rfl)

/-- The marker stands nowhere up to the id, whose colon would have to end it. -/
theorem before_id (colon : ':' ∉ id) (apart : ¬ markerWords <:+ id) :
    Text.before privateContextMarker (envelopeStart ++ (id ++ ':' :: rest)) =
      envelopeStart ++ (id ++ ':' :: Text.before privateContextMarker rest) := by
  have skipped : Text.before privateContextMarker ((envelopeStart ++ id ++ [':']) ++ rest) =
      (envelopeStart ++ id ++ [':']) ++ Text.before privateContextMarker rest := by
    refine Text.before_append fun tail suffix some occurs => ?_
    rcases List.suffix_concat_iff.mp suffix with rfl | ⟨tail, rfl, within⟩
    · exact some rfl
    have noColon : ':' ∉ tail := fun mem => by
      rcases List.mem_append.mp (within.mem mem) with start | inId
      · exact absurd start (by decide)
      · exact colon inId
    obtain ⟨behind, same⟩ := occurs
    rw [privateContextMarker_eq, List.append_assoc, List.append_assoc] at same
    have words := (Text.append_cons_inj (by decide) noColon same).1
    exact markerWords_not_suffix apart (words ▸ within)
  simp only [List.append_assoc, List.singleton_append] at skipped
  exact skipped

/-- In a text without the marker it stands nowhere up to a newline behind it. -/
theorem before_newline (apart : ¬ privateContextMarker <:+: text) :
    Text.before privateContextMarker (text ++ '\n' :: rest) =
      text ++ Text.before privateContextMarker ('\n' :: rest) := by
  refine Text.before_append fun tail suffix _ occurs => apart ?_
  exact (Text.prefix_of_not_mem (by decide) occurs).isInfix.trans suffix.isInfix

/-- The marker begins with a letter of its own. -/
theorem before_other (other : 'p' ∉ text) :
    Text.before privateContextMarker (text ++ rest) =
      text ++ Text.before privateContextMarker rest := by
  refine Text.before_append fun tail suffix some occurs => ?_
  cases tail with
  | nil => exact some rfl
  | cons c tail =>
      obtain ⟨_, same⟩ := occurs
      have first : 'p' = c := (List.cons.inj same).1
      exact other (suffix.mem (first ▸ List.mem_cons_self))

/-! ### Signatures -/

theorem isTokenChar_space {c : Char} (space : Text.isSpace c = true) :
    isTokenChar words c = false := by
  rw [isTokenChar, words.space c space, Bool.false_and]

/-- White space around a text has no tokens. -/
theorem signatureTokens_blank {left right : List Char} (blank : ∀ c ∈ left, Text.isSpace c = true)
    (blank' : ∀ c ∈ right, Text.isSpace c = true) :
    signatureTokens words (left ++ (text ++ right)) = signatureTokens words text := by
  unfold signatureTokens
  rw [Text.findRuns_append fun c mem => isTokenChar_space (blank c mem),
    Text.findRuns_append_right fun c mem => isTokenChar_space (blank' c mem)]

/-- Lowered, an id still has neither a colon nor a newline. -/
theorem lower_id_plain :
    ∀ c ∈ cases.lower dispatchId.text.toList, c ≠ ':' ∧ c ≠ '\n' := by
  intro c mem
  constructor
  · rintro rfl
    exact dispatchId.colon (CaseTable.mem_lowerFrom (by decide) (by decide) mem)
  · rintro rfl
    exact dispatchId.newline (CaseTable.mem_lowerFrom (by decide) (by decide) mem)

/-- The envelope of an id that does not end with the words of the marker has the signature of the
lowered title and body. -/
theorem taskSignature_envelope
    (apart : ¬ markerWords <:+ cases.lower dispatchId.text.toList)
    (clean : ¬ privateContextMarker <:+: cases.lower (taskText title body).toList) :
    taskSignatureForInput cases words sha256 (.str (envelope dispatchId around title body)) =
      tokenDigest sha256 (signatureTokens words (cases.lower (taskText title body).toList)) := by
  have skip : ∀ c rest, 'p' ∉ [c] → Text.before privateContextMarker (c :: rest) =
      c :: Text.before privateContextMarker rest := fun c _ => @before_other [c] _
  have plain := @lower_id_plain cases dispatchId
  have some : cases.lower dispatchId.text.toList ≠ [] :=
    CaseTable.lower_some fun none => dispatchId.some (String.toList_eq_nil_iff.mp none)
  obtain ⟨context, stripped⟩ := @strip_envelope dispatchId around title body
  have notBlank := @envelope_notBlank dispatchId around title body
  obtain ⟨context', lowered⟩ :=
    @lower_envelope cases (taskText title body).toList dispatchId.text.toList context
  have cut : Text.before privateContextMarker (cases.lower
      (Text.strip (envelope dispatchId around title body)).toList) =
      envelopeStart ++ (cases.lower dispatchId.text.toList ++ ':' ::
        ([' '] ++ (cases.lower (taskText title body).toList ++ ['\n', '\n']))) := by
    rw [stripped, lowered, before_id (fun mem => (plain _ mem).1 rfl) apart,
      skip ' ' _ (by decide), before_newline clean, skip '\n' _ (by decide),
      skip '\n' _ (by decide), Text.before_marker privateContextMarker_some]
    rfl
  obtain ⟨gap, blank, rest⟩ := @withoutEnvelope_envelope ([' '] ++
    (cases.lower (taskText title body).toList ++ ['\n', '\n'])) _ some plain
  have tokens := @signatureTokens_blank words
    (withoutEnvelope (envelopeStart ++ (cases.lower dispatchId.text.toList ++ ':' ::
      ([' '] ++ (cases.lower (taskText title body).toList ++ ['\n', '\n']))))) _ []
    blank fun c mem => (by cases mem)
  rw [List.append_nil, ← rest, signatureTokens_blank (List.all_eq_true.mp (by decide))
    (List.all_eq_true.mp (by decide))] at tokens
  simp only [taskSignatureForInput]
  rw [if_neg notBlank, cut, ← tokens]

/-- By itself, so has a text that does not begin as an envelope. -/
theorem taskSignature_alone {task : String}
    (plain : ¬ BeginsAsEnvelope (cases.lower (Text.strip task).toList))
    (clean : ¬ privateContextMarker <:+: cases.lower task.toList) :
    taskSignatureForInput cases words sha256 (.str task) =
      tokenDigest sha256 (signatureTokens words (cases.lower task.toList)) := by
  obtain ⟨left, right, blank, blank', text⟩ := Text.strip_text task
  have lowered : cases.lower task.toList =
      left ++ (cases.lower (Text.strip task).toList ++ right) := by
    rw [text, CaseTable.lower_blank_append blank, CaseTable.lower_append_blank blank']
  have tokens : signatureTokens words (cases.lower task.toList) =
      signatureTokens words (cases.lower (Text.strip task).toList) := by
    rw [lowered, signatureTokens_blank blank blank']
  have clean' : ¬ privateContextMarker <:+: cases.lower (Text.strip task).toList := fun inside =>
    clean (lowered ▸ inside.trans ⟨left, right, List.append_assoc _ _ _⟩)
  simp only [taskSignatureForInput]
  rw [tokens]
  split
  · rename_i none
    rw [none]
    rfl
  · rw [Text.before_eq_self clean', withoutEnvelope_plain plain]

/-- Lowered, the id ends with the words of the marker. -/
def EndsInMarker (cases : CaseTable) (dispatchId : DispatchId) : Prop :=
  markerWords <:+ cases.lower dispatchId.text.toList

theorem BeginsAsEnvelope.colon (begins : BeginsAsEnvelope text) : ':' ∈ text := by
  obtain ⟨gap₁, gap₂, gap₃, id, rest, _, _, _, rfl⟩ := begins
  simp only [List.mem_append, List.mem_cons, true_or, or_true]

theorem findRuns_simonos : Text.findRuns (isTokenChar words) ("simonos".toList ++ ' ' :: text) =
    "simonos".toList :: Text.findRuns (isTokenChar words) text := by
  have letters : ∀ c ∈ "simonos".toList, isTokenChar words c = true := by
    have all : "simonos".toList.all (fun c => decide (c.toNat < 128) && (c.isAlphanum || c == '_') &&
        c != '_') = true := by decide
    intro c mem
    have facts := List.all_eq_true.mp all c mem
    rw [Bool.and_eq_true, Bool.and_eq_true, decide_eq_true_eq] at facts
    rw [isTokenChar, words.ascii c facts.1.1, facts.1.2, facts.2]
    rfl
  rw [Text.findRuns_append_cons (isTokenChar_space (by decide)),
    Text.findRuns_run (by decide) letters]
  rfl

/-- The envelope of an id that ends with the words of the marker keeps its first word. -/
theorem taskSignature_cut (ends : EndsInMarker cases dispatchId) :
    taskSignatureForInput cases words sha256 (.str (envelope dispatchId around title body)) ≠
      none := by
  obtain ⟨context, stripped⟩ := @strip_envelope dispatchId around title body
  have notBlank := @envelope_notBlank dispatchId around title body
  obtain ⟨context', lowered⟩ :=
    @lower_envelope cases (taskText title body).toList dispatchId.text.toList context
  obtain ⟨start, same⟩ := ends
  -- the marker stands behind the start of the id, and there is no colon before it
  have reads : cases.lower (Text.strip (envelope dispatchId around title body)).toList =
      "simonos ".toList ++ (("private task ".toList ++ start) ++ (privateContextMarker ++
        (' ' :: (cases.lower (taskText title body).toList ++ '\n' :: '\n' ::
          (privateContextMarker ++ context'))))) := by
    have first : envelopeStart = "simonos ".toList ++ "private task ".toList := by decide
    rw [stripped, lowered, ← same, privateContextMarker_eq, first]
    simp only [List.append_assoc, List.singleton_append]
  have within := @Text.before_prefix _ ("private task ".toList ++ start)
    (' ' :: (cases.lower (taskText title body).toList ++ '\n' :: '\n' ::
      (privateContextMarker ++ context'))) privateContextMarker_some
  have noColon : ':' ∉ "private task ".toList ++ start := by
    intro mem
    rcases List.mem_append.mp mem with word | inId
    · exact absurd word (by decide)
    · refine (@lower_id_plain cases dispatchId ':' ?_).1 rfl
      exact same ▸ List.mem_append_left _ inId
  simp only [taskSignatureForInput]
  rw [if_neg notBlank, reads, before_other (by decide)]
  generalize Text.before privateContextMarker _ = cut at within ⊢
  have plain : ¬ BeginsAsEnvelope ("simonos ".toList ++ cut) := by
    intro begins
    rcases List.mem_append.mp begins.colon with word | inCut
    · exact absurd word (by decide)
    · exact noColon (within.mem inCut)
  have tokens : signatureTokens words ("simonos ".toList ++ cut) ≠ [] := by
    have words_ : "simonos ".toList ++ cut = "simonos".toList ++ ' ' :: cut := by
      rw [List.append_cons]
      exact congrArg (· ++ cut) (by decide)
    rw [words_, signatureTokens, findRuns_simonos, List.filter_cons_of_pos (by decide)]
    exact List.cons_ne_nil _ _
  rw [withoutEnvelope_plain plain, tokenDigest, if_neg tokens]
  exact Option.some_ne_none _

end

/-! ### Buckets -/

section

variable (cases : CaseTable) (words : WordTable) (sha256 : List UInt8 → String)

/-- The envelopes of two ids have one signature, which is that of the title and the body. -/
def Unsplit (id₁ id₂ : DispatchId) : Prop :=
  ∀ (title body : String) (around₁ around₂ : EnvelopeSetting),
    ¬ privateContextMarker <:+: cases.lower (taskText title body).toList →
      taskSignatureForInput cases words sha256 (.str (envelope id₁ around₁ title body)) =
          taskSignatureForInput cases words sha256 (.str (envelope id₂ around₂ title body)) ∧
        (¬ BeginsAsEnvelope (cases.lower (Text.strip (taskText title body)).toList) →
          taskSignatureForInput cases words sha256 (.str (envelope id₁ around₁ title body)) =
            taskSignatureForInput cases words sha256 (.str (taskText title body)))

/-- The ids do not count exactly where neither ends with the words of the marker. -/
theorem taskSignature_unsplit_iff (id₁ id₂ : DispatchId) :
    Unsplit cases words sha256 id₁ id₂ ↔ ¬ EndsInMarker cases id₁ ∧ ¬ EndsInMarker cases id₂ := by
  constructor
  · intro unsplit
    let bare : EnvelopeSetting := ⟨"", "", "", fun _ mem => (by cases mem), fun _ mem => (by cases mem)⟩
    have lowered : cases.lower (taskText "" "").toList = ['\n', '\n'] := by
      rw [taskText, CaseTable.lower_ascii (isAscii_of_all (by decide))]
      decide
    have stripped : Text.strip (taskText "" "") = "" := by decide
    have clean : ¬ privateContextMarker <:+: cases.lower (taskText "" "").toList := by
      rw [lowered]
      decide
    have plain : ¬ BeginsAsEnvelope (cases.lower (Text.strip (taskText "" "")).toList) := by
      intro begins
      have none : cases.lower "".toList = [] := rfl
      rw [stripped, none] at begins
      exact absurd begins.colon List.not_mem_nil
    have alone : taskSignatureForInput cases words sha256 (.str (taskText "" "")) = none := by
      simp only [taskSignatureForInput]
      rw [if_pos stripped]
    obtain ⟨same, bucket⟩ := unsplit "" "" bare bare clean
    have bucket := (bucket plain).trans alone
    exact ⟨fun ends => taskSignature_cut ends bucket,
      fun ends => taskSignature_cut ends (same.symm.trans bucket)⟩
  · rintro ⟨apart₁, apart₂⟩ title body around₁ around₂ clean
    have first := @taskSignature_envelope _ words sha256 _ around₁ _ _
      apart₁ clean
    have second := @taskSignature_envelope _ words sha256 _ around₂ _ _
      apart₂ clean
    exact ⟨first.trans second.symm, fun plain => first.trans (taskSignature_alone plain clean).symm⟩

end

/-- The bytes themselves, for a digest. -/
def plainBytes (bytes : List UInt8) : String := .ofList (bytes.map fun byte => .ofNat byte.toNat)

def contextId : DispatchId :=
  ⟨"private application context", by decide, by decide, by decide⟩

def firstId : DispatchId := ⟨"01AAA", by decide, by decide, by decide⟩

def workspaceNote : EnvelopeSetting :=
  ⟨" /src", "", "", fun _ mem => (by cases mem),
    fun _ mem => (by cases mem)⟩

/-- The words of the marker as an id split a report from its bucket. -/
theorem context_id_splits :
    taskSignatureForInput asciiCases asciiWords plainBytes
        (.str (envelope firstId workspaceNote "Plan" "Sales")) =
      some "sha256:v1:plan sales" ∧
    taskSignatureForInput asciiCases asciiWords plainBytes
        (.str (envelope contextId workspaceNote "Plan" "Sales")) =
      some "sha256:v1:simonos task" ∧
    ¬ privateContextMarker <:+:
      asciiCases.lower (taskText "Plan" "Sales").toList := by
  refine ⟨by decide +kernel, by decide +kernel, by decide +kernel⟩

end AgentOs
