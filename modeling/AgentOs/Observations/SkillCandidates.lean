import AgentOs.Lib.Lowering
import AgentOs.Observations.Records
import AgentOs.Tools.Skills
import Mathlib.Data.List.Dedup
import Mathlib.Data.Prod.Lex
import Mathlib.Data.Rat.Floor
import Mathlib.Data.String.Basic
import Mathlib.Tactic.Linarith
import Mathlib.Tactic.NormNum

/-!
Candidates for new skills (`skill_candidates.py`, `skill_authoring.py`).

`aggregate_task_signatures` counts the labels of the observations that share a task kind and a
signature, and `mine_skill_candidates` proposes a name for each bucket with enough good labels
that no registered skill answers to. The scores are floating-point numbers; what is done with
them is the parameter `CandidateScoring`.
-/

namespace AgentOs

open AgentOs.Lib

/-- What is done with scores. None is a NaN, so they are in order. -/
structure CandidateScoring (S : Type) [LinearOrder S] where
  /-- `(accepted + 0.5 * edited) / occurrences` -/
  score : ℕ → ℕ → ℕ → S
  /-- `MIN_SKILL_CANDIDATE_OUTCOME_SCORE` -/
  minimum : S
  zero : S
  one : S
  minimum_within : zero ≤ minimum ∧ minimum ≤ one
  /-- `round(a, 4)` -/
  rounded : S → S
  /-- `f"{a:.2f}"` -/
  text : S → String
  within : ∀ {a e n}, 0 < n → a + e ≤ n →
    zero ≤ rounded (score a e n) ∧ rounded (score a e n) ≤ one
  /-- a digit, the point and two digits -/
  text_length : ∀ {x}, zero ≤ x → x ≤ one → (text x).length = 4

/-- `TaskSignaturePattern` -/
structure TaskSignaturePattern (S : Type) where
  workspaceId : String
  taskKind : String
  taskSignature : String
  acceptedCount : ℕ
  rejectedCount : ℕ
  editedCount : ℕ
  occurrenceCount : ℕ
  outcomeScore : S
  sampleRunIds : List String

/-- `SkillCandidate` -/
structure SkillCandidate (S : Type) where
  signature : String
  taskKind : String
  occurrenceCount : ℕ
  successCount : ℕ
  outcomeScore : S
  sampleRunIds : List String
  suggestedSkillName : String
  rationale : String
deriving DecidableEq

/-- `[a-z0-9]` -/
def isNamePart (c : Char) : Bool := ('a' ≤ c && c ≤ 'z') || c.isDigit

section

variable {S H : Type} [LinearOrder S] (scoring : CandidateScoring S) (cases : CaseTable)

/-! ### Buckets -/

/-- The labelled observations of a workspace that have a signature, by kind and signature. -/
def labelledBucket (workspaceId : String) (bucket : String × String)
    (rows : List StoredObservation) : List StoredObservation :=
  rows.filter fun row => row.workspaceId = workspaceId ∧ row.taskKind = bucket.1 ∧
    row.taskSignature = some bucket.2 ∧ row.outcomeSignal ≠ .unknown

/-- The kinds and signatures with a labelled observation, in their order. -/
def signatureBuckets (workspaceId : String) (rows : List StoredObservation) :
    List (String × String) :=
  let labelled := rows.filter fun row =>
    row.workspaceId = workspaceId ∧ row.outcomeSignal ≠ .unknown
  (labelled.filterMap fun row => row.taskSignature.map (row.taskKind, ·)).dedup
    |>.insertionSort fun a b => toLex a ≤ toLex b

/-- The newest runs of a bucket. -/
def sampleRunIds (limit : ℕ) (bucket : List StoredObservation) : List String :=
  let newest := bucket.filter (·.runId.isSome) |>.insertionSort fun a b =>
    toLex (b.createdAt, b.observationId) ≤ toLex (a.createdAt, a.observationId)
  (newest.take limit).filterMap (·.runId)

/-- The row that SQL makes of a bucket. -/
def signaturePattern (workspaceId : String) (sampleLimit : ℤ) (rows : List StoredObservation)
    (bucket : String × String) : TaskSignaturePattern S :=
  let labelled := labelledBucket workspaceId bucket rows
  let count := fun signal => labelled.countP (·.outcomeSignal = signal)
  let occurrences := count .accepted + count .rejected + count .edited
  { workspaceId
    taskKind := bucket.1
    taskSignature := bucket.2
    acceptedCount := count .accepted
    rejectedCount := count .rejected
    editedCount := count .edited
    occurrenceCount := occurrences
    outcomeScore := scoring.score (count .accepted) (count .edited) occurrences
    sampleRunIds := sampleRunIds (max 1 (min sampleLimit 10)).toNat labelled }

/-- `aggregate_task_signatures` -/
def aggregateTaskSignatures (workspaceId : String) (sampleLimit : ℤ)
    (rows : List StoredObservation) : List (TaskSignaturePattern S) :=
  ((signatureBuckets workspaceId rows).map (signaturePattern scoring workspaceId sampleLimit rows))
    |>.filter fun pattern => pattern.occurrenceCount ≠ 0

/-! ### Candidates -/

/-- What is left of a task kind in a name. -/
def skillSlug (taskKind : String) : String :=
  let dashed := Text.substRuns (fun c => !isNamePart c) '-' (.ofList (cases.lower taskKind.toList))
  let kind := String.ofList ((dashed.toList.dropWhile (· == '-')).rdropWhile (· == '-'))
  if kind = "" then "workflow" else kind

/-- `suggested_skill_name` -/
def suggestedSkillName (taskKind taskSignature : String) : String :=
  let digest := if Text.startsWith taskSignature "sha256:v1:" then Text.drop taskSignature 10
    else taskSignature
  "candidate-" ++ skillSlug cases taskKind ++ "-" ++ Text.take digest 12

/-- `_is_covered` -/
def isCovered (registry : SkillRegistry H) (name : String) : Bool :=
  (registry.get name).isSome || (registry.deterministicMatch name).isSome

/-- `_candidate` -/
def candidateOf (pattern : TaskSignaturePattern S) : SkillCandidate S :=
  let name := suggestedSkillName cases pattern.taskKind pattern.taskSignature
  let score := scoring.rounded pattern.outcomeScore
  { signature := pattern.taskSignature
    taskKind := pattern.taskKind
    occurrenceCount := pattern.occurrenceCount
    successCount := pattern.acceptedCount
    outcomeScore := score
    sampleRunIds := pattern.sampleRunIds
    suggestedSkillName := name
    rationale := toString pattern.occurrenceCount ++ " labelled " ++ pattern.taskKind ++
      " occurrences; " ++ toString pattern.acceptedCount ++ " accepted; outcome score " ++
      scoring.text score ++ "; no registered exact candidate skill." }

/-- The key that candidates are sorted by. -/
def SkillCandidate.key (candidate : SkillCandidate S) : ℕᵒᵈ ×ₗ Sᵒᵈ ×ₗ String ×ₗ String :=
  toLex (OrderDual.toDual candidate.occurrenceCount,
    toLex (OrderDual.toDual candidate.outcomeScore,
      toLex (candidate.suggestedSkillName, candidate.signature)))

/-- `mine_skill_candidates` -/
def mineSkillCandidates (registry : SkillRegistry H) (workspaceId : String)
    (minOccurrences : ℤ) (minOutcomeScore : S) (rows : List StoredObservation) :
    Except String (List (SkillCandidate S)) :=
  if minOccurrences < 1 then .error "min_occurrences must be positive"
  else if ¬(scoring.zero ≤ minOutcomeScore ∧ minOutcomeScore ≤ scoring.one) then
    .error "min_outcome_score must be between 0 and 1"
  else
    let kept := (aggregateTaskSignatures scoring workspaceId 3 rows).filter fun pattern =>
      minOccurrences ≤ pattern.occurrenceCount ∧ minOutcomeScore ≤ pattern.outcomeScore
    let candidates := (kept.map (candidateOf scoring cases)).filter fun candidate =>
      !isCovered registry candidate.suggestedSkillName
    .ok (candidates.insertionSort fun a b => a.key ≤ b.key)

/-- The bounds of `CandidateAuthoringInput`. -/
def SkillCandidate.isAuthoringInput (candidate : SkillCandidate S) (candidateId : String) : Bool :=
  let within := fun (text : String) (limit : ℕ) => 1 ≤ text.length && text.length ≤ limit
  within candidateId 160 && within candidate.signature 128 && within candidate.taskKind 80 &&
    1 ≤ candidate.occurrenceCount &&
    (scoring.zero ≤ candidate.outcomeScore && candidate.outcomeScore ≤ scoring.one) &&
    candidate.sampleRunIds.length ≤ 3 && within candidate.suggestedSkillName 120 &&
    within candidate.rationale 900

end

/-! ### Names -/

section Names

variable {p : Char → Bool} {by_ c : Char} {text : List Char} {name kind signature : String}

/-- What is substituted is either kept or put in. -/
theorem mem_substRuns (mem : c ∈ Text.substRuns.go p by_ text) : c = by_ ∨ p c = false := by
  fun_induction Text.substRuns.go p by_ text with
  | case1 => cases mem
  | case2 d matched => exact .inl (List.mem_singleton.mp mem)
  | case3 d kept =>
      rw [List.mem_singleton.mp mem]
      exact .inr (Bool.eq_false_iff.mpr kept)
  | case4 d e rest matched next ih => exact ih mem
  | case5 d e rest matched next ih =>
      rcases List.mem_cons.mp mem with rfl | mem
      · exact .inl rfl
      · exact ih mem
  | case6 d e rest kept ih =>
      rcases List.mem_cons.mp mem with rfl | mem
      · exact .inr (Bool.eq_false_iff.mpr kept)
      · exact ih mem

theorem length_substRuns_le : (Text.substRuns.go p by_ text).length ≤ text.length := by
  fun_induction Text.substRuns.go p by_ text with
  | case1 => exact Nat.le_refl 0
  | case2 | case3 => exact Nat.le_refl 1
  | case4 d e rest matched next ih => exact ih.trans (Nat.le_succ _)
  | case5 d e rest matched next ih => exact Nat.succ_le_succ ih
  | case6 d e rest kept ih => exact Nat.succ_le_succ ih

theorem isNamePart_iff : isNamePart c = true ↔
    (97 ≤ c.toNat ∧ c.toNat ≤ 122) ∨ 48 ≤ c.toNat ∧ c.toNat ≤ 57 := by
  unfold isNamePart Char.isDigit
  simp only [Bool.or_eq_true, Bool.and_eq_true, decide_eq_true_eq, ge_iff_le,
    UInt32.le_iff_toNat_le, Char.le_def]
  rfl

/-- `[a-z0-9-]` -/
def isNameChar (c : Char) : Bool := isNamePart c || c == '-'

theorem isNameChar_plain (plain : isNameChar c = true) :
    Text.isSpace c = false ∧ c.toLower = c := by
  have range : (97 ≤ c.toNat ∧ c.toNat ≤ 122) ∨ (48 ≤ c.toNat ∧ c.toNat ≤ 57) ∨ c.toNat = 45 := by
    rcases (Bool.or_eq_true ..).mp plain with part | dash
    · exact (isNamePart_iff.mp part).imp_right .inl
    · rw [eq_of_beq dash]
      exact .inr (.inr rfl)
  constructor
  · unfold Text.isSpace
    simp only [Bool.or_eq_false_iff, Bool.and_eq_false_iff, decide_eq_false_iff_not,
      beq_eq_false_iff_ne]
    omega
  · exact toLower_of_not_upper (by omega)

/-- A text of such characters: one component of a path, and one word of a command. -/
structure IsCandidateName (name : String) : Prop where
  some : name ≠ ""
  plain : ∀ c ∈ name.toList, isNameChar c = true

namespace IsCandidateName

theorem notSpace (candidate : IsCandidateName name) : ∀ c ∈ name.toList, ¬ Text.isSpace c = true :=
  fun c mem => by
    rw [(isNameChar_plain (candidate.plain c mem)).1]
    exact Bool.false_ne_true

theorem strip (candidate : IsCandidateName name) : Text.strip name = name := by
  have left : name.toList.dropWhile Text.isSpace = name.toList := by
    cases chars : name.toList with
    | nil => rfl
    | cons c cs =>
        refine List.dropWhile_cons_of_neg (candidate.notSpace c ?_)
        rw [chars]
        exact List.mem_cons_self
  have right : name.toList.rdropWhile Text.isSpace = name.toList :=
    List.rdropWhile_eq_self_iff.mpr fun some => candidate.notSpace _ (List.getLast_mem some)
  rw [Text.strip, left, right, String.ofList_toList]

theorem lower (candidate : IsCandidateName name) : Text.lower name = name := by
  have same : ∀ c ∈ name.toList, c.toLower = id c := fun c mem =>
    (isNameChar_plain (candidate.plain c mem)).2
  rw [Text.lower, List.map_congr_left same, List.map_id, String.ofList_toList]

theorem words (candidate : IsCandidateName name) : Text.words name = [name] := by
  have some : name.toList ≠ [] := fun none => candidate.some (String.toList_eq_nil_iff.mp none)
  rw [Text.words, List.splitOnP_eq_singleton fun c mem => Bool.eq_false_iff.mpr (candidate.notSpace c mem),
    List.filter_cons_of_pos (by simpa using candidate.some), List.filter_nil, List.map_singleton,
    String.ofList_toList]

/-- A name is covered where it is a word of a registered skill. -/
theorem isCovered_iff {H : Type} {registry : SkillRegistry H} (candidate : IsCandidateName name) :
    isCovered registry name = true ↔ ∃ skill ∈ registry.skills, name ∈ skill.words := by
  have found : ∀ skill : RegisteredSkill H,
      skill.matchesCommand name = true ↔ name ∈ skill.words := by
    intro skill
    rw [RegisteredSkill.matchesCommand_iff, candidate.strip, candidate.lower, candidate.words]
    constructor
    · rintro ⟨word, rest, same, mem⟩
      rw [(List.cons.inj same).1]
      exact mem
    · exact fun mem => ⟨name, [], rfl, mem⟩
  unfold isCovered SkillRegistry.get SkillRegistry.deterministicMatch normalizeName
  rw [Bool.or_eq_true, List.find?_isSome, List.find?_isSome, candidate.strip, candidate.lower]
  constructor
  · rintro (⟨skill, mem, same⟩ | ⟨skill, mem, answers⟩)
    · refine ⟨skill, mem, ?_⟩
      rw [← of_decide_eq_true same]
      exact List.mem_cons_self
    · exact ⟨skill, mem, (found skill).mp answers⟩
  · rintro ⟨skill, mem, word⟩
    exact .inr ⟨skill, mem, (found skill).mpr word⟩

end IsCandidateName

variable {cases : CaseTable}

/-- What is left of a kind is made of such characters. -/
theorem skillSlug_name (cases : CaseTable) (kind : String) : IsCandidateName (skillSlug cases kind) := by
  unfold skillSlug
  dsimp only
  split
  · exact ⟨by simp, by simp [isNameChar, isNamePart]⟩
  · rename_i some_text
    refine ⟨some_text, fun c mem => ?_⟩
    rw [String.toList_ofList] at mem
    have mem := (List.dropWhile_sublist _).mem ((List.rdropWhile_prefix _ _).sublist.mem mem)
    rw [Text.substRuns, String.toList_ofList, String.toList_ofList] at mem
    rcases mem_substRuns mem with rfl | kept
    · rfl
    · have part : isNamePart c = true := by simpa using kept
      rw [isNameChar, part, Bool.true_or]

/-- The slug of an ASCII kind is no longer than the kind, unless it stands for none. -/
theorem length_skillSlug_le (ascii : ∀ c ∈ kind.toList, c.toNat < 128) :
    (skillSlug cases kind).length ≤ max 8 kind.length := by
  unfold skillSlug
  dsimp only
  split
  · exact Nat.le_max_left ..
  · refine le_trans ?_ (Nat.le_max_right ..)
    rw [String.length_ofList, ← String.length_toList]
    refine ((List.rdropWhile_prefix _ _).length_le.trans (List.dropWhile_sublist _).length_le).trans ?_
    rw [Text.substRuns, String.toList_ofList, String.toList_ofList]
    refine length_substRuns_le.trans ?_
    rw [CaseTable.lower_ascii ascii, List.length_map]

/-- The name of a kind and a digest. -/
theorem suggestedSkillName_eq (valid : isTaskSignature signature = true) :
    ∃ digits : List Char, digits.length = 12 ∧ (∀ c ∈ digits, isHexDigit c = true) ∧
      suggestedSkillName cases kind signature =
        "candidate-" ++ skillSlug cases kind ++ "-" ++ .ofList digits := by
  obtain ⟨digest, long, hex, split⟩ := isTaskSignature_iff.mp valid
  have starts : Text.startsWith signature "sha256:v1:" = true := by
    rw [Text.startsWith, List.isPrefixOf_iff_prefix, split]
    exact List.prefix_append ..
  have rest : signature.toList.drop 10 = digest := by
    rw [split]
    exact List.drop_left' (by rfl)
  refine ⟨digest.take 12, ?_, fun c mem => hex c (List.mem_of_mem_take mem), ?_⟩
  · rw [List.length_take, long]
    rfl
  · unfold suggestedSkillName
    dsimp only
    rw [if_pos starts, Text.drop, Text.take, rest, String.toList_ofList]

theorem suggestedSkillName_length (valid : isTaskSignature signature = true) :
    (suggestedSkillName cases kind signature).length = (skillSlug cases kind).length + 23 := by
  obtain ⟨digits, long, _, same⟩ := @suggestedSkillName_eq kind signature cases valid
  have last : (String.ofList digits).length = 12 := by rw [String.length_ofList, long]
  rw [same, String.length_append, String.length_append, String.length_append, last]
  have first : "candidate-".length = 10 := rfl
  have dash : "-".length = 1 := rfl
  omega

theorem suggestedSkillName_name (valid : isTaskSignature signature = true) :
    IsCandidateName (suggestedSkillName cases kind signature) := by
  obtain ⟨digits, _, hex, same⟩ := @suggestedSkillName_eq kind signature cases valid
  refine ⟨fun none => ?_, fun c mem => ?_⟩
  · have long := @suggestedSkillName_length kind signature cases valid
    rw [none] at long
    cases long
  · rw [same, String.toList_append, String.toList_append, String.toList_append] at mem
    simp only [List.mem_append] at mem
    rcases mem with ((first | slug) | dash) | digit
    · have plain : ∀ c ∈ "candidate-".toList, isNameChar c = true := by simp [isNameChar, isNamePart]
      exact plain c first
    · exact (skillSlug_name cases kind).plain c slug
    · have plain : ∀ c ∈ "-".toList, isNameChar c = true := by simp [isNameChar]
      exact plain c dash
    · rw [String.toList_ofList] at digit
      have hex := hex c digit
      unfold isHexDigit at hex
      rw [isNameChar, isNamePart]
      rcases (Bool.or_eq_true ..).mp hex with number | letter
      · rw [number, Bool.or_true, Bool.true_or]
      · obtain ⟨low, high⟩ := (Bool.and_eq_true ..).mp letter
        have high : c ≤ 'z' := (of_decide_eq_true high).trans (by decide)
        rw [low, decide_eq_true high]
        rfl

end Names

/-! ### What is mined -/

section Mining

variable {S H : Type} [LinearOrder S] {scoring : CandidateScoring S} {cases : CaseTable}
  {registry : SkillRegistry H} {workspaceId : String} {rows : List StoredObservation}
  {bucket : String × String}

theorem count_labelled (labelled : ∀ row ∈ rows, row.outcomeSignal ≠ .unknown) :
    rows.countP (·.outcomeSignal = .accepted) + rows.countP (·.outcomeSignal = .rejected) +
      rows.countP (·.outcomeSignal = .edited) = rows.length := by
  induction rows with
  | nil => rfl
  | cons row rows ih =>
      have rest := ih fun r mem => labelled r (List.mem_cons_of_mem row mem)
      have here := labelled row List.mem_cons_self
      simp only [List.countP_cons, List.length_cons]
      cases signal : row.outcomeSignal with
      | unknown => exact absurd signal here
      | accepted | rejected | edited =>
          simp only [decide_true, reduceCtorEq, decide_false, if_true, Bool.false_eq_true, if_false]
          omega

theorem mem_labelledBucket {row : StoredObservation} :
    row ∈ labelledBucket workspaceId bucket rows ↔ row ∈ rows ∧ row.workspaceId = workspaceId ∧
      row.taskKind = bucket.1 ∧ row.taskSignature = some bucket.2 ∧
      row.outcomeSignal ≠ .unknown := by
  rw [labelledBucket, List.mem_filter, decide_eq_true_eq]

/-- All labels of a bucket are counted. -/
theorem occurrenceCount_eq (sampleLimit : ℤ) :
    (signaturePattern scoring workspaceId sampleLimit rows bucket).occurrenceCount =
      (labelledBucket workspaceId bucket rows).length :=
  count_labelled fun _ mem => (mem_labelledBucket.mp mem).2.2.2.2

/-- There is a bucket where a labelled observation is. -/
theorem mem_signatureBuckets :
    bucket ∈ signatureBuckets workspaceId rows ↔ labelledBucket workspaceId bucket rows ≠ [] := by
  unfold signatureBuckets
  dsimp only
  rw [List.mem_insertionSort, List.mem_dedup, List.mem_filterMap]
  constructor
  · rintro ⟨row, mem, same⟩
    obtain ⟨mem, here⟩ := List.mem_filter.mp mem
    obtain ⟨here, labelled⟩ := of_decide_eq_true here
    obtain ⟨signature, signed, rfl⟩ := Option.map_eq_some_iff.mp same
    exact List.ne_nil_of_mem (mem_labelledBucket.mpr ⟨mem, here, rfl, signed, labelled⟩)
  · intro some_row
    obtain ⟨row, mem⟩ := List.exists_mem_of_ne_nil _ some_row
    obtain ⟨mem, here, kind, signed, labelled⟩ := mem_labelledBucket.mp mem
    refine ⟨row, List.mem_filter.mpr ⟨mem, decide_eq_true ⟨here, labelled⟩⟩, ?_⟩
    rw [signed, kind]
    rfl

theorem aggregateTaskSignatures_eq (sampleLimit : ℤ) :
    aggregateTaskSignatures scoring workspaceId sampleLimit rows =
      (signatureBuckets workspaceId rows).map
        (signaturePattern scoring workspaceId sampleLimit rows) := by
  refine List.filter_eq_self.mpr fun pattern mem => ?_
  obtain ⟨bucket, here, rfl⟩ := List.mem_map.mp mem
  rw [occurrenceCount_eq, decide_eq_true_eq, ne_eq, List.length_eq_zero_iff]
  exact mem_signatureBuckets.mp here

variable (scoring cases registry workspaceId rows bucket) in
/-- The candidate of a bucket. -/
def bucketCandidate : SkillCandidate S :=
  candidateOf scoring cases (signaturePattern scoring workspaceId 3 rows bucket)

variable (scoring cases registry workspaceId rows bucket) in
/-- A bucket is worth proposing: three labels, good ones, and no skill of that name. -/
structure Qualifies : Prop where
  repeated : 3 ≤ (labelledBucket workspaceId bucket rows).length
  good : scoring.minimum ≤
    (signaturePattern scoring workspaceId 3 rows bucket).outcomeScore
  new : ∀ skill ∈ registry.skills, suggestedSkillName cases bucket.1 bucket.2 ∉ skill.words

theorem Qualifies.mem (qualifies : Qualifies scoring cases registry workspaceId rows bucket) :
    bucket ∈ signatureBuckets workspaceId rows := by
  refine mem_signatureBuckets.mpr fun none => ?_
  have repeated := qualifies.repeated
  rw [none] at repeated
  cases repeated

/-- The bounds of a row are those of its bucket. -/
theorem bucket_bounded (bounded : ∀ row ∈ rows, row.Bounded)
    (mem : bucket ∈ signatureBuckets workspaceId rows) :
    (bucket.1 ≠ "" ∧ bucket.1.length ≤ 80) ∧ isTaskSignature bucket.2 = true := by
  obtain ⟨row, mem⟩ := List.exists_mem_of_ne_nil _ (mem_signatureBuckets.mp mem)
  obtain ⟨mem, _, kind, signed, _⟩ := mem_labelledBucket.mp mem
  have bounds := bounded row mem
  exact ⟨kind ▸ bounds.taskKind, bounds.taskSignature _ signed⟩

/-- **What is mined** are the candidates of the buckets that qualify, each once and in order. -/
theorem mineSkillCandidates_spec (bounded : ∀ row ∈ rows, row.Bounded) :
    ∃ candidates, mineSkillCandidates scoring cases registry workspaceId 3 scoring.minimum rows =
        .ok candidates ∧
      candidates.Pairwise (·.key ≤ ·.key) ∧
      (candidates.map fun c => (c.taskKind, c.signature)).Nodup ∧
      ∀ candidate, candidate ∈ candidates ↔ ∃ bucket,
        Qualifies scoring cases registry workspaceId rows bucket ∧
          candidate = bucketCandidate scoring cases workspaceId rows bucket := by
  unfold mineSkillCandidates
  dsimp only
  rw [if_neg (by decide), if_neg (not_not_intro scoring.minimum_within)]
  refine ⟨_, rfl, List.pairwise_insertionSort _ _, ?_, fun candidate => ?_⟩
  · rw [((List.perm_insertionSort _ _).map _).nodup_iff, aggregateTaskSignatures_eq]
    have buckets : (signatureBuckets workspaceId rows).Nodup :=
      (List.perm_insertionSort _ _).nodup_iff.mpr (List.nodup_dedup _)
    have all : (((signatureBuckets workspaceId rows).map
        (signaturePattern scoring workspaceId 3 rows)).map (candidateOf scoring cases)).map
          (fun c => (c.taskKind, c.signature)) = signatureBuckets workspaceId rows := by
      rw [List.map_map, List.map_map]
      exact List.map_id _
    refine List.Nodup.sublist (List.Sublist.map _ (List.filter_sublist.trans
      (List.Sublist.map _ List.filter_sublist))) ?_
    rw [all]
    exact buckets
  · rw [List.mem_insertionSort, List.mem_filter, List.mem_map, aggregateTaskSignatures_eq]
    have covered : ∀ bucket ∈ signatureBuckets workspaceId rows,
        (!isCovered registry (suggestedSkillName cases bucket.1 bucket.2)) = true ↔
          ∀ skill ∈ registry.skills, suggestedSkillName cases bucket.1 bucket.2 ∉ skill.words := by
      intro bucket mem
      have name := @suggestedSkillName_name bucket.1 bucket.2 cases (bucket_bounded bounded mem).2
      rw [Bool.not_eq_true', Bool.eq_false_iff, ne_eq, name.isCovered_iff]
      push Not
      rfl
    constructor
    · rintro ⟨⟨pattern, mem, rfl⟩, fresh⟩
      obtain ⟨mem, enough⟩ := List.mem_filter.mp mem
      obtain ⟨bucket, here, rfl⟩ := List.mem_map.mp mem
      obtain ⟨repeated, good⟩ := of_decide_eq_true enough
      rw [occurrenceCount_eq] at repeated
      exact ⟨bucket, ⟨by omega, good, (covered bucket here).mp fresh⟩, rfl⟩
    · rintro ⟨bucket, qualifies, rfl⟩
      have mem := qualifies.mem
      obtain ⟨repeated, good, fresh⟩ := qualifies
      refine ⟨⟨_, List.mem_filter.mpr ⟨List.mem_map_of_mem mem, decide_eq_true ⟨?_, good⟩⟩, rfl⟩,
        (covered bucket mem).mpr fresh⟩
      rw [occurrenceCount_eq]
      omega

/-- A number that SQLite counts to has 19 digits at most. -/
theorem length_toString_le {n : ℕ} (small : n < 10 ^ 19) : (toString n).length ≤ 19 :=
  (Nat.length_repr_le_iff (by decide)).mpr small

theorem isTaskSignature_length {signature : String} (valid : isTaskSignature signature = true) :
    signature.length = 74 := by
  obtain ⟨digest, long, _, split⟩ := isTaskSignature_iff.mp valid
  rw [← String.length_toList, split, List.length_append, long]
  rfl

/-- What a rationale is long, beside the kind. -/
theorem length_rationale {pattern : TaskSignaturePattern S} (few : pattern.occurrenceCount < 10 ^ 19)
    (accepted : pattern.acceptedCount ≤ pattern.occurrenceCount)
    (text : (scoring.text (scoring.rounded pattern.outcomeScore)).length = 4) :
    1 ≤ (candidateOf scoring cases pattern).rationale.length ∧
      (candidateOf scoring cases pattern).rationale.length ≤ pattern.taskKind.length + 129 := by
  have first := length_toString_le few
  have second := length_toString_le (lt_of_le_of_lt accepted few)
  have labelled : " labelled ".length = 10 := rfl
  have occurrences : " occurrences; ".length = 14 := rfl
  have score : " accepted; outcome score ".length = 25 := rfl
  have last : "; no registered exact candidate skill.".length = 38 := rfl
  dsimp only [candidateOf]
  simp only [String.length_append] at *
  omega

/-- **A candidate passes as input for authoring** exactly where its slug is short. -/
theorem isAuthoringInput_iff {candidateId : String} (bounded : ∀ row ∈ rows, row.Bounded)
    (room : rows.length < 10 ^ 19)
    (qualifies : Qualifies scoring cases registry workspaceId rows bucket) :
    (bucketCandidate scoring cases workspaceId rows bucket).isAuthoringInput scoring candidateId =
        true ↔
      (1 ≤ candidateId.length ∧ candidateId.length ≤ 160) ∧
        (skillSlug cases bucket.1).length ≤ 97 := by
  obtain ⟨⟨some_kind, shortKind⟩, valid⟩ := bucket_bounded bounded qualifies.mem
  have kind : 1 ≤ bucket.1.length := by
    rw [Nat.one_le_iff_ne_zero, ne_eq, String.length_eq_zero_iff]
    exact some_kind
  have signature := isTaskSignature_length valid
  have name := @suggestedSkillName_length bucket.1 bucket.2 cases valid
  unfold bucketCandidate
  have occurs := @occurrenceCount_eq S _ scoring workspaceId rows bucket 3
  have samples : (signaturePattern scoring workspaceId 3 rows bucket).sampleRunIds.length ≤ 3 :=
    (List.length_filterMap_le _ _).trans (List.length_take_le _ _)
  have counts : (signaturePattern scoring workspaceId 3 rows bucket).acceptedCount +
      (signaturePattern scoring workspaceId 3 rows bucket).editedCount ≤
        (signaturePattern scoring workspaceId 3 rows bucket).occurrenceCount := by
    dsimp only [signaturePattern]
    omega
  have some_row : 0 < (signaturePattern scoring workspaceId 3 rows bucket).occurrenceCount := by
    rw [occurs]
    exact lt_of_lt_of_le (by decide) qualifies.repeated
  have score : scoring.zero ≤ scoring.rounded
        (signaturePattern scoring workspaceId 3 rows bucket).outcomeScore ∧
      scoring.rounded (signaturePattern scoring workspaceId 3 rows bucket).outcomeScore ≤
        scoring.one :=
    scoring.within some_row counts
  have few : (signaturePattern scoring workspaceId 3 rows bucket).occurrenceCount < 10 ^ 19 := by
    rw [occurs]
    exact lt_of_le_of_lt (List.length_filter_le _ _) room
  have rationale := @length_rationale S _ scoring cases _ few ((Nat.le_add_right _ _).trans counts)
    (scoring.text_length score.1 score.2)
  have repeated := qualifies.repeated
  rw [← occurs] at repeated
  have sameKind : (signaturePattern scoring workspaceId 3 rows bucket).taskKind = bucket.1 := rfl
  have sameSignature :
      (signaturePattern scoring workspaceId 3 rows bucket).taskSignature = bucket.2 := rfl
  generalize signaturePattern scoring workspaceId 3 rows bucket = pattern at *
  dsimp only [SkillCandidate.isAuthoringInput, candidateOf] at rationale ⊢
  rw [sameKind] at rationale
  rw [sameKind, sameSignature]
  simp only [Bool.and_eq_true, decide_eq_true_eq, name, signature]
  constructor
  · intro passed
    exact ⟨passed.1.1.1.1.1.1.1, by omega⟩
  · intro both
    refine ⟨⟨⟨⟨⟨⟨⟨both.1, by omega⟩, kind, shortKind⟩, by omega⟩, score⟩, samples⟩, by omega⟩, ?_⟩
    omega

end Mining

/-! ### Rational scores -/

theorem length_digit {n : ℕ} (small : n < 10) : (toString n).length = 1 :=
  le_antisymm ((Nat.length_repr_le_iff Nat.one_pos).mpr small) Nat.length_repr_pos

/-- Scores as rational numbers with four decimals. -/
def exactCandidateScoring : CandidateScoring ℚ where
  score accepted edited occurrences := (accepted + edited / 2) / occurrences
  minimum := 3 / 4
  zero := 0
  one := 1
  minimum_within := by norm_num
  rounded := id
  text x :=
    let hundredths := ⌊x * 100 + 1 / 2⌋₊
    toString (hundredths / 100) ++ "." ++ toString (hundredths / 10 % 10) ++
      toString (hundredths % 10)
  within := by
    intro a e n some fewer
    have some : (0 : ℚ) < n := by exact_mod_cast some
    have fewer : (a : ℚ) + e ≤ n := by exact_mod_cast fewer
    have edited : (0 : ℚ) ≤ e := Nat.cast_nonneg e
    have accepted : (0 : ℚ) ≤ a := Nat.cast_nonneg a
    exact ⟨div_nonneg (by linarith) some.le, (div_le_one some).mpr (by linarith)⟩
  text_length := by
    intro x low high
    have whole : ⌊x * 100 + 1 / 2⌋₊ < 101 := by
      rw [Nat.floor_lt (by linarith)]
      norm_num
      linarith
    dsimp only
    generalize ⌊x * 100 + 1 / 2⌋₊ = hundredths at *
    rw [String.length_append, String.length_append, String.length_append, length_digit (by omega),
      length_digit (by omega), length_digit (by omega)]
    rfl

end AgentOs
