import AgentOs.Connectors.VaultStatus
import AgentOs.Lib.Ranking
import Mathlib.Analysis.SpecialFunctions.Log.Basic
import Mathlib.Tactic.NormNum
import Mathlib.Tactic.Positivity

/-!
Searching a vault (`MarkdownVaultConnector.search`, `connectors.py`).

A search loads the index, or builds it where the vault is small, and scores each entry by the words
it shares with the query (BM25). Scores are elements of an ordered field, with `math.log` and
`round` as parameters. `vault_search_exact`: where the index is `ready`, the hits are the notes that
now have a word of the query, the best first, and a note is left out only where enough better ones
are found.
-/

namespace AgentOs

open AgentOs.Lib

namespace MarkdownVault

/-! ### Scores -/

/-- `math.log` and `round` -/
structure SearchArithmetic (K : Type) where
  log : K → K
  round : ℕ → K → K

section

variable {K : Type} [Field K] [LinearOrder K]

/-- What is relied on of them. -/
structure SearchArithmetic.Documented (arithmetic : SearchArithmetic K) : Prop where
  log_pos : ∀ x, 1 < x → 0 < arithmetic.log x
  round_mono : ∀ digits, Monotone (arithmetic.round digits)
  round_zero : ∀ digits, arithmetic.round digits 0 = 0

variable {root : VaultRoot} {μ : Type} (arithmetic : SearchArithmetic K)
  (docs : Dictionary String (IndexedNote μ))

/-- `avg_doc_len`, as `index` writes it. -/
def writtenAvgDocLen : K :=
  let totalTokens := (docs.entries.map fun entry => entry.2.docLen).sum
  arithmetic.round 2 (if docs.entries = [] then 0 else totalTokens / docs.entries.length)

/-- `avg_doc_len`, as `search` reads it: 1 in the place of 0. -/
def avgDocLen : K :=
  if writtenAvgDocLen arithmetic docs = 0 then 1 else writtenAvgDocLen arithmetic docs

/-- How many entries have a word. -/
def docFrequency (token : String) : ℕ :=
  (docs.entries.filter fun entry => (entry.2.termFreqs.get? token).isSome).length

/-- `idfs[token]` -/
def idf (token : String) : K :=
  let n : K := docFrequency docs token
  arithmetic.log ((docs.entries.length - n + 1 / 2) / (n + 1 / 2) + 1)

/-- What a word of the query adds to the score of an entry. -/
def tokenScore (doc : IndexedNote μ) (token : String) : K :=
  let tf := (doc.termFreqs.get? token).getD 0
  if 0 < tf then
    let k1 : K := 3 / 2
    let b : K := 3 / 4
    let denom := tf + k1 * (1 - b + b * (doc.docLen / avgDocLen arithmetic docs))
    idf arithmetic docs token * (tf * (k1 + 1)) / denom
  else 0

/-- The score of an entry. -/
def docScore (queryTokens : List String) (doc : IndexedNote μ) : K :=
  sumScore (tokenScore arithmetic docs doc) queryTokens

/-- An entry that scores. -/
structure ScoredDoc (K : Type) where
  score : K
  ref : String
  title : Option String

/-- `scored` -/
def scoredDocs (queryTokens : List String) : List (ScoredDoc K) :=
  docs.entries.filterMap fun entry =>
    let score := docScore arithmetic docs queryTokens entry.2
    if 0 < score then some { score, ref := entry.1, title := entry.2.title } else none

end

/-! ### Snippets -/

structure Heading where
  level : ℕ
  heading : String
  start : ℕ
deriving DecidableEq, Repr

/-- `#{1,n}` -/
def hashes : ℕ → Regex
  | 0 => .empty
  | 1 => .one (· == '#')
  | n + 1 => .seq (.one (· == '#')) (.optional (hashes n))

/-- `^(#{1,6})\s+(.+)$`, with `MULTILINE` -/
def headingsRegex : Regex :=
  .seq (.boundary isLineChar) (.seq (.group (hashes 6)) (.seq (.many Text.isSpace)
    (.seq (.group (.many isLineChar)) (.boundary isLineChar))))

/-- `re.finditer`, for an expression that does not match the empty text: where the matches begin,
and what they are. So many characters belong to the match before. -/
def findIter (r : Regex) : ℕ → List Char → List Char → List (ℕ × Matched)
  | _, _, [] => []
  | skip + 1, left, c :: right => findIter r skip (c :: left) right
  | 0, left, c :: right =>
      match (r.tries ⟨left, c :: right⟩).head? with
      | some found => (left.length, found) ::
          findIter r (found.stop.left.length - (left.length + 1)) (c :: left) right
      | none => findIter r 0 (c :: left) right

/-- `_extract_headings` -/
def extractHeadings (content : String) : List Heading :=
  (findIter headingsRegex 0 [] content.toList).map fun found =>
    { level := (found.2.groups.head?.getD []).length
      heading := Text.strip (.ofList ((found.2.groups[1]?).getD []))
      start := found.1 }

/-- `text.find(part)` -/
def findText (text part : String) : Option ℕ :=
  (Text.cutList part.toList text.toList).map (·.1.length)

/-- `_generate_match_snippet`, for a query with words -/
def generateMatchSnippet (content : String) (queryTokens : List String) (maxLen : ℕ) :
    String × Option String :=
  let headings := extractHeadings content
  match (queryTokens.filterMap (findText (Text.lower content))).min? with
  | none => (Text.strip (Text.take content maxLen), headings.head?.map (·.heading))
  | some bestPos =>
      let half := maxLen / 2
      let start := bestPos - half
      let stop := min content.toList.length (bestPos + half)
      let snippet := Text.strip (.ofList ((content.toList.take stop).drop start))
      let snippet := if 0 < start then "..." ++ snippet else snippet
      let snippet := if stop < content.toList.length then snippet ++ "..." else snippet
      let before := (headings.takeWhile (·.start ≤ bestPos)).getLast?.map (·.heading)
      (snippet, (before.filter (· ≠ "")).or (headings.head?.map (·.heading)))

/-! ### Searching -/

structure SearchHit (K : Type) where
  ref : String
  title : Option String
  snippet : String
  score : K
  heading : Option String

/-- `xs[:limit]` -/
def sliceTo {α : Type} (xs : List α) (limit : ℤ) : List α :=
  if 0 ≤ limit then xs.take limit.toNat else xs.take (xs.length - limit.natAbs)

section

variable {K : Type} [Field K] [LinearOrder K] {root : VaultRoot} {μ : Type}
  (arithmetic : SearchArithmetic K) (tokenize : String → List String)

/-- A hit, with what its note says now. -/
def VaultState.searchHit (state : VaultState root μ) (queryTokens : List String)
    (doc : ScoredDoc K) : SearchHit K :=
  let found := match state.readText (root.parts ++ Path.parts doc.ref) with
    | .ok content => generateMatchSnippet content queryTokens 200
    | .error _ => ("", none)
  { ref := doc.ref
    title := doc.title
    snippet := found.1
    score := arithmetic.round 4 doc.score
    heading := found.2.filter (· ≠ "") }

/-- `_load_or_build_index` -/
def VaultLife.loadOrBuildIndex (life : VaultLife root μ) (size : List String → Option ℕ)
    (saves : Bool) : VaultLife root μ :=
  ((vaultLife root tokenize).step life (.search size saves)).getD life

/-- `MarkdownVaultConnector.search` -/
def VaultLife.search (life : VaultLife root μ) (size : List String → Option ℕ) (saves : Bool)
    (query : String) (limit : ℤ) : List (SearchHit K) × VaultLife root μ :=
  let queryTokens := tokenize query
  if queryTokens = [] then ([], life)
  else
    let life := life.loadOrBuildIndex tokenize size saves
    let docs := life.file.docs?.getD {}
    let scored := ranked ScoredDoc.score (scoredDocs arithmetic docs queryTokens)
    ((sliceTo scored limit).map (life.state.searchHit arithmetic queryTokens), life)

/-- A note now has a word of the query. -/
def VaultState.Matches (state : VaultState root μ) (query key : String) : Prop :=
  ∃ text mtime token, state.content key = some (.file (some text), mtime) ∧
    token ∈ tokenize query ∧ token ∈ tokenize (AgentOs.readText text)

/-- The hits of a search, against the notes as they are and the entries. -/
structure SearchExact (state : VaultState root μ) (docs : Dictionary String (IndexedNote μ))
    (query : String) (limit : ℤ) (hits : List (SearchHit K)) : Prop where
  /-- the best first -/
  sorted : hits.Pairwise fun a b => b.score ≤ a.score
  once : (hits.map (·.ref)).Nodup
  /-- Every hit is a note that matches. -/
  sound : ∀ hit ∈ hits, hit.ref ∈ state.foundRefs ∧ state.Matches tokenize query hit.ref
  titled : ∀ hit ∈ hits, ∀ text mtime, state.content hit.ref = some (.file (some text), mtime) →
    hit.title = noteTitle (readText text)
  /-- A note that matches is a hit, or there are enough hits that are no worse. -/
  complete : 0 ≤ limit → ∀ key ∈ state.foundRefs, state.Matches tokenize query key →
    key ∈ hits.map (·.ref) ∨ hits.length = limit ∧ ∃ entry, docs.get? key = some entry ∧
      ∀ hit ∈ hits, arithmetic.round 4 (docScore arithmetic docs (tokenize query) entry) ≤ hit.score

end

/-! ### Positive scores -/

/-- A word counts as often as it occurs. -/
theorem getD_termFreqs (tokens : List String) (token : String) (counted : Dictionary String ℕ) :
    ((tokens.foldl (fun tf t => tf.set t ((tf.get? t).getD 0 + 1)) counted).get? token).getD 0 =
      (counted.get? token).getD 0 + tokens.count token := by
  induction tokens generalizing counted with
  | nil => rfl
  | cons first tokens ih =>
      rw [List.foldl_cons, ih, Dictionary.get?_set, List.count_cons]
      by_cases same : first = token
      · rw [if_pos same, same, beq_self_eq_true, if_pos rfl, Option.getD_some]
        omega
      · rw [if_neg same, beq_false_of_ne same]
        rfl

theorem termFreqs_pos_iff {μ : Type} {tokenize : String → List String} {mtime : μ}
    {content token : String} :
    0 < ((describeNote tokenize mtime content).termFreqs.get? token).getD 0 ↔
      token ∈ tokenize content := by
  have counted := getD_termFreqs (tokenize content) token {}
  rw [show (({} : Dictionary String ℕ).get? token).getD 0 = 0 from rfl, Nat.zero_add] at counted
  rw [describeNote, counted, List.count_pos_iff]

section

variable {K : Type} [Field K] [LinearOrder K] [IsStrictOrderedRing K] {root : VaultRoot} {μ : Type}
  {arithmetic : SearchArithmetic K} {docs : Dictionary String (IndexedNote μ)}
  {tokenize : String → List String} {doc : IndexedNote μ} {queryTokens : List String}
  {token : String}

theorem writtenAvgDocLen_nonneg (documented : arithmetic.Documented) :
    0 ≤ writtenAvgDocLen arithmetic docs := by
  unfold writtenAvgDocLen
  refine (documented.round_zero 2).ge.trans (documented.round_mono 2 ?_)
  split
  · exact le_rfl
  · exact div_nonneg (Nat.cast_nonneg _) (Nat.cast_nonneg _)

theorem avgDocLen_pos (documented : arithmetic.Documented) : 0 < avgDocLen arithmetic docs := by
  unfold avgDocLen
  split
  · exact one_pos
  · rename_i ne
    exact lt_of_le_of_ne (writtenAvgDocLen_nonneg documented) (Ne.symm ne)

theorem idf_pos (documented : arithmetic.Documented) : 0 < idf arithmetic docs token := by
  have few : docFrequency docs token ≤ docs.entries.length := List.length_filter_le _ _
  have few' : (docFrequency docs token : K) ≤ docs.entries.length := Nat.cast_le.mpr few
  have half : (0 : K) < 1 / 2 := by positivity
  refine documented.log_pos _ (lt_add_of_pos_left 1 (div_pos ?_ ?_))
  · exact add_pos_of_nonneg_of_pos (sub_nonneg.mpr few') half
  · exact add_pos_of_nonneg_of_pos (Nat.cast_nonneg _) half

/-- A word adds to the score where the entry has it. -/
theorem tokenScore_pos_iff (documented : arithmetic.Documented) :
    0 < tokenScore arithmetic docs doc token ↔ 0 < (doc.termFreqs.get? token).getD 0 := by
  unfold tokenScore
  dsimp only
  split
  · rename_i has
    have has' : (0 : K) < ((doc.termFreqs.get? token).getD 0 : ℕ) := Nat.cast_pos.mpr has
    have average : 0 < avgDocLen arithmetic docs := avgDocLen_pos documented
    have weight : 0 < idf arithmetic docs token := idf_pos documented
    refine iff_of_true (div_pos (mul_pos weight (mul_pos has' (by positivity))) ?_) has
    have share : (0 : K) ≤ 3 / 4 * (doc.docLen / avgDocLen arithmetic docs) := by positivity
    have rest : (0 : K) < 1 - 3 / 4 := by norm_num
    positivity
  · rename_i none
    exact iff_of_false (lt_irrefl 0) none

theorem tokenScore_nonneg (documented : arithmetic.Documented) :
    0 ≤ tokenScore arithmetic docs doc token := by
  by_cases has : 0 < (doc.termFreqs.get? token).getD 0
  · exact ((tokenScore_pos_iff documented).mpr has).le
  · exact (if_neg has).ge

/-- **An entry scores where it has a word of the query.** -/
theorem docScore_pos_iff (documented : arithmetic.Documented) :
    0 < docScore arithmetic docs queryTokens doc ↔
      ∃ token ∈ queryTokens, 0 < (doc.termFreqs.get? token).getD 0 := by
  rw [docScore, sumScore_pos_iff fun _ _ => tokenScore_nonneg documented]
  exact exists_congr fun token => and_congr_right fun _ => tokenScore_pos_iff documented

omit [IsStrictOrderedRing K] in
theorem mem_scoredDocs {scored : ScoredDoc K} :
    scored ∈ scoredDocs arithmetic docs queryTokens ↔ ∃ entry ∈ docs.entries,
      0 < docScore arithmetic docs queryTokens entry.2 ∧
        scored = ⟨docScore arithmetic docs queryTokens entry.2, entry.1, entry.2.title⟩ := by
  unfold scoredDocs
  rw [List.mem_filterMap]
  refine exists_congr fun entry => and_congr_right fun _ => ?_
  dsimp only
  split
  · rename_i positive
    rw [Option.some.injEq]
    exact ⟨fun same => ⟨positive, same.symm⟩, fun same => same.2.symm⟩
  · rename_i none
    exact iff_of_false (by simp) fun both => none both.1

omit [IsStrictOrderedRing K] in
theorem nodup_scoredDocs : ((scoredDocs arithmetic docs queryTokens).map (·.ref)).Nodup := by
  rw [List.nodup_iff_pairwise_ne, List.pairwise_map]
  refine List.pairwise_filterMap.mpr ?_
  have distinct := docs.distinct
  rw [List.nodup_iff_pairwise_ne, List.pairwise_map] at distinct
  refine distinct.imp fun {a b} apart x here y there => ?_
  dsimp only at here there
  split at here <;> cases here
  split at there <;> cases there
  exact apart

/-! ### Hits -/

/-- Where the entries are those of the notes, they score where the notes match. -/
theorem docScore_pos_iff_matches (documented : arithmetic.Documented) {state : VaultState root μ}
    (current : Current tokenize state docs) {query key : String}
    (there : docs.get? key = some doc) :
    key ∈ state.foundRefs ∧ (0 < docScore arithmetic docs (tokenize query) doc ↔
      state.Matches tokenize query key) ∧
      ∀ text mtime, state.content key = some (.file (some text), mtime) →
        doc.title = noteTitle (readText text) := by
  have found : key ∈ state.foundRefs := by
    by_contra other
    rw [current.2 key other] at there
    cases there
  obtain ⟨node, mtime, entry, here, derived, there'⟩ := current.1 key found
  rw [there] at there'
  cases there'
  unfold describeNode at derived
  dsimp only at derived
  split at derived
  · rename_i text
    cases derived
    refine ⟨found, ?_, ?_⟩
    · rw [docScore_pos_iff documented]
      constructor
      · rintro ⟨token, asked, has⟩
        exact ⟨text, mtime, token, here, asked, termFreqs_pos_iff.mp has⟩
      · rintro ⟨text', mtime', token, here', asked, has⟩
        rw [here] at here'
        cases here'
        exact ⟨token, asked, termFreqs_pos_iff.mpr has⟩
    · intro text' mtime' here'
      rw [here] at here'
      cases here'
      simp only [describeNote]
  · cases derived

omit [Field K] [LinearOrder K] [IsStrictOrderedRing K] in
theorem sliceTo_sublist {α : Type} (xs : List α) (limit : ℤ) : (sliceTo xs limit).Sublist xs := by
  unfold sliceTo
  split <;> exact List.take_sublist _ _

/-- **What a search finds in an index that is current.** -/
theorem search_of_current (documented : arithmetic.Documented) {state : VaultState root μ}
    (current : Current tokenize state docs) (query : String) (limit : ℤ) :
    SearchExact arithmetic tokenize state docs query limit
      ((sliceTo (ranked ScoredDoc.score (scoredDocs arithmetic docs (tokenize query))) limit).map
        (state.searchHit arithmetic (tokenize query))) := by
  have part := sliceTo_sublist
    (ranked ScoredDoc.score (scoredDocs arithmetic docs (tokenize query))) limit
  have of_hit : ∀ {hit}, hit ∈ (sliceTo (ranked ScoredDoc.score
      (scoredDocs arithmetic docs (tokenize query))) limit).map
        (state.searchHit arithmetic (tokenize query)) →
      ∃ key doc, docs.get? key = some doc ∧ 0 < docScore arithmetic docs (tokenize query) doc ∧
        hit.ref = key ∧ hit.title = doc.title := by
    intro hit mem
    obtain ⟨scored, sliced, rfl⟩ := List.mem_map.mp mem
    obtain ⟨entry, held, positive, rfl⟩ := mem_scoredDocs.mp (mem_ranked.mp (part.mem sliced))
    exact ⟨entry.1, entry.2, (Dictionary.mem_entries_iff docs _ _).mp held, positive, rfl, rfl⟩
  constructor
  · rw [List.pairwise_map]
    exact (ranked_pairwise.sublist part).imp fun {a b} better => documented.round_mono 4 better
  · rw [List.map_map]
    have distinct : ((ranked ScoredDoc.score
        (scoredDocs arithmetic docs (tokenize query))).map ScoredDoc.ref).Nodup :=
      (ranked_perm.map ScoredDoc.ref).nodup_iff.mpr nodup_scoredDocs
    exact distinct.sublist (part.map ScoredDoc.ref)
  · intro hit mem
    obtain ⟨key, doc, there, positive, rfl, _⟩ := of_hit mem
    obtain ⟨found, scores, _⟩ := docScore_pos_iff_matches documented current there
    exact ⟨found, scores.mp positive⟩
  · intro hit mem text mtime here
    obtain ⟨key, doc, there, _, rfl, title⟩ := of_hit mem
    rw [title]
    have held : _ ∧ (0 < docScore arithmetic docs (tokenize query) doc ↔ _) ∧ _ :=
      docScore_pos_iff_matches documented current there
    exact held.2.2 text mtime here
  · intro natural key found matches_
    obtain ⟨_, _, doc, _, _, there⟩ := current.1 key found
    have positive := (docScore_pos_iff_matches documented current there).2.1.mpr matches_
    have scores := mem_scoredDocs.mpr
      ⟨(key, doc), (Dictionary.mem_entries_iff docs _ _).mpr there, positive, rfl⟩
    have taken : sliceTo (ranked ScoredDoc.score (scoredDocs arithmetic docs (tokenize query)))
        limit = (ranked ScoredDoc.score (scoredDocs arithmetic docs (tokenize query))).take
          limit.toNat := if_pos natural
    rw [taken]
    rcases @mem_take_ranked_or _ _ _ ScoredDoc.score _ _ limit.toNat scores with
      hit | ⟨enough, better⟩
    · refine .inl ?_
      rw [List.map_map]
      exact List.mem_map.mpr ⟨_, hit, rfl⟩
    · refine .inr ⟨by rw [List.length_map, enough]; omega, doc, there, fun hit mem => ?_⟩
      obtain ⟨other, taken, rfl⟩ := List.mem_map.mp mem
      exact documented.round_mono 4 (better other taken)

/-- The entries are current where the index is `ready`. -/
theorem current_of_ready [LinearOrder μ] {life : VaultLife root μ}
    (timely : TimelyIndex tokenize life)
    (ready : life.state.indexStatus life.file = .ready) :
    Current tokenize life.state (life.file.docs?.getD {}) := by
  obtain ⟨docs, held, current⟩ := (ready_iff_of_timely timely).mp ready
  rw [held]
  exact current

/-- Loading the index, or building it, is a step of its life. -/
theorem loadOrBuildIndex_step (tokenize : String → List String) (life : VaultLife root μ)
    (size : List String → Option ℕ) (saves : Bool) :
    (vaultLife root tokenize).step life (.search size saves) =
        some (life.loadOrBuildIndex tokenize size saves) ∧
      (life.loadOrBuildIndex tokenize size saves).state = life.state := by
  unfold VaultLife.loadOrBuildIndex
  dsimp only [vaultLife]
  split
  · exact ⟨rfl, rfl⟩
  · split
    · refine ⟨rfl, ?_⟩
      rw [Option.getD_some]
      unfold VaultLife.indexed
      dsimp only
      split <;> rfl
    · exact ⟨rfl, rfl⟩

end

/-- The reals, rounded to the nearest. -/
noncomputable def realArithmetic : SearchArithmetic ℝ where
  log := Real.log
  round digits x := round (x * 10 ^ digits) / 10 ^ digits

theorem realArithmetic_documented : realArithmetic.Documented where
  log_pos _ := Real.log_pos
  round_mono digits := by
    intro x y le
    have scaled : x * 10 ^ digits ≤ y * 10 ^ digits :=
      mul_le_mul_of_nonneg_right le (by positivity)
    have rounded : round (x * 10 ^ digits) ≤ round (y * 10 ^ digits) := by
      rw [round_eq, round_eq]
      exact Int.floor_le_floor (by linarith)
    exact div_le_div_of_nonneg_right (Int.cast_le.mpr rounded) (by positivity)
  round_zero digits := by simp [realArithmetic]

end MarkdownVault

end AgentOs
