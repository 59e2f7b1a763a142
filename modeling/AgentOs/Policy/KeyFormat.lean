import AgentOs.Lib.Framing
import AgentOs.Lib.RegexLanguage
import AgentOs.Policy.Engine
import AgentOs.Policy.StoresAgree

/-!
Permission keys and the store's check of their format (`policy.py`, `permission_store.py`).

The policy joins connector, mode and reference by colons; the store accepts what
`PERMISSION_KEY_REGEX` matches whole. `matchesKeyRegex_iff` reads the expression as words
between colons, and `derived_keys_storable` sets the two side by side: a key tells its three
parts, the check accepts every key the policy derives, and none of them is a key of the
former three parts. A policy therefore does not notice the check (`RuleStore.checked`).
-/

namespace AgentOs

open AgentOs.Lib

/-! ### The expression -/

/-- `[a-z0-9_]+:[a-z0-9_]+:` -/
def twoKeyWords : Regex :=
  .seq (.many isKeyChar) (.seq (.one (· == ':')) (.seq (.many isKeyChar) (.one (· == ':'))))

/-- `[^\s:]+` -/
def lastKeyPart : Regex := .many fun c => !Text.isSpace c && c != ':'

/-- `PERMISSION_KEY_REGEX`. -/
def permissionKeyRegex : Regex := .seq twoKeyWords (.seq (.optional twoKeyWords) lastKeyPart)

/-- The keys of former rules: the expression without its optional part. -/
def legacyKeyRegex : Regex := .seq twoKeyWords lastKeyPart

theorem twoKeyWords_lang {text : List Char} : twoKeyWords.Lang text ↔
    ∃ a b, isKeyWord a = true ∧ isKeyWord b = true ∧ text = a ++ ':' :: (b ++ [':']) := by
  simp only [twoKeyWords, Regex.Lang, isKeyWord, Bool.and_eq_true, decide_eq_true_eq,
    List.all_eq_true, beq_iff_eq]
  constructor
  · rintro ⟨a, -, rfl, word, -, -, rfl, ⟨-, rfl, rfl⟩, b, -, rfl, word', -, rfl, rfl⟩
    exact ⟨a, b, word, word', rfl⟩
  · rintro ⟨a, b, word, word', rfl⟩
    exact ⟨a, _, rfl, word, _, _, rfl, ⟨_, rfl, rfl⟩, b, _, rfl, word', _, rfl, rfl⟩

/-- A last part of a key. -/
def IsLastKeyPart (last : List Char) : Prop :=
  last ≠ [] ∧ ∀ c ∈ last, Text.isSpace c = false ∧ c ≠ ':'

theorem lastKeyPart_lang {text : List Char} : lastKeyPart.Lang text ↔ IsLastKeyPart text := by
  simp only [lastKeyPart, Regex.Lang, IsLastKeyPart, Bool.and_eq_true, Bool.not_eq_true', bne_iff_ne]

/-- Words and a last part, between colons. -/
def KeyParts (words : List (List Char)) (last key : List Char) : Prop :=
  (∀ word ∈ words, isKeyWord word = true) ∧ IsLastKeyPart last ∧
    key = [':'].intercalate (words ++ [last])

theorem legacyKeyRegex_lang {key : List Char} : legacyKeyRegex.Lang key ↔
    ∃ a b last, KeyParts [a, b] last key := by
  simp only [legacyKeyRegex, Regex.Lang, twoKeyWords_lang, lastKeyPart_lang]
  constructor
  · rintro ⟨-, last, rfl, ⟨a, b, word, word', rfl⟩, ends⟩
    exact ⟨a, b, last, by simp [word, word'], ends, by simp [List.intercalate]⟩
  · rintro ⟨a, b, last, words, ends, rfl⟩
    exact ⟨_, last, by simp [List.intercalate], ⟨a, b, words a (by simp), words b (by simp), rfl⟩, ends⟩

theorem permissionKeyRegex_lang {key : List Char} : permissionKeyRegex.Lang key ↔
    ∃ words last, (words.length = 2 ∨ words.length = 4) ∧ KeyParts words last key := by
  simp only [permissionKeyRegex, Regex.Lang, twoKeyWords_lang, lastKeyPart_lang]
  constructor
  · rintro ⟨_, _, rfl, ⟨a, b, word, word', rfl⟩, _, last, rfl, more, ends⟩
    rcases more with ⟨c, d, word'', word''', rfl⟩ | rfl
    · exact ⟨[a, b, c, d], last, .inr rfl, by simp [word, word', word'', word'''], ends,
        by simp [List.intercalate]⟩
    · exact ⟨[a, b], last, .inl rfl, by simp [word, word'], ends, by simp [List.intercalate]⟩
  · rintro ⟨words, last, two | four, all, ends, rfl⟩
    · obtain ⟨a, b, rfl⟩ := List.length_eq_two.mp two
      exact ⟨_, last, by simp [List.intercalate],
        ⟨a, b, all a (by simp), all b (by simp), rfl⟩, [], last, rfl, .inr rfl, ends⟩
    · obtain ⟨a, b, c, d, rfl⟩ := List.length_eq_four.mp four
      exact ⟨_, _, by simp [List.intercalate], ⟨a, b, all a (by simp), all b (by simp), rfl⟩,
        _, last, rfl, .inl ⟨c, d, all c (by simp), all d (by simp), rfl⟩, ends⟩

/-! ### The check -/

theorem colon_notMem_of_isKeyWord {word : List Char} (is : isKeyWord word = true) :
    ':' ∉ word := by
  intro mem
  have all := (Bool.and_eq_true_iff.mp is).2
  exact absurd (List.all_eq_true.mp all ':' mem) (by decide)

/-- Cut at its colons, a key is its parts. -/
theorem KeyParts.splitOn {words : List (List Char)} {last key : List Char}
    (parts : KeyParts words last key) : key.splitOn ':' = words ++ [last] := by
  obtain ⟨all, ends, rfl⟩ := parts
  refine List.splitOn_intercalate _ ?_ (by simp)
  intro part mem
  rcases List.mem_append.mp mem with word | rest
  · exact colon_notMem_of_isKeyWord (all part word)
  · rw [List.mem_singleton.mp rest]
    exact fun colon => (ends.2 ':' colon).2 rfl

/-- The check asks for two or four words and a last part. -/
theorem matchesKeyRegex_iff_parts (key : String) : matchesKeyRegex key = true ↔
    ∃ words last, (words.length = 2 ∨ words.length = 4) ∧ KeyParts words last key.toList := by
  constructor
  · intro accepts
    obtain ⟨words, last, cut⟩ := List.eq_nil_or_concat (key.toList.splitOn ':') |>.resolve_left
      (List.splitOn_ne_nil ':' key.toList)
    have free := @mark_notMem_of_splitOn _ ':' _ key.toList
    have joined := @List.intercalate_splitOn _ key.toList _ _ ':'
    rw [List.concat_eq_append] at cut
    simp only [matchesKeyRegex, cut, List.length_append, List.length_singleton,
      List.dropLast_concat, List.getLast?_concat, Option.any_some, Bool.and_eq_true,
      Bool.or_eq_true, decide_eq_true_eq, List.all_eq_true, Bool.not_eq_true'] at accepts
    rw [cut] at free joined
    refine ⟨words, last, by omega, accepts.1.2, ⟨accepts.2.1, fun c mem => ?_⟩, joined.symm⟩
    refine ⟨accepts.2.2 c mem, ?_⟩
    rintro rfl
    exact free last (by simp) mem
  · rintro ⟨words, last, count, parts⟩
    have cut := parts.splitOn
    obtain ⟨all, ends, -⟩ := parts
    simp only [matchesKeyRegex, cut, List.length_append, List.length_singleton,
      List.dropLast_concat, List.getLast?_concat, Option.any_some, Bool.and_eq_true,
      Bool.or_eq_true, decide_eq_true_eq, List.all_eq_true, Bool.not_eq_true']
    exact ⟨⟨by omega, all⟩, ends.1, fun c mem => (ends.2 c mem).1⟩

/-- **The check is the expression.** -/
theorem matchesKeyRegex_iff (key : String) :
    matchesKeyRegex key = true ↔ permissionKeyRegex.fullMatches key.toList = true := by
  rw [matchesKeyRegex_iff_parts, Regex.fullMatches_iff (by simp [permissionKeyRegex, twoKeyWords,
    lastKeyPart, Regex.Plain]), permissionKeyRegex_lang]

theorem validateKey_of_matches {key : String} (accepts : matchesKeyRegex key = true) :
    validateKey (.text key) = .ok key := by
  rw [validateKey, if_pos accepts]

/-! ### Derived keys -/

/-- A connector name is a word of a key. -/
theorem isKeyWord_of_connector {value : Option String} {name : String}
    (h : permissionConnector value = some name) : isKeyWord name.toList = true := by
  obtain ⟨-, safe⟩ := Option.filter_eq_some_iff.mp h
  obtain ⟨some_, all⟩ := Bool.and_eq_true_iff.mp safe
  refine Bool.and_eq_true_iff.mpr ⟨?_, List.all_eq_true.mpr fun c mem => ?_⟩
  · exact decide_eq_true fun none => of_decide_eq_true some_ (String.toList_inj.mp none)
  · have char := List.all_eq_true.mp all c mem
    simp only [isConnectorChar, Bool.or_eq_true, Bool.and_eq_true, decide_eq_true_eq,
      beq_iff_eq] at char
    rcases char with (⟨low, high⟩ | ⟨low, high⟩) | rfl
    · have lower : c.isLower = true := by
        rw [Text.isLower_eq]
        exact Bool.and_eq_true_iff.mpr ⟨decide_eq_true low, decide_eq_true high⟩
      simp [isKeyChar, Char.isAlphanum, Text.isAlpha_eq, lower]
    · have digit : c.isDigit = true := by
        rw [Char.isDigit]
        exact Bool.and_eq_true_iff.mpr ⟨decide_eq_true low, decide_eq_true high⟩
      simp [isKeyChar, Char.isAlphanum, digit]
    · decide

/-- A reference a key is made of is a last part of one. -/
theorem isLastKeyPart_of_ref {value : Option Json} {ref : String}
    (h : permissionRef value = some ref) : value = some (.str ref) ∧ IsLastKeyPart ref.toList := by
  unfold permissionRef at h
  split at h
  · rename_i given
    split at h
    · cases h
    · rename_i safe
      cases h
      simp only [Bool.or_eq_true, decide_eq_true_eq, List.contains_iff_mem, List.any_eq_true,
        not_or, not_exists, not_and] at safe
      refine ⟨rfl, fun none => safe.1.1 (String.toList_inj.mp none), fun c mem => ⟨?_, ?_⟩⟩
      · exact Bool.eq_false_iff.mpr (safe.2 c mem)
      · rintro rfl
        exact safe.1.2 mem
  · cases h

theorem text_of_permissionMode {value : Option Json} {mode : MemoryWriteMode}
    (h : permissionMode value = some mode) : value = some (.str mode.text) := by
  unfold permissionMode at h
  split at h
  · rw [MemoryWriteMode.text_of_ofText? h]
  · cases h

/-- The five parts of a derived key. -/
theorem derivedKey_parts {proposal : ActionProposal} {key : String}
    (h : derivePermissionKey proposal = some key) :
    ∃ connector mode ref, KeyParts ["memory_write".toList, "write".toList, connector, mode] ref
      key.toList := by
  obtain ⟨-, -, connector, mode, ref, hc, hm, hr, rfl⟩ := derivePermissionKey_eq_some_iff.mp h
  have modeWord : isKeyWord mode.text.toList = true := by
    cases mode <;> decide
  refine ⟨connector.toList, mode.text.toList, ref.toList, ?_, (isLastKeyPart_of_ref hr).2, ?_⟩
  · intro word mem
    simp only [List.mem_cons, List.not_mem_nil, or_false] at mem
    rcases mem with rfl | rfl | rfl | rfl
    · decide
    · decide
    · exact isKeyWord_of_connector hc
    · exact modeWord
  · have front : "memory_write:write:".toList =
        "memory_write".toList ++ (':' :: ("write".toList ++ [':'])) := by decide
    have colon : (":" : String).toList = [':'] := rfl
    simp only [String.toList_append, front, colon, List.intercalate, List.cons_append,
      List.nil_append, List.intersperse_cons_cons, List.intersperse_singleton, List.flatten_cons,
      List.flatten_nil, List.append_assoc, List.append_nil]

/-- **Two proposals have one key exactly where connector, mode and reference are the same.** -/
theorem derivedKey_eq_iff {p q : ActionProposal} {k l : String}
    (hp : derivePermissionKey p = some k) (hq : derivePermissionKey q = some l) :
    k = l ↔ p.connector = q.connector ∧ p.arguments.lookup "mode" = q.arguments.lookup "mode" ∧
      p.arguments.lookup "ref" = q.arguments.lookup "ref" := by
  obtain ⟨tool, effect, c, m, r, hc, hm, hr, built⟩ := derivePermissionKey_eq_some_iff.mp hp
  obtain ⟨-, -, c', m', r', hc', hm', hr', built'⟩ := derivePermissionKey_eq_some_iff.mp hq
  constructor
  · rintro rfl
    obtain ⟨connector, mode, ref⟩ := permissionKey_injective hp hq
    refine ⟨connector, ?_, ?_⟩
    · rw [hm, hm'] at mode
      rw [text_of_permissionMode hm, text_of_permissionMode hm', Option.some.inj mode]
    · rw [hr, hr'] at ref
      rw [(isLastKeyPart_of_ref hr).1, (isLastKeyPart_of_ref hr').1, Option.some.inj ref]
  · rintro ⟨connector, mode, ref⟩
    rw [connector, hc'] at hc
    rw [mode, hm'] at hm
    rw [ref, hr'] at hr
    rw [built, built', Option.some.inj hc, Option.some.inj hm, Option.some.inj hr]

/-- The store takes every derived key. -/
theorem validateKey_derived {proposal : ActionProposal} {key : String}
    (h : derivePermissionKey proposal = some key) : validateKey (.text key) = .ok key := by
  obtain ⟨connector, mode, ref, parts⟩ := derivedKey_parts h
  exact validateKey_of_matches ((matchesKeyRegex_iff_parts key).mpr ⟨_, ref, .inr rfl, parts⟩)

/-- A derived key is no key of three parts. -/
theorem derived_ne_legacy {proposal : ActionProposal} {key legacy : String}
    (h : derivePermissionKey proposal = some key)
    (three : legacyKeyRegex.fullMatches legacy.toList = true) : key ≠ legacy := by
  rw [Regex.fullMatches_iff (by simp [legacyKeyRegex, twoKeyWords, lastKeyPart, Regex.Plain]),
    legacyKeyRegex_lang] at three
  obtain ⟨a, b, last, three⟩ := three
  obtain ⟨connector, mode, ref, parts⟩ := derivedKey_parts h
  rintro rfl
  have same := parts.splitOn.symm.trans three.splitOn
  have lengths := congrArg List.length same
  simp at lengths

/-! ### A policy over a store that checks its keys -/

section Checked

variable {σ υ α : Type}

/-- The store with `_validate_key` before every call. -/
def RuleStore.checked (store : RuleStore σ) : RuleStore σ where
  get key s := do
    let key ← validateKey (.text key)
    store.get key s
  upsert rule s :=
    match validateKey (.text rule.permissionKey) with
    | .ok _ => store.upsert rule s
    | .error e => (.error e, s)
  incrementApprove key s :=
    match validateKey (.text key) with
    | .ok key => store.incrementApprove key s
    | .error e => (.error e, s)
  incrementDeny key s :=
    match validateKey (.text key) with
    | .ok key => store.incrementDeny key s
    | .error e => (.error e, s)

/-- The policy over the store that checks. -/
def LocalPolicy.checked (policy : LocalPolicy σ) : LocalPolicy σ :=
  { policy with store := policy.store.map .checked }

theorem upsert_checked (store : RuleStore σ) {rule : PermissionRule}
    (valid : validateKey (.text rule.permissionKey) = .ok rule.permissionKey) (s : σ) :
    store.checked.upsert rule s = store.upsert rule s := by
  rw [RuleStore.checked]
  simp only [valid]

namespace LocalPolicy

variable (policy : LocalPolicy σ) {key : String} (valid : validateKey (.text key) = .ok key)
include valid

theorem learnedRule_checked (rules : σ) :
    policy.checked.learnedRule (some key) rules = policy.learnedRule (some key) rules := by
  simp only [learnedRule, checked]
  cases policy.store with
  | none => rfl
  | some store =>
      simp only [Option.map_some, RuleStore.checked, valid]
      rfl

theorem countApprove_checked (rules : σ) :
    policy.checked.count RuleStore.incrementApprove key rules =
      policy.count RuleStore.incrementApprove key rules := by
  simp only [count, checked]
  cases policy.store with
  | none => rfl
  | some store => simp only [Option.map_some, RuleStore.checked, valid]

theorem countDeny_checked (rules : σ) :
    policy.checked.count RuleStore.incrementDeny key rules =
      policy.count RuleStore.incrementDeny key rules := by
  simp only [count, checked]
  cases policy.store with
  | none => rfl
  | some store => simp only [Option.map_some, RuleStore.checked, valid]

end LocalPolicy

/-- Evaluating does not notice the check. -/
theorem evaluate_checked (policy : LocalPolicy σ) (proposal : ActionProposal) (rules : σ)
    (sessions : List (String × String)) :
    policy.checked.evaluate proposal rules sessions = policy.evaluate proposal rules sessions := by
  have mode : policy.checked.mode = policy.mode := rfl
  have session (key : String) :
      policy.checked.sessionApproved sessions key = policy.sessionApproved sessions key := rfl
  unfold LocalPolicy.evaluate
  rw [mode]
  cases derived : derivePermissionKey proposal with
  | none => rfl
  | some key =>
      have valid := validateKey_derived derived
      simp only [policy.learnedRule_checked valid, policy.countApprove_checked valid,
        policy.countDeny_checked valid, session]

/-- Nor does applying a policy. -/
theorem applyPolicy_checked (policy : LocalPolicy σ) (proposal : ActionProposal)
    (workspaceId : Option String) (taughtBy : String)
    (executeFn : ActionProposal → Code (PolicyWorld σ υ) α) :
    applyPolicy (policy.checked.engine υ) proposal workspaceId taughtBy executeFn =
      applyPolicy (policy.engine υ) proposal workspaceId taughtBy executeFn := by
  have decides : (policy.checked.engine υ).decide proposal = (policy.engine υ).decide proposal := by
    funext replies w
    simp only [PolicyEngine.decide, LocalPolicy.engine, evaluate_checked]
  have remembers (key : String) (valid : validateKey (.text key) = .ok key) (effect : RuleEffect) :
      rememberRule (policy.checked.engine υ) proposal key workspaceId taughtBy effect executeFn =
        rememberRule (policy.engine υ) proposal key workspaceId taughtBy effect executeFn := by
    simp only [rememberRule, LocalPolicy.engine, LocalPolicy.checked]
    cases policy.store with
    | none => rfl
    | some store =>
        have saves (rule : PermissionRule) (same : rule.permissionKey = key) :
            upsertRule (υ := υ) store.checked rule = upsertRule store rule := by
          funext replies w
          rw [upsertRule, upsertRule, upsert_checked store (same ▸ valid)]
        simp only [Option.map_some, saves]
  have answers (feedback : String) :
      applyAnswer (policy.checked.engine υ) proposal workspaceId taughtBy executeFn feedback =
        applyAnswer (policy.engine υ) proposal workspaceId taughtBy executeFn feedback := by
    unfold applyAnswer
    cases derived : derivePermissionKey proposal with
    | none => rfl
    | some key =>
        simp only [remembers key (validateKey_derived derived)]
        rfl
  unfold applyPolicy
  simp only [decides, answers]

end Checked

/-- **Permission keys do not collide and can be stored.** -/
theorem derived_keys_storable {p q : ActionProposal} {k l : String}
    (hp : derivePermissionKey p = some k) (hq : derivePermissionKey q = some l) :
    (k = l ↔ p.connector = q.connector ∧ p.arguments.lookup "mode" = q.arguments.lookup "mode" ∧
      p.arguments.lookup "ref" = q.arguments.lookup "ref") ∧
    validateKey (.text k) = .ok k ∧
    (∀ {σ υ α : Type} (policy : LocalPolicy σ),
      (∀ rules sessions,
        policy.checked.evaluate p rules sessions = policy.evaluate p rules sessions) ∧
      ∀ workspaceId taughtBy (executeFn : ActionProposal → Code (PolicyWorld σ υ) α),
        applyPolicy (policy.checked.engine υ) p workspaceId taughtBy executeFn =
          applyPolicy (policy.engine υ) p workspaceId taughtBy executeFn) ∧
    ∀ legacy : String, legacyKeyRegex.fullMatches legacy.toList = true → k ≠ legacy :=
  ⟨derivedKey_eq_iff hp hq, validateKey_derived hp,
    fun policy => ⟨evaluate_checked policy p, applyPolicy_checked policy p⟩,
    fun _ three => derived_ne_legacy hp three⟩

/-- Appending to a note and overwriting it have two keys. -/
theorem append_key_ne_overwrite_key :
    "memory_write:write:markdown_vault:append:AI/a.md" ≠
      "memory_write:write:markdown_vault:overwrite:AI/a.md" := by
  have keys := (derived_keys_storable
    (p := { tool := "memory.write", sideEffect := .write, connector := some "markdown_vault",
            arguments := [("mode", .str "append"), ("ref", .str "AI/a.md")] })
    (q := { tool := "memory.write", sideEffect := .write, connector := some "markdown_vault",
            arguments := [("mode", .str "overwrite"), ("ref", .str "AI/a.md")] })
    (k := "memory_write:write:markdown_vault:append:AI/a.md")
    (l := "memory_write:write:markdown_vault:overwrite:AI/a.md") (by decide) (by decide)).1
  intro same
  obtain ⟨-, mode, -⟩ := keys.mp same
  simp at mode

end AgentOs
