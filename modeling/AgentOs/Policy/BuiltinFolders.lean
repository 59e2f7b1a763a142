import AgentOs.Connectors.MarkdownVault

/-!
The built-in rule for logs and briefs, and the files it lets through.

The policy looks at the beginning of the reference's text; the vault resolves the
reference as a path. `builtin_write_stays_iff` says when the two agree: the
reference's directories must lead into one of the rule's folders. They do where
no name is `..`, the reference is not absolute and it names something below the
folder (`builtin_write_stays`).
-/

namespace AgentOs

open AgentOs.Lib

/-- The folders of a built-in rule. -/
def builtinFolders (policyId : String) : List (List String) :=
  if policyId = "builtin-logs" then [["AI", "Logs"], ["agentos", "logs"]]
  else if policyId = "builtin-briefs" then [["AI", "Briefs"], ["agentos", "briefs"]]
  else []

theorem builtinFolders_length {policyId : String} :
    ∀ folder ∈ builtinFolders policyId, folder.length = 2 := by
  unfold builtinFolders
  split
  · decide
  · split
    · decide
    · nofun

/-- A file below a folder of a vault. -/
def LiesUnder (root : VaultRoot) (folder path : List String) : Prop :=
  root.parts ++ folder <+: path ∧ path ≠ root.parts ++ folder

/-- The reference leads into one of the folders, or its write is refused. -/
def LeadsInto (root : VaultRoot) (ref : String) (folders : List (List String)) : Prop :=
  (∃ folder ∈ folders, root.parts ++ folder <+: noteDirectory root ref) ∨
    hasNul ref = true ∨
    ∀ name, (Path.parts ref).getLast? = some name →
      ¬ root.parts <+: noteDirectory root ref ++ [noteName name]

section

variable {σ : Type} {policy : LocalPolicy σ} {rules : σ} {sessions : List (String × String)}
  {request : WriteRequest}

/-- The built-in rules, on a memory write. -/
theorem builtinGrant_action : builtinGrant request.action =
    let mode := request.mode.text
    let normalizedRef := Text.lstripChar '/' request.ref
    let isLog := Text.startsWith normalizedRef "AI/Logs/" ||
      Text.startsWith normalizedRef "agentos/logs/"
    let isBrief := Text.startsWith normalizedRef "AI/Briefs/" ||
      Text.startsWith normalizedRef "agentos/briefs/"
    if isLog && mode = "append" then
      some ⟨.allow, "builtin-logs", "Logs can be appended automatically"⟩
    else if isBrief && (mode = "append" || mode = "create") then
      some ⟨.allow, "builtin-briefs", "Briefs can be appended/created automatically"⟩
    else none := rfl

/-- What a built-in rule allows begins with one of its folders. -/
theorem builtinGrant_folder {decision : PolicyDecision}
    (h : builtinGrant request.action = some decision) :
    ∃ folder ∈ builtinFolders decision.policyId, folder <+: Path.parts request.ref := by
  have starts : ∀ {text : String} {folder : List String} (directory : String),
      text = directory ++ "/" ∧ Path.parts directory = folder →
      Text.startsWith (Text.lstripChar '/' request.ref) text = true →
        folder <+: Path.parts request.ref := by
    rintro - - directory ⟨rfl, rfl⟩ h
    rw [← Path.parts_lstrip request.ref]
    exact Path.parts_prefix h
  rw [builtinGrant_action] at h
  dsimp only at h
  split at h
  · rename_i log
    cases h
    rw [Bool.and_eq_true, Bool.or_eq_true] at log
    rcases log.1 with ai | agentos
    · exact ⟨["AI", "Logs"], by simp [builtinFolders], starts "AI/Logs" (by decide +kernel) ai⟩
    · exact ⟨["agentos", "logs"], by simp [builtinFolders],
        starts "agentos/logs" (by decide +kernel) agentos⟩
  · split at h
    · rename_i brief
      cases h
      rw [Bool.and_eq_true, Bool.or_eq_true] at brief
      rcases brief.1 with ai | agentos
      · exact ⟨["AI", "Briefs"], by simp [builtinFolders], starts "AI/Briefs" (by decide +kernel) ai⟩
      · exact ⟨["agentos", "briefs"], by simp [builtinFolders],
          starts "agentos/briefs" (by decide +kernel) agentos⟩
    · cases h

/-- Past the mode, the tier, the rules and the grants, the defaults answer. -/
theorem evaluate_policyId :
    (policy.evaluate request.action rules sessions).1.policyId ∈
        ["mode-off", "default", "learned", "session"] ∨
      (policy.evaluate request.action rules sessions).1 =
        (builtinGrant request.action).getD (defaultDecision request.action) := by
  unfold LocalPolicy.evaluate
  split
  · exact .inl (by simp)
  · split
    · exact .inl (by simp)
    · dsimp only
      split
      · dsimp only
        exact .inr rfl
      · split
        · exact .inl (by simp)
        · split
          · exact .inl (by simp)
          · split
            · exact .inl (by simp)
            · dsimp only
              exact .inr rfl

/-- Only a built-in rule answers in its name. -/
theorem builtinGrant_of_policyId
    (h : builtinFolders (policy.evaluate request.action rules sessions).1.policyId ≠ []) :
    builtinGrant request.action = some (policy.evaluate request.action rules sessions).1 := by
  have none_of : ∀ id ∈ ["mode-off", "default", "learned", "session"], builtinFolders id = [] := by
    decide +kernel
  rcases evaluate_policyId with other | undecided
  · exact absurd (none_of _ other) h
  · rw [undecided] at h ⊢
    cases grant : builtinGrant request.action with
    | none =>
        rw [grant] at h
        exact absurd (none_of "default" (by simp)) h
    | some decision => rfl

/-- **Where built-in rules and the vault agree.** What a built-in rule allows stays
in the rule's folders exactly where the directories of the reference lead into
one of them, or the vault refuses the write. -/
theorem builtin_write_stays_iff (root : VaultRoot) (policy : LocalPolicy σ) (rules : σ)
    (sessions : List (String × String)) (request : WriteRequest)
    (builtin : (policy.evaluate request.action rules sessions).1.policyId = "builtin-logs" ∨
      (policy.evaluate request.action rules sessions).1.policyId = "builtin-briefs") :
    (∀ (fs : FileSystem) (content : String) (path : List String),
      ((markdownVault root).writeNote request.ref content request.mode fs).2.files path ≠
        fs.files path →
      ∃ folder ∈ builtinFolders (policy.evaluate request.action rules sessions).1.policyId,
        LiesUnder root folder path) ↔
    LeadsInto root request.ref
      (builtinFolders (policy.evaluate request.action rules sessions).1.policyId) := by
  have some_folders :
      builtinFolders (policy.evaluate request.action rules sessions).1.policyId ≠ [] := by
    rcases builtin with logs | briefs
    · rw [logs]
      decide
    · rw [briefs]
      decide
  obtain ⟨folder, mem, begins⟩ := builtinGrant_folder (builtinGrant_of_policyId some_folders)
  have named : Path.parts request.ref ≠ [] := by
    intro none
    rw [none, List.prefix_nil] at begins
    have := builtinFolders_length folder mem
    rw [begins] at this
    cases this
  obtain ⟨name, last⟩ := Option.ne_none_iff_exists'.mp (List.getLast?_eq_none_iff.not.mpr named)
  generalize builtinFolders (policy.evaluate request.action rules sessions).1.policyId = folders
  rw [show ((markdownVault root).writeNote) = vaultWriteNote root from rfl, changes_iff,
    notePath_eq last]
  unfold LeadsInto
  cases nul : hasNul request.ref with
  | true => simp
  | false =>
      by_cases inside : root.parts <+: noteDirectory root request.ref ++ [noteName name]
      · -- The note is written, and its directory decides.
        have under : ∀ folder, LiesUnder root folder
            (noteDirectory root request.ref ++ [noteName name]) ↔
              root.parts ++ folder <+: noteDirectory root request.ref := by
          intro folder
          unfold LiesUnder
          rw [List.prefix_concat_iff]
          constructor
          · rintro ⟨same | below, ne⟩
            · exact absurd same.symm ne
            · exact below
          · intro below
            refine ⟨.inr below, ?_⟩
            intro same
            have := below.length_le
            rw [← same] at this
            simp at this
        have test : (false || !root.parts.isPrefixOf
            (noteDirectory root request.ref ++ [noteName name])) = false := by
          simpa using inside
        rw [test, if_neg (by decide)]
        simp [under, last, inside]
      · have test : (false || !root.parts.isPrefixOf
            (noteDirectory root request.ref ++ [noteName name])) = true := by
          rw [Bool.false_or, Bool.not_eq_true', Bool.eq_false_iff, ne_eq,
            List.isPrefixOf_iff_prefix]
          exact inside
        rw [test, if_pos rfl]
        simp [last, inside]

end

/-- A reference with no `..`, not absolute, that names something below the folder it
begins with. -/
theorem leadsInto_of_plain {root : VaultRoot} {ref : String} {folders : List (List String)}
    {folder : List String} (mem : folder ∈ folders) (begins : folder <+: Path.parts ref)
    (below : folder.length < (Path.parts ref).length) (relative : Path.isAbsolute ref = false)
    (plain : ∀ name ∈ Path.parts ref, name ≠ "..") : LeadsInto root ref folders := by
  refine .inl ⟨folder, mem, ?_⟩
  have straight : noteDirectory root ref = root.parts ++ directories ref := by
    unfold noteDirectory
    rw [relative, if_neg (by decide)]
    apply Path.resolve_of_plain
    intro name h
    rcases List.mem_append.mp h with inRoot | inRef
    · exact root.plain name inRoot
    · exact plain name (List.dropLast_subset _ inRef)
  rw [straight, List.prefix_append_right_inj]
  refine List.prefix_of_prefix_length_le begins (List.dropLast_prefix _) ?_
  rw [directories, List.length_dropLast]
  omega

/-- A daily log stays below the logs. -/
theorem builtin_write_stays_today :
    let root : VaultRoot := ⟨["vault"], by decide⟩
    let request : WriteRequest := ⟨"markdown_vault", .append, "AI/Logs/today", "x"⟩
    ∀ (fs : FileSystem) (content : String) (path : List String),
      ((markdownVault root).writeNote request.ref content request.mode fs).2.files path ≠
        fs.files path →
      ∃ folder ∈ builtinFolders
          (LocalPolicy.evaluate ({} : LocalPolicy Unit) request.action () []).1.policyId,
        LiesUnder root folder path := by
  intro root request
  have begins : ["AI", "Logs"] <+: Path.parts request.ref := by decide +kernel
  have logs : (LocalPolicy.evaluate ({} : LocalPolicy Unit) request.action () []).1.policyId =
      "builtin-logs" := by decide +kernel
  refine (builtin_write_stays_iff root {} () [] request (.inl logs)).mpr ?_
  rw [logs]
  exact leadsInto_of_plain (List.mem_cons_self ..) begins (by decide +kernel) (by decide +kernel)
    (by decide +kernel)

/-- The built-in rule lets a log through that lands beside the folders. -/
theorem builtin_write_escapes :
    let root : VaultRoot := ⟨["vault"], by decide⟩
    let request : WriteRequest := ⟨"markdown_vault", .append, "AI/Logs/../../secret", "x"⟩
    let decision := (LocalPolicy.evaluate ({} : LocalPolicy Unit) request.action () []).1
    decision.decision = .allow ∧ decision.policyId = "builtin-logs" ∧
      ((markdownVault root).writeNote request.ref request.content request.mode {}).2.files
        ["vault", "secret.md"] = some "x" ∧
      ∀ folder ∈ builtinFolders decision.policyId, ¬ LiesUnder root folder ["vault", "secret.md"] := by
  refine ⟨by decide +kernel, by decide +kernel, by decide +kernel, ?_⟩
  unfold LiesUnder
  decide +kernel

end AgentOs
