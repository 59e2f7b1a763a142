import AgentOs.Connectors.VaultRebuild
import AgentOs.Lib.Freshness
import AgentOs.Lib.Machine

/-!
Whether the index of a vault is current (`MarkdownVaultConnector.index_status`, `connectors.py`).

The index file goes through edits of the vault, indexing of all notes or of some, indexing anew, the
indexing that a search does by itself, and damage from outside. `index_status` compares dates only.
`index_status_exact`: where every change of a note bears a later date than all before it, the answer
is `ready` exactly when the entries are those of the notes as they are.
-/

namespace AgentOs

open AgentOs.Lib

namespace MarkdownVault

/-! ### The status -/

/-- The index file. -/
inductive IndexFile (μ : Type) where
  | missing
  /-- it holds no index -/
  | broken
  | holds (docs : Dictionary String (IndexedNote μ))

/-- The entries of the file, where there are any. -/
def IndexFile.docs? {μ : Type} : IndexFile μ → Option (Dictionary String (IndexedNote μ))
  | holds docs => some docs
  | missing | broken => none

inductive IndexStatus where
  | unindexed
  | ready
  | stale
  | error
deriving DecidableEq, Repr

section

variable {root : VaultRoot} {μ : Type}

/-- A note that is found has no entry, or an older one; or there are more entries than notes. -/
def VaultState.isStale [LinearOrder μ] (state : VaultState root μ)
    (docs : Dictionary String (IndexedNote μ)) : Bool :=
  state.foundNotes.any (fun names =>
    match docs.get? (asPosix names) with
    | none => true
    | some entry => entry.mtime < state.mtime (root.parts ++ names)) ||
  state.foundNotes.length ≠ docs.entries.length

/-- `MarkdownVaultConnector.index_status` -/
def VaultState.indexStatus [LinearOrder μ] (state : VaultState root μ) : IndexFile μ → IndexStatus
  | .missing => .unindexed
  | .broken => .error
  | .holds docs => if state.isStale docs then .stale else .ready

/-- `_should_auto_build_index`, with the sizes of the notes where they can be had. -/
def VaultState.shouldAutoBuildIndex (state : VaultState root μ) (size : List String → Option ℕ) :
    Bool :=
  state.foundNotes.length ≤ 50 &&
    (state.foundNotes.map fun names => (size names).getD 0).sum ≤ 1000000

/-! ### The life of an index -/

/-- A vault, its index file and the time. -/
structure VaultLife (root : VaultRoot) (μ : Type) where
  state : VaultState root μ
  file : IndexFile μ := .missing
  clock : μ

inductive VaultEvent (root : VaultRoot) (μ : Type) where
  /-- notes are written, moved or removed -/
  | edit (state : VaultState root μ) (clock : μ)
  /-- the index file is removed, or made unreadable -/
  | damage (removed : Bool)
  | index (refs : Option (List String)) (saves : Bool)
  | reindex (saves unlinks : Bool)
  /-- `_load_or_build_index` -/
  | search (size : List String → Option ℕ) (saves : Bool)

namespace VaultLife

/-- The index file, or what is left where it has been removed, after `index`. -/
def indexed (life : VaultLife root μ) (tokenize : String → List String) (base : IndexFile μ)
    (refs : Option (List String)) (saves : Bool) : VaultLife root μ :=
  let done := VaultWorld.index
    { state := life.state, stored := base.docs?, saves : VaultWorld root μ } tokenize refs
  match done.1 with
  | .error _ => { life with file := base }
  | .ok _ => { life with file := if saves then .holds done.2.docs else base }

end VaultLife

/-- What becomes of a vault and its index. -/
def vaultLife (root : VaultRoot) (tokenize : String → List String) :
    Machine (VaultLife root μ) (VaultEvent root μ) where
  step life event :=
    match event with
    | .edit state clock => some { life with state, clock }
    | .damage removed => some { life with file := if removed then .missing else .broken }
    | .index refs saves => some (life.indexed tokenize life.file refs saves)
    | .reindex saves unlinks =>
        some (life.indexed tokenize (if unlinks then .missing else life.file) none saves)
    | .search size saves =>
        match life.file with
        | .holds _ => some life
        | base =>
            if life.state.shouldAutoBuildIndex size then
              some (life.indexed tokenize base none saves)
            else some life

/-- What is at the path of a key, and its date. -/
def VaultState.content (state : VaultState root μ) (key : String) :
    Option (TreeNode (Option String) × μ) :=
  (state.tree.node (root.parts ++ Path.parts key)).map fun node =>
    (node, state.mtime (root.parts ++ Path.parts key))

/-- What is indexed as an entry: a file with a text. -/
def describeNode (tokenize : String → List String) (μ : Type) :
    Derivation (TreeNode (Option String)) (IndexedNote μ) μ where
  derive
    | .file (some text), mtime => some (describeNote tokenize mtime (readText text))
    | _, _ => none
  stamp := IndexedNote.mtime
  stamped := by
    intro content mtime entry derived
    split at derived
    · cases derived
      rfl
    · cases derived

/-- A change of a note, or one that comes, bears a date that is later than the clock was. -/
def Ticking [LinearOrder μ] (life : VaultLife root μ) : VaultEvent root μ → Prop
  | .edit state clock => Advances life.clock clock life.state.content state.content
  | _ => True

/-- The entries are those of the notes as they are. -/
def Current (tokenize : String → List String) (state : VaultState root μ)
    (docs : Dictionary String (IndexedNote μ)) : Prop :=
  (∀ key ∈ state.foundRefs, ∃ node mtime entry, state.content key = some (node, mtime) ∧
    (describeNode tokenize μ).derive node mtime = some entry ∧ docs.get? key = some entry) ∧
  ∀ key ∉ state.foundRefs, docs.get? key = none

/-! ### Comparing dates -/

variable {tokenize : String → List String} {state : VaultState root μ}
  {docs : Dictionary String (IndexedNote μ)} {key : String}

theorem content_of_found (found : key ∈ state.foundRefs) :
    ∃ node, state.content key = some (node, state.mtime (root.parts ++ Path.parts key)) := by
  have there := (mem_foundNotes_iff.mp (mem_foundRefs_iff.mp found).1).2.1
  obtain ⟨node, here⟩ := Option.ne_none_iff_exists'.mp there
  exact ⟨node, by rw [VaultState.content, here]; rfl⟩

/-- **What `index_status` compares**: each note that is found has an entry that is not older, and
there is no other entry. -/
theorem isStale_eq_false_iff [LinearOrder μ] : state.isStale docs = false ↔
    (∀ key ∈ state.foundRefs, ∃ entry, docs.get? key = some entry ∧
      ¬ entry.mtime < state.mtime (root.parts ++ Path.parts key)) ∧
    ∀ key ∉ state.foundRefs, docs.get? key = none := by
  have each : (∀ names ∈ state.foundNotes, ∃ entry, docs.get? (asPosix names) = some entry ∧
        ¬ entry.mtime < state.mtime (root.parts ++ names)) ↔
      ∀ key ∈ state.foundRefs, ∃ entry, docs.get? key = some entry ∧
        ¬ entry.mtime < state.mtime (root.parts ++ Path.parts key) := by
    rw [VaultState.foundRefs, List.forall_mem_map]
    exact forall₂_congr fun names found => by rw [parts_of_mem_foundNotes found]
  have distinct : state.foundRefs.Nodup :=
    List.Nodup.map_on (fun names found names' found' same => by
      rw [← parts_of_mem_foundNotes found, ← parts_of_mem_foundNotes found', same])
      (state.once.filter _)
  have dates : ∀ names ∈ state.foundNotes,
      (¬(match docs.get? (asPosix names) with
        | none => true
        | some entry => decide (entry.mtime < state.mtime (root.parts ++ names))) = true) ↔
      ∃ entry, docs.get? (asPosix names) = some entry ∧
        ¬ entry.mtime < state.mtime (root.parts ++ names) := by
    intro names _
    cases docs.get? (asPosix names) <;> simp
  unfold VaultState.isStale
  rw [Bool.or_eq_false_iff, List.any_eq_false, ← each, forall₂_congr dates]
  refine and_congr_right fun held => ?_
  have count : state.foundNotes.length = state.foundRefs.length := (List.length_map _).symm
  rw [decide_eq_false_iff_not, not_not, count]
  refine Dictionary.length_eq_iff distinct fun key found => ?_
  obtain ⟨entry, there, -⟩ := each.mp held key found
  rw [there]
  exact Option.some_ne_none entry

/-! ### What indexing leaves -/

/-- A note that is read is a file, and described as it is. -/
theorem content_of_readDoc {entry : IndexedNote μ} (found : key ∈ state.foundRefs)
    (read : state.readDoc tokenize (root.parts ++ Path.parts key) = .ok entry) :
    ∃ node mtime, state.content key = some (node, mtime) ∧
      (describeNode tokenize μ).derive node mtime = some entry := by
  have proper := proper_of_mem_foundNotes (mem_foundRefs_iff.mp found).1
  cases at_ : state.noteAt (Path.parts key) with
  | none =>
      obtain ⟨e, fails⟩ := readText_of_not_file proper at_
      rw [readDoc_of_error fails] at read
      cases read
  | some note =>
      obtain ⟨text, file, -⟩ := noteAt_eq_some_iff.mp at_
      rw [readDoc_of_file proper file] at read
      refine ⟨.file text, _, by rw [VaultState.content, file]; rfl, ?_⟩
      unfold noteText at read
      dsimp only at read
      split at read
      · cases read
      · cases read
      · cases read
        rfl

/-- What the entries of an index file become. -/
theorem indexed_entry {life : VaultLife root μ} {base : IndexFile μ} {refs : Option (List String)}
    {saves : Bool} {docs' : Dictionary String (IndexedNote μ)} {entry : IndexedNote μ}
    (after : (life.indexed tokenize base refs saves).file.docs? = some docs')
    (there : docs'.get? key = some entry) :
    (∃ docs, base.docs? = some docs ∧ docs.get? key = some entry) ∨
      ∃ node mtime, life.state.content key = some (node, mtime) ∧
        (describeNode tokenize μ).derive node mtime = some entry := by
  unfold VaultLife.indexed at after
  dsimp only at after
  generalize hw : ({ state := life.state, stored := base.docs?, saves } : VaultWorld root μ) =
    world at after
  have state_ : world.state = life.state := by rw [← hw]
  have old : ∀ {held}, world.docs.get? key = some held →
      ∃ docs, base.docs? = some docs ∧ docs.get? key = some held := by
    intro held there
    rw [← hw] at there
    cases stored : base.docs? with
    | none =>
        rw [VaultWorld.docs, stored] at there
        cases there
    | some docs =>
        rw [VaultWorld.docs, stored] at there
        exact ⟨docs, rfl, there⟩
  cases done : (world.index tokenize refs).1 with
  | error e =>
      rw [done] at after
      exact .inl ⟨docs', after, there⟩
  | ok result =>
      rw [done] at after
      cases saves with
      | false => exact .inl ⟨docs', after, there⟩
      | true =>
          obtain rfl := Option.some.inj after
          have saved : world.saves = true := by rw [← hw]
          have new : key ∈ world.state.foundRefs →
              world.state.readDoc tokenize (root.parts ++ Path.parts key) = .ok entry →
              ∃ node mtime, life.state.content key = some (node, mtime) ∧
                (describeNode tokenize μ).derive node mtime = some entry := by
            rw [state_]
            exact content_of_readDoc
          cases refs with
          | none =>
              rw [index_docs, if_pos saved, indexAll_docs, Dictionary.get?_refreshAll] at there
              split at there
              · rename_i found
                rcases Dictionary.refreshed_eq_some there with kept | read
                · exact .inl (old kept)
                · exact .inr (new found (Option.some.inj read))
              · cases there
          | some refs =>
              obtain ⟨keys, given, docs⟩ := indexRefs_saved done
              rw [docs, if_pos saved, Dictionary.get?_refresh] at there
              split at there
              · rename_i mem
                rcases Dictionary.refreshed_eq_some there with kept | read
                · exact .inl (old kept)
                · obtain ⟨ref, -, key_⟩ := (mem_keys_iff given).mp mem
                  rcases looked_cases tokenize key_ with ⟨absent, -⟩ | ⟨walked, found, -⟩
                  · rw [absent] at read
                    cases read
                  · rw [walked] at read
                    exact .inr (new found (Option.some.inj read))
              · exact .inl (old there)

end

/-! ### Runs -/

section

variable {root : VaultRoot} {μ : Type} [LinearOrder μ] {tokenize : String → List String}
  {life life' : VaultLife root μ}

/-- The entries of an index file, by key. -/
def IndexFile.entry {μ : Type} (file : IndexFile μ) (key : String) : Option (IndexedNote μ) :=
  file.docs?.bind (·.get? key)

/-- No date is after the clock, and an entry as young as its note describes it. -/
def TimelyIndex (tokenize : String → List String) (life : VaultLife root μ) : Prop :=
  Timely (describeNode tokenize μ) life.clock life.state.content life.file.entry

omit [LinearOrder μ] in
theorem entry_eq_some_iff {file : IndexFile μ} {key : String} {entry : IndexedNote μ} :
    file.entry key = some entry ↔ ∃ docs, file.docs? = some docs ∧ docs.get? key = some entry :=
  Option.bind_eq_some_iff

theorem timely_indexed {base : IndexFile μ} {refs : Option (List String)} {saves : Bool}
    (timely : Timely (describeNode tokenize μ) life.clock life.state.content base.entry) :
    TimelyIndex tokenize (life.indexed tokenize base refs saves) := by
  have same : (life.indexed tokenize base refs saves).clock = life.clock ∧
      (life.indexed tokenize base refs saves).state = life.state := by
    unfold VaultLife.indexed
    dsimp only
    split <;> exact ⟨rfl, rfl⟩
  unfold TimelyIndex
  rw [same.1, same.2]
  refine timely.update fun key entry there => ?_
  obtain ⟨docs', after, there⟩ := entry_eq_some_iff.mp there
  exact (indexed_entry after there).imp_left entry_eq_some_iff.mpr

/-- **Step lemma.** The index stays timely. -/
theorem timely_step {event : VaultEvent root μ} (ticking : Ticking life event)
    (timely : TimelyIndex tokenize life)
    (step : (vaultLife root tokenize).step life event = some life') :
    TimelyIndex tokenize life' := by
  have lost : ∀ {file : IndexFile μ}, file.docs? = none →
      Timely (describeNode tokenize μ) life.clock life.state.content file.entry := fun none =>
    .empty timely.dated fun key => by rw [IndexFile.entry, none, Option.bind_none]
  cases event with
  | edit state clock =>
      cases step
      exact timely.change ticking
  | damage removed =>
      cases step
      cases removed
      · exact lost rfl
      · exact lost rfl
  | index refs saves =>
      cases step
      exact timely_indexed timely
  | reindex saves unlinks =>
      cases step
      cases unlinks
      · exact timely_indexed timely
      · exact timely_indexed (lost rfl)
  | search size saves =>
      simp only [vaultLife] at step
      split at step
      · cases step
        exact timely
      · split at step
        · cases step
          exact timely_indexed timely
        · cases step
          exact timely

/-- In a timely index, the dates tell what is current. -/
theorem ready_iff_of_timely (timely : TimelyIndex tokenize life) :
    life.state.indexStatus life.file = .ready ↔
      ∃ docs, life.file = .holds docs ∧ Current tokenize life.state docs := by
  cases held : life.file with
  | missing => simp [VaultState.indexStatus]
  | broken => simp [VaultState.indexStatus]
  | holds docs =>
      have ready : life.state.indexStatus (.holds docs) = .ready ↔
          life.state.isStale docs = false := by
        unfold VaultState.indexStatus
        cases stale : life.state.isStale docs <;> simp [stale]
      have entries : ∀ {key entry}, docs.get? key = some entry →
          life.file.entry key = some entry := fun there =>
        entry_eq_some_iff.mpr ⟨docs, by rw [held]; rfl, there⟩
      rw [ready, isStale_eq_false_iff]
      constructor
      · rintro ⟨young, others⟩
        refine ⟨docs, rfl, fun key found => ?_, others⟩
        obtain ⟨entry, there, notOlder⟩ := young key found
        obtain ⟨node, here⟩ := content_of_found found
        exact ⟨node, _, entry, here,
          (timely.current_iff (entries there) here).mp notOlder, there⟩
      · rintro ⟨docs', same, current, others⟩
        cases same
        refine ⟨fun key found => ?_, others⟩
        obtain ⟨node, mtime, entry, here, derived, there⟩ := current key found
        obtain ⟨node', here'⟩ := content_of_found found
        rw [here'] at here
        cases here
        exact ⟨entry, there, (timely.current_iff (entries there) here').mpr derived⟩

/-- **`index_status` says `ready` exactly when the index is what the notes are**, after any edits,
calls of `index` and `reindex`, searches, failed saves and losses of the file, where each change of
a note bears a later date than the clock showed before it. A note that is found and has no text (a
directory with a note's name) is never `ready`. -/
theorem index_status_exact {start : VaultLife root μ} {events : List (VaultEvent root μ)}
    (run : Machine.Path (vaultLife root tokenize) Ticking start events life)
    (unindexed : start.file.docs? = none)
    (dated : ∀ key node mtime, start.state.content key = some (node, mtime) →
      mtime ≤ start.clock) :
    life.state.indexStatus life.file = .ready ↔
      ∃ docs, life.file = .holds docs ∧ Current tokenize life.state docs := by
  refine ready_iff_of_timely (run.invariant (I := TimelyIndex tokenize)
    (fun _ _ _ ticking timely step => timely_step ticking timely step) ?_)
  exact .empty (dated _ _ _) fun key => by rw [IndexFile.entry, unindexed, Option.bind_none]

end

/-! ### A vault -/

/-- The vault with one note, of a date. -/
def noteOf (text : Option String) (mtime : ℕ) : VaultState vaultRoot ℕ :=
  { oneNote text with mtime := fun _ => mtime }

/-- The note is indexed, changed, and indexed again by its name. -/
def indexedTwice : List (VaultEvent vaultRoot ℕ) :=
  [.index none true, .edit (noteOf (some "bye") 2) 2, .index (some ["a.md"]) true]

theorem index_status_exact_sample :
    ∃ life : VaultLife vaultRoot ℕ,
      Machine.Path (vaultLife vaultRoot asciiWords) Ticking ⟨noteOf (some "hello") 1, .missing, 1⟩
        indexedTwice life ∧
      ∃ docs, life.file = .holds docs ∧ Current asciiWords life.state docs := by
  have dated : ∀ {text : Option String} {date : ℕ} {key : String} {node mtime},
      (noteOf text date).content key = some (node, mtime) → mtime = date := by
    intro text date key node mtime here
    obtain ⟨_, -, same⟩ := Option.map_eq_some_iff.mp here
    exact (Prod.mk.inj same).2.symm
  let first : VaultLife vaultRoot ℕ :=
    VaultLife.indexed ⟨noteOf (some "hello") 1, .missing, 1⟩ asciiWords .missing none true
  let edited : VaultLife vaultRoot ℕ := ⟨noteOf (some "bye") 2, first.file, 2⟩
  let second := edited.indexed asciiWords edited.file (some ["a.md"]) true
  have changes : Ticking first (.edit (noteOf (some "bye") 2) 2) := by
    refine ⟨by decide +kernel, fun key node mtime here => .inr ?_⟩
    rw [dated here]
    decide +kernel
  have run : Machine.Path (vaultLife vaultRoot asciiWords) Ticking
      ⟨noteOf (some "hello") 1, .missing, 1⟩ indexedTwice second :=
    .cons trivial rfl (.cons changes rfl (.cons trivial rfl (.nil _)))
  have ready : second.state.indexStatus second.file = .ready := by decide +kernel
  refine ⟨second, run, (index_status_exact run rfl fun key node mtime here => ?_).mp ready⟩
  exact (dated here).le

end MarkdownVault

end AgentOs
