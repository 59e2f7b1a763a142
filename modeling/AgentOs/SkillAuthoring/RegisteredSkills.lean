import AgentOs.SkillAuthoring.Decisions

/-!
Registered skills in the workspace.

A registration reads `workspace.toml`, writes its own text over it and, where the
workspace does not reload, puts back the text it read; nothing keeps another
registration from writing in between. `registered_skills_kept`: in a run in which
every such write finds the text its call expects, a registered request has its
package on disk and in the skills list. Runs of one call at a time are such runs
(`undisturbed_of_sequential`). `registered_skills_dropped` has two runs in which a
registered request has lost its place in the list.
-/

namespace AgentOs

open AgentOs.Lib Machine

/-- A registered request has its package on disk and in the list. -/
def RegisteredKept (loads : TomlSkills) (w : Authoring) : Prop :=
  ∀ requestId row, w.requests requestId = some row → row.status = .registered →
    ∃ result, row.registrationResult = some result ∧ result.packagePath ∈ w.packages ∧
      Listed loads w.config result.packagePath

/-- What a call finds when it edits or replaces `workspace.toml` or takes a package
away: a text whose list it edits as it says, the text it read, the text it wrote, and
no other package inside. -/
def CallStage.Finds (loads : TomlSkills) (w : Authoring) : CallStage → Prop
  | .copied _ destination => EditAppends loads w.config destination
  | .moved _ _ original _ => w.config = original
  | .rollingBack _ _ updated => w.config = updated
  | .removing destination _ =>
      ∀ package ∈ w.packages, LiesIn destination package → package = destination
  | _ => True

/-- The step of a call finds the files as the call left them. -/
def FilesUndisturbed (setup : AuthoringSetup) (w : Authoring) : AuthoringStep → Prop
  | .advance i .next => ∀ call, w.calls[i]? = some call → call.stage.Finds setup.loads w
  | _ => True

/-- The package of a registered request. -/
def Authoring.Registers (w : Authoring) (path : String) : Prop :=
  ∃ requestId row result, w.requests requestId = some row ∧ row.status = .registered ∧
    row.registrationResult = some result ∧ result.packagePath = path

/-- What every step of an undisturbed run keeps. -/
structure WorkspaceInv (setup : AuthoringSetup) (w : Authoring) : Prop where
  kept : RegisteredKept setup.loads w
  /-- what a call has moved is there -/
  held : ∀ (i : ℕ) (call : AuthoringCall) destination, w.calls[i]? = some call →
    call.stage.holding = some destination → destination ∈ w.packages
  /-- what it relies on being listed is listed -/
  listed : ∀ (i : ℕ) (call : AuthoringCall) destination, w.calls[i]? = some call →
    call.stage.listing = some destination → Listed setup.loads w.config destination
  /-- its text adds its package to the text it read -/
  edits : ∀ (i : ℕ) (call : AuthoringCall) destination original updated, w.calls[i]? = some call →
    call.stage.edit = some (destination, original, updated) →
      ∃ skills, setup.loads original = some (some skills) ∧
        setup.loads updated = some (some (skills ++ [destination]))
  /-- no two calls hold one package -/
  apart : ∀ (i j : ℕ) (call call' : AuthoringCall) destination, w.calls[i]? = some call →
    w.calls[j]? = some call' → call.stage.holding = some destination →
      call'.stage.holding = some destination → i = j
  /-- what a call can take away is not registered -/
  unregistered : ∀ (i : ℕ) (call : AuthoringCall) destination, w.calls[i]? = some call →
    call.stage.loose = some destination → ¬w.Registers destination

section

variable {setup : AuthoringSetup} {w w₁ : Authoring} {i : ℕ} {call : AuthoringCall}
  {stage : CallStage}

theorem CallStage.holding_of_loose {destination : String}
    (h : stage.loose = some destination) : stage.holding = some destination := by
  cases stage <;> first | exact h | cases h

theorem CallStage.holding_of_listing {destination : String}
    (h : stage.listing = some destination) : stage.holding = some destination := by
  cases stage <;> first | exact h | cases h

/-- A registered package is on disk. -/
theorem RegisteredKept.package (h : RegisteredKept setup.loads w) {path : String}
    (registered : w.Registers path) : path ∈ w.packages ∧ Listed setup.loads w.config path := by
  obtain ⟨requestId, row, result, found, status, recorded, rfl⟩ := registered
  obtain ⟨result', recorded', stored, listed⟩ := h requestId row found status
  cases recorded.symm.trans recorded'
  exact ⟨stored, listed⟩

/-- What is kept where the store, the files that matter and the list stay. -/
theorem RegisteredKept.mono (h : RegisteredKept setup.loads w) (requests : w₁.requests = w.requests)
    (packages : ∀ path, w.Registers path → path ∈ w.packages → path ∈ w₁.packages)
    (lists : ∀ path, w.Registers path → Listed setup.loads w.config path →
      Listed setup.loads w₁.config path) : RegisteredKept setup.loads w₁ := by
  intro requestId row found status
  rw [requests] at found
  obtain ⟨result, recorded, stored, listed⟩ := h requestId row found status
  have registered : w.Registers result.packagePath :=
    ⟨requestId, row, result, found, status, recorded, rfl⟩
  exact ⟨result, recorded, packages _ registered stored, lists _ registered listed⟩

/-- The invariant after a step of the call at `i`, from what the step does to the
others and to its own call. -/
theorem WorkspaceInv.advance (inv : WorkspaceInv setup w) (here : w.calls[i]? = some call)
    (kept : RegisteredKept setup.loads w₁)
    (others : ∀ (j : ℕ) (c : AuthoringCall), j ≠ i → w.calls[j]? = some c →
      (∀ d, c.stage.holding = some d → d ∈ w₁.packages) ∧
      (∀ d, c.stage.listing = some d → Listed setup.loads w₁.config d) ∧
      ∀ d, c.stage.loose = some d → ¬w₁.Registers d)
    (held : ∀ d, stage.holding = some d → d ∈ w₁.packages)
    (listed : ∀ d, stage.listing = some d → Listed setup.loads w₁.config d)
    (edits : ∀ d original updated, stage.edit = some (d, original, updated) →
      ∃ skills, setup.loads original = some (some skills) ∧
        setup.loads updated = some (some (skills ++ [d])))
    (apart : ∀ d, stage.holding = some d → call.stage.holding = some d ∨
      ∀ (j : ℕ) (c : AuthoringCall), w.calls[j]? = some c → c.stage.holding ≠ some d)
    (loose : ∀ d, stage.loose = some d → ¬w₁.Registers d) :
    WorkspaceInv setup { w₁ with calls := w.calls.set i { call with stage } } := by
  constructor
  · exact kept
  · intro j c d hj holds
    rcases getElem?_set_cases hj with ⟨rfl, rfl⟩ | ⟨ne, old⟩
    · exact held d holds
    · exact (others j c ne old).1 d holds
  · intro j c d hj lists
    rcases getElem?_set_cases hj with ⟨rfl, rfl⟩ | ⟨ne, old⟩
    · exact listed d lists
    · exact (others j c ne old).2.1 d lists
  · intro j c d original updated hj edited
    rcases getElem?_set_cases hj with ⟨rfl, rfl⟩ | ⟨ne, old⟩
    · exact edits d original updated edited
    · exact inv.edits j c d original updated old edited
  · have free : ∀ {k : ℕ} {c : AuthoringCall} {d : String}, k ≠ i → w.calls[k]? = some c →
        c.stage.holding = some d → stage.holding ≠ some d := by
      intro k c d ne hk holds mine
      rcases apart d mine with before | none
      · exact ne (inv.apart k i c call d hk here holds before)
      · exact none k c hk holds
    intro j k c c' d hj hk holds holds'
    rcases getElem?_set_cases hj with ⟨rfl, rfl⟩ | ⟨nj, oldJ⟩
    · rcases getElem?_set_cases hk with ⟨rfl, rfl⟩ | ⟨nk, oldK⟩
      · rfl
      · exact absurd holds (free nk oldK holds')
    · rcases getElem?_set_cases hk with ⟨rfl, rfl⟩ | ⟨nk, oldK⟩
      · exact absurd holds' (free nj oldJ holds)
      · exact inv.apart j k c c' d oldJ oldK holds holds'
  · intro j c d hj takes
    rcases getElem?_set_cases hj with ⟨rfl, rfl⟩ | ⟨ne, old⟩
    · exact loose d takes
    · exact (others j c ne old).2.2 d takes

/-- A call that holds nothing afterwards has nothing to answer for. -/
theorem WorkspaceInv.advance_plain (inv : WorkspaceInv setup w) (here : w.calls[i]? = some call)
    (kept : RegisteredKept setup.loads w₁)
    (others : ∀ (j : ℕ) (c : AuthoringCall), j ≠ i → w.calls[j]? = some c →
      (∀ d, c.stage.holding = some d → d ∈ w₁.packages) ∧
      (∀ d, c.stage.listing = some d → Listed setup.loads w₁.config d) ∧
      ∀ d, c.stage.loose = some d → ¬w₁.Registers d) (plain : stage.Plain) :
    WorkspaceInv setup { w₁ with calls := w.calls.set i { call with stage } } := by
  have none : ∀ {d}, stage.holding ≠ some d := by
    intro d holds
    cases plain.1.symm.trans holds
  apply inv.advance here kept others
  · intro d holds
    exact absurd holds none
  · intro d lists
    exact absurd (CallStage.holding_of_listing lists) none
  · intro d original updated edited
    cases plain.2.symm.trans edited
  · intro d holds
    exact absurd holds none
  · intro d takes
    exact absurd (CallStage.holding_of_loose takes) none

/-- What a step that changes nothing shared leaves to the other calls. -/
theorem WorkspaceInv.others (inv : WorkspaceInv setup w) (j : ℕ) (c : AuthoringCall)
    (here : w.calls[j]? = some c) :
    (∀ d, c.stage.holding = some d → d ∈ w.packages) ∧
    (∀ d, c.stage.listing = some d → Listed setup.loads w.config d) ∧
    ∀ d, c.stage.loose = some d → ¬w.Registers d :=
  ⟨fun d h => inv.held j c d here h, fun d h => inv.listed j c d here h,
    fun d h => inv.unregistered j c d here h⟩

/-! ### Rows -/

/-- What a write to one row leaves registered. -/
theorem Authoring.registers_updateRow {requestId path : String}
    {set : AuthoringRequest → AuthoringRequest} (h : (w.updateRow requestId set).Registers path) :
    w.Registers path ∨ ∃ row result, (set row).status = .registered ∧
      (set row).registrationResult = some result ∧ result.packagePath = path := by
  obtain ⟨other, row, result, found, status, recorded, named⟩ := h
  unfold Authoring.updateRow at found
  dsimp only at found
  by_cases same : other = requestId
  · subst same
    rw [Function.update_self] at found
    obtain ⟨old, -, rfl⟩ := Option.map_eq_some_iff.mp found
    exact .inr ⟨old, result, status, recorded, named⟩
  · rw [Function.update_of_ne same] at found
    exact .inl ⟨other, row, result, found, status, recorded, named⟩

/-- A write to one row keeps what was kept, if the row is then right. -/
theorem RegisteredKept.updateRow {requestId : String} {set : AuthoringRequest → AuthoringRequest}
    (h : RegisteredKept setup.loads w)
    (right : ∀ row, (set row).status = .registered → ∃ result,
      (set row).registrationResult = some result ∧ result.packagePath ∈ w.packages ∧
        Listed setup.loads w.config result.packagePath) :
    RegisteredKept setup.loads (w.updateRow requestId set) := by
  intro other row found status
  unfold Authoring.updateRow at found
  dsimp only at found
  by_cases same : other = requestId
  · subst same
    rw [Function.update_self] at found
    obtain ⟨old, -, rfl⟩ := Option.map_eq_some_iff.mp found
    exact right old status
  · rw [Function.update_of_ne same] at found
    exact h other row found status

/-! ### Steps -/

/-- Adding a package to the list keeps what is listed. -/
theorem Listed.append {loads : TomlSkills} {original updated path destination : String}
    {skills : List String} (h : Listed loads original path)
    (before : loads original = some (some skills))
    (after : loads updated = some (some (skills ++ [destination]))) : Listed loads updated path := by
  obtain ⟨skills', read, mem⟩ := h
  cases read.symm.trans before
  exact ⟨_, after, List.mem_append_left _ mem⟩

/-- Taking it out again keeps everything else. -/
theorem Listed.restore {loads : TomlSkills} {original updated path destination : String}
    {skills : List String} (h : Listed loads updated path) (other : path ≠ destination)
    (before : loads original = some (some skills))
    (after : loads updated = some (some (skills ++ [destination]))) :
    Listed loads original path := by
  obtain ⟨skills', read, mem⟩ := h
  cases read.symm.trans after
  rcases List.mem_append.mp mem with mem | mem
  · exact ⟨_, before, mem⟩
  · exact absurd (List.mem_singleton.mp mem) other

/-- A step of a call. -/
theorem workspaceInv_advance {event : CallEvent}
    (undisturbed : FilesUndisturbed setup w (.advance i event)) (inv : WorkspaceInv setup w)
    (here : w.calls[i]? = some call)
    (moved : AdvanceCase setup w call event w₁ stage) :
    WorkspaceInv setup { w₁ with calls := w.calls.set i { call with stage } } := by
  have others := fun j c (_ : j ≠ i) => inv.others j c
  -- Another call holds another package.
  have apart : ∀ {j c d d'}, j ≠ i → w.calls[j]? = some c → c.stage.holding = some d' →
      call.stage.holding = some d → d' ≠ d := by
    rintro j c d d' ne hj holds mine rfl
    exact ne (inv.apart j i c call d' hj here holds mine)
  cases moved with
  | quiet plain _ => exact inv.advance_plain here inv.kept others plain
  | wrote plain _ _ unregistered =>
      refine inv.advance_plain here (inv.kept.updateRow ?_) ?_ plain
      · intro row status
        exact absurd status (unregistered row)
      · intro j c ne hj
        obtain ⟨held, listed, loose⟩ := inv.others j c hj
        refine ⟨held, listed, ?_⟩
        intro d takes registered
        rcases Authoring.registers_updateRow registered with before | ⟨row, _, status, -⟩
        · exact loose d takes before
        · exact unregistered row status
  | @edits _ destination updated at_ edited =>
      have appends : EditAppends setup.loads w.config destination := by
        have found := undisturbed call here
        rw [at_] at found
        exact found
      apply inv.advance here inv.kept others
      · nofun
      · nofun
      · intro d original updated' same
        cases same
        exact appends updated edited
      · nofun
      · nofun
  | @moves _ destination original updated at_ empty =>
      have free : destination ∉ w.packages := fun stored => empty destination stored (.inl rfl)
      apply inv.advance here
      · exact inv.kept.mono rfl (fun _ _ stored => List.mem_cons_of_mem _ stored) fun _ _ => id
      · intro j c ne hj
        obtain ⟨held, listed, loose⟩ := inv.others j c hj
        exact ⟨fun d holds => List.mem_cons_of_mem _ (held d holds), listed, loose⟩
      · intro d holds
        cases holds
        exact List.mem_cons_self ..
      · nofun
      · intro d original' updated' same
        cases same
        exact inv.edits i call _ _ _ here (by rw [at_]; rfl)
      · intro d holds
        cases holds
        exact .inr fun j c hj holds => free (inv.held j c _ hj holds)
      · intro d takes registered
        cases takes
        exact free (inv.kept.package registered).1
  | @replaces _ destination original updated at_ =>
      have current : w.config = original := by
        have found := undisturbed call here
        rw [at_] at found
        exact found
      obtain ⟨skills, before, after⟩ := inv.edits i call destination original updated here
        (by rw [at_]; rfl)
      have grows : ∀ path, Listed setup.loads w.config path → Listed setup.loads updated path :=
        fun _ listed => (current ▸ listed).append before after
      have holds : call.stage.holding = some destination := by rw [at_]; rfl
      apply inv.advance here
      · exact inv.kept.mono rfl (fun _ _ => id) fun path _ => grows path
      · intro j c ne hj
        obtain ⟨held, listed, loose⟩ := inv.others j c hj
        exact ⟨held, fun d lists => grows d (listed d lists), loose⟩
      · intro d same
        cases same
        exact inv.held i call _ here holds
      · intro d same
        cases same
        exact ⟨_, after, List.mem_append_right _ (List.mem_singleton.mpr rfl)⟩
      · intro d original' updated' same
        cases same
        exact ⟨skills, before, after⟩
      · intro d same
        cases same
        exact .inl holds
      · intro d same
        cases same
        exact inv.unregistered i call _ here (by rw [at_]; rfl)
  | @reloads _ destination original updated at_ =>
      have holds : call.stage.holding = some destination := by rw [at_]; rfl
      apply inv.advance here inv.kept others
      · intro d same
        cases same
        exact inv.held i call _ here holds
      · intro d same
        cases same
        exact inv.listed i call _ here (by rw [at_]; rfl)
      · nofun
      · intro d same
        cases same
        exact .inl holds
      · nofun
  | @reloadFails _ destination original updated _ at_ =>
      have holds : call.stage.holding = some destination := by rw [at_]; rfl
      apply inv.advance here inv.kept others
      · intro d same
        cases same
        exact inv.held i call _ here holds
      · nofun
      · intro d original' updated' same
        cases same
        exact inv.edits i call _ _ _ here (by rw [at_]; rfl)
      · intro d same
        cases same
        exact .inl holds
      · intro d same
        cases same
        exact inv.unregistered i call _ here (by rw [at_]; rfl)
  | @rollsBack destination original updated _ at_ =>
      have current : w.config = updated := by
        have found := undisturbed call here
        rw [at_] at found
        exact found
      obtain ⟨skills, before, after⟩ := inv.edits i call destination original updated here
        (by rw [at_]; rfl)
      have shrinks : ∀ path, path ≠ destination → Listed setup.loads w.config path →
          Listed setup.loads original path :=
        fun _ other listed => (current ▸ listed).restore other before after
      have holds : call.stage.holding = some destination := by rw [at_]; rfl
      have unregistered := inv.unregistered i call destination here (by rw [at_]; rfl)
      apply inv.advance here
      · refine inv.kept.mono rfl (fun _ _ => id) ?_
        intro path registered
        exact shrinks path fun same => unregistered (same ▸ registered)
      · intro j c ne hj
        obtain ⟨held, listed, loose⟩ := inv.others j c hj
        refine ⟨held, ?_, loose⟩
        intro d lists
        exact shrinks d (apart ne hj (CallStage.holding_of_listing lists) holds) (listed d lists)
      · intro d same
        cases same
        exact inv.held i call _ here holds
      · nofun
      · nofun
      · intro d same
        cases same
        exact .inl holds
      · intro d same
        cases same
        exact unregistered
  | @givesUp destination _ at_ =>
      have holds := CallStage.holding_of_loose at_
      apply inv.advance here inv.kept others
      · intro d same
        cases same
        exact inv.held i call _ here holds
      · nofun
      · nofun
      · intro d same
        cases same
        exact .inl holds
      · intro d same
        cases same
        exact inv.unregistered i call _ here at_
  | @removes destination _ _ at_ =>
      have alone : ∀ package ∈ w.packages, LiesIn destination package → package = destination := by
        have found := undisturbed call here
        rw [at_] at found
        exact found
      have holds : call.stage.holding = some destination := by rw [at_]; rfl
      have unregistered := inv.unregistered i call destination here (by rw [at_]; rfl)
      have stays : ∀ path, path ≠ destination → path ∈ w.packages →
          path ∈ w.packages.filter fun package => ¬LiesIn destination package := by
        intro path other stored
        refine List.mem_filter.mpr ⟨stored, decide_eq_true ?_⟩
        intro inside
        exact other (alone path stored inside)
      refine inv.advance_plain here ?_ ?_ ⟨rfl, rfl⟩
      · refine inv.kept.mono rfl ?_ fun _ _ => id
        intro path registered
        exact stays path fun same => unregistered (same ▸ registered)
      · intro j c ne hj
        obtain ⟨held, listed, loose⟩ := inv.others j c hj
        exact ⟨fun d mine => stays d (apart ne hj mine holds) (held d mine), listed, loose⟩
  | @registers skillName destination at_ =>
      have holds : call.stage.holding = some destination := by rw [at_]; rfl
      have stored := inv.held i call destination here holds
      have listed := inv.listed i call destination here (by rw [at_]; rfl)
      refine inv.advance_plain here (inv.kept.updateRow ?_) ?_ ⟨rfl, rfl⟩
      · intro row _
        exact ⟨_, rfl, stored, listed⟩
      · intro j c ne hj
        obtain ⟨held, lists, loose⟩ := inv.others j c hj
        refine ⟨held, lists, ?_⟩
        intro d takes registered
        rcases Authoring.registers_updateRow registered with before | ⟨row, result, -, recorded, rfl⟩
        · exact loose d takes before
        · cases recorded
          exact apart ne hj (CallStage.holding_of_loose takes) holds rfl

theorem workspaceInv_step {l : AuthoringStep} (undisturbed : FilesUndisturbed setup w l)
    (inv : WorkspaceInv setup w) (h : (authoring setup).step w l = some w₁) :
    WorkspaceInv setup w₁ := by
  cases authoring_cases h with
  | @prepared other _ _ _ row fresh status =>
      -- the new request is not registered
      have before : ∀ {requestId row'}, Function.update w.requests other (some row) requestId =
          some row' → row'.status = .registered → w.requests requestId = some row' := by
        intro requestId row' found registered
        by_cases same : requestId = other
        · subst same
          rw [Function.update_self] at found
          cases found
          exact absurd (status.symm.trans registered) nofun
        · rwa [Function.update_of_ne same] at found
      refine ⟨?_, inv.held, inv.listed, inv.edits, inv.apart, ?_⟩
      · intro requestId row' found registered
        exact inv.kept requestId row' (before found registered) registered
      · rintro i call destination here takes ⟨requestId, row', result, found, registered, rest⟩
        exact inv.unregistered i call destination here takes
          ⟨requestId, row', result, before found registered, registered, rest⟩
  | @begun _ call _ plain _ =>
      have holdsNone : ∀ {d}, call.stage.holding ≠ some d := by
        intro d holds
        cases plain.1.symm.trans holds
      constructor
      · exact inv.kept
      · intro i c d here holds
        rcases getElem?_concat_cases here with old | ⟨-, rfl⟩
        · exact inv.held i c d old holds
        · exact absurd holds holdsNone
      · intro i c d here lists
        rcases getElem?_concat_cases here with old | ⟨-, rfl⟩
        · exact inv.listed i c d old lists
        · exact absurd (CallStage.holding_of_listing lists) holdsNone
      · intro i c d original updated here edited
        rcases getElem?_concat_cases here with old | ⟨-, rfl⟩
        · exact inv.edits i c d original updated old edited
        · cases plain.2.symm.trans edited
      · intro i j c c' d hi hj holds holds'
        rcases getElem?_concat_cases hi with oldI | ⟨-, rfl⟩
        · rcases getElem?_concat_cases hj with oldJ | ⟨-, rfl⟩
          · exact inv.apart i j c c' d oldI oldJ holds holds'
          · exact absurd holds' holdsNone
        · exact absurd holds holdsNone
      · intro i c d here takes
        rcases getElem?_concat_cases here with old | ⟨-, rfl⟩
        · exact inv.unregistered i c d old takes
        · exact absurd (CallStage.holding_of_loose takes) holdsNone
  | advanced here _ moved => exact workspaceInv_advance undisturbed inv here moved

/-- **Registered skills stay in the workspace**, in every state of a run in which what
a call finds in `workspace.toml` when it writes is what it left there, and what it
takes away is its own. -/
theorem registered_skills_kept {w' : Authoring} {ls : List AuthoringStep}
    (run : Path (authoring setup) (FilesUndisturbed setup) w ls w') (idle : w.calls = [])
    (kept : RegisteredKept setup.loads w) : RegisteredKept setup.loads w' := by
  have nothing : ∀ {i : ℕ} {call : AuthoringCall}, w.calls[i]? ≠ some call :=
    getElem?_ne_of_nil idle
  refine (run.invariant (I := WorkspaceInv setup) ?_ ?_).kept
  · intro s l t undisturbed inv step
    exact workspaceInv_step undisturbed inv step
  · exact ⟨kept, fun _ _ _ here => absurd here nothing, fun _ _ _ here => absurd here nothing,
      fun _ _ _ _ _ here => absurd here nothing, fun _ _ _ _ _ here => absurd here nothing,
      fun _ _ _ here => absurd here nothing⟩

end

/-! ### One call at a time -/

/-- A call begins when every other is done. -/
def Sequential (w : Authoring) (l : AuthoringStep) : Prop :=
  l.begins ≠ none → ∀ call ∈ w.calls, call.stage.ended = true

/-- A step that edits `workspace.toml` appends to its list. -/
def EditsAppend (setup : AuthoringSetup) (w : Authoring) : AuthoringStep → Prop
  | .advance i .next => ∀ call skillName destination, w.calls[i]? = some call →
      call.stage = .copied skillName destination → EditAppends setup.loads w.config destination
  | _ => True

/-- The text a call counts on finding in `workspace.toml`. -/
def CallStage.sees : CallStage → Option String
  | edited _ _ original _ | moved _ _ original _ => some original
  | replaced _ _ _ updated | rollingBack _ _ updated => some updated
  | _ => none

/-- One call is under way, and the files are as it left them. -/
structure SequentialInv (w : Authoring) : Prop where
  alone : Exclusive (fun _ _ => True) (·.stage.ended = true) w.calls
  seen : ∀ (i : ℕ) (call : AuthoringCall) text, w.calls[i]? = some call →
    call.stage.sees = some text → w.config = text
  single : ∀ (i : ℕ) (call : AuthoringCall) destination, w.calls[i]? = some call →
    call.stage.holding = some destination →
      ∀ package ∈ w.packages, LiesIn destination package → package = destination

theorem CallStage.nothing_of_ended {stage : CallStage} (h : stage.ended = true) :
    stage.sees = none ∧ stage.holding = none := by
  cases stage <;> first | exact ⟨rfl, rfl⟩ | cases h

theorem CallStage.Plain.sees {stage : CallStage} (h : stage.Plain) : stage.sees = none := by
  cases stage <;> first | rfl | cases h.2

section

variable {setup : AuthoringSetup} {w w' : Authoring} {call : AuthoringCall} {event : CallEvent}
  {stage : CallStage}

/-- What a step leaves in `workspace.toml` is what its call then counts on. -/
theorem AdvanceCase.seen (h : AdvanceCase setup w call event w' stage)
    (before : ∀ text, call.stage.sees = some text → w.config = text) {text : String}
    (sees : stage.sees = some text) : w'.config = text := by
  cases h with
  | quiet plain _ | wrote plain _ _ _ => cases plain.sees.symm.trans sees
  | edits _ _ | replaces _ =>
      cases sees
      rfl
  | moves at_ _ | reloadFails at_ =>
      apply before
      rw [at_]
      exact sees
  | reloads | rollsBack | givesUp | removes | registers => cases sees

/-- The package a call holds stays the only one inside its directory. -/
theorem AdvanceCase.single (h : AdvanceCase setup w call event w' stage)
    (before : ∀ destination, call.stage.holding = some destination →
      ∀ package ∈ w.packages, LiesIn destination package → package = destination)
    {destination : String} (holds : stage.holding = some destination) :
    ∀ package ∈ w'.packages, LiesIn destination package → package = destination := by
  cases h with
  | quiet plain _ | wrote plain _ _ _ => cases plain.1.symm.trans holds
  | moves _ empty =>
      cases holds
      intro package stored inside
      rcases List.mem_cons.mp stored with rfl | old
      · rfl
      · exact absurd inside (empty package old)
  | replaces at_ | reloads at_ | reloadFails at_ | rollsBack at_ =>
      apply before
      rw [at_]
      exact holds
  | givesUp loose => exact before destination ((CallStage.holding_of_loose loose).trans holds)
  | edits | removes | registers => cases holds

theorem sequentialInv_step {l : AuthoringStep} (sequential : Sequential w l)
    (inv : SequentialInv w) (h : (authoring setup).step w l = some w') : SequentialInv w' := by
  cases authoring_cases h with
  | prepared => exact ⟨inv.alone, inv.seen, inv.single⟩
  | @begun _ call begins plain _ =>
      constructor
      · exact inv.alone.concat (fun _ _ => id) fun c mem _ => sequential (by simp [begins]) c mem
      · intro i c text hi sees
        rcases getElem?_concat_cases hi with old | ⟨-, rfl⟩
        · exact inv.seen i c text old sees
        · cases plain.sees.symm.trans sees
      · intro i c destination hi holds
        rcases getElem?_concat_cases hi with old | ⟨-, rfl⟩
        · exact inv.single i c destination old holds
        · cases plain.1.symm.trans holds
  | @advanced i event call w₁ stage here going moved =>
      have running : ¬call.stage.ended = true := by simp [going]
      constructor
      · exact inv.alone.set (fun _ _ => id) here running fun _ => id
      · intro j c text hj sees
        rcases getElem?_set_cases hj with ⟨rfl, rfl⟩ | ⟨nj, old⟩
        · exact moved.seen (fun text => inv.seen j call text here) sees
        · have done := inv.alone.other here running old trivial nj
          cases (CallStage.nothing_of_ended done).1.symm.trans sees
      · intro j c destination hj holds
        rcases getElem?_set_cases hj with ⟨rfl, rfl⟩ | ⟨nj, old⟩
        · exact moved.single (fun destination => inv.single j call destination here) holds
        · have done := inv.alone.other here running old trivial nj
          cases (CallStage.nothing_of_ended done).2.symm.trans holds

end

/-- **One call at a time disturbs nothing**, where the edits append. -/
theorem undisturbed_of_sequential {setup : AuthoringSetup} {w w' : Authoring}
    {ls : List AuthoringStep}
    (run : Path (authoring setup) (fun w l => Sequential w l ∧ EditsAppend setup w l) w ls w')
    (idle : w.calls = []) : Path (authoring setup) (FilesUndisturbed setup) w ls w' := by
  refine run.strengthen (I := SequentialInv) ?_ ?_
  · rintro s l t ⟨sequential, edits⟩ inv step
    refine ⟨sequentialInv_step sequential inv step, ?_⟩
    unfold FilesUndisturbed
    split
    · rename_i i
      intro call here
      cases at_ : call.stage with
      | copied skillName destination => exact edits call skillName destination here at_
      | moved skillName destination original updated =>
          exact inv.seen i call original here (by rw [at_]; rfl)
      | rollingBack destination original updated =>
          exact inv.seen i call updated here (by rw [at_]; rfl)
      | removing destination error => exact inv.single i call destination here (by rw [at_]; rfl)
      | _ => trivial
    · trivial
  · have nothing : ∀ {i : ℕ} {call : AuthoringCall}, w.calls[i]? ≠ some call :=
      getElem?_ne_of_nil idle
    exact ⟨.of_nil idle, fun _ _ _ here => absurd here nothing,
      fun _ _ _ here => absurd here nothing⟩

/-! ### Runs -/

/-- The edit appends, read off the texts. -/
def editAppends (loads : TomlSkills) (original path : String) : Bool :=
  match addSkillPathToWorkspaceToml loads original path, loads original with
  | .ok updated, some (some skills) => loads updated = some (some (skills ++ [path]))
  | .ok _, _ => false
  | .error _, _ => true

instance (loads : TomlSkills) (original path : String) :
    Decidable (EditAppends loads original path) :=
  decidable_of_iff (editAppends loads original path = true) <| by
    unfold editAppends EditAppends
    cases added : addSkillPathToWorkspaceToml loads original path with
    | error e => simp
    | ok updated =>
        cases read : loads original with
        | none => simp
        | some skills? => cases skills? <;> simp

instance (loads : TomlSkills) (w : Authoring) (stage : CallStage) :
    Decidable (stage.Finds loads w) :=
  match stage with
  | .copied _ destination => inferInstanceAs (Decidable (EditAppends loads w.config destination))
  | .moved _ _ original _ => inferInstanceAs (Decidable (w.config = original))
  | .rollingBack _ _ updated => inferInstanceAs (Decidable (w.config = updated))
  | .removing destination _ =>
      inferInstanceAs (Decidable (∀ package ∈ w.packages, LiesIn destination package →
        package = destination))
  | .validating | .audited .. | .revalidating .. | .revalidationFailed .. | .promoting _
  | .edited .. | .replaced .. | .promoted .. | .cancelling | .written | .done _ => isTrue trivial

instance (setup : AuthoringSetup) (w : Authoring) (l : AuthoringStep) :
    Decidable (FilesUndisturbed setup w l) :=
  match l with
  | .advance i .next =>
      inferInstanceAs (Decidable (∀ call ∈ w.calls[i]?, call.stage.Finds setup.loads w))
  | .prepare .. | .submitDraft .. | .confirmRegistration .. | .cancel .. | .advance _ (.audit ..)
  | .advance _ (.fail _) => isTrue trivial

/-- A registration from the brief to the registered row. -/
def registeredSteps : List AuthoringStep :=
  validatedSteps 0 "a" "alpha" ++ [.confirmRegistration "a" true 1] ++
    foundAgain 1 "a" "alpha" :: goesOn 1 7

/-- A registration that no other disturbs. -/
theorem registered_skills_kept_alone :
    let start : Authoring := { config := skillsText [] }
    ∃ w', (authoring smallWorkspace).run start registeredSteps = some w' ∧
      w'.status? "a" = some .registered ∧ RegisteredKept smallWorkspace.loads w' := by
  intro start
  have undisturbed : (((authoring smallWorkspace).restrict (FilesUndisturbed smallWorkspace)).run
      start registeredSteps).map (·.status? "a") = some (some .registered) := by
    decide +kernel
  obtain ⟨w', found, status⟩ := Option.map_eq_some_iff.mp undisturbed
  have run := run_restrict_iff.mp found
  refine ⟨w', run_eq_some_iff.mpr run.free, status, registered_skills_kept run rfl ?_⟩
  intro requestId row none
  cases none

/-- Two requests, validated, and a registration of each. -/
def bothConfirmed : List AuthoringStep :=
  validatedSteps 0 "a" "alpha" ++ validatedSteps 1 "b" "beta" ++
    [.confirmRegistration "a" true 1, .confirmRegistration "b" true 1] ++
    [foundAgain 2 "a" "alpha", foundAgain 3 "b" "beta"]

/-- Both read `workspace.toml` before either replaces it. -/
def lostUpdate : List AuthoringStep :=
  bothConfirmed ++ goesOn 2 2 ++ goesOn 3 2 ++ goesOn 2 5 ++ goesOn 3 5

/-- The second registers between the first's read and its rollback. -/
def staleRollback : List AuthoringStep :=
  bothConfirmed ++ goesOn 2 2 ++ goesOn 3 7 ++ goesOn 2 2 ++ [.advance 2 (.fail "reload")] ++
    goesOn 2 2

/-- What a run leaves when no call is in progress: the status and the package of a
request, and the list. -/
def outcome (requestId : String) (ls : List AuthoringStep) :
    Option ((AuthoringStatus × Option String) × List String) :=
  ((authoring smallWorkspace).run { config := skillsText [] } ls).bind fun w =>
    if w.calls.all (·.stage.ended) then do
      let row ← w.requests requestId
      let skills ← ← smallWorkspace.loads w.config
      pure ((row.status, row.registrationResult.map (·.packagePath)), skills)
    else none

/-- A run leaves a state in which no call is in progress and a registered package is
not kept. -/
def Drops (ls : List AuthoringStep) : Prop :=
  ∃ w, (authoring smallWorkspace).run { config := skillsText [] } ls = some w ∧
    (∀ call ∈ w.calls, call.stage.ended = true) ∧ ¬RegisteredKept smallWorkspace.loads w

theorem drops_of_outcome {ls : List AuthoringStep} {requestId path : String}
    {skills : List String} (h : outcome requestId ls = some ((.registered, some path), skills))
    (unlisted : path ∉ skills) : Drops ls := by
  obtain ⟨w, run, h⟩ := Option.bind_eq_some_iff.mp h
  obtain ⟨ended, h⟩ := Option.ite_none_right_eq_some.mp h
  obtain ⟨row, found, h⟩ := Option.bind_eq_some_iff.mp h
  obtain ⟨list, parsed, h⟩ := Option.bind_eq_some_iff.mp h
  obtain ⟨skills', rfl, h⟩ := Option.bind_eq_some_iff.mp h
  have same := Option.some.inj h
  obtain ⟨status, packagePath⟩ := Prod.mk.inj (Prod.mk.inj same).1
  refine ⟨w, run, List.all_eq_true.mp ended, ?_⟩
  intro kept
  obtain ⟨result, recorded, -, list', read, listed⟩ := kept requestId row found status
  rw [recorded] at packagePath
  cases packagePath
  cases parsed.symm.trans read
  exact unlisted ((Prod.mk.inj same).2 ▸ listed)

/-- **Registered skills dropped.** Of two registrations that read the same
`workspace.toml` the later replacement wins; and a rollback puts back a text that
another registration has replaced since. -/
theorem registered_skills_dropped : Drops lostUpdate ∧ Drops staleRollback := by
  have lost : outcome "a" lostUpdate = some ((.registered, some alphaPackage), [betaPackage]) := by
    decide +kernel
  have stale : outcome "b" staleRollback = some ((.registered, some betaPackage), []) := by
    decide +kernel
  constructor
  · exact drops_of_outcome lost (by decide)
  · exact drops_of_outcome stale (List.not_mem_nil)

end AgentOs
