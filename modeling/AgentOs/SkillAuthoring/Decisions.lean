import AgentOs.SkillAuthoring.Registration

/-!
Final decisions on an authoring request.

A call checks the status when it begins and writes when it ends; nothing is checked
in between. `decisions_final`: in a run in which the check would still pass whenever
a call writes or promotes, a cancelled request stays cancelled and nothing is
promoted for it, and a registered one stays registered. Calls that do not overlap
make such runs (`guarded_of_serial`); calls that do overlap need not
(`decisions_overtaken`).
-/

namespace AgentOs

open AgentOs.Lib Machine

namespace Authoring

variable (w : Authoring) (requestId : String)

def status? : Option AuthoringStatus := (w.requests requestId).map (·.status)

/-- What has been promoted for a request. -/
def promotionsOf : List Promotion := w.promotions.filter (·.requestId = requestId)

variable {w requestId}

theorem status?_updateRow_of_ne {other : String} (h : requestId ≠ other)
    (set : AuthoringRequest → AuthoringRequest) :
    (w.updateRow other set).status? requestId = w.status? requestId := by
  unfold status? updateRow
  dsimp only
  rw [Function.update_of_ne h]

theorem promotionsOf_append_of_ne {promotion : Promotion} (h : promotion.requestId ≠ requestId)
    {promotions : List Promotion} :
    (promotions ++ [promotion]).filter (·.requestId = requestId) =
      promotions.filter (·.requestId = requestId) := by
  rw [List.filter_append, List.filter_singleton]
  simp [h]

end Authoring

theorem Authoring.StatusIn.status? {w : Authoring} {requestId : String}
    {allowed : List AuthoringStatus} (h : w.StatusIn requestId allowed) :
    ∃ status ∈ allowed, w.status? requestId = some status := by
  obtain ⟨row, found, mem⟩ := h
  exact ⟨row.status, mem, by rw [Authoring.status?, found]; rfl⟩

/-- The check a call made when it began would still pass when it writes or promotes. -/
def Guarded (w : Authoring) : AuthoringStep → Prop
  | .advance i .next => ∀ call allowed, w.calls[i]? = some call →
      call.stage.guard = some allowed → w.StatusIn call.requestId allowed
  | _ => True

/-- A decision that was made before is in force after. -/
def DecisionsKept (requestId : String) (w w' : Authoring) : Prop :=
  (w.status? requestId = some .cancelled →
    w'.status? requestId = some .cancelled ∧
      w'.promotionsOf requestId = w.promotionsOf requestId) ∧
  (w.status? requestId = some .registered → w'.status? requestId = some .registered)

theorem DecisionsKept.of_same {requestId : String} {w w' : Authoring}
    (status : w'.status? requestId = w.status? requestId)
    (promotions : w'.promotionsOf requestId = w.promotionsOf requestId) :
    DecisionsKept requestId w w' :=
  ⟨fun h => ⟨status.trans h, promotions⟩, fun h => status.trans h⟩

/-- Where no decision was made there is none to keep. -/
theorem DecisionsKept.of_open {requestId : String} {w w' : Authoring} {status : AuthoringStatus}
    (h : w.status? requestId = some status) (isOpen : status ∈ openStatuses) :
    DecisionsKept requestId w w' := by
  constructor
  · intro decided
    cases h.symm.trans decided
    exact absurd isOpen (by decide)
  · intro decided
    cases h.symm.trans decided
    exact absurd isOpen (by decide)

/-- The statuses of every guard are open. -/
theorem CallStage.guard_open {stage : CallStage} {allowed : List AuthoringStatus}
    (h : stage.guard = some allowed) : ∀ status ∈ allowed, status ∈ openStatuses := by
  cases stage <;> cases h
  all_goals decide

/-- One step of a guarded run keeps decisions. -/
theorem decisionsKept_step {setup : AuthoringSetup} {w w' : Authoring} {l : AuthoringStep}
    (guarded : Guarded w l) (h : (authoring setup).step w l = some w') (requestId : String) :
    DecisionsKept requestId w w' := by
  cases authoring_cases h with
  | @prepared other _ _ _ row fresh _ =>
      by_cases same : requestId = other
      · -- There was no request to decide on.
        have none : w.status? requestId = none := by rw [same, Authoring.status?, fresh]; rfl
        constructor
        · intro decided
          cases none.symm.trans decided
        · intro decided
          cases none.symm.trans decided
      · refine .of_same ?_ rfl
        unfold Authoring.status?
        dsimp only
        rw [Function.update_of_ne same]
  | begun => exact .of_same rfl rfl
  | @advanced i event call w₁ stage here _ moved =>
      -- A guarded step is on another request, or on one that is still open.
      have acting : ∀ {allowed}, event = .next → call.stage.guard = some allowed →
          (requestId ≠ call.requestId → DecisionsKept requestId w
            { w₁ with calls := w.calls.set i { call with stage } }) →
          DecisionsKept requestId w { w₁ with calls := w.calls.set i { call with stage } } := by
        rintro allowed rfl guard elsewhere
        by_cases same : requestId = call.requestId
        · obtain ⟨status, mem, now⟩ := (guarded call allowed here guard).status?
          rw [← same] at now
          exact .of_open now (CallStage.guard_open guard status mem)
        · exact elsewhere same
      cases moved with
      | quiet => exact .of_same rfl rfl
      | wrote _ _ guard _ =>
          exact acting rfl guard fun other => .of_same (Authoring.status?_updateRow_of_ne other _) rfl
      | edits => exact .of_same rfl rfl
      | moves at_ _ =>
          refine acting rfl (by rw [at_]; rfl) fun other => .of_same rfl ?_
          exact Authoring.promotionsOf_append_of_ne (Ne.symm other)
      | replaces at_ =>
          refine acting rfl (by rw [at_]; rfl) fun other => .of_same rfl ?_
          exact Authoring.promotionsOf_append_of_ne (Ne.symm other)
      | reloads | reloadFails | rollsBack | givesUp | removes => exact .of_same rfl rfl
      | registers at_ =>
          exact acting rfl (by rw [at_]; rfl) fun other =>
            .of_same (Authoring.status?_updateRow_of_ne other _) rfl

/-- **Decisions are final in guarded runs**, from any state on: a cancelled request
stays cancelled and nothing is promoted for it, and a registered one stays
registered. -/
theorem decisions_final {setup : AuthoringSetup} {w w' : Authoring} {ls : List AuthoringStep}
    (run : Path (authoring setup) Guarded w ls w') (requestId : String) :
    (w.status? requestId = some .cancelled →
      w'.status? requestId = some .cancelled ∧
        w'.promotionsOf requestId = w.promotionsOf requestId) ∧
    (w.status? requestId = some .registered → w'.status? requestId = some .registered) := by
  refine run.relation (I := fun _ => True) (R := DecisionsKept requestId) ?_ ?_ ?_ trivial
  · intro a
    exact .of_same rfl rfl
  · intro a b c first second
    refine ⟨fun h => ?_, fun h => second.2 (first.2 h)⟩
    obtain ⟨status, promotions⟩ := first.1 h
    obtain ⟨status', promotions'⟩ := second.1 status
    exact ⟨status', promotions'.trans promotions⟩
  · intro a l b guarded _ step
    exact ⟨trivial, decisionsKept_step guarded step requestId⟩

/-- A cancelled request, with a registration still under way that times out. -/
theorem decisions_final_timeout :
    let w : Authoring :=
      { requests := fun _ => some
          { requestId := "r", workspaceId := "/w", candidateId := "c", suggestedSkillName := "alpha"
            status := .cancelled, preparedAt := 0 }
        config := skillsText []
        calls := [{ requestId := "r", stage := .revalidating "r" "alpha" }] }
    ∃ w', (authoring smallWorkspace).step w (.advance 0 (.fail "timed out")) = some w' ∧
      w'.status? "r" = some .cancelled ∧ w'.promotionsOf "r" = w.promotionsOf "r" := by
  intro w
  have guarded : Guarded w (.advance 0 (.fail "timed out")) := trivial
  refine ⟨_, rfl, ?_⟩
  exact (@decisions_final smallWorkspace _ _ _ (.single guarded rfl) "r").1 rfl

/-- **Decisions overtaken.** A registration that checked the status before the request
was cancelled promotes the package and registers it afterwards; a cancellation that
checked it before the registration cancels the registered request. -/
theorem decisions_overtaken :
    let start : Authoring := { config := skillsText [] }
    let checked := validatedSteps 0 "r" "alpha" ++ [.confirmRegistration "r" true 1, .cancel "r"]
    let registers := foundAgain 1 "r" "alpha" :: goesOn 1 7
    let run := fun ls => (authoring smallWorkspace).run start ls |>.map fun w =>
      (w.status? "r", w.promotionsOf "r")
    run (checked ++ goesOn 2 2) = some (some .cancelled, []) ∧
    run (checked ++ goesOn 2 2 ++ registers) = some (some .registered,
      [.installed "r" alphaPackage, .listed "r" alphaPackage]) ∧
    run (checked ++ registers) = some (some .registered,
      [.installed "r" alphaPackage, .listed "r" alphaPackage]) ∧
    run (checked ++ registers ++ goesOn 2 2) = some (some .cancelled,
      [.installed "r" alphaPackage, .listed "r" alphaPackage]) := by
  decide +kernel

/-! ### Calls that do not overlap -/

/-- A call begins when the others on its request are done. -/
def Serial (w : Authoring) (l : AuthoringStep) : Prop :=
  ∀ requestId, l.begins = some requestId →
    ∀ call ∈ w.calls, call.requestId = requestId → call.stage.ended = true

/-- One call at a time is on a request, and what it counts on holds. -/
structure SerialInv (w : Authoring) : Prop where
  alone : Exclusive (fun c c' => c.requestId = c'.requestId) (·.stage.ended = true) w.calls
  counted : ∀ (i : ℕ) (call : AuthoringCall) allowed, w.calls[i]? = some call →
    call.stage.relies = some allowed → w.StatusIn call.requestId allowed

/-- A row that is not written keeps its status. -/
theorem Authoring.StatusIn.updateRow {w : Authoring} {requestId other : String}
    {allowed : List AuthoringStatus} (h : w.StatusIn requestId allowed) (ne : requestId ≠ other)
    (set : AuthoringRequest → AuthoringRequest) :
    (w.updateRow other set).StatusIn requestId allowed := by
  obtain ⟨row, found, mem⟩ := h
  refine ⟨row, ?_, mem⟩
  unfold Authoring.updateRow
  dsimp only
  rw [Function.update_of_ne ne, found]

/-- What a step of a call writes is at most its own row, and then it counts on nothing more. -/
theorem AdvanceCase.requests {setup : AuthoringSetup} {w w' : Authoring} {call : AuthoringCall}
    {event : CallEvent} {stage : CallStage} (h : AdvanceCase setup w call event w' stage) :
    (w'.requests = w.requests ∧ (stage.relies = none ∨ stage.relies = call.stage.relies)) ∨
      stage.relies = none ∧ ∃ set, w' = w.updateRow call.requestId set := by
  cases h with
  | quiet _ counted => exact .inl ⟨rfl, counted⟩
  | wrote _ counted _ _ => exact .inr ⟨counted, _, rfl⟩
  | edits at_ _ | moves at_ _ | replaces at_ | reloads at_ =>
      exact .inl ⟨rfl, .inr (by rw [at_]; rfl)⟩
  | reloadFails | rollsBack | givesUp | removes => exact .inl ⟨rfl, .inl rfl⟩
  | registers => exact .inr ⟨rfl, _, rfl⟩

theorem serialInv_step {setup : AuthoringSetup} {w w' : Authoring} {l : AuthoringStep}
    (serial : Serial w l) (inv : SerialInv w) (h : (authoring setup).step w l = some w') :
    SerialInv w' := by
  cases authoring_cases h with
  | @prepared other _ _ _ row fresh _ =>
      refine ⟨inv.alone, ?_⟩
      intro i call allowed here counts
      obtain ⟨found, stored, mem⟩ := inv.counted i call allowed here counts
      have ne : call.requestId ≠ other := by
        intro same
        rw [same, fresh] at stored
        cases stored
      exact ⟨found, by dsimp only; rw [Function.update_of_ne ne, stored], mem⟩
  | @begun _ call begins _ relied =>
      constructor
      · exact inv.alone.concat (fun _ _ => Eq.symm) (serial _ begins)
      · intro i c allowed hi counts
        rcases getElem?_concat_cases hi with hi | ⟨-, rfl⟩
        · exact inv.counted i c allowed hi counts
        · exact relied allowed counts
  | @advanced i event call w₁ stage here going moved =>
      have running : ¬call.stage.ended = true := by simp [going]
      constructor
      · exact inv.alone.set (fun _ _ => Eq.symm) here running fun _ same => same
      · intro j c allowed hj counts
        rcases getElem?_set_cases hj with ⟨rfl, rfl⟩ | ⟨nj, old⟩
        · dsimp only at counts
          rcases moved.requests with ⟨same, counted⟩ | ⟨counted, -⟩
          · obtain ⟨row, found, mem⟩ := inv.counted j call allowed here (by
              rcases counted with none | kept
              · cases none.symm.trans counts
              · exact kept.symm.trans counts)
            exact ⟨row, by dsimp only; rw [same, found], mem⟩
          · cases counted.symm.trans counts
        · have relied := inv.counted j c allowed old counts
          rcases moved.requests with ⟨same, -⟩ | ⟨-, set, rfl⟩
          · obtain ⟨row, found, mem⟩ := relied
            exact ⟨row, by dsimp only; rw [same, found], mem⟩
          · refine relied.updateRow ?_ set
            -- Another call on the same request is done and counts on nothing.
            intro same
            have done := inv.alone.other here running old same.symm nj
            cases (CallStage.relies_of_ended done).symm.trans counts

/-- **Calls that do not overlap make guarded runs.** -/
theorem guarded_of_serial {setup : AuthoringSetup} {w w' : Authoring} {ls : List AuthoringStep}
    (run : Path (authoring setup) Serial w ls w') (idle : w.calls = []) :
    Path (authoring setup) Guarded w ls w' := by
  refine run.strengthen (I := SerialInv) (fun s l t serial inv step => ⟨?_, ?_⟩) ?_
  · exact serialInv_step serial inv step
  · cases l with
    | advance i event =>
        cases event with
        | next =>
            intro call allowed here guard
            exact inv.counted i call allowed here (CallStage.relies_of_guard guard)
        | _ => trivial
    | _ => trivial
  · refine ⟨.of_nil idle, ?_⟩
    intro i call allowed hi
    exact absurd hi (getElem?_ne_of_nil idle)

end AgentOs
