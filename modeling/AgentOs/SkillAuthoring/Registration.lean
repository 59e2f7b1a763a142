import AgentOs.Lib.Machine
import AgentOs.Lib.Path
import AgentOs.Lib.Slots
import AgentOs.Schemas
import AgentOs.SkillAuthoring.WorkspaceToml
import Mathlib.Logic.Function.Basic

/-!
Authoring requests and the calls on them (`skill_authoring.py`).

Each call reads its request, checks the status, works for as long as it likes and
writes. A read or a write of the store, a read or a replacement of `workspace.toml`,
a rename and a removal are one step each; in between, any other call may step. What
a validation finds, and whether a step raises, is in the labels.

`advance_cases` lists what a step of a call can do.
-/

namespace AgentOs

open AgentOs.Lib

/-! ### The store -/

inductive AuthoringStatus where
  | briefReady
  | validationFailed
  | validated
  | cancelled
  | registered
deriving DecidableEq, Repr

def AuthoringStatus.text : AuthoringStatus → String
  | briefReady => "brief_ready"
  | validationFailed => "validation_failed"
  | validated => "validated"
  | cancelled => "cancelled"
  | registered => "registered"

structure ValidationAudit where
  digest : String
  summary : Dict
  passed : Bool
deriving Repr

/-- What `promote_and_register` returns. -/
structure RegistrationResult where
  packagePath : String
  registeredSkillName : String
deriving DecidableEq, Repr

/-- A row of `skill_authoring_requests`. -/
structure AuthoringRequest where
  requestId : String
  workspaceId : String
  candidateId : String
  suggestedSkillName : String
  status : AuthoringStatus := .briefReady
  preparedAt : ℤ
  draftPath : Option String := none
  draftDigest : Option String := none
  validation : Option Dict := none
  registrationConfirmedAt : Option ℤ := none
  registeredAt : Option ℤ := none
  registrationResult : Option RegistrationResult := none
  error : Option String := none
deriving Repr

namespace AuthoringRequest

variable (row : AuthoringRequest)

/-- The `UPDATE` of `update_validation`. -/
def withValidation (status : AuthoringStatus) (draftPath : String) (audit : ValidationAudit)
    (error : Option String) : AuthoringRequest :=
  { row with
    status
    draftPath := some draftPath
    draftDigest := some audit.digest
    validation := some audit.summary
    error }

/-- The `UPDATE` of `mark_registered`. -/
def withRegistration (confirmedAt registeredAt : ℤ) (result : RegistrationResult) :
    AuthoringRequest :=
  { row with
    status := .registered
    registrationConfirmedAt := some confirmedAt
    registeredAt := some registeredAt
    registrationResult := some result
    error := none }

/-- The `UPDATE` of `cancel`. -/
def withCancellation : AuthoringRequest :=
  { row with status := .cancelled, error := none }

end AuthoringRequest

/-! ### Calls -/

/-- Where a call is. -/
inductive CallStage where
  /-- `submit_draft` has checked the status -/
  | validating
  | audited (packageDir : String) (audit : ValidationAudit)
  /-- `confirm_registration` has checked the status -/
  | revalidating (draftDigest skillName : String)
  | revalidationFailed (packageDir : String) (audit : ValidationAudit)
  /-- `promote_and_register` -/
  | promoting (skillName : String)
  /-- the package is copied beside its destination and loads -/
  | copied (skillName destination : String)
  /-- `workspace.toml` is read and its new text is in a temporary file -/
  | edited (skillName destination original updated : String)
  /-- the package is at its destination -/
  | moved (skillName destination original updated : String)
  /-- `workspace.toml` is replaced -/
  | replaced (skillName destination original updated : String)
  /-- the workspace did not reload -/
  | rollingBack (destination original updated : String)
  /-- the package is taken away again -/
  | removing (destination error : String)
  /-- `promote_and_register` has returned -/
  | promoted (skillName destination : String)
  /-- `cancel` has checked the status -/
  | cancelling
  /-- the row is written and will be read back -/
  | written
  | done (reply : Except String AuthoringRequest)
deriving Repr

/-- A call, from its first read on. -/
structure AuthoringCall where
  requestId : String
  now : ℤ := 0
  stage : CallStage
deriving Repr

/-- What ends a piece of work of a call. -/
inductive CallEvent where
  | next
  /-- the draft is found, digested and validated -/
  | audit (packageDir digest : String) (audit : ValidationAudit)
  | fail (error : String)

/-- A package is moved to its destination, or listed, for a request. -/
inductive Promotion where
  | installed (requestId destination : String)
  | listed (requestId destination : String)
deriving DecidableEq, Repr

def Promotion.requestId : Promotion → String
  | installed requestId _ => requestId
  | listed requestId _ => requestId

/-- The store, `workspace.toml`, the promoted packages, the promotions so far, and
the calls. -/
structure Authoring where
  requests : String → Option AuthoringRequest := fun _ => none
  config : String
  packages : List String := []
  promotions : List Promotion := []
  calls : List AuthoringCall := []

/-- The workspace of a service: its id, the directory of its approved packages, and
the TOML reader. -/
structure AuthoringSetup where
  workspaceId : String
  approvedRoot : List String
  loads : TomlSkills

/-- The text of an absolute path. -/
def pathText (path : List String) : String := "/" ++ Text.join "/" path

/-- A path in a directory, or the directory itself. -/
def LiesIn (directory path : String) : Prop :=
  path = directory ∨ Text.startsWith path (directory ++ "/") = true

instance (directory path : String) : Decidable (LiesIn directory path) :=
  inferInstanceAs (Decidable (_ ∨ _))

namespace Authoring

/-- Something exists at a path: a promoted package, or a directory on the way to one. -/
def exists? (w : Authoring) (path : String) : Bool :=
  w.packages.any fun package => LiesIn path package

/-- `UPDATE … WHERE request_id = ?`. -/
def updateRow (w : Authoring) (requestId : String) (set : AuthoringRequest → AuthoringRequest) :
    Authoring :=
  { w with requests := Function.update w.requests requestId ((w.requests requestId).map set) }

/-- `_require_request`. -/
def requireRequest (setup : AuthoringSetup) (w : Authoring) (requestId : String)
    (allowed : List AuthoringStatus) : Except String AuthoringRequest :=
  match w.requests requestId with
  | none => .error "Authoring request not found"
  | some request =>
      if request.workspaceId ≠ setup.workspaceId then .error "Authoring request not found"
      else if request.status ∈ allowed then .ok request
      else .error ("Authoring request is not ready for this action: " ++ request.status.text)

end Authoring

/-- The statuses `submit_draft` and `cancel` accept. -/
def openStatuses : List AuthoringStatus := [.briefReady, .validationFailed, .validated]

section

variable (setup : AuthoringSetup) (w : Authoring)

/-- The first step of `submit_draft`. -/
def submitDraft (requestId : String) : CallStage :=
  match w.requireRequest setup requestId openStatuses with
  | .error e => .done (.error e)
  | .ok _ => .validating

/-- The first step of `confirm_registration`. -/
def confirmRegistration (requestId : String) (confirm : Bool) : CallStage :=
  if !confirm then .done (.error "Final registration requires explicit confirm=true")
  else
    match w.requireRequest setup requestId [.validated] with
    | .error e => .done (.error e)
    | .ok request =>
        if request.draftPath.getD "" = "" ∨ request.draftDigest.getD "" = "" then
          .done (.error "Validated draft evidence is missing")
        else .revalidating (request.draftDigest.getD "") request.suggestedSkillName

/-- The first step of `cancel`. -/
def cancel (requestId : String) : CallStage :=
  match w.requireRequest setup requestId openStatuses with
  | .error e => .done (.error e)
  | .ok _ => .cancelling

/-- The destination of a skill's package, in the directory of approved packages. -/
def destinationOf (skillName : String) : Option String :=
  let destination := Path.resolve (Path.join setup.approvedRoot skillName)
  if setup.approvedRoot.isPrefixOf destination ∧ destination ≠ setup.approvedRoot then
    some (pathText destination)
  else none

/-- The next step of a call: the world it leaves, and where the call is then. -/
def AuthoringCall.advance (call : AuthoringCall) : CallEvent → Option (Authoring × CallStage)
  | .audit packageDir digest audit =>
      match call.stage with
      | .validating => some (w, .audited packageDir audit)
      | .revalidating draftDigest skillName =>
          if digest ≠ draftDigest then
            some (w, .done (.error "Draft changed after validation; submit it for validation again"))
          else if audit.passed = false ∨ audit.digest ≠ draftDigest then
            some (w, .revalidationFailed packageDir audit)
          else some (w, .promoting skillName)
      | _ => none
  | .next =>
      match call.stage with
      | .audited packageDir audit =>
          some (w.updateRow call.requestId fun row =>
            if audit.passed then row.withValidation .validated packageDir audit none
            else row.withValidation .validationFailed packageDir audit
              (some "Validation did not meet every deterministic rule"), .written)
      | .revalidationFailed packageDir audit =>
          some (w.updateRow call.requestId fun row =>
              row.withValidation .validationFailed packageDir audit
                (some "Revalidation failed before registration"),
            .done (.error
              "Revalidation failed; registry and workspace configuration were left unchanged"))
      | .promoting skillName =>
          match destinationOf setup skillName with
          | none => some (w, .done (.error "Approved package destination is unavailable"))
          | some destination =>
              if w.exists? destination then
                some (w, .done (.error "Approved package destination is unavailable"))
              else some (w, .copied skillName destination)
      | .copied skillName destination =>
          match addSkillPathToWorkspaceToml setup.loads w.config destination with
          | .error e => some (w, .done (.error e))
          | .ok updated => some (w, .edited skillName destination w.config updated)
      | .edited skillName destination original updated =>
          -- A directory that is not empty is not replaced.
          if w.exists? destination then some (w, .done (.error "Directory not empty"))
          else some
            ({ w with
                packages := destination :: w.packages
                promotions := w.promotions ++ [.installed call.requestId destination] },
              .moved skillName destination original updated)
      | .moved skillName destination original updated =>
          some
            ({ w with
                config := updated
                promotions := w.promotions ++ [.listed call.requestId destination] },
              .replaced skillName destination original updated)
      | .replaced skillName destination _ _ => some (w, .promoted skillName destination)
      | .rollingBack destination original _ =>
          some ({ w with config := original }, .removing destination
            "Workspace reload failed; configuration was rolled back")
      | .removing destination error =>
          some ({ w with packages := w.packages.filter fun package => ¬LiesIn destination package },
            .done (.error error))
      | .promoted skillName destination =>
          some (w.updateRow call.requestId fun row =>
            row.withRegistration call.now call.now ⟨destination, skillName⟩, .written)
      | .cancelling => some (w.updateRow call.requestId (·.withCancellation), .written)
      | .written =>
          match w.requests call.requestId with
          | none => some (w, .done (.error "Authoring request not found"))
          | some row => some (w, .done (.ok row))
      | .validating | .revalidating _ _ | .done _ => none
  | .fail error =>
      match call.stage with
      | .moved _ destination _ _ => some (w, .removing destination error)
      | .replaced _ destination original updated =>
          some (w, .rollingBack destination original updated)
      | .rollingBack destination _ _ => some (w, .removing destination error)
      | .done _ => none
      | _ => some (w, .done (.error error))

end

/-! ### The machine -/

inductive AuthoringStep where
  /-- an accepted `prepare_brief`, with the id `uuid4` draws -/
  | prepare (requestId candidateId suggestedSkillName : String) (now : ℤ)
  | submitDraft (requestId : String)
  | confirmRegistration (requestId : String) (confirm : Bool) (now : ℤ)
  | cancel (requestId : String)
  /-- the call at place `i` goes on -/
  | advance (i : ℕ) (event : CallEvent)

/-- A call is added, with its first read made. -/
def Authoring.begin (w : Authoring) (call : AuthoringCall) : Authoring :=
  { w with calls := w.calls ++ [call] }

def authoring (setup : AuthoringSetup) : Machine Authoring AuthoringStep where
  step w l :=
    match l with
    | .prepare requestId candidateId suggestedSkillName now =>
        match w.requests requestId with
        | some _ => none
        | none =>
            some { w with requests := Function.update w.requests requestId (some
              { requestId, workspaceId := setup.workspaceId, candidateId, suggestedSkillName
                preparedAt := now }) }
    | .submitDraft requestId =>
        some (w.begin { requestId, stage := submitDraft setup w requestId })
    | .confirmRegistration requestId confirm now =>
        some (w.begin { requestId, now, stage := confirmRegistration setup w requestId confirm })
    | .cancel requestId => some (w.begin { requestId, stage := cancel setup w requestId })
    | .advance i event =>
        w.calls[i]?.bind fun call =>
          (call.advance setup w event).map fun (w', stage) =>
            { w' with calls := w'.calls.set i { call with stage } }

/-! ### What a step can do -/

namespace CallStage

/-- The package a call has moved to its destination and not given up. -/
def holding : CallStage → Option String
  | moved _ destination _ _ | replaced _ destination _ _ | rollingBack destination _ _
  | removing destination _ | promoted _ destination => some destination
  | _ => none

/-- Of these, the ones it can still take away. -/
def loose : CallStage → Option String
  | moved _ destination _ _ | replaced _ destination _ _ | rollingBack destination _ _
  | removing destination _ => some destination
  | _ => none

/-- Of these, the ones it relies on being listed. -/
def listing : CallStage → Option String
  | replaced _ destination _ _ | promoted _ destination => some destination
  | _ => none

/-- The edit of `workspace.toml` a call has made: the destination, the text it read
and the text it wrote. -/
def edit : CallStage → Option (String × String × String)
  | edited _ destination original updated | moved _ destination original updated
  | replaced _ destination original updated | rollingBack destination original updated =>
      some (destination, original, updated)
  | _ => none

/-- The statuses whose check a stage relies on when it writes or promotes. -/
def guard : CallStage → Option (List AuthoringStatus)
  | audited _ _ | cancelling => some openStatuses
  | revalidationFailed _ _ | edited _ _ _ _ | moved _ _ _ _ | promoted _ _ => some [.validated]
  | _ => none

def ended : CallStage → Bool
  | done _ => true
  | _ => false

/-- The statuses a call counts on, from its check to its last write. -/
def relies : CallStage → Option (List AuthoringStatus)
  | validating | audited _ _ | cancelling => some openStatuses
  | revalidating _ _ | revalidationFailed _ _ | promoting _ | copied _ _ | edited _ _ _ _
  | moved _ _ _ _ | replaced _ _ _ _ | promoted _ _ => some [.validated]
  | _ => none

theorem relies_of_ended {stage : CallStage} (h : stage.ended = true) : stage.relies = none := by
  cases stage <;> first | rfl | cases h

theorem relies_of_guard {stage : CallStage} {allowed : List AuthoringStatus}
    (h : stage.guard = some allowed) : stage.relies = some allowed := by
  cases stage <;> first | exact h | cases h

/-- A stage with no package and no edit. -/
def Plain (stage : CallStage) : Prop := stage.holding = none ∧ stage.edit = none

end CallStage

/-- What a step of a call does. -/
inductive AdvanceCase (setup : AuthoringSetup) (w : Authoring) (call : AuthoringCall) :
    CallEvent → Authoring → CallStage → Prop where
  /-- nothing shared changes, and the call holds nothing afterwards -/
  | quiet {event : CallEvent} {stage : CallStage} : stage.Plain →
      (stage.relies = none ∨ stage.relies = call.stage.relies) →
      AdvanceCase setup w call event w stage
  /-- the row is written with a status that is not `registered` -/
  | wrote {set : AuthoringRequest → AuthoringRequest} {stage : CallStage}
      {allowed : List AuthoringStatus} : stage.Plain → stage.relies = none →
      call.stage.guard = some allowed → (∀ row, (set row).status ≠ .registered) →
      AdvanceCase setup w call .next (w.updateRow call.requestId set) stage
  | edits {skillName destination updated : String} : call.stage = .copied skillName destination →
      addSkillPathToWorkspaceToml setup.loads w.config destination = .ok updated →
      AdvanceCase setup w call .next w (.edited skillName destination w.config updated)
  | moves {skillName destination original updated : String} :
      call.stage = .edited skillName destination original updated →
      (∀ package ∈ w.packages, ¬LiesIn destination package) →
      AdvanceCase setup w call .next
        { w with
          packages := destination :: w.packages
          promotions := w.promotions ++ [.installed call.requestId destination] }
        (.moved skillName destination original updated)
  | replaces {skillName destination original updated : String} :
      call.stage = .moved skillName destination original updated →
      AdvanceCase setup w call .next
        { w with
          config := updated
          promotions := w.promotions ++ [.listed call.requestId destination] }
        (.replaced skillName destination original updated)
  | reloads {skillName destination original updated : String} :
      call.stage = .replaced skillName destination original updated →
      AdvanceCase setup w call .next w (.promoted skillName destination)
  | reloadFails {skillName destination original updated error : String} :
      call.stage = .replaced skillName destination original updated →
      AdvanceCase setup w call (.fail error) w (.rollingBack destination original updated)
  | rollsBack {destination original updated error : String} :
      call.stage = .rollingBack destination original updated →
      AdvanceCase setup w call .next { w with config := original } (.removing destination error)
  | givesUp {destination error : String} : call.stage.loose = some destination →
      AdvanceCase setup w call (.fail error) w (.removing destination error)
  | removes {destination error : String} {reply : Except String AuthoringRequest} :
      call.stage = .removing destination error →
      AdvanceCase setup w call .next
        { w with packages := w.packages.filter fun package => ¬LiesIn destination package }
        (.done reply)
  | registers {skillName destination : String} : call.stage = .promoted skillName destination →
      AdvanceCase setup w call .next
        (w.updateRow call.requestId fun row =>
          row.withRegistration call.now call.now ⟨destination, skillName⟩) .written

/-- **What a step of a call can do.** -/
theorem advance_cases {setup : AuthoringSetup} {w w' : Authoring} {call : AuthoringCall}
    {event : CallEvent} {stage : CallStage} (h : call.advance setup w event = some (w', stage)) :
    AdvanceCase setup w call event w' stage := by
  have quiet : ∀ {s : CallStage}, some (w, s) = some (w', stage) → s.Plain →
      (s.relies = none ∨ s.relies = call.stage.relies) →
      AdvanceCase setup w call event w' stage := by
    intro s same plain counted
    cases same
    exact .quiet plain counted
  obtain ⟨requestId, now, at_⟩ := call
  unfold AuthoringCall.advance at h
  cases event with
  | audit packageDir digest audit =>
      cases at_ with
      | validating => exact quiet h ⟨rfl, rfl⟩ (.inr rfl)
      | revalidating draftDigest skillName =>
          dsimp only at h
          split at h
          · exact quiet h ⟨rfl, rfl⟩ (.inl rfl)
          · split at h
            · exact quiet h ⟨rfl, rfl⟩ (.inr rfl)
            · exact quiet h ⟨rfl, rfl⟩ (.inr rfl)
      | _ => cases h
  | next =>
      cases at_ with
      | audited packageDir audit =>
          cases h
          refine .wrote ⟨rfl, rfl⟩ rfl rfl ?_
          intro row
          split
          · intro named
            cases named
          · intro named
            cases named
      | revalidationFailed packageDir audit =>
          cases h
          exact .wrote ⟨rfl, rfl⟩ rfl rfl fun _ named => by cases named
      | promoting skillName =>
          dsimp only at h
          split at h
          · exact quiet h ⟨rfl, rfl⟩ (.inl rfl)
          · split at h
            · exact quiet h ⟨rfl, rfl⟩ (.inl rfl)
            · exact quiet h ⟨rfl, rfl⟩ (.inr rfl)
      | copied skillName destination =>
          dsimp only at h
          split at h
          · exact quiet h ⟨rfl, rfl⟩ (.inl rfl)
          · rename_i updated edited
            cases h
            exact .edits rfl edited
      | edited skillName destination original updated =>
          dsimp only at h
          split at h
          · exact quiet h ⟨rfl, rfl⟩ (.inl rfl)
          · rename_i free
            cases h
            refine .moves rfl ?_
            intro package stored inside
            exact free (List.any_eq_true.mpr ⟨package, stored, decide_eq_true inside⟩)
      | moved skillName destination original updated =>
          cases h
          exact .replaces rfl
      | replaced skillName destination original updated =>
          cases h
          exact .reloads rfl
      | rollingBack destination original updated =>
          cases h
          exact .rollsBack rfl
      | removing destination error =>
          cases h
          exact .removes rfl
      | promoted skillName destination =>
          cases h
          exact .registers rfl
      | cancelling =>
          cases h
          exact .wrote ⟨rfl, rfl⟩ rfl rfl fun _ named => by cases named
      | written =>
          dsimp only at h
          split at h
          · exact quiet h ⟨rfl, rfl⟩ (.inl rfl)
          · exact quiet h ⟨rfl, rfl⟩ (.inl rfl)
      | _ => cases h
  | fail error =>
      cases at_ with
      | moved skillName destination original updated =>
          cases h
          exact .givesUp rfl
      | replaced skillName destination original updated =>
          cases h
          exact .reloadFails rfl
      | rollingBack destination original updated =>
          cases h
          exact .givesUp rfl
      | done reply => cases h
      | _ => exact quiet h ⟨rfl, rfl⟩ (.inl rfl)

/-- A call that is done does not step. -/
theorem advance_of_ended {setup : AuthoringSetup} {w : Authoring} {call : AuthoringCall}
    {event : CallEvent} (h : call.stage.ended = true) : call.advance setup w event = none := by
  obtain ⟨requestId, now, stage⟩ := call
  cases stage with
  | done reply => cases event <;> rfl
  | _ => cases h

/-- A step of a call leaves the other calls. -/
theorem AdvanceCase.calls {setup : AuthoringSetup} {w w' : Authoring} {call : AuthoringCall}
    {event : CallEvent} {stage : CallStage} (h : AdvanceCase setup w call event w' stage) :
    w'.calls = w.calls := by
  cases h <;> rfl

/-- The request of a call that begins. -/
def AuthoringStep.begins : AuthoringStep → Option String
  | submitDraft requestId => some requestId
  | confirmRegistration requestId _ _ => some requestId
  | cancel requestId => some requestId
  | _ => none

/-- The status of the request is among `allowed`. -/
def Authoring.StatusIn (w : Authoring) (requestId : String) (allowed : List AuthoringStatus) : Prop :=
  ∃ row, w.requests requestId = some row ∧ row.status ∈ allowed

theorem Authoring.statusIn_of_require {setup : AuthoringSetup} {w : Authoring} {requestId : String}
    {allowed : List AuthoringStatus} {request : AuthoringRequest}
    (h : w.requireRequest setup requestId allowed = .ok request) : w.StatusIn requestId allowed := by
  unfold requireRequest at h
  split at h
  · cases h
  · rename_i row found
    split at h
    · cases h
    · split at h
      · exact ⟨row, found, ‹_›⟩
      · cases h

/-- What a step of the machine does. -/
inductive AuthoringCase (setup : AuthoringSetup) (w : Authoring) :
    AuthoringStep → Authoring → Prop where
  | prepared {requestId candidateId suggestedSkillName : String} {now : ℤ} {row : AuthoringRequest} :
      w.requests requestId = none → row.status = .briefReady →
      AuthoringCase setup w (.prepare requestId candidateId suggestedSkillName now)
        { w with requests := Function.update w.requests requestId (some row) }
  | begun {l : AuthoringStep} {call : AuthoringCall} : l.begins = some call.requestId →
      call.stage.Plain →
      (∀ allowed, call.stage.relies = some allowed → w.StatusIn call.requestId allowed) →
      AuthoringCase setup w l (w.begin call)
  | advanced {i : ℕ} {event : CallEvent} {call : AuthoringCall} {w' : Authoring}
      {stage : CallStage} : w.calls[i]? = some call → call.stage.ended = false →
      AdvanceCase setup w call event w' stage →
      AuthoringCase setup w (.advance i event)
        { w' with calls := w.calls.set i { call with stage } }

theorem authoring_cases {setup : AuthoringSetup} {w w' : Authoring} {l : AuthoringStep}
    (h : (authoring setup).step w l = some w') : AuthoringCase setup w l w' := by
  unfold authoring at h
  dsimp only at h
  split at h
  · split at h
    · cases h
    · rename_i fresh
      cases h
      exact .prepared fresh rfl
  · rename_i requestId
    cases h
    refine .begun rfl ?_ ?_ <;> unfold submitDraft <;> dsimp only
    · split <;> exact ⟨rfl, rfl⟩
    · intro allowed counted
      split at counted
      · cases counted
      · cases counted
        exact Authoring.statusIn_of_require ‹_›
  · rename_i requestId confirm now
    cases h
    refine .begun rfl ?_ ?_ <;> unfold confirmRegistration <;> dsimp only
    · split
      · exact ⟨rfl, rfl⟩
      · split
        · exact ⟨rfl, rfl⟩
        · split <;> exact ⟨rfl, rfl⟩
    · intro allowed counted
      split at counted
      · cases counted
      · split at counted
        · cases counted
        · split at counted
          · cases counted
          · cases counted
            exact Authoring.statusIn_of_require ‹_›
  · rename_i requestId
    cases h
    refine .begun rfl ?_ ?_ <;> unfold cancel <;> dsimp only
    · split <;> exact ⟨rfl, rfl⟩
    · intro allowed counted
      split at counted
      · cases counted
      · cases counted
        exact Authoring.statusIn_of_require ‹_›
  · rename_i i event
    obtain ⟨call, here, h⟩ := Option.bind_eq_some_iff.mp h
    obtain ⟨⟨w₁, stage⟩, moved, rfl⟩ := Option.map_eq_some_iff.mp h
    have done := advance_cases moved
    dsimp only
    rw [done.calls]
    refine .advanced here ?_ done
    cases ended : call.stage.ended with
    | false => rfl
    | true =>
        rw [advance_of_ended ended] at moved
        cases moved

/-! ### A small workspace -/

/-- Two skills' packages. -/
def alphaPackage : String := "/w/skill-packages/alpha"

def betaPackage : String := "/w/skill-packages/beta"

/-- The text of a workspace with these skills, as it is written. -/
def skillsText (skills : List String) : String := renderSkills skills ++ "\n"

/-- A workspace in `/w`. The reader knows the texts that list its two skills. -/
def smallWorkspace : AuthoringSetup where
  workspaceId := "/w"
  approvedRoot := ["w", "skill-packages"]
  loads text := some <|
    [[], [alphaPackage], [betaPackage], [alphaPackage, betaPackage]].find? fun skills =>
      skillsText skills = text

/-- A request is prepared, its draft submitted and validated, by the call at place `i`. -/
def validatedSteps (i : ℕ) (requestId skillName : String) : List AuthoringStep :=
  [.prepare requestId requestId skillName 0, .submitDraft requestId,
    .advance i (.audit ("/w/skill-drafts/" ++ skillName) requestId ⟨requestId, [], true⟩),
    .advance i .next, .advance i .next]

/-- The call at place `i` goes on so many times. -/
def goesOn (i n : ℕ) : List AuthoringStep := List.replicate n (.advance i .next)

/-- The draft of a request is found as it was validated. -/
def foundAgain (i : ℕ) (requestId skillName : String) : AuthoringStep :=
  .advance i (.audit ("/w/skill-drafts/" ++ skillName) requestId ⟨requestId, [], true⟩)

end AgentOs
