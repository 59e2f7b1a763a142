import AgentOs.Schedules.Claims

/-!
How `create_schedule` ends (`schedules.py`, `schedule_recurrence.py`, `server/api.py`).

The validation raises `ValueError`, and the endpoint answers 422 for that. Three places raise
something else: the arithmetic of `timedelta` and `datetime` (`OverflowError`), the table of units
(`KeyError`, for the `ſ` that the expression matches without regard to case), and the packages for
zones and cron texts. `Escapes` lists them by the input, and `createSchedule_clean_iff` says that
these are all.
-/

namespace AgentOs

open AgentOs.Lib

/-! ### Computations that raise `ValueError` only -/

def ScheduleError.isValueError : ScheduleError → Bool
  | valueError _ => true
  | _ => false

/-- What `validate_cron` catches. -/
def ScheduleError.isCaught : ScheduleError → Bool
  | valueError _ | keyError _ => true
  | _ => false

/-- Nothing but `ValueError` escapes. -/
def RaisesValueErrorOnly {α : Type} (x : Except ScheduleError α) : Prop :=
  ∀ e, x = .error e → e.isValueError = true

section

variable {α β : Type} {x : Except ScheduleError α} {f : α → Except ScheduleError β}

@[simp] theorem raisesValueErrorOnly_ok (a : α) :
    RaisesValueErrorOnly (.ok a : Except ScheduleError α) := by
  intro e raised
  cases raised

@[simp] theorem raisesValueErrorOnly_error {e : ScheduleError} :
    RaisesValueErrorOnly (.error e : Except ScheduleError α) ↔ e.isValueError = true := by
  constructor
  · exact fun only => only e rfl
  · intro value e' same
    cases same
    exact value

/-- A sequence raises what its first part raises, or else what follows does. -/
theorem raisesValueErrorOnly_bind :
    RaisesValueErrorOnly (x >>= f) ↔
      RaisesValueErrorOnly x ∧ ∀ a, x = .ok a → RaisesValueErrorOnly (f a) := by
  cases x with
  | error e =>
      have raised : (Except.error e >>= f : Except ScheduleError β) = .error e := rfl
      rw [raised, raisesValueErrorOnly_error, raisesValueErrorOnly_error]
      constructor
      · exact fun value => ⟨value, fun a same => by cases same⟩
      · exact fun both => both.1
  | ok a =>
      have goesOn : (Except.ok a >>= f : Except ScheduleError β) = f a := rfl
      rw [goesOn]
      constructor
      · exact fun only => ⟨raisesValueErrorOnly_ok a, fun b same => by cases same; exact only⟩
      · exact fun both => both.2 a rfl

end

variable (platform : Platform)

/-! ### What escapes -/

/-- An interval that `parse_interval` cannot turn into a `timedelta`: its unit is no key of the
table, or it is longer than a `timedelta` can be. -/
def IntervalEscapes (value : String) : Prop :=
  ∃ digits unit num, matchInterval platform (Text.strip value).toList = some (digits, unit) ∧
    parseInt digits = .ok num ∧
      (unit = .error (.keyError "ſ") ∨
        ∃ seconds, unit = .ok seconds ∧ 999999999 < num * seconds / 86400)

/-- A zone or a cron text for which a package raises what `validate_cron` does not catch. -/
def CronEscapes (expression timezone : String) : Prop :=
  (∃ e, platform.zoneInfo timezone = .error e ∧ e.isCaught = false) ∨
    platform.zoneInfo timezone = .ok () ∧ (Text.words (Text.strip expression)).length = 5 ∧
      ∃ e, platform.croniter expression = .error e ∧ e.isCaught = false

/-- A trigger that is valid, and has no next time. -/
def NextEscapes (triggerKind : TriggerKind) (triggerValue timezone : String) (now : UtcDateTime) :
    Prop :=
  match triggerKind with
  | .cron => ∃ e, platform.getNext triggerValue timezone now = .error e ∧ e.isValueError = false
  | .interval => ∃ delta : ℕ, parseInterval platform triggerValue = .ok delta ∧
      UtcDateTime.endOfTime ≤ now.instant + delta

/-- The inputs for which something else than `ValueError` is raised. -/
def Escapes (input : ScheduleInput) (now : UtcDateTime) : Prop :=
  input.kind ∈ ["run", "brief", "app_callback"] ∧
      (input.triggerKind = "interval" ∧ IntervalEscapes platform input.triggerValue ∨
        input.triggerKind = "cron" ∧ CronEscapes platform input.triggerValue input.timezone) ∨
    ∃ kind triggerKind payload,
      validateScheduleFields platform input = .ok (kind, triggerKind, payload) ∧
        NextEscapes platform triggerKind input.triggerValue input.timezone now

variable {platform}

/-- The expression lets through one unit that is no key. -/
theorem matchInterval_error {cs : List Char} {digits : List ℕ} {e : ScheduleError}
    (matched : matchInterval platform cs = some (digits, .error e)) : e = .keyError "ſ" := by
  unfold matchInterval at matched
  dsimp only at matched
  split at matched
  · cases matched
  · cases matched
  · obtain ⟨read, unit, same⟩ := Option.map_eq_some_iff.mp matched
    cases same
    unfold unitSeconds at unit
    split at unit <;> cases unit
    rfl
  · cases matched

theorem parseInt_error {digits : List ℕ} {e : ScheduleError} (raised : parseInt digits = .error e) :
    e.isValueError = true := by
  unfold parseInt at raised
  split at raised
  · cases raised
    rfl
  · cases raised

theorem raisesValueErrorOnly_timedelta {seconds : ℕ} {message : String} :
    RaisesValueErrorOnly
        (if seconds = 0 then .error (.valueError message) else timedelta seconds) ↔
      ¬ 999999999 < seconds / 86400 := by
  unfold timedelta
  split
  · rename_i zero
    rw [zero]
    exact ⟨fun _ => by decide, fun _ => raisesValueErrorOnly_error.mpr rfl⟩
  · split
    · rename_i short
      exact ⟨fun _ => not_lt.mpr short, fun _ => raisesValueErrorOnly_ok _⟩
    · rename_i long
      exact ⟨fun only => absurd (only _ rfl) Bool.false_ne_true,
        fun short => absurd (not_lt.mp short) long⟩

theorem raisesValueErrorOnly_parseInterval {value : String} :
    RaisesValueErrorOnly (parseInterval platform value) ↔ ¬ IntervalEscapes platform value := by
  unfold IntervalEscapes
  cases matched : matchInterval platform (Text.strip value).toList with
  | none =>
      unfold parseInterval
      rw [matched]
      constructor
      · rintro _ ⟨_, _, _, some, _⟩
        cases some
      · exact fun _ => raisesValueErrorOnly_error.mpr rfl
  | some found =>
      obtain ⟨digits, unit⟩ := found
      have parses : parseInterval platform value =
          parseInt digits >>= fun num => unit >>= fun seconds =>
            if num * seconds = 0 then
              .error (.valueError ("Interval must be positive, got " ++ Json.reprText value))
            else timedelta (num * seconds) := by
        unfold parseInterval
        rw [matched]
      rw [parses, raisesValueErrorOnly_bind]
      constructor
      · rintro ⟨_, only⟩ ⟨_, _, num, same, number, escapes⟩
        cases same
        have ⟨noKey, fits⟩ := raisesValueErrorOnly_bind.mp (only num number)
        rcases escapes with rfl | ⟨seconds, rfl, long⟩
        · exact absurd (noKey _ rfl) Bool.false_ne_true
        · exact raisesValueErrorOnly_timedelta.mp (fits seconds rfl) long
      · intro none
        refine ⟨fun e raised => parseInt_error raised, fun num number =>
          raisesValueErrorOnly_bind.mpr ⟨?_, ?_⟩⟩
        · rintro e rfl
          exact absurd ⟨_, _, num, rfl, number, .inl (by rw [matchInterval_error matched])⟩ none
        · intro seconds isUnit
          refine raisesValueErrorOnly_timedelta.mpr fun long => none ?_
          exact ⟨_, _, num, rfl, number, .inr ⟨seconds, isUnit, long⟩⟩

theorem raisesValueErrorOnly_validateCron {expression timezone : String} :
    RaisesValueErrorOnly (validateCron platform expression timezone) ↔
      ¬ CronEscapes platform expression timezone := by
  unfold validateCron CronEscapes
  cases zone : platform.zoneInfo timezone with
  | error e =>
      cases e with
      | valueError _ | keyError _ =>
          constructor
          · rintro _ (⟨_, same, uncaught⟩ | ⟨none, _⟩)
            · cases same
              cases uncaught
            · cases none
          · exact fun _ => raisesValueErrorOnly_error.mpr rfl
      | overflowError | integrityError | operationalError | other _ =>
          constructor
          · intro only
            exact absurd (raisesValueErrorOnly_error.mp only) Bool.false_ne_true
          · exact fun none => absurd (.inl ⟨_, rfl, rfl⟩) none
  | ok _ =>
      by_cases fields : (Text.words (Text.strip expression)).length = 5
      · have noFields : ¬ (Text.words (Text.strip expression)).length ≠ 5 := not_not.mpr fields
        rw [if_neg noFields]
        cases cron : platform.croniter expression with
        | error e =>
            cases e with
            | valueError _ | keyError _ =>
                constructor
                · rintro _ (⟨_, none, _⟩ | ⟨_, _, _, same, uncaught⟩)
                  · cases none
                  · cases same
                    cases uncaught
                · exact fun _ => raisesValueErrorOnly_error.mpr rfl
            | overflowError | integrityError | operationalError | other _ =>
                constructor
                · intro only
                  exact absurd (raisesValueErrorOnly_error.mp only) Bool.false_ne_true
                · exact fun none => absurd (.inr ⟨rfl, fields, _, rfl, rfl⟩) none
        | ok _ =>
            constructor
            · rintro _ (⟨_, none, _⟩ | ⟨_, _, _, none, _⟩)
              · cases none
              · cases none
            · exact fun _ => raisesValueErrorOnly_ok _
      · rw [if_pos fields]
        constructor
        · rintro _ (⟨_, none, _⟩ | ⟨_, five, _⟩)
          · cases none
          · exact fields five
        · exact fun _ => raisesValueErrorOnly_error.mpr rfl

theorem raisesValueErrorOnly_plus {now : UtcDateTime} {delta : ℕ} :
    RaisesValueErrorOnly (plus now delta) ↔ ¬ UtcDateTime.endOfTime ≤ now.instant + delta := by
  unfold plus UtcDateTime.add
  dsimp only
  split
  · rename_i within
    constructor
    · exact fun _ late => absurd within.2 (by omega)
    · exact fun _ => raisesValueErrorOnly_ok _
  · rename_i beyond
    constructor
    · exact fun only => absurd (only _ rfl) Bool.false_ne_true
    · exact fun early => absurd ⟨by omega, by omega⟩ beyond

theorem raisesValueErrorOnly_nextRunAt {triggerKind : TriggerKind} {value timezone : String}
    {now : UtcDateTime} (parses : triggerKind = .interval →
      ∃ delta, parseInterval platform value = .ok delta) :
    RaisesValueErrorOnly (nextRunAt platform triggerKind value timezone now) ↔
      ¬ NextEscapes platform triggerKind value timezone now := by
  unfold nextRunAt NextEscapes
  cases triggerKind with
  | cron =>
      constructor
      · rintro only ⟨e, raised, other⟩
        exact absurd (only e raised) (Bool.eq_false_iff.mp other)
      · intro none e raised
        cases value : e.isValueError with
        | true => rfl
        | false => exact absurd ⟨e, raised, value⟩ none
  | interval =>
      obtain ⟨delta, parsed⟩ := parses rfl
      dsimp only
      rw [parsed, raisesValueErrorOnly_bind]
      constructor
      · rintro ⟨_, only⟩ ⟨_, same, late⟩
        cases same
        exact raisesValueErrorOnly_plus.mp (only delta rfl) late
      · intro none
        refine ⟨raisesValueErrorOnly_ok _, fun _ same => ?_⟩
        cases same
        exact raisesValueErrorOnly_plus.mpr fun late => none ⟨delta, rfl, late⟩

/-- The checks of the payload raise `ValueError` only. -/
theorem raisesValueErrorOnly_checkPayloadKeys (kind : String) (known : List String)
    (payload : Dict) : RaisesValueErrorOnly (checkPayloadKeys kind known payload) := by
  unfold checkPayloadKeys
  dsimp only
  split
  · exact raisesValueErrorOnly_ok _
  · exact raisesValueErrorOnly_error.mpr rfl

theorem raisesValueErrorOnly_validateAppCallbackUrl (value : Json) :
    RaisesValueErrorOnly (validateAppCallbackUrl platform value) := by
  unfold validateAppCallbackUrl
  intro e raised
  dsimp only at raised
  split at raised
  · split at raised
    · cases raised
      rfl
    · split at raised
      · cases raised
        rfl
      · cases raised
  · cases raised
    rfl

theorem raisesValueErrorOnly_checkCallback (payload : Dict) :
    RaisesValueErrorOnly (checkCallback platform payload) := by
  unfold checkCallback
  refine raisesValueErrorOnly_bind.mpr
    ⟨raisesValueErrorOnly_checkPayloadKeys _ _ _, fun _ _ => ?_⟩
  dsimp only
  split
  · exact raisesValueErrorOnly_error.mpr rfl
  · refine raisesValueErrorOnly_bind.mpr
      ⟨raisesValueErrorOnly_validateAppCallbackUrl _, fun url _ => ?_⟩
    -- the method, the headers and the body: each is kept or refused
    split
    · split
      · refine raisesValueErrorOnly_bind.mpr ⟨raisesValueErrorOnly_ok _, fun method _ => ?_⟩
        generalize Json.setField (Json.setField payload "url" (.str url)) "method" (.str method) =
          payload
        repeat' split
        all_goals first
          | exact raisesValueErrorOnly_ok _
          | exact raisesValueErrorOnly_error.mpr rfl
      · exact raisesValueErrorOnly_error.mpr rfl
    · exact raisesValueErrorOnly_error.mpr rfl

/-! ### The validation in parts -/

/-- The kind a text names. -/
def readKind (text : String) : Except ScheduleError ScheduleKind :=
  match text with
  | "run" => .ok .run
  | "brief" => .ok .brief
  | "app_callback" => .ok .appCallback
  | other => .error (.valueError
      ("kind must be one of ['app_callback', 'brief', 'run'], got " ++ Json.reprText other))

def readTriggerKind (text : String) : Except ScheduleError TriggerKind :=
  match text with
  | "cron" => .ok .cron
  | "interval" => .ok .interval
  | other => .error (.valueError
      ("trigger_kind must be one of ['cron', 'interval'], got " ++ Json.reprText other))

def checkTrigger (platform : Platform) (input : ScheduleInput) :
    TriggerKind → Except ScheduleError Unit
  | .cron => validateCron platform input.triggerValue input.timezone
  | .interval => do
      let _ ← parseInterval platform input.triggerValue
      if input.timezone ≠ "UTC" then
        .error (.valueError ("Interval schedules are elapsed-time and reject non-UTC timezone; got "
          ++ Json.reprText input.timezone))

def checkPayload (platform : Platform) (payload : Dict) : ScheduleKind → Except ScheduleError Dict
  | .run => do
      checkPayloadKeys "run" ["task", "workspace"] payload
      if (payload.lookup "task").isNone then
        .error (.valueError "kind=run requires 'task' in payload")
      .ok payload
  | .brief => do
      checkPayloadKeys "brief" [] payload
      .ok payload
  | .appCallback => checkCallback platform payload

theorem ok_bind {α β : Type} (a : α) (f : α → Except ScheduleError β) :
    (Except.ok a >>= f) = f a := rfl

theorem error_bind {α β : Type} (e : ScheduleError) (f : α → Except ScheduleError β) :
    (Except.error e >>= f) = .error e := rfl

theorem validateScheduleFields_eq {input : ScheduleInput} :
    validateScheduleFields platform input = (do
      let kind ← readKind input.kind
      let triggerKind ← readTriggerKind input.triggerKind
      checkTrigger platform input triggerKind
      let payload ← checkPayload platform (input.payload.getD []) kind
      .ok (kind, triggerKind, payload)) := by
  obtain ⟨name, kind, triggerKind, triggerValue, timezone, payload, enabled⟩ := input
  unfold validateScheduleFields readKind readTriggerKind checkTrigger checkPayload
  by_cases zone : timezone = "UTC" <;> by_cases task : ((payload.getD []).lookup "task").isNone
  all_goals
    dsimp only
    split
    all_goals
      simp only [ok_bind, error_bind, bind_assoc, zone, task, ne_eq, not_true, not_false_iff,
        Bool.false_eq_true, if_true, if_false]
    any_goals
      split
      all_goals simp only [ok_bind, error_bind, bind_assoc, pure_bind]

theorem readKind_eq_ok_iff {text : String} :
    (∃ kind, readKind text = .ok kind) ↔ text ∈ ["run", "brief", "app_callback"] := by
  unfold readKind
  split
  · exact ⟨fun _ => by decide, fun _ => ⟨_, rfl⟩⟩
  · exact ⟨fun _ => by decide, fun _ => ⟨_, rfl⟩⟩
  · exact ⟨fun _ => by decide, fun _ => ⟨_, rfl⟩⟩
  · rename_i noRun noBrief noCallback
    constructor
    · rintro ⟨_, none⟩
      cases none
    · intro mem
      simp only [List.mem_cons, List.not_mem_nil, or_false] at mem
      rcases mem with run | brief | callback
      · exact absurd run noRun
      · exact absurd brief noBrief
      · exact absurd callback noCallback

theorem readKind_error {text : String} {e : ScheduleError} (raised : readKind text = .error e) :
    e.isValueError = true := by
  unfold readKind at raised
  split at raised <;> cases raised
  rfl

theorem readTriggerKind_cases (text : String) :
    text = "cron" ∧ readTriggerKind text = .ok .cron ∨
      text = "interval" ∧ readTriggerKind text = .ok .interval ∨
      text ≠ "cron" ∧ text ≠ "interval" ∧
        ∃ message, readTriggerKind text = .error (.valueError message) := by
  unfold readTriggerKind
  split
  · exact .inl ⟨rfl, rfl⟩
  · exact .inr (.inl ⟨rfl, rfl⟩)
  · rename_i noCron noInterval
    exact .inr (.inr ⟨noCron, noInterval, _, rfl⟩)

theorem raisesValueErrorOnly_checkPayload (payload : Dict) (kind : ScheduleKind) :
    RaisesValueErrorOnly (checkPayload platform payload kind) := by
  cases kind with
  | run =>
      refine raisesValueErrorOnly_bind.mpr
        ⟨raisesValueErrorOnly_checkPayloadKeys _ _ _, fun _ _ => ?_⟩
      dsimp only
      split
      · exact raisesValueErrorOnly_error.mpr rfl
      · exact raisesValueErrorOnly_ok _
  | brief =>
      exact raisesValueErrorOnly_bind.mpr
        ⟨raisesValueErrorOnly_checkPayloadKeys _ _ _, fun _ _ => raisesValueErrorOnly_ok _⟩
  | appCallback => exact raisesValueErrorOnly_checkCallback payload

theorem raisesValueErrorOnly_checkTrigger {input : ScheduleInput} {triggerKind : TriggerKind} :
    RaisesValueErrorOnly (checkTrigger platform input triggerKind) ↔
      ¬ match triggerKind with
        | .cron => CronEscapes platform input.triggerValue input.timezone
        | .interval => IntervalEscapes platform input.triggerValue := by
  cases triggerKind with
  | cron => exact raisesValueErrorOnly_validateCron
  | interval =>
      rw [checkTrigger, raisesValueErrorOnly_bind, raisesValueErrorOnly_parseInterval]
      refine and_iff_left fun delta _ => ?_
      split
      · exact raisesValueErrorOnly_error.mpr rfl
      · exact raisesValueErrorOnly_ok _

/-- The validation raises something else at the trigger only, behind a kind that is known. -/
theorem raisesValueErrorOnly_validateScheduleFields {input : ScheduleInput} :
    RaisesValueErrorOnly (validateScheduleFields platform input) ↔
      ¬ (input.kind ∈ ["run", "brief", "app_callback"] ∧
        (input.triggerKind = "interval" ∧ IntervalEscapes platform input.triggerValue ∨
          input.triggerKind = "cron" ∧
            CronEscapes platform input.triggerValue input.timezone)) := by
  have behind : ∀ kind triggerKind, RaisesValueErrorOnly (do
      checkTrigger platform input triggerKind
      let payload ← checkPayload platform (input.payload.getD []) kind
      .ok (kind, triggerKind, payload)) ↔
      RaisesValueErrorOnly (checkTrigger platform input triggerKind) := by
    intro kind triggerKind
    rw [raisesValueErrorOnly_bind]
    refine and_iff_left fun _ _ => raisesValueErrorOnly_bind.mpr
      ⟨raisesValueErrorOnly_checkPayload _ _, fun _ _ => raisesValueErrorOnly_ok _⟩
  rw [validateScheduleFields_eq, ← readKind_eq_ok_iff, raisesValueErrorOnly_bind]
  cases named : readKind input.kind with
  | error e =>
      constructor
      · rintro _ ⟨⟨_, none⟩, _⟩
        cases none
      · exact fun _ => ⟨raisesValueErrorOnly_error.mpr (readKind_error named),
          fun _ none => by cases none⟩
  | ok kind =>
      have known : (∃ kind', (Except.ok kind : Except ScheduleError _) = .ok kind') := ⟨kind, rfl⟩
      rw [and_iff_right known, and_iff_right (raisesValueErrorOnly_ok kind)]
      have only : (∀ kind', (Except.ok kind : Except ScheduleError _) = .ok kind' →
          RaisesValueErrorOnly (do
            let triggerKind ← readTriggerKind input.triggerKind
            checkTrigger platform input triggerKind
            let payload ← checkPayload platform (input.payload.getD []) kind'
            .ok (kind', triggerKind, payload))) ↔ RaisesValueErrorOnly (do
            let triggerKind ← readTriggerKind input.triggerKind
            checkTrigger platform input triggerKind
            let payload ← checkPayload platform (input.payload.getD []) kind
            .ok (kind, triggerKind, payload)) :=
        ⟨fun all => all kind rfl, fun one _ same => by cases same; exact one⟩
      rw [only]
      rcases readTriggerKind_cases input.triggerKind with
        ⟨cron, read⟩ | ⟨interval, read⟩ | ⟨noCron, noInterval, message, read⟩
      · rw [read, ok_bind, behind, raisesValueErrorOnly_checkTrigger, cron]
        simp
      · rw [read, ok_bind, behind, raisesValueErrorOnly_checkTrigger, interval]
        simp
      · rw [read, error_bind, raisesValueErrorOnly_error]
        simp [noCron, noInterval, ScheduleError.isValueError]

/-- A valid interval can be parsed again. -/
theorem parses_of_validated {input : ScheduleInput} {kind : ScheduleKind} {payload : Dict}
    (validated : validateScheduleFields platform input = .ok (kind, .interval, payload)) :
    ∃ delta, parseInterval platform input.triggerValue = .ok delta := by
  rw [validateScheduleFields_eq] at validated
  obtain ⟨_, _, validated⟩ := bind_eq_ok_iff.mp validated
  obtain ⟨triggerKind, _, validated⟩ := bind_eq_ok_iff.mp validated
  obtain ⟨_, checked, validated⟩ := bind_eq_ok_iff.mp validated
  obtain ⟨_, _, same⟩ := bind_eq_ok_iff.mp validated
  cases same
  obtain ⟨delta, parsed, _⟩ := bind_eq_ok_iff.mp checked
  exact ⟨delta, parsed⟩

/-- A row is made, or `ValueError` is raised, unless the input is one of those listed. -/
theorem raisesValueErrorOnly_newRow {input : ScheduleInput} {scheduleId : String}
    {now : UtcDateTime} :
    RaisesValueErrorOnly (newRow platform input scheduleId now) ↔ ¬ Escapes platform input now := by
  rw [newRow, raisesValueErrorOnly_bind, raisesValueErrorOnly_validateScheduleFields, Escapes,
    not_or]
  refine and_congr_right fun _ => ?_
  have behind : ∀ kind triggerKind payload,
      validateScheduleFields platform input = .ok (kind, triggerKind, payload) →
      (RaisesValueErrorOnly (do
        let nextRunAt ← nextRunAt platform triggerKind input.triggerValue input.timezone now
        .ok { scheduleId, name := input.name, kind, triggerKind, triggerValue := input.triggerValue,
              timezone := input.timezone, payload, enabled := input.enabled, nextRunAt,
              createdAt := now, updatedAt := now : ScheduleRow }) ↔
        ¬ NextEscapes platform triggerKind input.triggerValue input.timezone now) := by
    intro kind triggerKind payload validated
    rw [raisesValueErrorOnly_bind, raisesValueErrorOnly_nextRunAt fun interval => by
      rw [interval] at validated
      exact parses_of_validated validated]
    exact and_iff_left fun _ _ => raisesValueErrorOnly_ok _
  constructor
  · rintro only ⟨kind, triggerKind, payload, validated, escapes⟩
    exact (behind kind triggerKind payload validated).mp (only _ validated) escapes
  · rintro none ⟨kind, triggerKind, payload⟩ validated
    exact (behind kind triggerKind payload validated).mpr fun escapes =>
      none ⟨kind, triggerKind, payload, validated, escapes⟩

/-! ### The call and the endpoint -/

/-- `get_schedule`. -/
def getSchedule (table : ScheduleTable) (scheduleId : String) : Option ScheduleRow :=
  table.find? (·.scheduleId = scheduleId)

section

variable (platform : Platform)

/-- `create_schedule`, on a store that answers. -/
def createSchedule (input : ScheduleInput) (scheduleId : String) (now : UtcDateTime)
    (table : ScheduleTable) : Except ScheduleError ScheduleReply × ScheduleTable :=
  ((ScheduleCall.createSchedule input scheduleId now).transaction platform).perform table none

/-- `create_schedule_endpoint`: the status of its answer. What it does not catch is answered
with 500. -/
def createScheduleEndpoint (input : ScheduleInput) (scheduleId : String) (now : UtcDateTime)
    (table : ScheduleTable) : ℕ :=
  match createSchedule platform input scheduleId now table with
  | (.ok (.scheduleId sid), table) => if (getSchedule table sid).isNone then 500 else 201
  | (.ok _, _) => 500
  | (.error (.valueError _), _) => 422
  | (.error _, _) => 500

/-- One row is inserted, which is due later; or `ValueError` is raised, and none is. -/
def CreatesCleanly (input : ScheduleInput) (scheduleId : String) (now : UtcDateTime)
    (table : ScheduleTable) : Prop :=
  (∃ row : ScheduleRow,
      createSchedule platform input scheduleId now table =
          (.ok (.scheduleId scheduleId), table ++ [row]) ∧
        row.scheduleId = scheduleId ∧ now < row.nextRunAt ∧
        createScheduleEndpoint platform input scheduleId now table = 201) ∨
    ∃ message, createSchedule platform input scheduleId now table =
        (.error (.valueError message), table) ∧
      createScheduleEndpoint platform input scheduleId now table = 422

end

section

variable {input : ScheduleInput} {scheduleId : String} {now : UtcDateTime} {table : ScheduleTable}

theorem createSchedule_of_error {e : ScheduleError}
    (raised : newRow platform input scheduleId now = .error e) :
    createSchedule platform input scheduleId now table = (.error e, table) := by
  rw [createSchedule, ScheduleCall.transaction, raised]
  rfl

theorem newRow_scheduleId {row : ScheduleRow}
    (made : newRow platform input scheduleId now = .ok row) : row.scheduleId = scheduleId := by
  obtain ⟨⟨kind, triggerKind, payload⟩, _, made⟩ := bind_eq_ok_iff.mp made
  obtain ⟨next, _, same⟩ := bind_eq_ok_iff.mp made
  cases same
  rfl

theorem lt_newRow (strict : platform.StrictlyAfter) {row : ScheduleRow}
    (made : newRow platform input scheduleId now = .ok row) : now < row.nextRunAt := by
  obtain ⟨⟨kind, triggerKind, payload⟩, _, made⟩ := bind_eq_ok_iff.mp made
  obtain ⟨next, later, same⟩ := bind_eq_ok_iff.mp made
  cases same
  exact lt_nextRunAt strict later

theorem createSchedule_of_row {row : ScheduleRow}
    (new : scheduleId ∉ table.map (·.scheduleId))
    (made : newRow platform input scheduleId now = .ok row) :
    createSchedule platform input scheduleId now table =
      (.ok (.scheduleId scheduleId), table ++ [row]) := by
  have inserted : table.insert row = .ok (1, table ++ [row]) := by
    rw [ScheduleTable.insert, newRow_scheduleId made, if_neg new]
  rw [createSchedule, ScheduleCall.transaction, made]
  dsimp only
  rw [Transaction.perform, Transaction.attempt_execute inserted]
  rfl

/-- **A schedule is created or refused cleanly exactly where the input is not one of those that
escape.** -/
theorem createSchedule_clean_iff (strict : platform.StrictlyAfter) (input : ScheduleInput)
    (scheduleId : String) (now : UtcDateTime) (table : ScheduleTable)
    (new : scheduleId ∉ table.map (·.scheduleId)) :
    CreatesCleanly platform input scheduleId now table ↔ ¬ Escapes platform input now := by
  rw [← @raisesValueErrorOnly_newRow platform input scheduleId now]
  unfold CreatesCleanly createScheduleEndpoint
  cases made : newRow platform input scheduleId now with
  | ok row =>
      have kept : (getSchedule (table ++ [row]) scheduleId).isNone = false := by
        rw [getSchedule, Option.isNone_eq_false_iff, List.find?_isSome]
        exact ⟨row, List.mem_append_right _ List.mem_cons_self,
          decide_eq_true (newRow_scheduleId made)⟩
      rw [createSchedule_of_row new made]
      dsimp only
      rw [kept]
      constructor
      · exact fun _ => raisesValueErrorOnly_ok row
      · exact fun _ => .inl ⟨row, rfl, newRow_scheduleId made, lt_newRow strict made, rfl⟩
  | error e =>
      rw [createSchedule_of_error made, raisesValueErrorOnly_error]
      constructor
      · rintro (⟨_, none, _⟩ | ⟨message, raised, _⟩)
        · cases none
        · cases raised
          rfl
      · intro value
        cases e with
        | valueError message => exact .inr ⟨message, rfl, rfl⟩
        | keyError _ | overflowError | integrityError | operationalError | other _ => cases value

end

/-- A brief that is made again after a while. -/
def briefEvery (interval : String) : ScheduleInput where
  name := "brief"
  kind := "brief"
  triggerKind := "interval"
  triggerValue := interval

theorem createSchedule_clean_iff_hourly :
    CreatesCleanly everyMinute (briefEvery "1h") "a" (newYear 0 0) [] ↔
      ¬ Escapes everyMinute (briefEvery "1h") (newYear 0 0) :=
  createSchedule_clean_iff everyMinute_strictlyAfter _ _ _ _ (by decide)

/-- An interval of a billion days is no `timedelta`. -/
theorem billion_days_escape :
    ¬ ∀ input scheduleId now table, scheduleId ∉ table.map ScheduleRow.scheduleId →
      CreatesCleanly everyMinute input scheduleId now table := by
  intro clean
  have raised : newRow everyMinute (briefEvery "1000000000d") "a" (newYear 0 0) =
      .error .overflowError := by
    have parsed : parseInterval everyMinute (briefEvery "1000000000d").triggerValue =
        .error .overflowError := by decide +kernel
    have kind : readKind (briefEvery "1000000000d").kind = .ok .brief := rfl
    have triggerKind : readTriggerKind (briefEvery "1000000000d").triggerKind = .ok .interval := rfl
    rw [newRow, validateScheduleFields_eq, kind, ok_bind, triggerKind, ok_bind, checkTrigger,
      parsed]
    rfl
  rcases clean (briefEvery "1000000000d") "a" (newYear 0 0) [] (by decide) with
    ⟨_, created, _⟩ | ⟨_, refused, _⟩
  · rw [createSchedule_of_error raised] at created
    cases created
  · rw [createSchedule_of_error raised] at refused
    cases refused

end AgentOs
