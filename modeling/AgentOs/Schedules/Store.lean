import AgentOs.Lib.Transaction
import AgentOs.Schedules.Recurrence
import AgentOs.Schemas
import Mathlib.Data.List.Sort

/-!
The schedule store (`schedules.py`).

Rows stand in the order they were inserted; a time column holds the text
`isoformat` writes, and SQLite compares these texts. Every call is one
transaction (`ScheduleCall.transaction`), written out statement by statement;
`claim_due_schedules` reads the due rows and advances them one after another.
-/

namespace AgentOs

open AgentOs.Lib

inductive ScheduleKind where
  | run
  | brief
  | appCallback
deriving DecidableEq, Repr

/-- A row of `schedules`. -/
structure ScheduleRow where
  scheduleId : String
  name : String
  kind : ScheduleKind
  triggerKind : TriggerKind
  triggerValue : String
  timezone : String
  payload : Dict
  enabled : Bool := true
  nextRunAt : UtcDateTime
  lastRunAt : Option UtcDateTime := none
  lastStatus : Option String := none
  lastError : Option String := none
  createdAt : UtcDateTime
  updatedAt : UtcDateTime
deriving Repr

abbrev ScheduleTable := List ScheduleRow

/-! ### Validation -/

/-- `sorted(names)`, as it is printed. -/
def sortedNames (names : List String) : String :=
  Json.repr (texts (names.insertionSort (· ≤ ·)))

/-- Payload keys a kind does not know are refused. -/
def checkPayloadKeys (kind : String) (known : List String) (payload : Dict) :
    Except ScheduleError Unit :=
  let unknown := (payload.map Prod.fst).filter (· ∉ known)
  if unknown = [] then .ok ()
  else .error (.valueError ("Unknown payload keys for kind=" ++ kind ++ ": " ++ sortedNames unknown))

/-- `bool(value)`. -/
def truthy : Json → Bool
  | .null => false
  | .bool b => b
  | .num text => !((text.toList.takeWhile fun c => c ≠ 'e' && c ≠ 'E').all
      fun c => c = '0' || c = '.' || c = '-')
  | .str s => s ≠ ""
  | .arr items => !items.isEmpty
  | .obj fields => !fields.isEmpty

/-- `validate_app_callback_url`. -/
def validateAppCallbackUrl (platform : Platform) (value : Json) : Except ScheduleError String :=
  let refused : Except ScheduleError String := .error (.valueError
    "url must start with 'http://' or 'https://' and include a valid host")
  match value with
  | .str value =>
      let value := Text.strip value
      match platform.urlsplit value with
      | none => refused
      | some (scheme, hostname) =>
          if Text.lower scheme ∉ ["http", "https"] ∨ hostname.getD "" = "" ∨
              value.toList.any Text.isSpace then refused
          else .ok value
  | _ => refused

/-- The payload checks of a callback, with what they change in the payload. -/
def checkCallback (platform : Platform) (payload : Dict) : Except ScheduleError Dict := do
  checkPayloadKeys "app_callback" ["url", "method", "headers", "body"] payload
  let url := (payload.lookup "url").getD .null
  if !truthy url then
    .error (.valueError "kind=app_callback requires 'url' in payload")
  let url ← validateAppCallbackUrl platform url
  let payload := Json.setField payload "url" (.str url)
  let method := match payload.lookup "method" with
    | some method => if truthy method then method else .str "POST"
    | none => .str "POST"
  let refused : Except ScheduleError String := .error (.valueError
    ("method must be one of ['DELETE', 'GET', 'PATCH', 'POST', 'PUT'], got " ++ Json.repr method))
  let method ← match method with
    | .str text =>
        let upper := String.ofList (text.toList.map Char.toUpper)
        if upper ∈ ["GET", "POST", "PUT", "PATCH", "DELETE"] then .ok upper else refused
    | _ => refused
  let payload := Json.setField payload "method" (.str method)
  match payload.lookup "headers" with
  | none | some .null => .ok ()
  | some (.obj fields) =>
      if fields.all fun field => match field.2 with | .str _ => true | _ => false then .ok ()
      else .error (.valueError "headers must be a dict of string key-value pairs")
  | some _ => .error (.valueError "headers must be a dict of string key-value pairs")
  match payload.lookup "body" with
  | none | some .null | some (.obj _) => .ok payload
  | some _ => .error (.valueError "body must be a dict")

/-- What `create_schedule` is given. -/
structure ScheduleInput where
  name : String
  kind : String
  triggerKind : String
  triggerValue : String
  timezone : String := "UTC"
  payload : Option Dict := none
  enabled : Bool := true
deriving Repr

/-- `_validate_schedule_fields`: the kind, the trigger and the payload it leaves. -/
def validateScheduleFields (platform : Platform) (input : ScheduleInput) :
    Except ScheduleError (ScheduleKind × TriggerKind × Dict) := do
  let payload := input.payload.getD []
  let kind ← match input.kind with
    | "run" => .ok ScheduleKind.run
    | "brief" => .ok .brief
    | "app_callback" => .ok .appCallback
    | other => .error (.valueError
        ("kind must be one of ['app_callback', 'brief', 'run'], got " ++ Json.reprText other))
  let triggerKind ← match input.triggerKind with
    | "cron" => .ok TriggerKind.cron
    | "interval" => .ok .interval
    | other => .error (.valueError
        ("trigger_kind must be one of ['cron', 'interval'], got " ++ Json.reprText other))
  match triggerKind with
  | .cron => validateCron platform input.triggerValue input.timezone
  | .interval => do
      let _ ← parseInterval platform input.triggerValue
      if input.timezone ≠ "UTC" then
        .error (.valueError ("Interval schedules are elapsed-time and reject non-UTC timezone; got "
          ++ Json.reprText input.timezone))
  let payload ← match kind with
    | .run => do
        checkPayloadKeys "run" ["task", "workspace"] payload
        if (payload.lookup "task").isNone then
          .error (.valueError "kind=run requires 'task' in payload")
        .ok payload
    | .brief => do
        checkPayloadKeys "brief" [] payload
        .ok payload
    | .appCallback => checkCallback platform payload
  .ok (kind, triggerKind, payload)

/-! ### Statements -/

namespace ScheduleTable

variable (table : ScheduleTable)

/-- `INSERT`; the schedule id is the primary key. -/
def insert (row : ScheduleRow) : Except ScheduleError (ℕ × ScheduleTable) :=
  if row.scheduleId ∈ table.map (·.scheduleId) then .error .integrityError
  else .ok (1, table ++ [row])

/-- `UPDATE … WHERE schedule_id = ?`. -/
def update (scheduleId : String) (set : ScheduleRow → ScheduleRow) :
    Except ScheduleError (ℕ × ScheduleTable) :=
  .ok (table.countP (·.scheduleId = scheduleId),
    table.map fun row => if row.scheduleId = scheduleId then set row else row)

/-- `DELETE … WHERE schedule_id = ?`. -/
def delete (scheduleId : String) : Except ScheduleError (ℕ × ScheduleTable) :=
  .ok (table.countP (·.scheduleId = scheduleId), table.filter (·.scheduleId ≠ scheduleId))

/-- `LIMIT ?`: a negative limit is none. -/
def limitTo (limit : ℤ) (rows : List ScheduleRow) : List ScheduleRow :=
  if limit < 0 then rows else rows.take limit.toNat

/-- `SELECT … WHERE enabled = 1 AND next_run_at <= ? ORDER BY next_run_at ASC LIMIT ?`. -/
def selectDue (now : String) (limit : ℤ) : List ScheduleRow :=
  limitTo limit ((table.filter fun row => row.enabled ∧ TextLe row.nextRunAt.isoformat now)
    |>.insertionSort fun a b => TextLe a.nextRunAt.isoformat b.nextRunAt.isoformat)

end ScheduleTable

/-! ### Calls -/

/-- What a call returns. -/
inductive ScheduleReply where
  | scheduleId (scheduleId : String)
  | flag (value : Bool)
  | claimed (rows : List ScheduleRow)
  | none
deriving Repr

abbrev ScheduleTransaction := Transaction ScheduleTable ScheduleError ScheduleReply

/-- The calls that write to the store, with the clock's reading where they take it
themselves and the id `uuid4` draws. -/
inductive ScheduleCall where
  | createSchedule (input : ScheduleInput) (scheduleId : String) (now : UtcDateTime)
  | claimDueSchedules (now : UtcDateTime) (limit : ℤ)
  | setScheduleEnabled (scheduleId : String) (enabled : Bool) (now : UtcDateTime)
  | removeSchedule (scheduleId : String)
  | recordScheduleResult (scheduleId status : String) (error : Option String) (now : UtcDateTime)

section

variable (platform : Platform)

/-- The row `create_schedule` inserts. -/
def newRow (input : ScheduleInput) (scheduleId : String) (now : UtcDateTime) :
    Except ScheduleError ScheduleRow := do
  let (kind, triggerKind, payload) ← validateScheduleFields platform input
  let nextRunAt ← nextRunAt platform triggerKind input.triggerValue input.timezone now
  .ok
    { scheduleId
      name := input.name
      kind
      triggerKind
      triggerValue := input.triggerValue
      timezone := input.timezone
      payload
      enabled := input.enabled
      nextRunAt
      createdAt := now
      updatedAt := now }

/-- The next time of a due row. -/
def advanced (now : UtcDateTime) (row : ScheduleRow) : Except ScheduleError UtcDateTime := do
  let persisted ← (UtcDateTime.fromisoformat row.nextRunAt.isoformat).mapError .valueError
  coalesceNextRun platform row.triggerKind row.triggerValue row.timezone persisted now

/-- A claimed row. -/
def ScheduleRow.claim (now next : UtcDateTime) (row : ScheduleRow) : ScheduleRow :=
  { row with nextRunAt := next, lastRunAt := some now, updatedAt := now }

/-- The loop of `claim_due_schedules` over the rows still to be claimed. -/
def claimRows (now : UtcDateTime) : List ScheduleRow → List ScheduleRow → ScheduleTransaction
  | [], claimed => .commit (.claimed claimed)
  | row :: rows, claimed =>
      match advanced platform now row with
      | .error e => .abort e
      | .ok next =>
          .execute (·.update row.scheduleId (.claim now next)) fun _ =>
            claimRows now rows (claimed ++ [row])

/-- The transaction of a call. -/
def ScheduleCall.transaction : ScheduleCall → ScheduleTransaction
  | createSchedule input scheduleId now =>
      match newRow platform input scheduleId now with
      | .error e => .abort e
      | .ok row => .execute (·.insert row) fun _ => .commit (.scheduleId scheduleId)
  | claimDueSchedules now limit =>
      .select fun table => claimRows platform now (table.selectDue now.isoformat limit) []
  | setScheduleEnabled scheduleId enabled now =>
      .execute (·.update scheduleId fun row => { row with enabled, updatedAt := now })
        fun rowcount => .commit (.flag (rowcount > 0))
  | removeSchedule scheduleId =>
      .execute (·.delete scheduleId) fun rowcount => .commit (.flag (rowcount > 0))
  | recordScheduleResult scheduleId status error now =>
      .execute (·.update scheduleId fun row =>
          { row with lastStatus := some status, lastError := error, updatedAt := now })
        fun _ => .commit .none

end

end AgentOs
