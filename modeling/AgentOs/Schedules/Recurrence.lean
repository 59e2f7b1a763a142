import AgentOs.Lib.Json
import AgentOs.Lib.Timestamps
import AgentOs.Lib.Transaction

/-!
Recurrence of schedules (`schedule_recurrence.py`).

An interval adds seconds; a cron expression is handed to croniter, which is a
parameter here (`Platform`), with what is relied on as a hypothesis about it
(`StrictlyAfter`). `coalesce_spec` says what missed-fire coalescing returns: the
same time where it is still to come, else a later one past now, which for an
interval lies whole intervals on and at most one past now.
-/

namespace AgentOs

open AgentOs.Lib

/-- What the scheduling code raises. -/
inductive ScheduleError where
  | valueError (message : String)
  | keyError (key : String)
  | overflowError
  | integrityError
  | operationalError
  | other (type : String)
deriving DecidableEq, Repr

inductive TriggerKind where
  | cron
  | interval
deriving DecidableEq, Repr

/-- The packages and tables the recurrence code uses. -/
structure Platform where
  /-- `ZoneInfo(timezone)`. -/
  zoneInfo : String → Except ScheduleError Unit
  /-- `croniter(expression)`. -/
  croniter : String → Except ScheduleError Unit
  /-- `croniter(expression, base in timezone).get_next`, back in UTC. -/
  getNext : (expression timezone : String) → UtcDateTime → Except ScheduleError UtcDateTime
  /-- The value of a decimal digit, in any script. -/
  decimalDigit : Char → Option ℕ
  /-- `urlsplit`: scheme and host, where the URL and its port are well formed. -/
  urlsplit : String → Option (String × Option String)

/-- What croniter documents: the next time is strictly after its base. -/
def Platform.StrictlyAfter (platform : Platform) : Prop :=
  ∀ expression timezone base next,
    platform.getNext expression timezone base = .ok next → base < next

variable (platform : Platform)

/-! ### Intervals -/

/-- `_UNIT_SECONDS`, with the letters the expression matches in either case; `ſ` is
one of them, and no key. -/
def unitSeconds (unit : Char) : Option (Except ScheduleError ℕ) :=
  match unit.toLower with
  | 's' => some (.ok 1)
  | 'm' => some (.ok 60)
  | 'h' => some (.ok 3600)
  | 'd' => some (.ok 86400)
  | 'ſ' => some (.error (.keyError "ſ"))
  | _ => none

/-- `int(digits)`. -/
def parseInt (digits : List ℕ) : Except ScheduleError ℕ :=
  if 4300 < digits.length then
    .error (.valueError ("Exceeds the limit (4300 digits) for integer string conversion: value has "
      ++ toString digits.length ++ " digits; use sys.set_int_max_str_digits() to increase the limit"))
  else .ok (digits.foldl (fun n digit => 10 * n + digit) 0)

/-- `timedelta(seconds=...)`, in microseconds. -/
def timedelta (seconds : ℕ) : Except ScheduleError ℕ :=
  if seconds / 86400 ≤ 999999999 then .ok (seconds * 1000000) else .error .overflowError

/-- `_INTERVAL_RE.match`: the values of the digits, and what the unit is looked up as. -/
def matchInterval (cs : List Char) : Option (List ℕ × Except ScheduleError ℕ) :=
  let digits := (cs.takeWhile fun c => (platform.decimalDigit c).isSome).filterMap
    platform.decimalDigit
  let rest := (cs.dropWhile fun c => (platform.decimalDigit c).isSome).dropWhile Text.isSpace
  match digits, rest with
  | [], _ => none
  | digits, [] => some (digits, .ok 1)
  | digits, [unit] => (unitSeconds unit).map (digits, ·)
  | _, _ => none

/-- `parse_interval`, in microseconds. -/
def parseInterval (value : String) : Except ScheduleError ℕ :=
  match matchInterval platform (Text.strip value).toList with
  | none => .error (.valueError ("Invalid interval " ++ Json.reprText value ++
      "; expected a positive integer with optional unit (s/m/h/d)"))
  | some (digits, unitSeconds) => do
      let num ← parseInt digits
      let seconds ← unitSeconds
      let totalSeconds := num * seconds
      if totalSeconds = 0 then
        .error (.valueError ("Interval must be positive, got " ++ Json.reprText value))
      else timedelta totalSeconds

/-! ### Cron expressions -/

/-- `validate_cron`. -/
def validateCron (expression timezone : String) : Except ScheduleError Unit := do
  match platform.zoneInfo timezone with
  | .error (.keyError _) | .error (.valueError _) =>
      .error (.valueError ("Unknown timezone " ++ Json.reprText timezone))
  | .error e => .error e
  | .ok () => .ok ()
  if (Text.words (Text.strip expression)).length ≠ 5 then
    .error (.valueError ("Invalid cron expression " ++ Json.reprText expression ++
      ": must have exactly 5 fields"))
  match platform.croniter expression with
  | .error (.keyError text) | .error (.valueError text) =>
      .error (.valueError ("Invalid cron expression " ++ Json.reprText expression ++ ": " ++ text))
  | .error e => .error e
  | .ok () => .ok ()

/-! ### Next times -/

/-- `datetime + timedelta`. -/
def plus (time : UtcDateTime) (delta : ℤ) : Except ScheduleError UtcDateTime :=
  (time.add delta).mapError fun _ => .overflowError

/-- `next_run_at`. -/
def nextRunAt (triggerKind : TriggerKind) (triggerValue timezone : String) (after : UtcDateTime) :
    Except ScheduleError UtcDateTime :=
  match triggerKind with
  | .cron => platform.getNext triggerValue timezone after
  | .interval => do
      let delta ← parseInterval platform triggerValue
      plus after delta

/-- `coalesce_next_run`. -/
def coalesceNextRun (triggerKind : TriggerKind) (triggerValue timezone : String)
    (persisted now : UtcDateTime) : Except ScheduleError UtcDateTime :=
  if persisted > now then .ok persisted
  else
    match triggerKind with
    | .cron => nextRunAt platform triggerKind triggerValue timezone now
    | .interval => do
        let delta ← parseInterval platform triggerValue
        let elapsed := now.sub persisted
        let skips := elapsed / delta + 1
        plus persisted (delta * skips)

variable {platform}

theorem plus_eq_ok_iff {time next : UtcDateTime} {delta : ℤ} :
    plus time delta = .ok next ↔ (next.instant : ℤ) = time.instant + delta := by
  rw [← UtcDateTime.add_eq_ok_iff]
  unfold plus
  cases time.add delta <;> simp [Except.mapError]

theorem timedelta_eq {seconds delta : ℕ} (h : timedelta seconds = .ok delta) :
    delta = seconds * 1000000 := by
  unfold timedelta at h
  split at h
  · exact (Except.ok.inj h).symm
  · cases h

/-- An interval is positive. -/
theorem parseInterval_pos {value : String} {delta : ℕ}
    (h : parseInterval platform value = .ok delta) : 0 < delta := by
  unfold parseInterval at h
  split at h
  · cases h
  · obtain ⟨num, -, h⟩ := bind_eq_ok_iff.mp h
    obtain ⟨seconds, -, h⟩ := bind_eq_ok_iff.mp h
    dsimp only at h
    split at h
    · cases h
    · have := timedelta_eq h
      omega

/-- The time after an interval. -/
theorem nextRunAt_interval {value timezone : String} {after next : UtcDateTime}
    (h : nextRunAt platform .interval value timezone after = .ok next) :
    ∃ delta, parseInterval platform value = .ok delta ∧ next.instant = after.instant + delta := by
  obtain ⟨delta, parsed, h⟩ := bind_eq_ok_iff.mp h
  have := plus_eq_ok_iff.mp h
  exact ⟨delta, parsed, by omega⟩

/-- **The next time is strictly after the time it is asked for.** -/
theorem lt_nextRunAt (strict : platform.StrictlyAfter) {triggerKind : TriggerKind}
    {value timezone : String} {after next : UtcDateTime}
    (h : nextRunAt platform triggerKind value timezone after = .ok next) : after < next := by
  cases triggerKind with
  | cron => exact strict _ _ _ _ h
  | interval =>
      obtain ⟨delta, parsed, equal⟩ := nextRunAt_interval h
      have := parseInterval_pos parsed
      rw [UtcDateTime.lt_iff_instant]
      omega

/-- Coalescing an interval skips whole intervals, to at most one past now. -/
theorem coalesceNextRun_interval {value timezone : String} {persisted now next : UtcDateTime}
    (due : persisted ≤ now)
    (h : coalesceNextRun platform .interval value timezone persisted now = .ok next) :
    ∃ delta skips, parseInterval platform value = .ok delta ∧
      next.instant = persisted.instant + skips * delta ∧ now < next ∧
        next.instant ≤ now.instant + delta := by
  unfold coalesceNextRun at h
  rw [if_neg (not_lt.mpr due)] at h
  obtain ⟨delta, parsed, h⟩ := bind_eq_ok_iff.mp h
  have positive := parseInterval_pos parsed
  have added := plus_eq_ok_iff.mp h
  rw [UtcDateTime.le_iff_instant] at due
  -- On naturals the floor of `timedelta // timedelta` is ordinary division.
  have elapsed : now.sub persisted = ((now.instant - persisted.instant : ℕ) : ℤ) := by
    unfold UtcDateTime.sub
    omega
  rw [elapsed] at added
  have skipped : next.instant =
      persisted.instant + delta * ((now.instant - persisted.instant) / delta + 1) := by
    exact_mod_cast added
  have division := Nat.div_add_mod (now.instant - persisted.instant) delta
  have rest := Nat.mod_lt (now.instant - persisted.instant) positive
  generalize (now.instant - persisted.instant) / delta = skips at skipped division
  generalize (now.instant - persisted.instant) % delta = excess at division rest
  have oneMore : delta * (skips + 1) = delta * skips + delta := Nat.mul_succ delta skips
  refine ⟨delta, skips + 1, parsed, ?_, ?_, ?_⟩
  · rw [skipped, Nat.mul_comm]
  · rw [UtcDateTime.lt_iff_instant]
    omega
  · omega

/-- **Coalescing returns a time past now**, and past the one that was due. -/
theorem lt_coalesceNextRun (strict : platform.StrictlyAfter) {triggerKind : TriggerKind}
    {value timezone : String} {persisted now next : UtcDateTime}
    (h : coalesceNextRun platform triggerKind value timezone persisted now = .ok next) :
    now < next := by
  by_cases due : persisted ≤ now
  · cases triggerKind with
    | cron =>
        unfold coalesceNextRun at h
        rw [if_neg (not_lt.mpr due)] at h
        exact lt_nextRunAt strict h
    | interval =>
        obtain ⟨_, _, _, _, later, _⟩ := coalesceNextRun_interval due h
        exact later
  · unfold coalesceNextRun at h
    rw [if_pos (not_le.mp due)] at h
    cases h
    exact not_le.mp due

end AgentOs
