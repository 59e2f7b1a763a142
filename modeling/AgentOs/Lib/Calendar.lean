import AgentOs.Lib.Marks
import Mathlib.Order.Lattice
import Mathlib.Order.Basic

/-!
Dates and times in UTC, of the years 1 to 9999.

A date is three nested positions (year, month, day), a time of day four; `instant`
counts microseconds from the first midnight. Times are ordered by their instants,
which is the order of their fields one after another (`UtcDateTime.lt_iff_fields`).
`ofInstant` finds the fields of an instant, so adding a duration is addition of
instants as long as the year stays in range (`UtcDateTime.add_eq_ok_iff`).
-/

namespace AgentOs.Lib

namespace Calendar

def isLeap (year : ℕ) : Bool :=
  year % 4 = 0 && (year % 100 ≠ 0 || year % 400 = 0)

def daysInMonth (year month : ℕ) : ℕ :=
  if month = 2 then if isLeap year then 29 else 28
  else if month = 4 ∨ month = 6 ∨ month = 9 ∨ month = 11 then 30
  else 31

/-- The days before each month; cell `k` is month `k + 1`. -/
def daysBefore (year : ℕ) : ℕ → ℕ
  | 0 => 0
  | k + 1 => daysBefore year k + daysInMonth year (k + 1)

theorem daysInMonth_pos (year month : ℕ) : 0 < daysInMonth year month := by
  unfold daysInMonth
  split_ifs <;> omega

theorem daysInMonth_le (year month : ℕ) : daysInMonth year month ≤ 31 := by
  unfold daysInMonth
  split_ifs <;> omega

def months (year : ℕ) : Marks where
  start := daysBefore year
  zero := rfl
  increasing k := Nat.lt_add_of_pos_right (daysInMonth_pos year (k + 1))

/-- The days before each year; cell `k` is the year `k + 1`. -/
def years : Marks where
  start k := k * 365 + k / 4 - k / 100 + k / 400
  zero := rfl
  increasing k := by omega

theorem years_succ (k : ℕ) :
    years.start (k + 1) = years.start k + if isLeap (k + 1) then 366 else 365 := by
  have fourth : (k + 1) / 4 = k / 4 + if 4 ∣ k + 1 then 1 else 0 := Nat.succ_div
  have hundredth : (k + 1) / 100 = k / 100 + if 100 ∣ k + 1 then 1 else 0 := Nat.succ_div
  have cycle : (k + 1) / 400 = k / 400 + if 400 ∣ k + 1 then 1 else 0 := Nat.succ_div
  have fewer : k / 100 ≤ k / 4 := by omega
  have leap : isLeap (k + 1) = true ↔ 4 ∣ k + 1 ∧ (¬100 ∣ k + 1 ∨ 400 ∣ k + 1) := by
    simp [isLeap, Nat.dvd_iff_mod_eq_zero]
  have by100 : 400 ∣ k + 1 → 100 ∣ k + 1 := Nat.dvd_trans (by decide)
  have by4 : 100 ∣ k + 1 → 4 ∣ k + 1 := Nat.dvd_trans (by decide)
  change (k + 1) * 365 + (k + 1) / 4 - (k + 1) / 100 + (k + 1) / 400 =
    k * 365 + k / 4 - k / 100 + k / 400 + _
  rw [fourth, hundredth, cycle]
  by_cases c : 400 ∣ k + 1
  · rw [if_pos (by4 (by100 c)), if_pos (by100 c), if_pos c,
      if_pos (leap.mpr ⟨by4 (by100 c), .inr c⟩)]
    omega
  · by_cases b : 100 ∣ k + 1
    · rw [if_pos (by4 b), if_pos b, if_neg c,
        if_neg (leap.not.mpr fun h => h.2.elim (absurd b) (absurd · c))]
      omega
    · rw [if_neg b, if_neg c]
      by_cases a : 4 ∣ k + 1
      · rw [if_pos a, if_pos (leap.mpr ⟨a, .inl b⟩)]
        omega
      · rw [if_neg a, if_neg (leap.not.mpr fun h => a h.1)]
        omega

/-- The months of a year make up the year. -/
theorem months_twelve (k : ℕ) :
    years.start k + (months (k + 1)).start 12 = years.start (k + 1) := by
  rw [years_succ]
  change _ + daysBefore (k + 1) 12 = _
  cases h : isLeap (k + 1) <;> simp [daysBefore, daysInMonth, h]

end Calendar

open Calendar

/-- A date and time of day. -/
structure UtcDateTime where
  year : ℕ
  month : ℕ
  day : ℕ
  hour : ℕ
  minute : ℕ
  second : ℕ
  microsecond : ℕ
  validDate : (1 ≤ year ∧ year ≤ 9999) ∧ (1 ≤ month ∧ month ≤ 12) ∧
    1 ≤ day ∧ day ≤ daysInMonth year month
  validTime : hour < 24 ∧ minute < 60 ∧ second < 60 ∧ microsecond < 1000000
deriving DecidableEq, Repr

namespace UtcDateTime

/-! ### Instants -/

/-- The days before a date. -/
def dayNumber (d : UtcDateTime) : ℕ :=
  years.start (d.year - 1) + ((months d.year).start (d.month - 1) + (d.day - 1))

/-- Hours, minutes and seconds on their rulers, in microseconds. -/
def hours : Marks := .uniform 3600000000 (by decide)
def minutes : Marks := .uniform 60000000 (by decide)
def seconds : Marks := .uniform 1000000 (by decide)
def days : Marks := .uniform 86400000000 (by decide)

/-- The microseconds of a time of day. -/
def timeOfDay (d : UtcDateTime) : ℕ :=
  hours.start d.hour + (minutes.start d.minute + (seconds.start d.second + d.microsecond))

/-- The microseconds since the beginning of the year 1. -/
def instant (d : UtcDateTime) : ℕ :=
  days.start d.dayNumber + d.timeOfDay

/-- The first instant past the year 9999. -/
def endOfTime : ℕ := 3652059 * 86400000000

theorem endOfTime_eq : endOfTime = years.start 9999 * 86400000000 := by decide

section Rulers

variable (d : UtcDateTime)

theorem within_seconds : seconds.Within d.second d.microsecond :=
  Marks.within_uniform d.validTime.2.2.2

theorem within_minutes : minutes.Within d.minute (seconds.start d.second + d.microsecond) := by
  have := d.validTime
  refine Marks.within_uniform ?_
  change d.second * 1000000 + _ < _
  omega

theorem within_hours : hours.Within d.hour
    (minutes.start d.minute + (seconds.start d.second + d.microsecond)) := by
  have := d.validTime
  refine Marks.within_uniform ?_
  change d.minute * 60000000 + (d.second * 1000000 + _) < _
  omega

theorem within_days : days.Within d.dayNumber d.timeOfDay := by
  have := d.validTime
  refine Marks.within_uniform ?_
  change d.hour * 3600000000 + (d.minute * 60000000 + (d.second * 1000000 + _)) < _
  omega

theorem within_months : (months d.year).Within (d.month - 1) (d.day - 1) := by
  have valid := d.validDate
  change daysBefore d.year (d.month - 1) + (d.day - 1) <
    daysBefore d.year (d.month - 1) + daysInMonth d.year (d.month - 1 + 1)
  rw [Nat.sub_add_cancel valid.2.1.1]
  omega

theorem within_years : years.Within (d.year - 1)
    ((months d.year).start (d.month - 1) + (d.day - 1)) := by
  have valid := d.validDate
  have inYear := d.within_months
  have sizes := months_twelve (d.year - 1)
  rw [Nat.sub_add_cancel valid.1.1] at sizes
  have last : (months d.year).start (d.month - 1 + 1) ≤ (months d.year).start 12 := by
    apply (months d.year).strictMono.monotone
    omega
  unfold Marks.Within at *
  rw [Nat.sub_add_cancel valid.1.1]
  omega

end Rulers

section Order

variable (a b : UtcDateTime)

theorem timeOfDay_lt_iff : a.timeOfDay < b.timeOfDay ↔ a.hour < b.hour ∨ a.hour = b.hour ∧
    (a.minute < b.minute ∨ a.minute = b.minute ∧ (a.second < b.second ∨
      a.second = b.second ∧ a.microsecond < b.microsecond)) := by
  unfold timeOfDay
  rw [Marks.lt_iff a.within_hours b.within_hours, Marks.lt_iff a.within_minutes b.within_minutes,
    Marks.lt_iff a.within_seconds b.within_seconds]

theorem dayNumber_lt_iff : a.dayNumber < b.dayNumber ↔ a.year < b.year ∨ a.year = b.year ∧
    (a.month < b.month ∨ a.month = b.month ∧ a.day < b.day) := by
  have va := a.validDate
  have vb := b.validDate
  unfold dayNumber
  rw [Marks.lt_iff a.within_years b.within_years]
  by_cases year : a.year = b.year
  · have inYear := a.within_months
    have inYear' := b.within_months
    rw [← year] at inYear' ⊢
    rw [Marks.lt_iff inYear inYear']
    omega
  · omega

/-- **Instants are ordered as their fields are, one after another.** -/
theorem instant_lt_iff : a.instant < b.instant ↔
    a.year < b.year ∨ a.year = b.year ∧ (a.month < b.month ∨ a.month = b.month ∧
      (a.day < b.day ∨ a.day = b.day ∧ (a.hour < b.hour ∨ a.hour = b.hour ∧
        (a.minute < b.minute ∨ a.minute = b.minute ∧ (a.second < b.second ∨
          a.second = b.second ∧ a.microsecond < b.microsecond))))) := by
  have same : a.dayNumber = b.dayNumber ↔
      a.year = b.year ∧ a.month = b.month ∧ a.day = b.day := by
    have before := dayNumber_lt_iff a b
    have after := dayNumber_lt_iff b a
    constructor
    · intro equal
      omega
    · rintro ⟨year, month, day⟩
      omega
  unfold instant
  rw [Marks.lt_iff a.within_days b.within_days, timeOfDay_lt_iff, dayNumber_lt_iff, same]
  omega

theorem instant_injective : Function.Injective instant := by
  intro a b equal
  have before := (instant_lt_iff a b).not.mp (by omega)
  have after := (instant_lt_iff b a).not.mp (by omega)
  cases a
  cases b
  simp only [UtcDateTime.mk.injEq]
  dsimp only at before after
  omega

/-- Chronological order. -/
instance : LinearOrder UtcDateTime := .lift' instant instant_injective

theorem lt_iff_instant {a b : UtcDateTime} : a < b ↔ a.instant < b.instant := Iff.rfl

theorem le_iff_instant {a b : UtcDateTime} : a ≤ b ↔ a.instant ≤ b.instant := Iff.rfl

end Order

/-! ### From instants -/

theorem instant_lt_endOfTime (d : UtcDateTime) : d.instant < endOfTime := by
  have inDay := d.within_days
  have inYears := d.within_years
  have last : years.start (d.year - 1 + 1) ≤ years.start 9999 := by
    apply years.strictMono.monotone
    have := d.validDate
    omega
  rw [endOfTime_eq]
  unfold Marks.Within at inYears
  have day : d.dayNumber + 1 ≤ years.start 9999 := by
    unfold dayNumber
    omega
  calc
    d.instant < days.start (d.dayNumber + 1) := inDay
    _ = (d.dayNumber + 1) * 86400000000 := rfl
    _ ≤ years.start 9999 * 86400000000 := Nat.mul_le_mul_right _ day

/-- The fields of an instant. -/
def ofInstant (i : ℕ) (h : i < endOfTime) : UtcDateTime :=
  let dayNumber := i / 86400000000
  let time := i % 86400000000
  let k := years.locate (dayNumber / 365) dayNumber
  let inYear := dayNumber - years.start k
  let j := (months (k + 1)).locate 11 inYear
  { year := k + 1
    month := j + 1
    day := inYear - (months (k + 1)).start j + 1
    hour := time / 3600000000
    minute := time / 60000000 % 60
    second := time / 1000000 % 60
    microsecond := time % 1000000
    validDate := by
      have position : dayNumber < years.start 9999 := by
        rw [endOfTime_eq] at h
        omega
      have guessed : dayNumber < years.start (dayNumber / 365 + 1) := by
        change dayNumber < (dayNumber / 365 + 1) * 365 + (dayNumber / 365 + 1) / 4 -
          (dayNumber / 365 + 1) / 100 + (dayNumber / 365 + 1) / 400
        omega
      have below : years.start k ≤ dayNumber := Marks.start_locate_le _ _
      have above : dayNumber < years.start (k + 1) := Marks.lt_start_locate guessed
      have year : k < 9999 := years.strictMono.lt_iff_lt.mp (Nat.lt_of_le_of_lt below position)
      have inMonths : inYear < (months (k + 1)).start 12 := by
        have := months_twelve k
        omega
      have inMonth := Marks.within_locate inMonths
      have month : j ≤ 11 := Nat.findGreatest_le _
      change daysBefore (k + 1) j + (inYear - (months (k + 1)).start j) <
        daysBefore (k + 1) j + daysInMonth (k + 1) (j + 1) at inMonth
      omega
    validTime := by omega }

/-- **The fields of an instant are those of that instant.** -/
@[simp] theorem instant_ofInstant (i : ℕ) (h : i < endOfTime) : (ofInstant i h).instant = i := by
  have inYear : years.start (years.locate (i / 86400000000 / 365) (i / 86400000000)) ≤
      i / 86400000000 := Marks.start_locate_le _ _
  generalize cell : years.locate (i / 86400000000 / 365) (i / 86400000000) = k at inYear
  have inMonth := @Marks.start_locate_le (months (k + 1)) 11
    (i / 86400000000 - years.start k)
  have date : (ofInstant i h).dayNumber = i / 86400000000 := by
    unfold dayNumber ofInstant
    dsimp only
    rw [cell]
    simp only [Nat.add_sub_cancel]
    omega
  have time : (ofInstant i h).timeOfDay = i % 86400000000 := by
    unfold timeOfDay ofInstant
    change _ / 3600000000 * 3600000000 + (_ / 60000000 % 60 * 60000000 +
      (_ / 1000000 % 60 * 1000000 + _ % 1000000)) = _
    omega
  unfold instant
  rw [date, time]
  exact Nat.div_add_mod' i 86400000000

/-- Adding a duration, in microseconds. -/
def add (d : UtcDateTime) (delta : ℤ) : Except String UtcDateTime :=
  let i := d.instant + delta
  if h : 0 ≤ i ∧ i < endOfTime then
    .ok (ofInstant i.toNat (by omega))
  else
    .error "date value out of range"

/-- The duration between two times, in microseconds. -/
def sub (a b : UtcDateTime) : ℤ := a.instant - b.instant

/-- **Adding a duration adds it to the instant.** -/
theorem add_eq_ok_iff {d e : UtcDateTime} {delta : ℤ} :
    d.add delta = .ok e ↔ (e.instant : ℤ) = d.instant + delta := by
  unfold add
  dsimp only
  constructor
  · intro h
    split at h
    · cases h
      rw [instant_ofInstant]
      omega
    · cases h
  · intro h
    have last := e.instant_lt_endOfTime
    rw [dif_pos (by omega)]
    congr 1
    apply instant_injective
    rw [instant_ofInstant]
    omega

end UtcDateTime

end AgentOs.Lib
