import Mathlib.Data.Int.Notation
set_option autoImplicit false

namespace Pitwall

/-- Microseconds since 1970-01-01T00:00:00Z. -/
abbrev Instant := Int

def microsPerMinute : Int := 60000000
def microsPerDay : Int := 86400000000

/-- Day of the month (from 1) of the proleptic Gregorian day `days` after the epoch.
Days are counted in 400-year eras that start on a first of March. -/
def dayOfMonth (days : Int) : Int :=
  let z := days + 719468
  let doe := z % 146097
  let yoe := (doe - doe / 1460 + doe / 36524 - doe / 146096) / 365
  let doy := doe - (365 * yoe + yoe / 4 - yoe / 100)
  let mp := (5 * doy + 2) / 153
  doy - (153 * mp + 2) / 5 + 1

/-- `date_trunc('month', t AT TIME ZONE 'UTC')`, a wall-clock time. -/
def monthStartUtc (t : Instant) : Int :=
  (t / microsPerDay - (dayOfMonth (t / microsPerDay) - 1)) * microsPerDay

-- 2024-03-01 is day 19783, 2024-02-29 the day before it.
example : dayOfMonth 19783 = 1 ∧ dayOfMonth 19782 = 29 ∧ dayOfMonth 0 = 1 := by decide

/-- `DATE(t AT TIME ZONE 'UTC')`, as days since the epoch. -/
def utcDay (t : Instant) : Int := t / microsPerDay

theorem dayOfMonth_pos (days : Int) : 1 ≤ dayOfMonth days := by
  simp only [dayOfMonth]
  generalize (days + 719468) % 146097 = doe
  generalize doe - (365 * ((doe - doe / 1460 + doe / 36524 - doe / 146096) / 365) +
    (doe - doe / 1460 + doe / 36524 - doe / 146096) / 365 / 4 -
    (doe - doe / 1460 + doe / 36524 - doe / 146096) / 365 / 100) = doy
  omega

theorem monthStartUtc_le (t : Instant) : monthStartUtc t ≤ t := by
  have hday := dayOfMonth_pos (t / microsPerDay)
  simp only [monthStartUtc, microsPerDay] at hday ⊢
  generalize dayOfMonth (t / 86400000000) = d at hday ⊢
  omega

/-- The `TimeZone` of a database session: the instant a wall-clock time names in it.
Postgres applies it when a `timestamp` is compared with a `timestamptz`. -/
structure Session where
  instantOf : Int → Instant

def Session.utc : Session := ⟨id⟩

/-- The instant from which `submitted_at >= date_trunc('month', now() AT TIME ZONE 'UTC')`
holds. -/
def Session.monthStart (session : Session) (now : Instant) : Instant :=
  session.instantOf (monthStartUtc now)

end Pitwall
