import Mathlib.Algebra.Order.Ring.Int

/-!
# Time in Go

The part of Go's `time` package that calendar alignment is written with: instants are Unix seconds,
and a location is the offset of its clock from UTC in seconds, the same at all times. Days are
counted from 1970-01-01 and months from March of year 0 of the proleptic Gregorian calendar, so that
the leap day is the last day of a year and the month after December needs no case of its own.
-/

namespace LmmApi.Go

/-- The day on which the clock of the location shows the instant `t`. -/
def dayOf (offset t : ℤ) : ℤ := (t + offset) / 86400

/-- The instant at which a day begins. -/
def midnight (offset day : ℤ) : ℤ := day * 86400 - offset

/-- `Time.Weekday`, from Sunday as 0. -/
def weekday (day : ℤ) : ℤ := (day + 4) % 7

/-- The first day of a month. A year has `365` days and a leap day every fourth year, except for
three out of four centuries; the months from March on have 31, 30, 31, 30, 31 days in turn. -/
def monthStart (month : ℤ) : ℤ :=
  let year := month / 12
  365 * year + year / 4 - year / 100 + year / 400 + (153 * (month % 12) + 2) / 5 - 719468

/-- The month of a day. -/
def monthOf (day : ℤ) : ℤ :=
  let era := (day + 719468) / 146097
  let dayOfEra := (day + 719468) % 146097
  let yearOfEra := (dayOfEra - dayOfEra / 1460 + dayOfEra / 36524 - dayOfEra / 146096) / 365
  let dayOfYear := dayOfEra - (365 * yearOfEra + yearOfEra / 4 - yearOfEra / 100)
  12 * (400 * era + yearOfEra) + (5 * dayOfYear + 2) / 153

-- 1970-01-01, the leap day 2000-02-29 and 2100-03-01.
example : monthStart (monthOf 0) = 0 ∧ monthStart (monthOf 0 + 1) = 31 := by decide
example : monthStart (monthOf 11016) = 10988 ∧ monthStart (monthOf 11016 + 1) = 11017 := by decide
example : monthStart (monthOf 47541) = 47541 ∧ monthOf 47540 + 1 = monthOf 47541 := by decide

/-- The value of a 64-bit signed integer after it wrapped around. -/
def wrapInt64 (n : ℤ) : ℤ := (n + 2 ^ 63) % 2 ^ 64 - 2 ^ 63

/-- `t.Add(time.Duration(seconds) * time.Second).Unix()`: the duration is a 64-bit number of
nanoseconds. -/
def addSeconds (t seconds : ℤ) : ℤ := t + wrapInt64 (seconds * 10 ^ 9) / 10 ^ 9

end LmmApi.Go
