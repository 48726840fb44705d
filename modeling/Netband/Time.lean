import Mathlib.Tactic

/-!
Instants, UTC days and durations.

An instant (`DateTime<Utc>`) is an integer, the nanoseconds since the Unix epoch; a UTC day
(`NaiveDate`) is an integer, the days since 1970-01-01; a duration is a natural number of
nanoseconds. The last instant a clock can show is in the year 262142, where addition
saturates.
-/

namespace Netband.Time

def second : ℤ := 1000000000
def millisecond : ℤ := 1000000
def daySeconds : ℤ := 86400
def dayLength : ℤ := daySeconds * second

/-- The last representable instant, 262142-12-31T23:59:59.999999999Z. -/
def maxUtc : ℤ := 95026237 * dayLength - 1

/-- The first representable instant, -262143-01-01T00:00:00Z. -/
def minUtc : ℤ := -96465292 * dayLength

/-- The longest representable `TimeDelta`, `i64::MAX` milliseconds. -/
def timeDeltaMax : ℕ := (2 ^ 63 - 1) * 1000000

def u64Max : ℕ := 2 ^ 64 - 1
def u32Max : ℕ := 2 ^ 32 - 1

def dateNaive (t : ℤ) : ℤ := t / dayLength
def dayStart (d : ℤ) : ℤ := d * dayLength
def dayEnd (d : ℤ) : ℤ := dayStart d + dayLength

/-- Addition that saturates at the last representable instant. -/
def addDuration (t : ℤ) (d : ℕ) : ℤ :=
  let t' := t + (min d timeDeltaMax : ℕ)
  if t' ≤ maxUtc then t' else maxUtc

def durationMillis (d : ℕ) : ℕ := min (d / 1000000) u64Max

/-- `Duration::checked_mul`: the seconds of a duration fit in 64 bits. -/
def checkedMul (d : ℕ) (k : ℕ) : Option ℕ :=
  if d * k / 1000000000 ≤ u64Max then some (d * k) else none

lemma dateNaive_mono {s t : ℤ} (h : s ≤ t) : dateNaive s ≤ dateNaive t :=
  Int.ediv_le_ediv (by decide) h

lemma lt_dayEnd (t : ℤ) : t < dayEnd (dateNaive t) := by
  simp only [dayEnd, dayStart, dateNaive, dayLength, daySeconds, second]
  omega

lemma dateNaive_lt_of_lt_dayStart {s : ℤ} {d : ℤ} (h : s < dayStart d) :
    dateNaive s < d := by
  simp only [dayStart, dateNaive, dayLength, daySeconds, second] at *
  omega

lemma addDuration_mono {s t : ℤ} (d : ℕ) (h : s ≤ t) :
    addDuration s d ≤ addDuration t d := by
  simp only [addDuration]
  split <;> split <;> omega

/-! ### Timestamps as text -/

/-- The days of the years `0`, …, `y - 1`, counted from 1970-01-01. -/
def daysBeforeYear (y : ℤ) : ℤ :=
  365 * y + (y + 3) / 4 - (y + 99) / 100 + (y + 399) / 400 - 719528

def isLeap (y : ℤ) : Bool := y % 4 = 0 ∧ (y % 100 ≠ 0 ∨ y % 400 = 0)

/-- The year of a day. -/
def yearOf (d : ℤ) : ℤ :=
  let y := (400 * (d + 719528)) / 146097 - 2
  if daysBeforeYear (y + 3) ≤ d then y + 3
  else if daysBeforeYear (y + 2) ≤ d then y + 2
  else if daysBeforeYear (y + 1) ≤ d then y + 1 else y

def monthLengths (leap : Bool) : List ℕ :=
  [31, if leap then 29 else 28, 31, 30, 31, 30, 31, 31, 30, 31, 30, 31]

/-- Month and day of the month, from the day of the year and the lengths of the months. -/
def monthDay : List ℕ → ℕ → ℕ × ℕ
  | [], n => (1, n + 1)
  | l :: ls, n => if n < l then (1, n + 1) else
      let (m, d) := monthDay ls (n - l)
      (m + 1, d)

/-- Decimal digits, padded with zeros on the left. -/
def padded (width n : ℕ) : String :=
  let s := toString n
  "".pushn '0' (width - s.length) ++ s

def yearText (y : ℤ) : String :=
  if 0 ≤ y ∧ y ≤ 9999 then padded 4 y.toNat
  else (if 0 ≤ y then "+" else "-") ++ padded 4 y.natAbs

def dayText (d : ℤ) : String :=
  let y := yearOf d
  let md := monthDay (monthLengths (isLeap y)) (d - daysBeforeYear y).toNat
  yearText y ++ "-" ++ padded 2 md.1 ++ "-" ++ padded 2 md.2

/-- The fraction of a second, with as many digits as it needs out of 0, 3, 6 and 9. -/
def fractionText (nanos : ℕ) : String :=
  if nanos = 0 then ""
  else if nanos % 1000000 = 0 then "." ++ padded 3 (nanos / 1000000)
  else if nanos % 1000 = 0 then "." ++ padded 6 (nanos / 1000)
  else "." ++ padded 9 nanos

def timeText (t : ℤ) : String :=
  let n := (t - dayStart (dateNaive t)).toNat
  let s := n / 1000000000
  dayText (dateNaive t) ++ "T" ++ padded 2 (s / 3600) ++ ":" ++ padded 2 (s / 60 % 60) ++ ":"
    ++ padded 2 (s % 60) ++ fractionText (n % 1000000000)

/-- `to_rfc3339`. -/
def toRfc3339 (t : ℤ) : String := timeText t ++ "+00:00"

end Netband.Time
