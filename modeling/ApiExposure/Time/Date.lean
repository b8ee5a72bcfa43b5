/-!
# Calendar dates

Dates of the proleptic Gregorian calendar with astronomical years. Moving to a
neighbouring day keeps a date valid.
-/

namespace ApiExposure

/-- A calendar date. -/
structure Date where
  /-- Astronomical year; year zero precedes year one. -/
  year : Int
  /-- Month, from one. -/
  month : Nat
  /-- Day of the month, from one. -/
  day : Nat
  deriving DecidableEq, Repr, Inhabited

namespace Date

/-- Whether a year has 366 days. -/
def isLeap (year : Int) : Bool := year % 4 == 0 && (year % 100 != 0 || year % 400 == 0)

/-- Number of days of a month. -/
def daysInMonth (year : Int) (month : Nat) : Nat :=
  if month = 2 then (if isLeap year then 29 else 28)
  else if month = 4 ∨ month = 6 ∨ month = 9 ∨ month = 11 then 30 else 31

/-- Least year that an instant can have. -/
def leastYear : Int := -262143

/-- Greatest year that an instant can have. -/
def greatestYear : Int := 262142

/-- Whether the date exists and its year is in range. -/
def isValid (d : Date) : Bool :=
  leastYear ≤ d.year && d.year ≤ greatestYear && 1 ≤ d.month && d.month ≤ 12
    && 1 ≤ d.day && d.day ≤ daysInMonth d.year d.month

/-- The day after. -/
def next (d : Date) : Date :=
  if d.day < daysInMonth d.year d.month then { d with day := d.day + 1 }
  else if d.month < 12 then ⟨d.year, d.month + 1, 1⟩
  else ⟨d.year + 1, 1, 1⟩

/-- The day before. -/
def previous (d : Date) : Date :=
  if 1 < d.day then { d with day := d.day - 1 }
  else if 1 < d.month then ⟨d.year, d.month - 1, daysInMonth d.year (d.month - 1)⟩
  else ⟨d.year - 1, 12, 31⟩

/-- The date a number of days after the first of January 1970, by cycles of 400 years that
begin in March. -/
def ofUnixDays (days : Int) : Date :=
  let shifted := days + 719468
  let cycle := shifted / 146097
  let dayOfCycle := (shifted % 146097).toNat
  let yearOfCycle :=
    (dayOfCycle - dayOfCycle / 1460 + dayOfCycle / 36524 - dayOfCycle / 146096) / 365
  let dayOfYear := dayOfCycle - (365 * yearOfCycle + yearOfCycle / 4 - yearOfCycle / 100)
  let monthFromMarch := (5 * dayOfYear + 2) / 153
  let day := dayOfYear - (153 * monthFromMarch + 2) / 5 + 1
  let month := if monthFromMarch < 10 then monthFromMarch + 3 else monthFromMarch - 9
  let year := (yearOfCycle : Int) + cycle * 400
  ⟨if month ≤ 2 then year + 1 else year, month, day⟩

/-- Days from the first of January 1970 to the date. -/
def unixDays (d : Date) : Int :=
  let year := if d.month ≤ 2 then d.year - 1 else d.year
  let yearOfCycle := year % 400
  let monthFromMarch := (d.month + 9) % 12
  let dayOfYear := (153 * monthFromMarch + 2) / 5 + d.day - 1
  year / 400 * 146097 + yearOfCycle * 365 + yearOfCycle / 4 - yearOfCycle / 100 + dayOfYear
    - 719468

/-- No month is longer than 31 days. -/
theorem daysInMonth_le (year : Int) (month : Nat) : daysInMonth year month ≤ 31 := by
  unfold daysInMonth
  repeat' split
  all_goals omega

end Date

end ApiExposure
