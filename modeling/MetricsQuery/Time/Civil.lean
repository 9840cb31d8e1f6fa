/-!
# The civil calendar

Days are counted from 1970-01-01. `Date.ofDays` and `Date.toDays` convert between a day count and a
date of the proleptic Gregorian calendar, year zero included.
-/

namespace MetricsQuery

/-- A year, a month from 1 and a day from 1. -/
structure Date where
  year : Int
  month : Nat
  day : Nat
  deriving DecidableEq, Repr, Inhabited

namespace Date

def isLeapYear (y : Int) : Bool := y % 4 == 0 && (y % 100 != 0 || y % 400 == 0)

/-- The number of days of a month. -/
def daysInMonth (y : Int) (m : Nat) : Nat :=
  if m = 2 then (if isLeapYear y then 29 else 28)
  else if m = 4 ∨ m = 6 ∨ m = 9 ∨ m = 11 then 30 else 31

/-- Whether a date exists. -/
def isValid (d : Date) : Bool :=
  1 ≤ d.month && d.month ≤ 12 && 1 ≤ d.day && d.day ≤ daysInMonth d.year d.month

/-- The days before 1 March of the year `y` counted from 1 March of the year zero. -/
def daysBeforeMarch (y : Int) : Int := 365 * y + y / 4 - y / 100 + y / 400

/-- The days before a month in a year that starts with March, as month zero. -/
def daysBeforeMonth (m : Nat) : Nat := (153 * m + 2) / 5

/-- The days from 1 March of the year zero to 1970-01-01. -/
def epochOffset : Int := 719468

/-- The number of the day. -/
def toDays (d : Date) : Int :=
  let y := if d.month ≤ 2 then d.year - 1 else d.year
  let m := if d.month ≤ 2 then d.month + 9 else d.month - 3
  daysBeforeMarch y + daysBeforeMonth m + (d.day - 1) - epochOffset

/-- The date of a day. A cycle of 400 years has 146097 days. -/
def ofDays (n : Int) : Date :=
  let z := n + epochOffset
  let cycle := z / 146097
  let dayOfCycle := (z % 146097).toNat
  let yearOfCycle :=
    (dayOfCycle - dayOfCycle / 1460 + dayOfCycle / 36524 - dayOfCycle / 146096) / 365
  let dayOfYear := dayOfCycle - (365 * yearOfCycle + yearOfCycle / 4 - yearOfCycle / 100)
  let m := (5 * dayOfYear + 2) / 153
  let month := if m < 10 then m + 3 else m - 9
  let year := cycle * 400 + yearOfCycle
  ⟨if month ≤ 2 then year + 1 else year, month, dayOfYear - daysBeforeMonth m + 1⟩

end Date

end MetricsQuery
