/-!
# The calendar

Days of the proleptic Gregorian calendar. A `Date` is a year, a month and a day; `Date.ofDays` and `Date.toDays` count days from the
first of January of year 1.
-/

namespace SensorWire

/-- A day of the calendar. -/
structure Date where
  year : Int
  month : Nat
  day : Nat
  deriving DecidableEq, Repr

namespace Date

/-- Whether a year has 366 days. -/
def isLeap (year : Int) : Bool := year % 4 == 0 && (year % 100 != 0 || year % 400 == 0)

/-- The number of days of a month. -/
def daysIn (year : Int) (month : Nat) : Nat :=
  match month with
  | 2 => if isLeap year then 29 else 28
  | 4 | 6 | 9 | 11 => 30
  | _ => 31

/-- The days of a year before each month. -/
def daysBefore (year : Int) (month : Nat) : Nat :=
  (List.range (month - 1)).foldl (fun days m => days + daysIn year (m + 1)) 0

/-- The days from the first of January of year 1 to the first of January of a year. -/
def daysBeforeYear (year : Int) : Int :=
  let y := year - 1
  365 * y + Int.fdiv y 4 - Int.fdiv y 100 + Int.fdiv y 400

/-- The days from the first of January of year 1 to a day. -/
def toDays (d : Date) : Int := daysBeforeYear d.year + daysBefore d.year d.month + d.day - 1

/-- The month and day of a day within a year, from a month on. -/
def inYear (year : Int) : (fuel month : Nat) → (rest : Nat) → Date
  | 0, month, rest => ⟨year, month, rest + 1⟩
  | fuel + 1, month, rest =>
    if rest < daysIn year month then ⟨year, month, rest + 1⟩
    else inYear year fuel (month + 1) (rest - daysIn year month)

/-- The day that lies so many days after the first of January of year 1. -/
def ofDays (days : Int) : Date :=
  -- a cycle of 400 years has 146097 days, a century of it 36524 and one more in the last, four years 1461 and one fewer in a last
  let cycles := Int.fdiv days 146097
  let inCycle := (days - 146097 * cycles).toNat
  let centuries := min (inCycle / 36524) 3
  let inCentury := inCycle - 36524 * centuries
  let fours := inCentury / 1461
  let inFour := inCentury - 1461 * fours
  let years := min (inFour / 365) 3
  let year := 400 * cycles + 100 * centuries + 4 * fours + years + 1
  inYear year 11 1 (inFour - 365 * years)

end Date

end SensorWire
