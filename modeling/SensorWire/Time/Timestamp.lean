import SensorWire.Text.Basic
import SensorWire.Time.Civil

/-!
# Points in time

A `Timestamp` is a count of seconds from the beginning of year 1, a fraction in nanoseconds and an offset in which it is shown. The
seconds are a 64-bit word that wraps around. `Timestamp.render` writes the usual internet form: date and time of day at the offset,
the fraction without the zeros at its end, and the offset, `Z` for none.
-/

namespace SensorWire

/-- A point in time; the one without seconds and nanoseconds stands for "no time". -/
structure Timestamp where
  /-- The seconds since the first of January of year 1, at offset zero. -/
  seconds : Int64 := 0
  nanos : Nat := 0
  /-- The offset east of UTC at which the time is shown, in seconds. -/
  offset : Int := 0
  deriving DecidableEq, Inhabited, Repr

namespace Timestamp

/-- The seconds from the beginning of year 1 to that of 1970. -/
def epoch : Int := 62135596800

/-- So many seconds and nanoseconds after the beginning of 1970. -/
def ofUnix (seconds : Int) (nanos : Nat) : Timestamp := ⟨Int64.ofInt (seconds + epoch), nanos, 0⟩

/-- The seconds since the beginning of 1970, within 64 bits. -/
def unixSeconds (t : Timestamp) : Int64 := t.seconds - Int64.ofInt epoch

/-- Whether there is no time. -/
def isZero (t : Timestamp) : Bool := t.seconds == 0 && t.nanos == 0

/-- Whether one time is before another, wherever they are shown. -/
def before (a b : Timestamp) : Bool := a.seconds < b.seconds || (a.seconds == b.seconds && a.nanos < b.nanos)

/-! ## The parts -/

/-- The least year of the calendar on which 64 bits of seconds are laid out. -/
def leastYear : Int := -292277022399

/-- The seconds since the beginning of the least year, at the offset of the time, within 64 bits. -/
def absolute (t : Timestamp) : Nat :=
  ((t.seconds.toInt + t.offset - 86400 * Date.daysBeforeYear leastYear) % 0x10000000000000000).toNat

/-- The day on which a time falls at its offset. -/
def date (t : Timestamp) : Date := Date.ofDays ((t.absolute / 86400 : Nat) + Date.daysBeforeYear leastYear)

/-- The second of that day. -/
def secondOfDay (t : Timestamp) : Nat := t.absolute % 86400

/-! ## Rendering -/

/-- A number with at least so many digits. -/
def padded (width n : Nat) : List Char :=
  let digits := Nat.toDigits 10 n
  List.replicate (width - digits.length) '0' ++ digits

/-- The date as year, month and day with hyphens between them. -/
def dateChars (t : Timestamp) : List Char :=
  let d := t.date
  (if d.year < 0 then ['-'] else []) ++ padded 4 d.year.natAbs ++ '-' :: padded 2 d.month ++ '-' :: padded 2 d.day

/-- The time of day as hours, minutes and seconds. -/
def clockChars (t : Timestamp) : List Char :=
  let s := t.secondOfDay
  padded 2 (s / 3600) ++ ':' :: padded 2 (s / 60 % 60) ++ ':' :: padded 2 (s % 60)

/-- The fraction of a second with a point before it and no zeros at its end; nothing for none. -/
def fractionChars (t : Timestamp) : List Char :=
  if t.nanos = 0 then [] else '.' :: ((padded 9 t.nanos).reverse.dropWhile (· == '0')).reverse

/-- The offset in hours and minutes with its sign, and `Z` for none. -/
def offsetChars (t : Timestamp) : List Char :=
  if t.offset = 0 then ['Z']
  else
    let minutes := (Int.tdiv t.offset 60).natAbs
    (if t.offset < 0 then '-' else '+') :: padded 2 (minutes / 60) ++ ':' :: padded 2 (minutes % 60)

/-- The time at its offset, with its fraction. -/
def render (t : Timestamp) : Text :=
  .ofChars (t.dateChars ++ 'T' :: t.clockChars ++ t.fractionChars ++ t.offsetChars)

/-- The time at its offset, in whole seconds. -/
def renderSeconds (t : Timestamp) : Text := .ofChars (t.dateChars ++ 'T' :: t.clockChars ++ t.offsetChars)

/-- The time at offset zero. -/
def toUtc (t : Timestamp) : Timestamp := { t with offset := 0 }

/-- The time at offset zero, in microseconds. -/
def renderMicros (t : Timestamp) : Text :=
  let t := t.toUtc
  .ofChars (t.dateChars ++ 'T' :: t.clockChars ++ '.' :: padded 6 (t.nanos / 1000) ++ ['Z'])

end Timestamp

end SensorWire
