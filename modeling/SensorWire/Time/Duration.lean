import SensorWire.Time.Timestamp

/-!
# Lengths of time as text

A duration is a 64-bit count of nanoseconds. It is written in hours, minutes and seconds, without the larger units that are zero; below
one second it is written in the smaller unit that makes it at least one.
-/

namespace SensorWire.Duration

/-- So many seconds as nanoseconds, within 64 bits. -/
def ofSeconds (n : Nat) : Int64 := Int64.ofNat (n * 1000000000)

/-- The nearest 64-bit number of nanoseconds. -/
def clamp (n : Int) : Int64 := Int64.ofInt (max (-0x8000000000000000) (min (0x8000000000000000 - 1) n))

/-- The time from one point in time to another, as far as it can be counted. -/
def between (a b : Timestamp) : Int64 :=
  clamp ((b.seconds.toInt - a.seconds.toInt) * 1000000000 + (b.nanos - a.nanos : Int))

/-- A duration rounded to the second, halves away from zero, unless that goes beyond what can be counted. -/
def toSecond (d : Int64) : Int64 :=
  let n := (d.toInt.natAbs + 500000000) / 1000000000 * 1000000000
  clamp (if d < 0 then -n else n)

/-- A number of `10 ^ -places` as a decimal without zeros at its end. -/
def decimal (n places : Nat) : List Char :=
  let digits := Nat.toDigits 10 (n % Nat.pow 10 places)
  let fraction := List.replicate (places - digits.length) '0' ++ digits
  let kept := (fraction.reverse.dropWhile (· == '0')).reverse
  Nat.toDigits 10 (n / Nat.pow 10 places) ++ (if kept.isEmpty then [] else '.' :: kept)

/-- A duration in hours, minutes and seconds. -/
def render (d : Int64) : Text :=
  let n := d.toInt.natAbs
  let sign := if d < 0 then ['-'] else []
  if n = 0 then "0s"
  else if n < 1000 then .ofChars (sign ++ Nat.toDigits 10 n ++ ['n', 's'])
  else if n < 1000000 then .ofChars (sign ++ decimal n 3 ++ ['µ', 's'])
  else if n < 1000000000 then .ofChars (sign ++ decimal n 6 ++ ['m', 's'])
  else
    let minutes := n / 60000000000
    let seconds := decimal (n % 60000000000) 9 ++ ['s']
    let hours := minutes / 60
    .ofChars (sign ++ (if hours = 0 then [] else Nat.toDigits 10 hours ++ ['h']) ++
      (if minutes = 0 then [] else Nat.toDigits 10 (minutes % 60) ++ ['m']) ++ seconds)

end SensorWire.Duration
