import SensorWire.Text.Quoted
import SensorWire.Time.Timestamp

/-!
# Reading times

A `TimeLayout` is a list of parts that a time is made of, each of which takes something off the front of the text. The text of a layout
is how the layout writes the second of January 2006, 15:04:05, and messages refer to parts by it.
-/

namespace SensorWire

/-- A part of a layout. Numbers may be required to have two digits; `fraction` is an optional fraction of a second, which is also
taken after the seconds where the layout has none. -/
inductive TimePart where
  | mark (c : Char)
  | blanks
  | year
  | month (twoDigits : Bool)
  | day (twoDigits : Bool)
  | hour
  | minute (twoDigits : Bool)
  | second (twoDigits : Bool)
  | fraction
  | zone
  deriving DecidableEq, Repr

/-- How a part writes its part of the reference time. -/
def TimePart.text : TimePart → Text
  | mark c => .ofChars [c]
  | blanks => " "
  | year => "2006"
  | month true => "01"
  | month false => "1"
  | day true => "02"
  | day false => "2"
  | hour => "15"
  | minute true => "04"
  | minute false => "4"
  | second true => "05"
  | second false => "5"
  | fraction => ".999999999"
  | zone => "Z07:00"

/-- The parts of a time, in order. -/
abbrev TimeLayout := List TimePart

namespace TimeLayout

/-- Date and time of day with an offset, as on the internet. -/
def internet : TimeLayout :=
  [.year, .mark '-', .month true, .mark '-', .day true, .mark 'T', .hour, .mark ':', .minute true, .mark ':', .second true, .zone]

/-- How a layout writes the reference time. -/
def text (l : TimeLayout) : Text := Text.concat (l.map TimePart.text)

end TimeLayout

/-- Why a text is not a time. -/
inductive TimeFault where
  | mismatch (rest : Text) (part : Text)
  | outOfRange (what : String)
  | extra (rest : Text)
  deriving DecidableEq, Repr

namespace TimeFault

/-- A text in quotes, in which every byte that is not graphic ASCII is an escape. -/
def quoted (t : Text) : Text :=
  .ofChars ('"' :: t.bytes.flatMap (fun b =>
    if b < 0x20 || 0x80 ≤ b then '\\' :: 'x' :: hexDigits 2 b.toNat
    else if b = 0x22 || b = 0x5c then ['\\', Char.ofNat b.toNat]
    else [Char.ofNat b.toNat]) ++ ['"'])

/-- What a fault says about a text and the layout it was read by. -/
def message (layout : TimeLayout) (value : Text) : TimeFault → Text
  | mismatch rest part =>
    Text.concat ["parsing time ", quoted value, " as ", quoted layout.text, ": cannot parse ", quoted rest, " as ", quoted part]
  | outOfRange what => Text.concat ["parsing time ", quoted value, ": ", what, " out of range"]
  | extra rest => Text.concat ["parsing time ", quoted value, ": extra text: ", quoted rest]

end TimeFault

namespace TimeReading

/-- What has been read of a time. -/
structure Parts where
  year : Nat := 1
  month : Nat := 1
  day : Nat := 1
  hour : Nat := 0
  minute : Nat := 0
  second : Nat := 0
  nanos : Nat := 0
  offset : Int := 0

/-- Whether a byte is a decimal digit. -/
def isDigit (b : UInt8) : Bool := 0x30 ≤ b && b ≤ 0x39

/-- The number that decimal digits spell. -/
def number (digits : List UInt8) : Nat := digits.foldl (fun n b => 10 * n + (b.toNat - 0x30)) 0

/-- A number of one or two digits, or of just two. -/
def takeTwo? (twoDigits : Bool) : List UInt8 → Option (Nat × List UInt8)
  | a :: b :: rest =>
    if isDigit a then
      if isDigit b then some (number [a, b], rest)
      else if twoDigits then none else some (number [a], b :: rest)
    else none
  | [a] => if isDigit a && !twoDigits then some (number [a], []) else none
  | [] => none

/-- A fraction of a second in nanoseconds, if there is one; digits beyond the ninth are dropped. -/
def takeFraction (bytes : List UInt8) : Nat × List UInt8 :=
  match bytes with
  | mark :: first :: rest =>
    if (mark = 0x2e || mark = 0x2c) && isDigit first then
      let digits := first :: rest.takeWhile isDigit
      let kept := digits.take 9
      (number kept * Nat.pow 10 (9 - kept.length), rest.dropWhile isDigit)
    else (0, bytes)
  | _ => (0, bytes)

/-- An offset: `Z`, or a sign, hours and minutes. -/
def takeZone? (bytes : List UInt8) : Except TimeFault (Option (Int × List UInt8)) :=
  match bytes with
  | 0x5a :: rest => .ok (some (0, rest))
  | sign :: h1 :: h2 :: 0x3a :: m1 :: m2 :: rest =>
    match takeTwo? true [h1, h2], takeTwo? true [m1, m2] with
    | some (h, _), some (m, _) =>
      if 60 < m then .error (.outOfRange "time zone offset minute")
      else if 24 < h then .error (.outOfRange "time zone offset hour")
      else
        let offset : Int := (h * 60 + m) * 60
        .ok (if sign = 0x2b then some (offset, rest) else if sign = 0x2d then some (-offset, rest) else none)
    | some (h, _), none => if 24 < h then .error (.outOfRange "time zone offset hour") else .ok none
    | _, _ => .ok none
  | _ => .ok none

/-- A number for a part that must lie below a bound. -/
def bounded (what : String) (low high n : Nat) (p : Parts) (rest : List UInt8) : Except TimeFault (Option (Parts × List UInt8)) :=
  if n < low ∨ high < n then .error (.outOfRange what) else .ok (some (p, rest))

/-- Takes one part off the front of the text; `lone` says that the layout has no fraction after it. -/
def take? (lone : Bool) (p : Parts) (part : TimePart) (bytes : List UInt8) : Except TimeFault (Option (Parts × List UInt8)) :=
  match part with
  | .mark c => .ok (match bytes with
    | b :: rest => if b = c.toNat.toUInt8 then some (p, rest) else none
    | [] => none)
  | .blanks => .ok (match bytes with
    | b :: _ => if b = 0x20 then some (p, bytes.dropWhile (· == 0x20)) else none
    | [] => some (p, []))
  | .year =>
    let digits := bytes.take 4
    .ok (if digits.length = 4 && digits.all isDigit then some ({ p with year := number digits }, bytes.drop 4) else none)
  | .month two => match takeTwo? two bytes with
    | some (n, rest) => bounded "month" 1 12 n { p with month := n } rest
    | none => .ok none
  | .day two => .ok ((takeTwo? two bytes).map fun (n, rest) => ({ p with day := n }, rest))
  | .hour => match takeTwo? false bytes with
    | some (n, rest) => bounded "hour" 0 23 n { p with hour := n } rest
    | none => .ok none
  | .minute two => match takeTwo? two bytes with
    | some (n, rest) => bounded "minute" 0 59 n { p with minute := n } rest
    | none => .ok none
  | .second two => match takeTwo? two bytes with
    | some (n, rest) =>
      let (nanos, rest) := if lone then takeFraction rest else (p.nanos, rest)
      bounded "second" 0 59 n { p with second := n, nanos } rest
    | none => .ok none
  | .fraction =>
    let (nanos, rest) := takeFraction bytes
    .ok (some ({ p with nanos }, rest))
  | .zone => return (← takeZone? bytes).map fun (offset, rest) => ({ p with offset }, rest)

/-- Takes the parts of a layout off the front of the text. -/
def takeAll (p : Parts) : TimeLayout → List UInt8 → Except TimeFault (Parts × List UInt8)
  | [], bytes => .ok (p, bytes)
  | part :: layout, bytes => do
    match ← take? (layout.head? ≠ some .fraction) p part bytes with
    | some (p, rest) => takeAll p layout rest
    | none => throw (.mismatch ⟨bytes⟩ part.text)

/-- The time that parts make. -/
def Parts.time (p : Parts) : Timestamp :=
  let days := Date.toDays ⟨p.year, p.month, p.day⟩
  ⟨Int64.ofInt (days * 86400 + (p.hour * 3600 + p.minute * 60 + p.second : Nat) - p.offset), p.nanos, p.offset⟩

end TimeReading

/-- Reads a time by a layout. The day is checked against the month at the end. -/
def Timestamp.read (layout : TimeLayout) (t : Text) : Except TimeFault Timestamp := do
  let (p, rest) ← TimeReading.takeAll {} layout t.bytes
  if !rest.isEmpty then throw (.extra ⟨rest⟩)
  else if p.day < 1 ∨ Date.daysIn p.year p.month < p.day then throw (.outOfRange "day")
  else return p.time

/-- Reads a time in the internet form. -/
def Timestamp.parse (t : Text) : Except TimeFault Timestamp := Timestamp.read .internet t

end SensorWire
