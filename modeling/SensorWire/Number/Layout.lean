import SensorWire.Number.Shortest
import SensorWire.Text.Basic

/-!
# Numbers as text

How a decimal is laid out: positionally, or with one digit before the point and an exponent. A `Layout` says for which exponents
the positional form is used and how the exponent form looks; `Layout.general` is for values shown to people and in messages,
`Layout.diagnostic` for diagnostic notation. `fixed` writes a given number of places.
-/

namespace SensorWire

/-- The choices a printer of decimals makes. -/
structure Layout where
  /-- The least decimal exponent that is written positionally. -/
  least : Int
  /-- The first decimal exponent that is written with an exponent again. -/
  limit : Int
  /-- The number of digits an exponent at least has when it is positive and when it is negative. -/
  exponentWidth : Nat
  negativeWidth : Nat
  /-- Whether a number without a fraction gets one. -/
  keepsFraction : Bool
  /-- How an infinity is written after its sign, and whether a positive one has a sign. -/
  infinity : String
  signsInfinity : Bool

namespace Layout

/-- Values shown to people: `0.0001` to `999999` positionally, exponents of two digits, whole numbers without a point. -/
def general : Layout := ⟨-4, 6, 2, 2, false, "Inf", true⟩

/-- Diagnostic notation: `0.000001` to below `1e21` positionally, whole numbers with `.0`; a negative exponent has the digits it
needs, a positive one at least two. -/
def diagnostic : Layout := ⟨-6, 21, 2, 1, true, "Infinity", false⟩

/-- A digit as a character. -/
def digitChar (d : Nat) : Char := Char.ofNat (0x30 + d)

/-- The digits with a point after the first `point` of them, zeros filling the gaps. -/
def positional (l : Layout) (d : Decimal) : List Char :=
  let digits := d.digits.map digitChar
  let whole :=
    if d.point ≤ 0 then ['0']
    else digits.take d.point.toNat ++ List.replicate (d.point.toNat - digits.length) '0'
  let fraction :=
    if d.point ≤ 0 then List.replicate (-d.point).toNat '0' ++ digits
    else digits.drop d.point.toNat
  if fraction.isEmpty then whole ++ (if l.keepsFraction then ['.', '0'] else [])
  else whole ++ '.' :: fraction

/-- One digit, a point and the others, and the exponent with its sign. -/
def scientific (l : Layout) (d : Decimal) : List Char :=
  let digits := d.digits.map digitChar
  let e := d.point - 1
  let fraction := digits.drop 1
  let exponent := Nat.toDigits 10 e.natAbs
  let least := if e < 0 then l.negativeWidth else l.exponentWidth
  digits.take 1 ++ (if fraction.isEmpty then (if l.keepsFraction then ['.', '0'] else []) else '.' :: fraction) ++
    ['e', if e < 0 then '-' else '+'] ++ List.replicate (least - exponent.length) '0' ++ exponent

/-- A decimal in the form that its exponent asks for; no digits are zero. -/
def decimal (l : Layout) (d : Decimal) : List Char :=
  if d.digits.isEmpty then l.positional ⟨[0], 1⟩
  else if l.least ≤ d.point - 1 ∧ d.point - 1 < l.limit then l.positional d
  else l.scientific d

/-- A floating-point number, by the shortest decimal that reads back in a format. -/
def datum (l : Layout) (f : Binary.Format) : Binary.Datum → Text
  | .nan => "NaN"
  | .infinite s => (if s then "-" else if l.signsInfinity then "+" else "") ++ l.infinity
  | .finite s m e => .ofChars ((if s then ['-'] else []) ++ l.decimal (Decimal.shortest f m e))

/-- A double-precision number. -/
def double (l : Layout) (bits : UInt64) : Text := l.datum Binary.double (Binary.datum bits)

/-- A single-precision number. -/
def single (l : Layout) (bits : UInt32) : Text := l.datum Binary.single (Binary.single.decode bits.toNat)

/-- A double-precision number with a given number of places, the last one rounded to nearest, a tie to even. -/
def fixed (places : Nat) (bits : UInt64) : Text :=
  match Binary.datum bits with
  | .nan => "NaN"
  | .infinite s => if s then "-Inf" else "+Inf"
  | .finite s m e =>
    let (a, b) := Binary.scaled m e
    let digits := Nat.toDigits 10 (Binary.roundDiv (a * Nat.pow 10 places) b)
    let padded := List.replicate (places + 1 - digits.length) '0' ++ digits
    let split := padded.length - places
    .ofChars ((if s then ['-'] else []) ++ padded.take split ++ (if places = 0 then [] else '.' :: padded.drop split))

end Layout

end SensorWire
