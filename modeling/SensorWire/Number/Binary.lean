/-!
# Binary floating-point numbers

Fields and messages carry floating-point numbers as their bit patterns, so that every pattern survives, the payload of a NaN
included. A pattern is taken apart into sign, significand and exponent (`Binary.Format.decode`), and every conversion is exact
arithmetic on natural numbers followed by one rounding to the nearest pattern, a tie going to the even one (`Binary.Format.round`).
-/

namespace SensorWire.Binary

/-- An interchange format: the number of bits of its fraction and of its exponent. -/
structure Format where
  fraction : Nat
  exponent : Nat
  deriving DecidableEq, Repr

/-- Sixteen bits. -/
def half : Format := ⟨10, 5⟩

/-- Thirty-two bits. -/
def single : Format := ⟨23, 8⟩

/-- Sixty-four bits. -/
def double : Format := ⟨52, 11⟩

/-- What a pattern denotes; a finite number is `m * 2 ^ e`, with its sign. -/
inductive Datum where
  | nan
  | infinite (negative : Bool)
  | finite (negative : Bool) (m : Nat) (e : Int)
  deriving DecidableEq, Repr

/-- A quotient rounded to the nearest integer, a tie to the even one. -/
def roundDiv (num den : Nat) : Nat :=
  let q := num / den
  let r := num % den
  if 2 * r < den then q
  else if 2 * r > den then q + 1
  else q + q % 2

/-- `n * 2 ^ e` as a quotient of natural numbers. -/
def scaled (n : Nat) (e : Int) : Nat × Nat :=
  if 0 ≤ e then (n * Nat.pow 2 e.toNat, 1) else (n, Nat.pow 2 (-e).toNat)

namespace Format

/-- The value of the exponent field of a number in `[1, 2)`. -/
def bias (f : Format) : Nat := Nat.pow 2 (f.exponent - 1) - 1

/-- The exponent of the smallest positive number. -/
def leastExponent (f : Format) : Int := 1 - (f.bias : Int) - f.fraction

/-- The largest value of the exponent field: infinities and NaNs. -/
def topExponent (f : Format) : Nat := Nat.pow 2 f.exponent - 1

/-- The fraction field of a pattern. -/
def fractionOf (f : Format) (bits : Nat) : Nat := bits % Nat.pow 2 f.fraction

/-- The exponent field of a pattern. -/
def exponentOf (f : Format) (bits : Nat) : Nat := bits / Nat.pow 2 f.fraction % Nat.pow 2 f.exponent

/-- The sign bit of a pattern. -/
def signOf (f : Format) (bits : Nat) : Bool := bits / Nat.pow 2 (f.fraction + f.exponent) % 2 == 1

/-- The number that a pattern stands for. -/
def decode (f : Format) (bits : Nat) : Datum :=
  let s := f.signOf bits
  let x := f.exponentOf bits
  let m := f.fractionOf bits
  if x = f.topExponent then (if m = 0 then .infinite s else .nan)
  else if x = 0 then .finite s m f.leastExponent
  else .finite s (Nat.pow 2 f.fraction + m) (f.leastExponent + x - 1)

/-- The pattern with the given sign over the pattern of a magnitude. -/
def withSign (f : Format) (negative : Bool) (magnitude : Nat) : Nat :=
  if negative then Nat.pow 2 (f.fraction + f.exponent) + magnitude else magnitude

/-- The pattern of an infinity. -/
def infinity (f : Format) (negative : Bool) : Nat := f.withSign negative (f.topExponent * Nat.pow 2 f.fraction)

/-- The exponent with which a positive quotient has a significand of full width, or the least exponent. -/
def exponentFor (f : Format) (num den : Nat) : Int :=
  let guess : Int := (num.log2 : Int) - den.log2 - f.fraction
  let (a, b) := scaled num (-guess)
  let e := if a < Nat.pow 2 f.fraction * (b * den) then guess - 1 else guess
  max e f.leastExponent

/-- The pattern nearest to the quotient of two natural numbers, with a sign; too large a quotient is infinite. -/
def round (f : Format) (negative : Bool) (num den : Nat) : Nat :=
  if num = 0 then f.withSign negative 0
  else
    let e := f.exponentFor num den
    let (a, b) := scaled num (-e)
    let q := roundDiv a (b * den)
    let magnitude := if q < Nat.pow 2 f.fraction then q else (e - f.leastExponent).toNat * Nat.pow 2 f.fraction + q
    if f.topExponent * Nat.pow 2 f.fraction ≤ magnitude then f.infinity negative else f.withSign negative magnitude

/-- The pattern nearest to a datum of another format. -/
def ofDatum (f : Format) : Datum → Nat
  | .nan => f.infinity false + Nat.pow 2 (f.fraction - 1)
  | .infinite s => f.infinity s
  | .finite s m e => let (a, b) := scaled m e; f.round s a b

/-- A pattern of one format in another. A NaN stays one, quiet, with the leading bits of its payload. -/
def convert (source target : Format) (bits : Nat) : Nat :=
  match source.decode bits with
  | .nan =>
    let payload := source.fractionOf bits
    let kept :=
      if source.fraction ≤ target.fraction then payload * Nat.pow 2 (target.fraction - source.fraction)
      else payload / Nat.pow 2 (source.fraction - target.fraction)
    let quiet := Nat.pow 2 (target.fraction - 1)
    target.infinity (source.signOf bits) + (if kept % (2 * quiet) < quiet then kept + quiet else kept)
  | d => target.ofDatum d

end Format

/-! ## The conversions between the patterns in use -/

/-- A double-precision pattern narrowed to single precision. -/
def narrow (bits : UInt64) : UInt32 := UInt32.ofNat (double.convert single bits.toNat)

/-- A single-precision pattern widened to double precision. -/
def widen (bits : UInt32) : UInt64 := UInt64.ofNat (single.convert double bits.toNat)

/-- A half-precision pattern widened to double precision. -/
def widenHalf (bits : UInt16) : UInt64 := UInt64.ofNat (half.convert double bits.toNat)

/-- The double-precision pattern nearest to an integer. -/
def ofInt (n : Int) : UInt64 := UInt64.ofNat (double.round (n < 0) n.natAbs 1)

/-- The number that a double-precision pattern stands for. -/
def datum (bits : UInt64) : Datum := double.decode bits.toNat

/-- The pattern that reading and computing yield for "not a number". -/
def nanBits : UInt64 := 0x7ff8000000000001

/-- Whether a double-precision pattern is a NaN. -/
def isNan (bits : UInt64) : Bool := datum bits == .nan

/-- A number divided by a positive integer, rounded. -/
def divide (bits : UInt64) (divisor : Nat) : UInt64 :=
  match datum bits with
  | .finite s m e => let (a, b) := scaled m e; UInt64.ofNat (double.round s a (b * divisor))
  | _ => bits

/-- The integer nearest to a finite number on the side of zero. -/
def truncate? (bits : UInt64) : Option Int :=
  match datum bits with
  | .finite s m e =>
    let (a, b) := scaled m e
    some (if s then -((a / b : Nat) : Int) else ((a / b : Nat) : Int))
  | _ => none

/-- The natural number below 2^64 that a pattern denotes exactly, if it denotes one; negative zero denotes zero. -/
def toWord? (bits : UInt64) : Option Nat :=
  match datum bits with
  | .finite s m e =>
    let (a, b) := scaled m e
    if a % b = 0 ∧ a / b < 0x10000000000000000 ∧ (s → m = 0) then some (a / b) else none
  | _ => none

/-- The double-precision pattern nearest to `m * 10 ^ e`, or nothing when it is too large for one. -/
def ofDecimal? (negative : Bool) (m : Nat) (e : Int) : Option UInt64 :=
  let size : Int := (Nat.toDigits 10 m).length + e
  let bits :=
    if m = 0 ∨ size < -400 then double.withSign negative 0
    else if size > 400 then double.infinity negative
    else if 0 ≤ e then double.round negative (m * Nat.pow 10 e.toNat) 1
    else double.round negative m (Nat.pow 10 (-e).toNat)
  if bits % 0x8000000000000000 = double.infinity false then none else some (UInt64.ofNat bits)

end SensorWire.Binary
