import SensorWire.Number.Binary

/-!
# Reading numbers

Numbers in text: whole numbers with a sign and a mark for their base, and decimal fractions with an exponent.
-/

namespace SensorWire.NumberText

/-- The value of a digit in some base up to thirty-six. -/
def digitValue? (b : UInt8) : Option Nat :=
  if 0x30 ≤ b ∧ b ≤ 0x39 then some (b.toNat - 0x30)
  else if 0x61 ≤ b ∧ b ≤ 0x7a then some (b.toNat - 0x57)
  else if 0x41 ≤ b ∧ b ≤ 0x5a then some (b.toNat - 0x37)
  else none

/-- The number that digits in a base spell. -/
def digits? (base : Nat) (bytes : List UInt8) : Option Nat :=
  bytes.foldl (fun n b => do
    let d ← digitValue? b
    if base ≤ d then none
    return base * (← n) + d) (some 0)

/-- A number without a sign. A zero at its beginning is the mark of base 8, and followed by a letter that of base 2, 8 or 16. -/
def natural? : List UInt8 → Option Nat
  | [] => none
  | 0x30 :: mark :: d :: rest =>
    if mark = 0x62 ∨ mark = 0x42 then digits? 2 (d :: rest)
    else if mark = 0x6f ∨ mark = 0x4f then digits? 8 (d :: rest)
    else if mark = 0x78 ∨ mark = 0x58 then digits? 16 (d :: rest)
    else digits? 8 (mark :: d :: rest)
  | 0x30 :: rest => digits? 8 rest
  | bytes => digits? 10 bytes

/-- A number in a base with a sign, given a way to read it without one. -/
def signed? (read : List UInt8 → Option Nat) : List UInt8 → Option Int
  | 0x2b :: rest => (read rest).map Int.ofNat
  | 0x2d :: rest => (read rest).map fun n => -(n : Int)
  | bytes => (read bytes).map Int.ofNat

/-- A number in a base that has digits at all. -/
def someDigits? (base : Nat) (bytes : List UInt8) : Option Nat := if bytes.isEmpty then none else digits? base bytes

/-- Whether a number can be counted with a sign in 64 bits. -/
def isInt64 (n : Int) : Bool := -0x8000000000000000 ≤ n && n < 0x8000000000000000

/-! ## Decimal fractions -/

/-- Whether a byte is a decimal digit. -/
def isDigit (b : UInt8) : Bool := 0x30 ≤ b && b ≤ 0x39

/-- The exponent after its mark: a sign and digits. -/
def exponent? (bytes : List UInt8) : Option Int :=
  signed? (fun ds => if !ds.isEmpty && ds.all isDigit then digits? 10 ds else none) bytes

/-- A decimal fraction with a sign and an exponent, as a sign, digits and the exponent of the last of them. -/
def decimal? (bytes : List UInt8) : Option (Bool × Nat × Int) := do
  let (negative, bytes) := match bytes with
    | 0x2b :: rest => (false, rest)
    | 0x2d :: rest => (true, rest)
    | bytes => (false, bytes)
  let whole := bytes.takeWhile isDigit
  let rest := bytes.dropWhile isDigit
  let (fraction, rest) := match rest with
    | 0x2e :: rest => (rest.takeWhile isDigit, rest.dropWhile isDigit)
    | rest => ([], rest)
  if whole.isEmpty && fraction.isEmpty then none
  let e ← match rest with
    | [] => some 0
    | mark :: rest => if mark = 0x65 ∨ mark = 0x45 then exponent? rest else none
  return (negative, (← digits? 10 (whole ++ fraction)), e - fraction.length)

/-- Whether each underscore stands between two digits; `digit` says whether one stands before. -/
def separatesDigits (digit : Bool) : List UInt8 → Bool
  | [] => true
  | 0x5f :: d :: rest => digit && isDigit d && separatesDigits true rest
  | 0x5f :: [] => false
  | b :: rest => separatesDigits (isDigit b) rest

/-- The double-precision number nearest to a decimal fraction; none if it is too large for one. -/
def double? (bytes : List UInt8) : Option UInt64 := do
  let (negative, m, e) ← decimal? bytes
  Binary.ofDecimal? negative m e

end SensorWire.NumberText
