import SensorWire.Text.Basic

/-!
# Base 64

Bytes written with sixty-four characters, four for three bytes, filled up at the end. Line breaks inside are ignored.
-/

namespace SensorWire.Base64

/-- The number that a character stands for. -/
def digit? (b : UInt8) : Option Nat :=
  if 0x41 ≤ b ∧ b ≤ 0x5a then some (b.toNat - 0x41)
  else if 0x61 ≤ b ∧ b ≤ 0x7a then some (b.toNat - 0x61 + 26)
  else if 0x30 ≤ b ∧ b ≤ 0x39 then some (b.toNat - 0x30 + 52)
  else if b = 0x2b then some 62
  else if b = 0x2f then some 63
  else none

/-- The bytes of groups of four characters, of which the last may be filled up. -/
def groups : List UInt8 → Option (List UInt8)
  | [] => some []
  | [a, b, 0x3d, 0x3d] => do
    let n := (← digit? a) * 64 + (← digit? b)
    return [UInt8.ofNat (n / 16)]
  | [a, b, c, 0x3d] => do
    let n := ((← digit? a) * 64 + (← digit? b)) * 64 + (← digit? c)
    return [UInt8.ofNat (n / 1024), UInt8.ofNat (n / 4 % 256)]
  | a :: b :: c :: d :: rest => do
    let n := (((← digit? a) * 64 + (← digit? b)) * 64 + (← digit? c)) * 64 + (← digit? d)
    return UInt8.ofNat (n / 65536) :: UInt8.ofNat (n / 256 % 256) :: UInt8.ofNat (n % 256) :: (← groups rest)
  | _ => none

/-- The bytes that a text stands for. -/
def decode? (t : Text) : Option (List UInt8) := groups (t.bytes.filter fun b => b ≠ 0x0a && b ≠ 0x0d)

end SensorWire.Base64
