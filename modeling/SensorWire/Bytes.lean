/-!
# Sequences of bytes

What is shared by the formats made of bytes: splitting off a given number of elements, and numbers with the least byte first.
-/

namespace SensorWire

/-- The first `n` elements and the others, if there are that many. -/
def splitExact {α : Type} : Nat → List α → Option (List α × List α)
  | 0, l => some ([], l)
  | _ + 1, [] => none
  | n + 1, a :: l => (splitExact n l).map fun (x, y) => (a :: x, y)

/-- The number that bytes are, the least one first. -/
def ofLittleEndian (bytes : List UInt8) : Nat := bytes.foldr (fun b n => b.toNat + 256 * n) 0

/-- A number in so many bytes, the least one first. -/
def littleEndian : (width n : Nat) → List UInt8
  | 0, _ => []
  | width + 1, n => UInt8.ofNat (n % 256) :: littleEndian width (n / 256)

end SensorWire
