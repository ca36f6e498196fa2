import SensorWire.Number.Binary

/-!
# The shortest decimal of a floating-point number

A number is printed with the fewest decimal digits that read back as it. The reals that round to a pattern form an interval
around its value, whose ends belong to it exactly when the significand is even. On the grid of decimals with `p` digits the
two neighbours of the value are tried, for growing `p`; of two neighbours in the interval the nearer is taken, and of two equally
near ones the even.
-/

namespace SensorWire

/-- A decimal number: its digits read as `0.d₁d₂… * 10 ^ point`. -/
structure Decimal where
  digits : List Nat
  point : Int
  deriving DecidableEq, Repr

namespace Decimal

/-- The decimal digits of a natural number, most significant first. -/
def digitsOf (n : Nat) : List Nat := (Nat.toDigits 10 n).map fun c => c.toNat - 0x30

/-- The number of decimal digits of a positive natural number. -/
def width (n : Nat) : Nat := (Nat.toDigits 10 n).length

/-- The exponent `k` with `10 ^ (k - 1) ≤ num / den < 10 ^ k`, for a positive quotient. -/
def pointOf (num den : Nat) : Int :=
  if den ≤ num then width (num / den)
  else 1 - (width ((den + num - 1) / num - 1) : Int)

/-- `n * 10 ^ e` as a quotient of natural numbers. -/
def scaledTen (n : Nat) (e : Int) : Nat × Nat :=
  if 0 ≤ e then (n * Nat.pow 10 e.toNat, 1) else (n, Nat.pow 10 (-e).toNat)

/-- A decimal without the zeros at its end. -/
def trim (d : Decimal) : Decimal := ⟨(d.digits.reverse.dropWhile (· == 0)).reverse, d.point⟩

/-- The decimal `n * 10 ^ (k - p)`, where `n` has `p` digits or is `10 ^ p`. -/
def ofGrid (n p : Nat) (k : Int) : Decimal :=
  trim ⟨digitsOf n, k + (width n : Int) - p⟩

/-- The interval of the reals that round to a number, in units of a quarter of the last bit of its significand. -/
structure Neighbourhood where
  low : Nat
  value : Nat
  high : Nat
  closed : Bool
  exponent : Int

/-- The interval of a finite number of a format. -/
def neighbourhood (f : Binary.Format) (m : Nat) (e : Int) : Neighbourhood :=
  let low := if m = Nat.pow 2 f.fraction ∧ f.leastExponent < e then 4 * m - 1 else 4 * m - 2
  ⟨low, 4 * m, 4 * m + 2, m % 2 = 0, e - 2⟩

/-- Whether `n * 10 ^ g` lies in an interval. -/
def Neighbourhood.contains (b : Neighbourhood) (n : Nat) (g : Int) : Bool :=
  let (x, y) := scaledTen n g
  let (u, v) := Binary.scaled 1 b.exponent
  -- `x / y` against `low * u / v` and `high * u / v`
  let left := x * v
  if b.closed then b.low * u * y ≤ left && left ≤ b.high * u * y
  else b.low * u * y < left && left < b.high * u * y

/-- The neighbour of the value on a grid that reads back as it, nearest first. -/
def Neighbourhood.onGrid? (b : Neighbourhood) (k : Int) (p : Nat) : Option Decimal :=
  let g := k - (p : Int)
  let (u, v) := Binary.scaled b.value b.exponent
  let (x, y) := scaledTen 1 g
  -- the value in units of the grid is `(u * y) / (v * x)`
  let num := u * y
  let den := v * x
  let below := num / den
  let rest := num % den
  let nearer := if 2 * rest < den then true else if den < 2 * rest then false else below % 2 = 0
  let here := b.contains below g
  let above := b.contains (below + 1) g
  if here && (nearer || !above) then some (ofGrid below p k)
  else if above then some (ofGrid (below + 1) p k)
  else none

/-- The first hit on the grids with `p`, `p + 1`, … digits, at most `fuel` of them, and else the value to as many digits. -/
def Neighbourhood.search (b : Neighbourhood) (k : Int) : (fuel p : Nat) → Decimal
  | 0, p => (b.onGrid? k p).getD ⟨[], 0⟩
  | fuel + 1, p => match b.onGrid? k p with
    | some d => d
    | none => b.search k fuel (p + 1)

/-- The shortest decimal that reads back as `m * 2 ^ e` in a format; zero has no digits. -/
def shortest (f : Binary.Format) (m : Nat) (e : Int) : Decimal :=
  if m = 0 then ⟨[], 0⟩
  else
    let (u, v) := Binary.scaled m e
    (neighbourhood f m e).search (pointOf u v) 17 1

end Decimal

end SensorWire
