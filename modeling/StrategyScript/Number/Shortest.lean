/-
The fewest decimal digits that read back as a given double, found in exact integer arithmetic on the
bits. A decimal reads back when it lies in the interval of reals that round to the double; the ends
belong to it when the mantissa is even.
-/

namespace StrategyScript.Number

/-- The exact value `mantissa · 2^exponent`. -/
structure Binary where
  mantissa : Nat
  exponent : Int
deriving DecidableEq, Repr

/-- The exact value `digits · 10^exponent`. -/
structure Decimal where
  digits : Nat
  exponent : Int
deriving DecidableEq, Repr

/-- The exponent of the smallest positive double. -/
def lowestExponent : Int := -1074

/-- The leading bit of a mantissa, which is not stored. -/
def leadingBit : Nat := Nat.pow 2 52

/-- The absolute value of a finite double. -/
def magnitude (x : Float) : Binary :=
  let bits := x.toBits.toNat
  let fraction := bits % leadingBit
  let biased := bits / leadingBit % Nat.pow 2 11
  if biased = 0 then ⟨fraction, lowestExponent⟩
  else ⟨leadingBit + fraction, lowestExponent + (biased - 1 : Nat)⟩

/-- The sign bit. -/
def isNegative (x : Float) : Bool :=
  Nat.pow 2 63 ≤ x.toBits.toNat

namespace Binary

/-- The value and the ends of its rounding interval, in quarters of `2^exponent`. -/
def quarters (b : Binary) : Nat := 4 * b.mantissa

/-- The doubles below a power of two lie twice as close. -/
def lowerEnd (b : Binary) : Nat :=
  if b.mantissa = leadingBit ∧ lowestExponent < b.exponent then b.quarters - 1 else b.quarters - 2

def upperEnd (b : Binary) : Nat := b.quarters + 2

/-- The ends round to the value itself. -/
def closed (b : Binary) : Bool := b.mantissa % 2 = 0

/-- Of the two neighbours of the value among the multiples of `10^p`, the one that reads back; of
two that do, the nearer, and the upper one if both are equally near. -/
def onGrid (b : Binary) (p : Int) : Option Nat :=
  let scale := Nat.pow 2 (b.exponent - 2).toNat * Nat.pow 10 (-p).toNat
  let unit := Nat.pow 10 p.toNat * Nat.pow 2 (2 - b.exponent).toNat
  let value := b.quarters * scale
  let below := value / unit
  let low := b.lowerEnd * scale
  let high := b.upperEnd * scale
  let belowFits := low < below * unit || b.closed && low == below * unit
  let aboveFits := (below + 1) * unit < high || b.closed && (below + 1) * unit == high
  if belowFits && aboveFits then
    some (if 2 * (value - below * unit) < unit then below else below + 1)
  else if belowFits then some below
  else if aboveFits then some (below + 1)
  else none

/-- The first grid with a hit, from coarse to fine. -/
def firstGrid (b : Binary) : Nat → Int → Decimal
  | 0, p => ⟨0, p⟩
  | n + 1, p =>
    match b.onGrid p with
    | some digits => ⟨digits, p⟩
    | none => firstGrid b n (p - 1)

/-- A power of ten above the value: `1233 / 4096` is close to the logarithm of two. -/
def coarsest (b : Binary) : Int :=
  (b.mantissa.log2 + 1 + b.exponent) * 1233 / 4096 + 1

/-- Seventeen digits always suffice, so thirty grids are enough. -/
def shortest (b : Binary) : Decimal :=
  b.firstGrid 30 b.coarsest

end Binary

end StrategyScript.Number
