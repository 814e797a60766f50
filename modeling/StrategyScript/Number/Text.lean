/-
How a number is written: the fewest digits that read back, always positional, without a point when
the number is whole.
-/
import StrategyScript.Number.Shortest

namespace StrategyScript.Number

/-- Digits and a power of ten in positional notation. -/
def Decimal.positional (d : Decimal) : List Char :=
  let digits := Nat.toDigits 10 d.digits
  if 0 ≤ d.exponent then digits ++ List.replicate d.exponent.toNat '0'
  else
    let places := (-d.exponent).toNat
    if places < digits.length then
      digits.take (digits.length - places) ++ '.' :: digits.drop (digits.length - places)
    else ['0', '.'] ++ List.replicate (places - digits.length) '0' ++ digits

/-- The absolute value of a number that is not a NaN. -/
def magnitudeText (x : Float) : List Char :=
  if x.isInf then ['i', 'n', 'f']
  else if x == 0.0 then ['0']
  else (magnitude x).shortest.positional

/-- A negative zero keeps its sign, and a NaN has none. -/
def text (x : Float) : String :=
  if x.isNaN then "NaN"
  else if isNegative x then String.ofList ('-' :: magnitudeText x)
  else String.ofList (magnitudeText x)

end StrategyScript.Number
