/-
The window at the recent end of a series, and sums and means.
-/

namespace StrategyScript.Indicator

/-- The last `n` values; there is no window of none, and none longer than the series. -/
def trailing (xs : List Float) (n : Nat) : Option (List Float) :=
  if n = 0 ∨ xs.length < n then none else some (xs.drop (xs.length - n))

/-- The sum from the left. It starts from minus zero, the one number that changes no other when
added. -/
def sum (xs : List Float) : Float :=
  xs.foldl (· + ·) (-0.0)

/-- The sum divided by a count. -/
def mean (xs : List Float) (n : Nat) : Float :=
  sum xs / Float.ofNat n

end StrategyScript.Indicator
