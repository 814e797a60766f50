/-
Moving averages, and the convergence and divergence of two of them.
-/
import StrategyScript.Indicator.Window

namespace StrategyScript.Indicator

/-- The simple moving average: the mean of the last `n` values, or zero when there are fewer. -/
def sma (xs : List Float) (n : Nat) : Float :=
  match trailing xs n with
  | some window => mean window n
  | none => 0.0

/-- The weight of a new value in an exponential moving average. -/
def smoothing (n : Nat) : Float :=
  2.0 / (Float.ofNat n + 1.0)

/-- One value more in an exponential moving average. -/
def smooth (k average x : Float) : Float :=
  x * k + average * (1.0 - k)

/-- The exponential moving average. It starts from the mean of the first `n` values, and is zero when
there are fewer. -/
def ema (xs : List Float) (n : Nat) : Float :=
  if n = 0 ∨ xs.length < n then 0.0
  else (xs.drop n).foldl (smooth (smoothing n)) (mean (xs.take n) n)

structure Macd where
  line : Float
  signal : Float
  histogram : Float
deriving DecidableEq, Repr

/-- The difference of a fast and a slow average. The signal is the line itself, whatever its period,
so that the histogram is zero. All is zero with fewer values than the slow period. -/
def macd (xs : List Float) (fast slow _signal : Nat) : Macd :=
  if xs.length < slow then ⟨0.0, 0.0, 0.0⟩
  else
    let line := ema xs fast - ema xs slow
    ⟨line, line, 0.0⟩

end StrategyScript.Indicator
