/-
The standard deviation of a window, and the bands that it draws around the mean.
-/
import StrategyScript.Indicator.Window

namespace StrategyScript.Indicator

def squaredDistance (mean x : Float) : Float :=
  (x - mean) * (x - mean)

/-- Mean and population standard deviation of the last `n` values. -/
def deviation (xs : List Float) (n : Nat) : Option (Float × Float) :=
  (trailing xs n).map fun window =>
    let m := mean window n
    (m, (mean (window.map (squaredDistance m)) n).sqrt)

structure Bands where
  upper : Float
  middle : Float
  lower : Float
deriving DecidableEq, Repr

/-- The mean, and the mean plus and minus a multiple of the deviation; all zero when there are fewer
than `n` values. -/
def bands (xs : List Float) (n : Nat) (multiplier : Float) : Bands :=
  match deviation xs n with
  | some (m, sd) => ⟨m + multiplier * sd, m, m - multiplier * sd⟩
  | none => ⟨0.0, 0.0, 0.0⟩

end StrategyScript.Indicator
