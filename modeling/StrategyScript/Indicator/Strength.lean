/-
The relative strength index: how the gains of recent changes compare with the losses.
-/
import StrategyScript.Indicator.Window

namespace StrategyScript.Indicator

/-- What the index is taken to be without enough history. -/
def neutralStrength : Float := 50.0

/-- The changes from each value to the next. -/
def changes (xs : List Float) : List Float :=
  List.zipWith (fun x y => y - x) xs xs.tail

/-- Adds a change to the gains if it is one, and otherwise to the losses. -/
def addChange (totals : Float × Float) (change : Float) : Float × Float :=
  if 0.0 < change then (totals.1 + change, totals.2) else (totals.1, totals.2 - change)

/-- The index over the last `n` changes, from simple averages; without losses it is a hundred. The changes
take a window of `n + 1` values. In 64 bits that sum wraps for the greatest period and there is no window
either (`trailing_wrapped`); only a program that checks for overflow stops there. -/
def rsi (xs : List Float) (n : Nat) : Float :=
  if n = 0 then neutralStrength
  else match trailing xs (n + 1) with
    | none => neutralStrength
    | some window =>
      let (gains, losses) := (changes window).foldl addChange (0.0, 0.0)
      let averageGain := gains / Float.ofNat n
      let averageLoss := losses / Float.ofNat n
      if averageLoss == 0.0 then 100.0
      else 100.0 - 100.0 / (1.0 + averageGain / averageLoss)

end StrategyScript.Indicator
