/-
Bars: the figures of one trading day.
-/
import StrategyScript.Market.Date
import StrategyScript.Market.Field

namespace StrategyScript

structure Bar where
  date : Date
  opening : Float
  high : Float
  low : Float
  close : Float
  volume : Float
deriving Repr

namespace Bar

def figure (b : Bar) : PriceField → Float
  | .opening => b.opening
  | .high => b.high
  | .low => b.low
  | .close => b.close
  | .volume => b.volume

/-- The figure of that name; other names have none. -/
def figure? (b : Bar) (name : String) : Option Float :=
  (PriceField.named? name).map b.figure

end Bar

end StrategyScript
