/-
The two sides of a trade.
-/

namespace StrategyScript

inductive TradeAction
  | buy
  | sell
deriving DecidableEq, Repr

def TradeAction.name : TradeAction → String
  | .buy => "buy"
  | .sell => "sell"

end StrategyScript
