/-
What a trade may be given: at most one message and at most one quantity.
-/

namespace StrategyScript

/-- What is wrong with the arguments of a trade; `kind` names a kind of value. -/
inductive TradeArgumentFault
  | tooMany (count : Nat)
  | twoMessages
  | twoQuantities
  | neither (kind : String)
deriving DecidableEq, Repr

def TradeArgumentFault.message : TradeArgumentFault → String
  | .tooMany count => s!"expected at most a message and a quantity, got {count} arguments"
  | .twoMessages => "more than one message"
  | .twoQuantities => "more than one quantity"
  | .neither kind => s!"{kind} is neither a message nor a quantity"

end StrategyScript
