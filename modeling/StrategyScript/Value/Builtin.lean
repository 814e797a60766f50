/-
The names of the built-in functions.
-/
import StrategyScript.Market.Field
import StrategyScript.Trade.Action

namespace StrategyScript

inductive Builtin
  | price (field : PriceField)
  | sma
  | ema
  | rsi
  | macd
  | bollingerBands
  | bb
  | trade (action : TradeAction)
  | position
  | series
  | len
  | abs
  | max
  | min
  | round
  | sqrt
deriving DecidableEq, Repr

namespace Builtin

def name : Builtin → String
  | .price field => field.name
  | .sma => "sma"
  | .ema => "ema"
  | .rsi => "rsi"
  | .macd => "macd"
  | .bollingerBands => "bollinger_bands"
  | .bb => "bb"
  | .trade action => action.name
  | .position => "position"
  | .series => "series"
  | .len => "len"
  | .abs => "abs"
  | .max => "max"
  | .min => "min"
  | .round => "round"
  | .sqrt => "sqrt"

/-- In the order of their declaration. -/
def all : List Builtin :=
  PriceField.all.map .price ++ [.sma, .ema, .rsi, .macd, .bollingerBands, .bb, .trade .buy,
    .trade .sell, .position, .series, .len, .abs, .max, .min, .round, .sqrt]

theorem mem_all (b : Builtin) : b ∈ all := by
  cases b with
  | price f => cases f <;> decide
  | trade a => cases a <;> decide
  | _ => decide

/-- The built-in of that name. -/
def named? (name : String) : Option Builtin :=
  all.find? (·.name == name)

end Builtin

end StrategyScript
