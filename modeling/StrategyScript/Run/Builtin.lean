/-
What the built-ins compute from market data, the trade log and their arguments. Only the trades
change anything, and only the log.
-/
import StrategyScript.Run.Argument
import StrategyScript.Market.Snapshot
import StrategyScript.Trade.Log
import StrategyScript.Indicator.Average
import StrategyScript.Indicator.Deviation
import StrategyScript.Indicator.Strength

namespace StrategyScript

/-- Adds a trade at the most recent close, or at zero without data. -/
def TradeLog.trade (log : TradeLog) (market : Market) (action : TradeAction)
    (order : Argument.Order) : TradeLog :=
  log.emit action order.message order.quantity market.referencePrice

namespace Builtin

open Argument Indicator

/-! ## Market data -/

/-- A figure of the bar so many bars ago; outside of the data it is zero. -/
def priceAt (market : Market) (field : PriceField) (args : List Value) :
    Except ArgumentFault Value := do
  let offset ← number args 0 "offset" 0.0
  if !offset.isFinite || offset < 0.0 then return .number 0.0
  else return .number ((market.valueAt? field.name (Number.toCount offset)).getD 0.0)

/-- The most recent values of a series, the latest first. -/
def seriesOf (market : Market) (args : List Value) : Except ArgumentFault Value := do
  let values := market.series (← field args 0)
  let count ← match given? args 1 with
    | none => pure values.length
    | some _ => period args 1 "count" 0
  return .list ((values.reverse.take count).map .number)

/-! ## Indicators -/

/-- An indicator of one period over one series. -/
def windowed (indicator : List Float → Nat → Float) (defaultPeriod : Nat) (market : Market)
    (args : List Value) : Except ArgumentFault Value := do
  let n ← Argument.period args 0 "period" defaultPeriod
  return .number (indicator (market.series (← field args 1)) n)

def macdOf (market : Market) (args : List Value) : Except ArgumentFault Value := do
  let fast ← period args 0 "fast period" 12
  let slow ← period args 1 "slow period" 26
  let signal ← period args 2 "signal period" 9
  let m := Indicator.macd (market.series (← field args 3)) fast slow signal
  return .ofNumbers [("macd", m.line), ("signal", m.signal), ("histogram", m.histogram)]

def bandsOf (market : Market) (args : List Value) : Except ArgumentFault Value := do
  let n ← period args 0 "period" 20
  let multiplier ← number args 1 "multiplier" 2.0
  let b := bands (market.series (← field args 2)) n multiplier
  return .ofNumbers [("upper", b.upper), ("middle", b.middle), ("lower", b.lower)]

/-! ## Values -/

/-- The number of items of a list, or of characters of a text. -/
def lengthOf : List Value → Except ArgumentFault Value
  | .list items :: _ => .ok (.number (Float.ofNat items.length))
  | .string s :: _ => .ok (.number (Float.ofNat s.length))
  | v :: _ => .error (.noLength v.kind)
  | [] => .error (.missing "value")

def roundOf (args : List Value) : Except ArgumentFault Value := do
  let x ← requiredNumber args 0 "value"
  let digits ← number args 1 "digits" 0.0
  if !digits.isFinite then .error (.badDigits digits)
  else return .number (Number.roundTo x digits)

def rootOf (args : List Value) : Except ArgumentFault Value := do
  let x ← requiredNumber args 0 "value"
  if x < 0.0 then .error (.negativeRoot x) else return .number x.sqrt

def positionOf (log : TradeLog) : Value :=
  let p := log.position
  .ofNumbers [("quantity", p.quantity), ("buy_quantity", p.bought), ("sell_quantity", p.sold),
    ("trades_count", Float.ofNat p.trades)]

/-- Calls a built-in: its value, and the log after the call. A trade is worth `true`. -/
def apply (b : Builtin) (market : Market) (log : TradeLog) (args : List Value) :
    Except ArgumentFault (Value × TradeLog) :=
  match b with
  | .price f => reading (priceAt market f args)
  | .sma => reading (windowed Indicator.sma 20 market args)
  | .ema => reading (windowed Indicator.ema 20 market args)
  | .rsi => reading (windowed Indicator.rsi 14 market args)
  | .macd => reading (macdOf market args)
  | .bollingerBands | .bb => reading (bandsOf market args)
  | .trade action =>
    match classify args with
    | .ok order => .ok (.boolean true, log.trade market action order)
    | .error fault => .error (.trade fault)
  | .position => .ok (positionOf log, log)
  | .series => reading (seriesOf market args)
  | .len => reading (lengthOf args)
  | .abs => reading ((requiredNumber args 0 "value").map (.number ·.abs))
  | .max => reading ((numbers args).map (.number <| Number.largest ·))
  | .min => reading ((numbers args).map (.number <| Number.smallest ·))
  | .round => reading (roundOf args)
  | .sqrt => reading (rootOf args)
where
  /-- A call that leaves the log alone. -/
  reading (value : Except ArgumentFault Value) : Except ArgumentFault (Value × TradeLog) :=
    value.map (·, log)

end Builtin

end StrategyScript
