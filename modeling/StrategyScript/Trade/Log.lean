/-
The trade log of a run, and the position that its trades add up to.
-/
import StrategyScript.Trade.Action

namespace StrategyScript

structure TradeRecord where
  action : TradeAction
  message : Option String
  quantity : Option Float
  /-- The most recent close when the trade was made. -/
  referencePrice : Float
  /-- The place in the log, counted from zero. -/
  sequence : Nat
deriving DecidableEq, Repr

/-! ## The log -/

structure TradeLog where
  entries : Array TradeRecord
deriving Repr

namespace TradeLog

def empty : TradeLog := ⟨#[]⟩

def records (log : TradeLog) : List TradeRecord := log.entries.toList

def size (log : TradeLog) : Nat := log.entries.size

/-- The record that a trade gets when it is made now. -/
def nextRecord (log : TradeLog) (action : TradeAction) (message : Option String)
    (quantity : Option Float) (price : Float) : TradeRecord :=
  ⟨action, message, quantity, price, log.size⟩

/-- Adds a trade at the end. -/
def emit (log : TradeLog) (action : TradeAction) (message : Option String)
    (quantity : Option Float) (price : Float) : TradeLog :=
  let r := log.nextRecord action message quantity price
  ⟨log.entries.push r⟩

@[simp] theorem records_emit (log : TradeLog) (action : TradeAction) (message : Option String)
    (quantity : Option Float) (price : Float) :
    (log.emit action message quantity price).records =
      log.records ++ [log.nextRecord action message quantity price] := by
  simp [emit, records]

end TradeLog

/-! ## The position -/

/-- What trades add up to. A trade without a quantity counts as zero. -/
structure PositionSummary where
  quantity : Float
  bought : Float
  sold : Float
  trades : Nat
deriving DecidableEq, Repr

namespace PositionSummary

/-- Adds the quantity of one trade to its side. -/
def addTrade (sides : Float × Float) (t : TradeRecord) : Float × Float :=
  match t.action with
  | .buy => (sides.1 + t.quantity.getD 0.0, sides.2)
  | .sell => (sides.1, sides.2 + t.quantity.getD 0.0)

def ofTrades (trades : List TradeRecord) : PositionSummary :=
  let (bought, sold) := trades.foldl addTrade (0.0, 0.0)
  ⟨bought - sold, bought, sold, trades.length⟩

def isFlat (p : PositionSummary) : Bool := p.quantity == 0.0

end PositionSummary

def TradeLog.position (log : TradeLog) : PositionSummary := .ofTrades log.records

end StrategyScript
