/-
The five figures of a bar.
-/

namespace StrategyScript

inductive PriceField
  | opening
  | high
  | low
  | close
  | volume
deriving DecidableEq, Repr

namespace PriceField

def name : PriceField → String
  | .opening => "open"
  | .high => "high"
  | .low => "low"
  | .close => "close"
  | .volume => "volume"

def all : List PriceField := [.opening, .high, .low, .close, .volume]

theorem mem_all (f : PriceField) : f ∈ all := by cases f <;> decide

/-- The field of that name. -/
def named? (name : String) : Option PriceField :=
  all.find? (·.name == name)

end PriceField

end StrategyScript
