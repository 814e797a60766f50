/-
Character properties as tables of code point ranges.
-/

namespace StrategyScript.Text

/-- A character is in a table when one of its ranges, both ends included, holds its code point. -/
def inRanges (ranges : List (Nat × Nat)) (c : Char) : Bool :=
  ranges.any fun (first, last) => first ≤ c.toNat && c.toNat ≤ last

end StrategyScript.Text
