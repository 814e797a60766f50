/-
The market data of a run: named series, the oldest value first. Offsets count back from the most
recent value.
-/
import StrategyScript.Market.Bar
import StrategyScript.Store.Dictionary
import StrategyScript.Text.Lowercase

namespace StrategyScript

structure Market where
  entries : Dictionary (List Float)
deriving Repr

namespace Market

def empty : Market := ⟨[]⟩

/-- Adds a series in place of one of the same name. Names are kept in lower case. -/
def insert (m : Market) (field : String) (values : List Float) : Market :=
  ⟨m.entries.insert (Text.lowercase field) values⟩

/-- The five series of bars that are sorted from the oldest. -/
def ofBars (bars : List Bar) : Market :=
  PriceField.all.foldl (fun m f => m.insert f.name (bars.map (·.figure f))) empty

/-- The series of exactly that name; one that is missing is empty. -/
def series (m : Market) (field : String) : List Float :=
  (m.entries.get? field).getD []

/-- The value so many places before the most recent one. The place is found from the end by `offset + 1`.
In 64 bits that sum wraps for the greatest offset and nothing is found either (`valueAt?_wrapped`); only a
program that checks for overflow stops there. -/
def valueAt? (m : Market) (field : String) (offset : Nat) : Option Float :=
  let values := m.series field
  if offset < values.length then values[values.length - 1 - offset]? else none

def latest? (m : Market) (field : String) : Option Float := m.valueAt? field 0

/-- The price that a trade refers to. -/
def referencePrice (m : Market) : Float := (m.latest? "close").getD 0.0

def fields (m : Market) : List String := m.entries.keys

/-- The number of bars: the length of the longest series. -/
def size (m : Market) : Nat :=
  m.entries.values.foldl (fun n values => max n values.length) 0

def isEmpty (m : Market) : Bool := m.size == 0

/-! ## Validity -/

/-- Why market data cannot be used. -/
inductive Fault
  | noBars
  | uneven (field : String) (length expected : Nat)
deriving DecidableEq, Repr

def Fault.message : Fault → String
  | .noBars => "market data has no bars"
  | .uneven field length expected => s!"series '{field}' has {length} values, expected {expected}"

/-- There are bars, and all series have the same length. -/
def validate (m : Market) : Except Fault Unit :=
  if m.isEmpty then .error .noBars
  else match m.entries.toList.find? fun (_, values) => values.length ≠ m.size with
    | some (field, values) => .error (.uneven field values.length m.size)
    | none => .ok ()

end Market

end StrategyScript
