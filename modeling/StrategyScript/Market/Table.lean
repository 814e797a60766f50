/-
Bars from a table with a header and the columns date, open, high, low, close and volume, in this
order. What the header says does not matter, and further columns are ignored.
-/
import StrategyScript.Market.Bar
import StrategyScript.Csv.Reader

namespace StrategyScript.Bar

/-- Why a table holds no bars. Rows count from one, the header being the first. -/
inductive Fault
  | uneven (cause : Csv.Uneven)
  | missing (row : Nat) (column : String)
  | badDate (row : Nat) (cause : Date.Fault)
  | badNumber (row : Nat) (column : String) (cause : Number.FloatFault)
deriving DecidableEq, Repr

def Fault.message : Fault → String
  | .uneven cause => "CSV parse error: " ++ cause.message
  | .missing row column => s!"row {row}: missing {column} column"
  | .badDate row cause => s!"row {row}: invalid date format: {cause.message}"
  | .badNumber row column cause => s!"row {row}: invalid {column} value: {cause.message}"

/-- A field without the blanks around it. -/
def column (fields : List String) (row i : Nat) (name : String) : Except Fault String :=
  match fields[i]? with
  | some field => .ok (Text.trim field)
  | none => .error (.missing row name)

def readDate (fields : List String) (row : Nat) : Except Fault Date := do
  (Date.read (← column fields row 0 "date")).mapError (.badDate row)

def readFigure (fields : List String) (row i : Nat) (field : PriceField) :
    Except Fault Float := do
  (Number.readFloat (← column fields row i field.name)).mapError (.badNumber row field.name)

/-- The bar of a row; the first bad column decides. -/
def ofFields (fields : List String) (row : Nat) : Except Fault Bar := do
  return ⟨← readDate fields row, ← readFigure fields row 1 .opening,
    ← readFigure fields row 2 .high, ← readFigure fields row 3 .low,
    ← readFigure fields row 4 .close, ← readFigure fields row 5 .volume⟩

/-- The bar of a row as the reader delivers it. -/
def ofRow (r : Except Csv.Uneven (List String)) (row : Nat) : Except Fault Bar :=
  match r with
  | .ok fields => ofFields fields row
  | .error cause => .error (.uneven cause)

/-- The bars of a table in the order of its rows; the first bad row decides. -/
def readRows (rows : List (Except Csv.Uneven (List String))) : Except Fault (List Bar) :=
  rows.zipIdx.mapM fun (r, i) => ofRow r (i + 2)

/-- From the oldest to the latest; bars of one day keep their order. -/
def sortByDate (bars : List Bar) : List Bar :=
  bars.mergeSort fun a b => a.date.le b.date

/-- The bars of a table, sorted from the oldest. -/
def readTable (text : String) : Except Fault (List Bar) :=
  (readRows (Csv.rows text)).map sortByDate

end StrategyScript.Bar
