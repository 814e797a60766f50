/-
The trade log as a table. A message or a quantity that is missing is an empty field.
-/
import StrategyScript.Trade.Log
import StrategyScript.Csv.Writer
import StrategyScript.Number.Text

namespace StrategyScript.TradeRecord

def csvHeader : List String :=
  ["sequence", "action", "message", "quantity", "reference_price"]

def csvFields (t : TradeRecord) : List String :=
  [toString t.sequence, t.action.name, t.message.getD "", (t.quantity.map Number.text).getD "",
    Number.text t.referencePrice]

/-- The header, and one record for each trade. -/
def writeCsv (trades : List TradeRecord) : String :=
  Csv.write (csvHeader :: trades.map csvFields)

end StrategyScript.TradeRecord
