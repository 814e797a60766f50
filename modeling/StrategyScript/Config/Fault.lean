/-
What can be wrong with a configuration.
-/

namespace StrategyScript

inductive ConfigFault
  | unreadable (file reason : String)
  | missing (sectionName key : String)
  | invalid (sectionName key reason : String)
deriving DecidableEq, Repr

def ConfigFault.message : ConfigFault → String
  | .unreadable file reason => s!"config parse error in {file}: {reason}"
  | .missing s key => s!"missing config value [{s}] {key}"
  | .invalid s key reason => s!"invalid config value [{s}] {key}: {reason}"

end StrategyScript
