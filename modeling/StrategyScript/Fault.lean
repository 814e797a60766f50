/-
All that can go wrong with a script and what it is given, and the exit code that tells it.
-/
import StrategyScript.Run.Script
import StrategyScript.Config.Fault

namespace StrategyScript

inductive Fault
  | syntaxError (cause : ParseError)
  | runError (cause : RunError)
  | data (reason : String)
  | config (cause : ConfigFault)
  | file (reason : String)
deriving Repr

namespace Fault

def message : Fault → String
  | .syntaxError cause => cause.text
  | .runError cause => cause.error.message
  | .data reason => "data error: " ++ reason
  | .config cause => cause.message
  | .file reason => reason

def exitCode : Fault → Nat
  | .file _ => 1
  | .config _ => 2
  | .data _ => 3
  | .syntaxError _ => 4
  | .runError _ => 5

end Fault

end StrategyScript
