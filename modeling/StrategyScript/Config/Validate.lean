/-
Which configurations are in order. A key may be missing, but one that is there has to be well formed.
Keys that nothing reads are no errors.
-/
import StrategyScript.Config.Read

namespace StrategyScript.Config

def logLevels : List String := ["trace", "debug", "info", "warn", "error"]

/-- The keys that are read, with their sections. -/
def knownKeys : List (String × String) :=
  [("data", "dir"), ("data", "symbol"), ("interpreter", "max_call_depth"),
    ("interpreter", "max_steps"), ("logging", "level"), ("output", "print_globals"),
    ("output", "trades"), ("script", "path")]

/-- The name of a file without directory and extension. -/
def isPlainStem (symbol : String) : Bool :=
  !symbol.toList.any (fun c => c = '/' || c = '\\') && symbol.toList.head? != some '.'

namespace Document

def checkCallDepth (d : Document) : Except ConfigFault Unit := do
  if (← d.count? "interpreter" "max_call_depth") = some 0 then
    throw (.invalid "interpreter" "max_call_depth" "max_call_depth must be positive")

def checkSymbol (d : Document) : Except ConfigFault Unit :=
  match d.string? "data" "symbol" with
  | none => .ok ()
  | some symbol =>
    if symbol = "" then .error (.invalid "data" "symbol" "symbol must not be empty")
    else if isPlainStem symbol then .ok ()
    else .error (.invalid "data" "symbol" "symbol must be a plain file stem")

def checkLogLevel (d : Document) : Except ConfigFault Unit :=
  match d.string? "logging" "level" with
  | none => .ok ()
  | some level =>
    if logLevels.contains (Text.lowercase level) then .ok ()
    else .error (.invalid "logging" "level"
      "level must be one of trace, debug, info, warn, error")

/-- Holds every value that is read against its form; the first that fails decides. -/
def validate (d : Document) : Except ConfigFault Unit := do
  let _ ← d.count? "interpreter" "max_steps"
  d.checkCallDepth
  let _ ← d.bool? "output" "print_globals"
  d.checkSymbol
  d.checkLogLevel

/-- The keys that nothing reads, with their sections in brackets. -/
def unknownKeys (d : Document) : List String :=
  (d.keys.filter fun k => !knownKeys.contains k).map fun (s, key) => s!"[{s}] {key}"

end Document

end StrategyScript.Config
