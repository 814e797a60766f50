/-
The settings of a run: values given on the command line go before those of the configuration, and
those before the defaults.
-/
import StrategyScript.Config.Validate
import StrategyScript.Run.Session

namespace StrategyScript.Config

/-- Values given on the command line. -/
structure Overrides where
  script : Option String := none
  dataDir : Option String := none
  symbol : Option String := none
  output : Option String := none
  maxSteps : Option Nat := none
  printGlobals : Bool := false
deriving DecidableEq, Repr

structure Settings where
  script : String
  dataDir : String
  symbol : String
  /-- Without one, the trade log goes to the standard output. -/
  output : Option String
  limits : Limits
  printGlobals : Bool
deriving DecidableEq, Repr

def defaultLogLevel : String := "warn"

/-- The directory that is meant when none is named. -/
def defaultDataDir : String := "."

/-- A value of a configuration, if there is one. -/
def stringIn (config : Option Document) (s key : String) : Option String :=
  config.bind (·.string? s key)

def countIn (config : Option Document) (s key : String) : Except ConfigFault (Option Nat) :=
  match config with
  | some d => d.count? s key
  | none => .ok none

/-- How much is to be logged, in lower case. -/
def logLevel (config : Option Document) : String :=
  ((stringIn config "logging" "level").map Text.lowercase).getD defaultLogLevel

/-- The limits of a run. A step budget of zero is none, and a call depth of zero is one. -/
def limits (config : Option Document) (maxSteps : Option Nat) : Except ConfigFault Limits := do
  let steps ← match maxSteps with
    | some n => pure n
    | none => do pure ((← countIn config "interpreter" "max_steps").getD 0)
  let depth ← countIn config "interpreter" "max_call_depth"
  return { maxSteps := if 0 < steps then some steps else none
           maxCallDepth := (depth.map (max · 1)).getD defaultCallDepth }

/-- Whether the globals are printed. The configuration is asked only where the command line does not
say so. -/
def printsGlobals (config : Option Document) (asked : Bool) : Except ConfigFault Bool :=
  match config with
  | some d => if asked then .ok true else do return (← d.bool? "output" "print_globals").getD false
  | none => .ok asked

/-- A value that must be given. -/
def required (value : Option String) (s key : String) : Except ConfigFault String :=
  match value with
  | some v => .ok v
  | none => .error (.missing s key)

/-- The settings of a run, or the first that is missing or malformed. -/
def settings (config : Option Document) (o : Overrides) : Except ConfigFault Settings := do
  let script ← required (o.script <|> stringIn config "script" "path") "script" "path"
  let symbol ← required (o.symbol <|> stringIn config "data" "symbol") "data" "symbol"
  let printGlobals ← printsGlobals config o.printGlobals
  let limits ← limits config o.maxSteps
  return {
    script
    dataDir := (o.dataDir <|> stringIn config "data" "dir").getD defaultDataDir
    symbol := Text.trim symbol
    output := o.output <|> stringIn config "output" "trades"
    limits
    printGlobals }

end StrategyScript.Config
