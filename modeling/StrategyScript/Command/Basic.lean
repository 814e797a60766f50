/-
The commands: run a script on a symbol's bars, check a script, show its tokens, and list the symbols
that there are bars for. A command reads and writes through its host and ends with an exit code.
-/
import StrategyScript.Host.Basic
import StrategyScript.Fault
import StrategyScript.Config.Settings
import StrategyScript.Market.Table
import StrategyScript.Trade.Csv
import StrategyScript.Text.Quoted

namespace StrategyScript

inductive Command
  | run (config : Option String) (overrides : Config.Overrides)
  | check (script : String)
  | tokens (script : String)
  | listSymbols (dataDir config : Option String)
deriving Repr

namespace Command

/-- How a command ends early: with an exit code, or not at all, when a script uses up its fuel. -/
inductive Stop
  | exit (code : Nat)
  | unfinished
deriving DecidableEq, Repr

/-- The steps of a command. -/
abbrev Steps (m : Type → Type) (α : Type) := ExceptT Stop m α

variable {m : Type → Type} [Monad m]

/-! ## Steps -/

/-- An operation of the host as a step. -/
def ask (operation : m α) : Steps m α := ExceptT.lift operation

def reportLine (host : Host m) (line : String) : Steps m Unit :=
  ask (host.report (line ++ "\n"))

/-- Prints a line. A program that cannot print aborts, with an exit code of its own. -/
def printLine (host : Host m) (line : String) : Steps m Unit := do
  match ← ask (host.print (line ++ "\n")) with
  | .ok () => pure ()
  | .error e =>
    reportLine host ("failed printing to stdout: " ++ e.message)
    throw (.exit 101)

/-- Reports an error in the given words and ends with its exit code. -/
def stop (host : Host m) (fault : Fault) (words : String) : Steps m α := do
  reportLine host ("error: " ++ words)
  throw (.exit fault.exitCode)

/-- Goes on with a result, or reports the fault and ends. -/
def orStop (host : Host m) (r : Except Fault α) : Steps m α :=
  match r with
  | .ok a => pure a
  | .error fault => stop host fault fault.message

def readScript (host : Host m) (path : String) : Steps m String := do
  match ← ask (host.readText path) with
  | .ok text => return text
  | .error e =>
    stop host (.file e.message) (s!"failed to read script {path}: " ++ e.message)

/-! ## Configuration -/

/-- The document of a configuration file. -/
def readConfig (host : Host m) (path : String) : m (Except ConfigFault Config.Document) := do
  match ← host.readText path with
  | .error e => return .error (.unreadable path (s!"couldn't read {path}: " ++ e.message))
  | .ok text =>
    match Config.Document.read text with
    | .ok d => return .ok d
    | .error e => return .error (.unreadable path (s!"couldn't read {path}: " ++ e.message))

/-- The configuration of a command, if one is named; it has to be valid. -/
def loadConfig (host : Host m) (path : Option String) : Steps m (Option Config.Document) := do
  match path with
  | none => return none
  | some path =>
    reportLine host ("Loading config from " ++ path)
    let d ← orStop host ((← ask (readConfig host path)).mapError .config)
    orStop host (d.validate.mapError .config)
    for key in d.unknownKeys do
      reportLine host ("warning: unrecognised config key " ++ key)
    return some d

/-! ## Bars -/

def barsPath (dir symbol : String) : String := joinPath dir (symbol ++ ".csv")

/-- The bars of a symbol, sorted from the oldest. -/
def fetchBars (host : Host m) (dir symbol : String) : m (Except Fault (List Bar)) := do
  let path := barsPath dir symbol
  match ← host.readText path with
  | .error e => return .error (.data (s!"failed to read {path}: " ++ e.message))
  | .ok text => return (Bar.readTable text).mapError (.data ·.message)

/-- The name of a file of bars without its extension. -/
def symbolOf? (name : String) : Option String :=
  if name.endsWith ".csv" then some (name.dropEnd 4).toString else none

/-- The symbols that have a file of bars in a directory, in ascending order. -/
def symbols (host : Host m) (dir : String) : m (Except Fault (List String)) := do
  match ← host.entries dir with
  | .error e => return .error (.data (s!"failed to read directory {dir}: " ++ e.message))
  | .ok names => return .ok ((names.filterMap symbolOf?).mergeSort (· ≤ ·))

/-! ## Running -/

/-- Writes the trade log to its file, or to the standard output. The file is made first, and so it is
empty if it cannot be written to. -/
def writeTrades (host : Host m) (output : Option String) (trades : List TradeRecord) :
    m (Except FileFault Unit) := do
  match output with
  | none => host.print (TradeRecord.writeCsv trades)
  | some path =>
    match ← host.createFile path with
    | .error e => return .error e
    | .ok write =>
      match ← write (TradeRecord.writeCsv trades) with
      | .error e => return .error e
      | .ok () =>
        host.report s!"Trades written to: {path}\n"
        return .ok ()

def reportSummary (host : Host m) (p : PositionSummary) : Steps m Unit := do
  reportLine host "\n=== Run Summary ==="
  reportLine host s!"Trades:           {p.trades}"
  reportLine host ("Bought:           " ++ Number.text p.bought)
  reportLine host ("Sold:             " ++ Number.text p.sold)
  reportLine host ("Net Position:     " ++ Number.text p.quantity)

def reportGlobals (host : Host m) (globals : Dictionary Value) : Steps m Unit := do
  reportLine host "\n=== Globals ==="
  for (name, value) in globals.toList do
    reportLine host ("  " ++ name ++ " = " ++ value.text)

/-- The market of a run. -/
def loadMarket (host : Host m) (s : Config.Settings) : Steps m Market := do
  let market := Market.ofBars (← orStop host (← ask (fetchBars host s.dataDir s.symbol)))
  match market.validate with
  | .ok () => return market
  | .error e =>
    let fault := Fault.data e.message
    stop host fault (fault.message ++ s!" ({s.symbol})")

/-- Tells what a finished script has done. -/
def finish (host : Host m) (s : Config.Settings) (r : Report) : Steps m Unit := do
  match ← ask (writeTrades host s.output r.trades) with
  | .error e => stop host (.file e.message) ("failed to write trades: " ++ e.message)
  | .ok () =>
    reportSummary host r.position
    if s.printGlobals then reportGlobals host r.globals

/-- Tells what a failed script has done before it failed. -/
def finishFailed (host : Host m) (s : Config.Settings) (e : RunError) : Steps m Unit := do
  reportLine host ("error: " ++ e.error.message)
  match ← ask (writeTrades host s.output e.trades) with
  | .error e => reportLine host ("error: failed to write trades: " ++ e.message)
  | .ok () => pure ()
  reportSummary host (.ofTrades e.trades)
  throw (.exit (Fault.runError e).exitCode)

/-- Runs the script of the settings on the bars of the settings. -/
def runScript (host : Host m) (fuel : Nat) (s : Config.Settings) : Steps m Unit := do
  let source ← readScript host s.script
  let market ← loadMarket host s
  reportLine host s!"Running {s.script} on {s.symbol} ({market.size} bars)"
  match Script.run fuel source market s.limits with
  | .finished r => finish host s r
  | .runError e => finishFailed host s e
  | .syntaxError e =>
    stop host (.syntaxError e) (s!"failed to parse {s.script}:\n" ++ e.textIn source)
  | .unfinished => throw .unfinished

/-! ## The other commands -/

def checkScript (host : Host m) (path : String) : Steps m Unit := do
  let source ← readScript host path
  match Parse.programOrErrors (Lexer.tokens source) with
  | .ok p =>
    for name in p.shadowedBuiltins do
      reportLine host s!"warning: '{name}' shadows a built-in"
    reportLine host (path ++ ": OK")
  | .error errors =>
    for e in errors do
      reportLine host (e.textIn source ++ "\n")
    reportLine host s!"{path}: {errors.length} error(s)"
    throw (.exit 4)

/-- A token on a line of its own: place, kind and text. -/
def tokenLine (t : Token) : String :=
  Text.padStart 4 (toString t.position.line) ++ ":" ++
    Text.padEnd 4 (toString t.position.column) ++ " " ++ Text.padEnd 14 t.kind.name ++ " " ++
    Text.quoted t.text

def showTokens (host : Host m) (path : String) : Steps m Unit := do
  let source ← readScript host path
  for t in Lexer.tokens source do
    printLine host (tokenLine t)

def showSymbols (host : Host m) (dataDir config : Option String) : Steps m Unit := do
  let config ← loadConfig host config
  let dir := (dataDir <|> Config.stringIn config "data" "dir").getD Config.defaultDataDir
  let names ← orStop host (← ask (symbols host dir))
  if names.isEmpty then reportLine host ("No symbols found in " ++ dir)
  else
    for name in names do
      printLine host name
    reportLine host s!"{names.length} symbols found"

/-! ## All commands -/

def steps (host : Host m) (fuel : Nat) : Command → Steps m Unit
  | .run path overrides => do
    let config ← loadConfig host path
    let s ← orStop host ((Config.settings config overrides).mapError .config)
    runScript host fuel s
  | .check script => checkScript host script
  | .tokens script => showTokens host script
  | .listSymbols dataDir config => showSymbols host dataDir config

/-- Executes a command and gives its exit code; there is none when a script uses up its fuel. -/
def execute (host : Host m) (fuel : Nat) (c : Command) : m (Option Nat) := do
  match ← (steps host fuel c).run with
  | .ok () => return some 0
  | .error (.exit code) => return some code
  | .error .unfinished => return none

end Command

end StrategyScript
