/-
Running programs: whole runs of a session, and scripts in one call from source text to trades.
-/
import StrategyScript.Run.Evaluate
import StrategyScript.Parse.Program
import StrategyScript.Syntax.Declared

namespace StrategyScript

/-! ## Runs -/

/-- A return outside of all functions is an error. -/
def Flow.finish : Flow → Eval Unit
  | .normal => pure ()
  | .returned _ line => Eval.fail (.fault .returnOutsideFunction line)

/-- Executes the statements of a program. -/
def Memory.executeProgram (μ : Memory) (fuel : Nat) (p : Program) : Eval Unit :=
  μ.executeAll fuel p >>= Flow.finish

def executeProgram (fuel : Nat) (p : Program) : Eval Unit := executeAll fuel p >>= Flow.finish

/-- How a run ends. A run without enough fuel has no ending. -/
inductive Ending
  | success
  | failure (error : RuntimeError)
  | unfinished
deriving Repr

namespace Session

/-- The session at the start of a run: the globals stay, and all else begins anew. -/
def prepare (s : Session) (market : Market) : Session :=
  { s with market, trades := .empty, steps := 0, depth := 0, current := globalScope }

/-- What a run shows of the outcome of its program. -/
def conclude (o : Outcome Unit) : Ending × Session :=
  match o with
  | .done _ s => (.success, s)
  | .failed e s => (.failure e, { s with current := globalScope })
  | .unfinished s => (.unfinished, s)

/-- Runs a program, and gives its ending and the session after it, in which all scopes are kept. -/
def run (s : Session) (fuel : Nat) (p : Program) (market : Market) : Ending × Session :=
  conclude (executeProgram fuel p (s.prepare market))

/-- Runs a program, and releases the scopes that it leaves, and at first those that earlier runs had to
retain. -/
def runReleasing (s : Session) (fuel : Nat) (p : Program) (market : Market) : Ending × Session :=
  conclude ((Memory.counted .none).executeProgram fuel p (s.prepare market).sweep)

end Session

/-! ## Scripts -/

/-- A failed run: the error, and the trades made before it. -/
structure RunError where
  error : RuntimeError
  trades : List TradeRecord
deriving Repr

/-- What a finished script leaves behind. -/
structure Report where
  trades : List TradeRecord
  globals : Dictionary Value
deriving Repr

def Report.position (r : Report) : PositionSummary := .ofTrades r.trades

namespace Script

/-- The outcome of a script. -/
inductive Result
  | finished (report : Report)
  | syntaxError (error : ParseError)
  | runError (error : RunError)
  | unfinished
deriving Repr

/-- Every syntax error of a script. -/
def check (source : String) : List ParseError :=
  match Parse.programOrErrors (Lexer.tokens source) with
  | .ok _ => []
  | .error errors => errors

/-- Runs a script in a new session. -/
def run (fuel : Nat) (source : String) (market : Market) (limits : Limits) : Result :=
  match Parse.source source with
  | .error e => .syntaxError e
  | .ok p =>
    match (Session.new limits).run fuel p market with
    | (.success, s) => .finished ⟨s.trades.records, s.globals⟩
    | (.failure e, s) => .runError ⟨e, s.trades.records⟩
    | (.unfinished, _) => .unfinished

end Script

end StrategyScript
