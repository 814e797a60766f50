/-
The names that a program declares, and which of them hide a built-in.
-/
import StrategyScript.Syntax.Stmt
import StrategyScript.Value.Builtin

namespace StrategyScript

def LoopStart.declared : LoopStart → List String
  | .var name _ => [name]
  | .expr _ => []

mutual

/-- Variables, functions and parameters, at any depth. -/
def Stmt.declared : Stmt → List String
  | .function name params body => name :: params ++ Stmt.declaredAll body
  | .var name _ => [name]
  | .branch _ thenBranch none => thenBranch.declared
  | .branch _ thenBranch (some elseBranch) => thenBranch.declared ++ elseBranch.declared
  | .whileLoop _ body => body.declared
  | .forLoop none _ _ body => body.declared
  | .forLoop (some start) _ _ body => start.declared ++ body.declared
  | .block body => Stmt.declaredAll body
  | .ret _ _ | .trade _ _ _ | .expr _ => []

def Stmt.declaredAll : List Stmt → List String
  | [] => []
  | s :: ss => s.declared ++ Stmt.declaredAll ss

end

namespace Program

def declared (p : Program) : List String := Stmt.declaredAll p

/-- The declared names that hide a built-in, each once, in ascending order. -/
def shadowedBuiltins (p : Program) : List String :=
  (((Builtin.all.map (·.name)).filter (declared p).contains).mergeSort (· ≤ ·))

end Program

end StrategyScript
