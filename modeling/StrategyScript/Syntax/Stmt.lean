/-
Statements and programs.
-/
import StrategyScript.Syntax.Expr
import StrategyScript.Trade.Action

namespace StrategyScript

/-- What a `for` loop does first: declare a variable, or evaluate an expression. This is all that a
parser ever puts there; a tree with another statement in that place comes from no source and is not meant. -/
inductive LoopStart
  | var (name : String) (value : Option Expr)
  | expr (value : Expr)
deriving Repr

inductive Stmt
  | function (name : String) (params : List String) (body : List Stmt)
  | var (name : String) (value : Option Expr)
  | branch (condition : Expr) (thenBranch : Stmt) (elseBranch : Option Stmt)
  | whileLoop (condition : Expr) (body : Stmt)
  | forLoop (start : Option LoopStart) (condition : Option Expr) (increment : Option Expr)
      (body : Stmt)
  | ret (value : Option Expr) (line : Nat)
  | trade (action : TradeAction) (args : List Expr) (line : Nat)
  | block (body : List Stmt)
  | expr (value : Expr)
deriving Repr, Inhabited

/-- The same as a statement of its own. -/
def LoopStart.toStmt : LoopStart → Stmt
  | .var name value => .var name value
  | .expr value => .expr value

abbrev Program := List Stmt

/-- What a function value remembers of its declaration. -/
structure FunctionDecl where
  name : String
  params : List String
  body : List Stmt
deriving Repr

end StrategyScript
