/-
Expressions. Each node knows the position that errors about it name: that of its first token, or of
the operator for an operation.
-/
import StrategyScript.Source.Position

namespace StrategyScript

/-- Operators with two operands, loosest first in each row of the grammar. -/
inductive BinaryOp
  | add
  | subtract
  | multiply
  | divide
  | equal
  | notEqual
  | less
  | lessEqual
  | greater
  | greaterEqual
  | and
  | or
deriving DecidableEq, Repr

def BinaryOp.symbol : BinaryOp → String
  | .add => "+"
  | .subtract => "-"
  | .multiply => "*"
  | .divide => "/"
  | .equal => "=="
  | .notEqual => "!="
  | .less => "<"
  | .lessEqual => "<="
  | .greater => ">"
  | .greaterEqual => ">="
  | .and => "and"
  | .or => "or"

inductive UnaryOp
  | negate
  | not
deriving DecidableEq, Repr

inductive Expr
  | number (value : Float) (position : Position)
  | string (value : String) (position : Position)
  | boolean (value : Bool) (position : Position)
  | identifier (name : String) (position : Position)
  | assign (name : String) (value : Expr) (position : Position)
  | binary (op : BinaryOp) (left right : Expr) (position : Position)
  | unary (op : UnaryOp) (operand : Expr) (position : Position)
  | call (callee : String) (args : List Expr) (position : Position)
  | index (target index : Expr) (position : Position)
deriving Repr, Inhabited

namespace Expr

def position : Expr → Position
  | .number _ p | .string _ p | .boolean _ p | .identifier _ p | .assign _ _ p | .binary _ _ _ p
  | .unary _ _ p | .call _ _ p | .index _ _ p => p

end Expr

end StrategyScript
