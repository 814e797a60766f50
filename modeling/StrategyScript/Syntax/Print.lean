/-
Expressions as text: every operation in parentheses, so that the text shows the tree.
-/
import StrategyScript.Syntax.Expr
import StrategyScript.Number.Text
import StrategyScript.Text.Quoted

namespace StrategyScript

mutual

def Expr.text : Expr → String
  | .number x _ => Number.text x
  | .string s _ => Text.quoted s
  | .boolean b _ => if b then "true" else "false"
  | .identifier name _ => name
  | .assign name value _ => "(" ++ name ++ " = " ++ value.text ++ ")"
  | .binary op left right _ => "(" ++ left.text ++ " " ++ op.symbol ++ " " ++ right.text ++ ")"
  | .unary .negate operand _ => "(-" ++ operand.text ++ ")"
  | .unary .not operand _ => "(not " ++ operand.text ++ ")"
  | .call callee args _ => callee ++ "(" ++ Expr.textList args ++ ")"
  | .index target i _ => target.text ++ "[" ++ i.text ++ "]"

/-- Expressions with commas between them. -/
def Expr.textList : List Expr → String
  | [] => ""
  | [e] => e.text
  | e :: es => e.text ++ ", " ++ Expr.textList es

end

end StrategyScript
