/-
The grammar of expressions, loosest first: assignment, `or`, `and`, equality, comparison, sums,
products, the unary operators, calls and indexing, and the smallest expressions. The words `and`,
`or`, `not`, `true` and `false` are identifiers that are told by their spelling.

What stands inside another expression is one level deeper. A parser of this grammar takes the number
of levels that are left.
-/
import StrategyScript.Parse.Cursor
import StrategyScript.Syntax.Expr
import StrategyScript.Number.Read
import StrategyScript.Text.Lowercase

namespace StrategyScript.Parse

open StrategyScript.Parser hiding iterate
open StrategyScript.Reading

variable {m : Type → Type} [Reading m]

/-- Refuses to go any deeper. -/
def tooDeep (what : Construct) : Parser α :=
  failHere fun _ => .tooDeep what

/-! ## Operators -/

def orOperator (l : Lexeme) : Option BinaryOp :=
  if l.isWord "or" then some .or else none

def andOperator (l : Lexeme) : Option BinaryOp :=
  if l.isWord "and" then some .and else none

def equalityOperator (l : Lexeme) : Option BinaryOp :=
  match l.kind with
  | .symbol .equalEqual => some .equal
  | .symbol .bangEqual => some .notEqual
  | _ => none

def comparisonOperator (l : Lexeme) : Option BinaryOp :=
  match l.kind with
  | .symbol .less => some .less
  | .symbol .lessEqual => some .lessEqual
  | .symbol .greater => some .greater
  | .symbol .greaterEqual => some .greaterEqual
  | _ => none

def sumOperator (l : Lexeme) : Option BinaryOp :=
  match l.kind with
  | .symbol .plus => some .add
  | .symbol .minus => some .subtract
  | _ => none

def productOperator (l : Lexeme) : Option BinaryOp :=
  match l.kind with
  | .symbol .star => some .multiply
  | .symbol .slash => some .divide
  | _ => none

def unaryOperator (l : Lexeme) : Option UnaryOp :=
  if l.kind = .symbol .minus then some .negate
  else if l.isWord "not" then some .not
  else none

/-- Operands with operators of one rank between them, grouped from the left. -/
def chain (operator : Lexeme → Option BinaryOp) (operand : m Expr) : m Expr := do
  let first ← operand
  iterate (fun left => do
    let t ← peek
    match operator t.toLexeme with
    | some op => do
      let _ ← advance
      let right ← operand
      return some (.binary op left right t.position)
    | none => return none) first

/-- The six ranks of operators with two operands. -/
def binary (operand : m Expr) : m Expr :=
  chain orOperator <| chain andOperator <| chain equalityOperator <| chain comparisonOperator <|
    chain sumOperator <| chain productOperator operand

/-! ## The smallest expressions -/

/-- The expression that a token stands for by itself. -/
def atom? (t : Token) : Except Complaint Expr :=
  match t.kind with
  | .number =>
    match Number.readFloat t.text with
    | .ok x => .ok (.number x t.position)
    | .error _ => .error (.badNumber t.text)
  | .string => .ok (.string t.text t.position)
  | .identifier =>
    if t.isWord "true" then .ok (.boolean true t.position)
    else if t.isWord "false" then .ok (.boolean false t.position)
    else .ok (.identifier t.text t.position)
  | .keyword k =>
    if k.isBuiltinName then .ok (.identifier (Text.lowercase t.text) t.position)
    else .error (.unexpected t.toLexeme)
  | _ => .error (.unexpected t.toLexeme)

/-- One token, or an expression in parentheses. -/
def primary (inner : m Expr) : m Expr := do
  let t ← peek
  if t.kind = .symbol .leftParen then
    let _ ← advance
    let e ← inner
    let _ ← expect (.symbol .rightParen) "')' after expression"
    return e
  else
    match atom? t with
    | .ok e => do
      let _ ← advance
      return e
    | .error complaint => fail complaint t

/-- What stands between the parentheses of a call, up to and including the closing one. -/
def arguments (inner : m Expr) (what : String) : m (List Expr) := do
  let args ← if ← check (.symbol .rightParen) then pure [] else commaSeparated inner
  let _ ← expect (.symbol .rightParen) what
  return args

/-- Only a name can be called. -/
def callOf (callee : Expr) (args : List Expr) (paren : Token) : Parser Expr :=
  match callee with
  | .identifier name p => pure (.call name args p)
  | _ => fail .badCall paren

/-- A smallest expression with the calls and indexings behind it. -/
def postfixed (inner : m Expr) : m Expr := do
  let first ← primary inner
  iterate (fun e => do
    let t ← peek
    if t.kind = .symbol .leftParen then
      let _ ← advance
      let args ← arguments inner "')' after arguments"
      return some (← callOf e args t)
    else if t.kind = .symbol .leftBracket then
      let _ ← advance
      let i ← inner
      let _ ← expect (.symbol .rightBracket) "']' after index"
      return some (.index e i e.position)
    else return none) first

/-! ## The grammar -/

/-- A unary operator and its operand, or an expression without one in front. -/
def unary (operand inner : m Expr) : m Expr := do
  let t ← peek
  match unaryOperator t.toLexeme with
  | some op => do
    let _ ← advance
    return .unary op (← operand) t.position
  | none => postfixed inner

/-- Only a name can be assigned to. -/
def assignmentOf (target value : Expr) (equals : Token) : Parser Expr :=
  match target with
  | .identifier name p => pure (.assign name value p)
  | _ => fail .badAssignment equals

/-- An assignment, or what can stand on its left. -/
def assignment (target inner : m Expr) : m Expr := do
  let left ← target
  let t ← peek
  if t.kind = .symbol .assign then
    let _ ← advance
    let value ← inner
    assignmentOf left value t
  else return left

mutual

/-- An expression one level deeper than its surroundings. -/
def expression : Nat → Parser Expr
  | 0 => tooDeep .expression
  | levels + 1 =>
    assignment (binary (unary (operand levels) (expression levels))) (expression levels)

/-- The operand of a unary operator, one level deeper than the operator. -/
def operand : Nat → Parser Expr
  | 0 => tooDeep .expression
  | levels + 1 => unary (operand levels) (expression levels)

end

end StrategyScript.Parse
