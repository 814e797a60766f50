/-
Operators on values, and indexing.
-/
import StrategyScript.Run.Fault
import StrategyScript.Number.Arithmetic

namespace StrategyScript

/-! ## Order -/

/-- The order of two numbers; a NaN has none to any number. -/
def Number.order? (x y : Float) : Option Ordering :=
  if x < y then some .lt
  else if y < x then some .gt
  else if x == y then some .eq
  else none

/-- The comparison that an operator asks for. Without an order none of them holds. -/
def BinaryOp.holds (op : BinaryOp) : Option Ordering → Bool
  | none => false
  | some o =>
    match op with
    | .less => o == .lt
    | .lessEqual => o != .gt
    | .greater => o == .gt
    | .greaterEqual => o != .lt
    | _ => false

/-! ## Operations -/

/-- Compares two numbers or two texts. -/
def BinaryOp.compareValues (op : BinaryOp) (left right : Value) : Except TypeFault Value :=
  match left, right with
  | .number x, .number y => .ok (.boolean (op.holds (Number.order? x y)))
  | .string s, .string t => .ok (.boolean (op.holds (some (compare s t))))
  | _, _ => .error (.operands op left.kind right.kind)

/-- Adds, subtracts or multiplies two numbers, or joins two texts. -/
def BinaryOp.combine (op : BinaryOp) (left right : Value) : Except TypeFault Value :=
  match op, left, right with
  | .add, .number x, .number y => .ok (.number (x + y))
  | .add, .string s, .string t => .ok (.string (s ++ t))
  | .subtract, .number x, .number y => .ok (.number (x - y))
  | .multiply, .number x, .number y => .ok (.number (x * y))
  | .divide, .number x, .number y => .ok (.number (x / y))
  | _, _, _ => .error (.operands op left.kind right.kind)

/-- The divisor is zero. -/
def dividesByZero (op : BinaryOp) (left right : Value) : Bool :=
  match op, left, right with
  | .divide, .number _, .number y => y == 0.0
  | _, _, _ => false

/-- The value of an operation, but for a division by zero. -/
def BinaryOp.operate (op : BinaryOp) (left right : Value) : Except TypeFault Value :=
  match op with
  | .equal => .ok (.boolean (left == right))
  | .notEqual => .ok (.boolean (left != right))
  | .and => .ok (.boolean (left.isTruthy && right.isTruthy))
  | .or => .ok (.boolean (left.isTruthy || right.isTruthy))
  | .less | .lessEqual | .greater | .greaterEqual => op.compareValues left right
  | .add | .subtract | .multiply | .divide => op.combine left right

/-- The value of an operation on two values. -/
def BinaryOp.apply (op : BinaryOp) (left right : Value) (line : Nat) :
    Except RuntimeError Value :=
  if dividesByZero op left right then .error (.fault .divisionByZero line)
  else (op.operate left right).mapError (RuntimeError.typeFault · line)

def UnaryOp.apply (op : UnaryOp) (operand : Value) (line : Nat) : Except RuntimeError Value :=
  match op, operand with
  | .negate, .number x => .ok (.number (-x))
  | .negate, v => .error (.typeFault (.negation v.kind) line)
  | .not, v => .ok (.boolean !v.isTruthy)

/-! ## Indexing -/

/-- The item that a number points to, if the number is whole and inside the list. -/
def itemAt? (items : List Value) (x : Float) : Option Value :=
  let i := Number.toCount x
  if 0.0 ≤ x && Float.ofNat i == x then items[i]? else none

/-- The item of a list at a number, or the field of a record at a text. -/
def Value.at (target index : Value) (line : Nat) : Except RuntimeError Value :=
  match target, index with
  | .list items, .number x =>
    match itemAt? items x with
    | some v => .ok v
    | none => .error (.fault (.indexOutOfBounds x items.length) line)
  | .record fields, .string key =>
    match fields.get? key with
    | some v => .ok v
    | none => .error (.fault (.unknownField key) line)
  | .list _, v => .error (.typeFault (.listIndex v.kind) line)
  | .record _, v => .error (.typeFault (.recordKey v.kind) line)
  | v, _ => .error (.fault (.notIndexable v.kind) line)

end StrategyScript
