/-
Errors of a running script, the line they happen on, and their texts.
-/
import StrategyScript.Value.Basic
import StrategyScript.Trade.Arguments

namespace StrategyScript

/-! ## Causes -/

/-- Operations on values of kinds that they are not for. -/
inductive TypeFault
  | operands (op : BinaryOp) (left right : ValueKind)
  | negation (kind : ValueKind)
  | listIndex (kind : ValueKind)
  | recordKey (kind : ValueKind)
  | trade (action : TradeAction) (fault : TradeArgumentFault)
deriving DecidableEq, Repr

def TypeFault.message : TypeFault → String
  | .operands op left right =>
    s!"unsupported operands for '{op.symbol}': {left.name} and {right.name}"
  | .negation kind => s!"cannot negate {kind.name}"
  | .listIndex kind => s!"list index must be a number, got {kind.name}"
  | .recordKey kind => s!"record key must be a string, got {kind.name}"
  | .trade action fault => s!"invalid {action.name} arguments: {fault.message}"

/-- What can go wrong at a place in the script. Faults are compared by `==`, and their numbers with
them, so that a fault about a NaN differs from itself. -/
inductive RuntimeFault
  | undefinedVariable (name : String)
  | notCallable (name : String)
  | divisionByZero
  | indexOutOfBounds (index : Float) (length : Nat)
  | notIndexable (kind : ValueKind)
  | unknownField (field : String)
  | typeError (details : String)
  | invalidArgument (function reason : String)
  | returnOutsideFunction
  | callDepthExceeded (limit : Nat)
deriving BEq, Repr

def RuntimeFault.message : RuntimeFault → String
  | .undefinedVariable name => s!"undefined variable '{name}'"
  | .notCallable name => s!"'{name}' is not a function"
  | .divisionByZero => "division by zero"
  | .indexOutOfBounds index length =>
    "index " ++ Number.text index ++ s!" out of bounds for length {length}"
  | .notIndexable kind => s!"{kind.name} value cannot be indexed"
  | .unknownField field => s!"no field '{field}'"
  | .typeError details => s!"type error: {details}"
  | .invalidArgument function reason => s!"invalid argument to {function}: {reason}"
  | .returnOutsideFunction => "'return' outside of a function"
  | .callDepthExceeded limit => s!"call depth limit of {limit} exceeded"

/-! ## Errors -/

/-- A fault and its line, or an exhausted budget, which has none. Line zero stands for a line not
known yet. -/
inductive RuntimeError
  | fault (cause : RuntimeFault) (line : Nat)
  | stepLimitExceeded (limit : Nat)
deriving BEq, Repr

namespace RuntimeError

def undefinedVariable (name : String) : RuntimeError :=
  .fault (.undefinedVariable name) 0

def typeFault (cause : TypeFault) (line : Nat) : RuntimeError :=
  .fault (.typeError cause.message) line

def line? : RuntimeError → Option Nat
  | .fault _ line => some line
  | .stepLimitExceeded _ => none

/-- Gives the error a line if it does not know one yet. -/
def atLine (e : RuntimeError) (line : Nat) : RuntimeError :=
  match e with
  | .fault cause 0 => .fault cause line
  | e => e

def message : RuntimeError → String
  | .fault cause line => s!"line {line}: {cause.message}"
  | .stepLimitExceeded limit => s!"step limit of {limit} exceeded"

end RuntimeError

end StrategyScript
