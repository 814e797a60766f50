/-
Arguments of built-ins. An argument that is missing or null takes its default. Arguments of a trade
are told apart by their kind, in any order.
-/
import StrategyScript.Value.Basic
import StrategyScript.Trade.Arguments
import StrategyScript.Number.Arithmetic
import StrategyScript.Text.Lowercase

namespace StrategyScript

/-- Why a built-in refuses its arguments. -/
inductive ArgumentFault
  | trade (fault : TradeArgumentFault)
  | notANumber (name : String) (kind : ValueKind)
  | missing (name : String)
  | badPeriod (name : String) (value : Float)
  | notAField (kind : ValueKind)
  | noLength (kind : ValueKind)
  | noNumbers
  | notNumbers (kind : ValueKind)
  | badDigits (value : Float)
  | negativeRoot (value : Float)
deriving DecidableEq, Repr

def ArgumentFault.message : ArgumentFault → String
  | .trade fault => fault.message
  | .notANumber name kind => s!"{name} must be a number, got {kind.name}"
  | .missing name => s!"missing {name}"
  | .badPeriod name value =>
    s!"{name} must be a non-negative number, got " ++ Number.text value
  | .notAField kind => s!"field must be a string, got {kind.name}"
  | .noLength kind => s!"expected a list or string, got {kind.name}"
  | .noNumbers => "expected at least one number"
  | .notNumbers kind => s!"expected numbers, got {kind.name}"
  | .badDigits value => "digits must be finite, got " ++ Number.text value
  | .negativeRoot value => "cannot take the square root of " ++ Number.text value

namespace Argument

/-! ## Trades -/

/-- What a trade is told. -/
structure Order where
  message : Option String
  quantity : Option Float
deriving DecidableEq, Repr

/-- Adds one argument to what is known already; null adds nothing. -/
def addTo (order : Order) : Value → Except TradeArgumentFault Order
  | .null => .ok order
  | .string s => if order.message.isNone then .ok { order with message := s }
    else .error .twoMessages
  | .number x => if order.quantity.isNone then .ok { order with quantity := x }
    else .error .twoQuantities
  | v => .error (.neither v.kind.name)

/-- Tells message and quantity of a trade apart. -/
def classify (args : List Value) : Except TradeArgumentFault Order :=
  if 2 < args.length then .error (.tooMany args.length)
  else args.foldlM addTo ⟨none, none⟩

/-! ## Positional arguments -/

/-- The argument at a place, unless it is missing or null. -/
def given? (args : List Value) (i : Nat) : Option Value :=
  match args[i]? with
  | none | some .null => none
  | some v => some v

def number (args : List Value) (i : Nat) (name : String) (default : Float) :
    Except ArgumentFault Float :=
  match given? args i with
  | none => .ok default
  | some (.number x) => .ok x
  | some v => .error (.notANumber name v.kind)

def requiredNumber (args : List Value) (i : Nat) (name : String) : Except ArgumentFault Float :=
  match given? args i with
  | none => .error (.missing name)
  | some (.number x) => .ok x
  | some v => .error (.notANumber name v.kind)

/-- A count of values; fractions are cut off. -/
def period (args : List Value) (i : Nat) (name : String) (default : Nat) :
    Except ArgumentFault Nat := do
  let x ← number args i name (Float.ofNat default)
  if !x.isFinite || x < 0.0 then .error (.badPeriod name x) else .ok (Number.toCount x)

/-- The name of a series, in any case. -/
def field (args : List Value) (i : Nat) : Except ArgumentFault String :=
  match given? args i with
  | none => .ok "close"
  | some (.string s) => .ok (Text.lowercase s)
  | some v => .error (.notAField v.kind)

/-- All arguments as numbers, of which there must be one at least. -/
def numbers (args : List Value) : Except ArgumentFault (List Float) :=
  if args.isEmpty then .error .noNumbers
  else args.mapM fun v =>
    match v.asNumber? with
    | some x => .ok x
    | none => .error (.notNumbers v.kind)

end Argument

end StrategyScript
