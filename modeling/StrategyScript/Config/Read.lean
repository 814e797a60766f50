/-
Typed values of a configuration. Reading is strict: a value that is there but is not of the type
asked for is an error, and one that is missing is none.
-/
import StrategyScript.Config.Document
import StrategyScript.Config.Fault
import StrategyScript.Number.Read

namespace StrategyScript.Config.Document

/-- A value without the blanks around it. -/
def string? (d : Document) (s key : String) : Option String :=
  (d.get? s key).map Text.trim

def int? (d : Document) (s key : String) : Except ConfigFault (Option Int) :=
  match d.get? s key with
  | none => .ok none
  | some value =>
    match Number.readInt value with
    | .ok n => .ok (some n)
    | .error e => .error (.invalid s key ("expected an integer: " ++ e.message))

/-- An integer that is not negative. -/
def count? (d : Document) (s key : String) : Except ConfigFault (Option Nat) := do
  match ← d.int? s key with
  | none => return none
  | some n =>
    if n < 0 then throw (.invalid s key s!"{key} must be non-negative, got {n}")
    else return some n.toNat

def trueWords : List String := ["true", "yes", "t", "y", "on", "1"]

def falseWords : List String := ["false", "no", "f", "n", "off", "0"]

/-- A truth value in words, in any case. -/
def bool? (d : Document) (s key : String) : Except ConfigFault (Option Bool) :=
  match d.get? s key with
  | none => .ok none
  | some value =>
    let word := Text.lowercase value
    if trueWords.contains word then .ok (some true)
    else if falseWords.contains word then .ok (some false)
    else .error (.invalid s key ("expected a boolean: Unable to parse value into bool at " ++
      Text.lowercase s ++ ":" ++ Text.lowercase key))

end StrategyScript.Config.Document
