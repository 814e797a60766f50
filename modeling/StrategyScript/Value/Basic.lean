/-
Values: what expressions evaluate to.
-/
import StrategyScript.Value.Builtin
import StrategyScript.Syntax.Stmt
import StrategyScript.Number.Text
import StrategyScript.Store.Dictionary

namespace StrategyScript

/-- Scopes are numbered in the order of their creation. -/
abbrev ScopeId := Nat

/-- A function: its declaration and the scope it was declared in. Each time a declaration is
executed the function is a new one, told from others by its number. -/
structure Function where
  id : Nat
  decl : FunctionDecl
  closure : ScopeId
deriving Repr

inductive Value
  | null
  | boolean (b : Bool)
  | number (x : Float)
  | string (s : String)
  | function (f : Function)
  | builtin (b : Builtin)
  | record (fields : Dictionary Value)
  | list (items : List Value)
deriving Repr, Inhabited

/-- The kinds of values. -/
inductive ValueKind
  | null
  | boolean
  | number
  | string
  | function
  | builtin
  | record
  | list
deriving DecidableEq, Repr

def ValueKind.name : ValueKind → String
  | .null => "null"
  | .boolean => "boolean"
  | .number => "number"
  | .string => "string"
  | .function => "function"
  | .builtin => "builtin"
  | .record => "record"
  | .list => "list"

namespace Value

def kind : Value → ValueKind
  | .null => .null
  | .boolean _ => .boolean
  | .number _ => .number
  | .string _ => .string
  | .function _ => .function
  | .builtin _ => .builtin
  | .record _ => .record
  | .list _ => .list

/-- Null, false, zero and the empty text count as false, and all else as true; so does a NaN. -/
def isTruthy : Value → Bool
  | .null => false
  | .boolean b => b
  | .number x => x != 0.0
  | .string s => s != ""
  | .function _ | .builtin _ | .record _ | .list _ => true

def asNumber? : Value → Option Float
  | .number x => some x
  | _ => none

/-- A record of numbers. -/
def ofNumbers (fields : List (String × Float)) : Value :=
  .record (Dictionary.ofList (fields.map fun (k, x) => (k, .number x)))

/-! ## Equality -/

mutual

/-- Equality by kind and content. A NaN equals nothing, and a function only itself. -/
def equal : Value → Value → Bool
  | .null, .null => true
  | .boolean a, .boolean b => a == b
  | .number x, .number y => x == y
  | .string s, .string t => s == t
  | .function f, .function g => f.id == g.id
  | .builtin a, .builtin b => a == b
  | .record fs, .record gs => equalFields fs gs
  | .list xs, .list ys => equalItems xs ys
  | _, _ => false

def equalItems : List Value → List Value → Bool
  | [], [] => true
  | x :: xs, y :: ys => equal x y && equalItems xs ys
  | _, _ => false

def equalFields {bound bound' : Option String} : Dictionary Value bound → Dictionary Value bound' → Bool
  | .nil, .nil => true
  | .cons j x _ fs, .cons k y _ gs => j == k && equal x y && equalFields fs gs
  | _, _ => false

end

instance : BEq Value := ⟨equal⟩

/-! ## Text -/

mutual

/-- How a value is written. A text inside a list or a record stands without quotes. -/
def text : Value → String
  | .null => "null"
  | .boolean b => if b then "true" else "false"
  | .number x => Number.text x
  | .string s => s
  | .function f => "<function " ++ f.decl.name ++ ">"
  | .builtin b => "<builtin " ++ b.name ++ ">"
  | .record fields => "\x7b" ++ textFields fields ++ "\x7d"
  | .list items => "[" ++ textItems items ++ "]"

def textItems : List Value → String
  | [] => ""
  | [x] => text x
  | x :: xs => text x ++ ", " ++ textItems xs

def textFields {bound : Option String} : Dictionary Value bound → String
  | .nil => ""
  | .cons k x _ .nil => k ++ ": " ++ text x
  | .cons k x _ fs => k ++ ": " ++ text x ++ ", " ++ textFields fs

end

end Value

end StrategyScript
