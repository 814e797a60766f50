/-
Strong counts: how many hold on to a scope or to a function. A scope is held by the scopes directly
inside it and by the functions that are closed over it, a function by every name that it is bound to, and
both by those who use them at the moment. What nobody holds is gone and holds nothing any more. So a
scope and a function that is declared in it hold each other, also when nobody else comes to them; such a
scope is released by dropping its bindings.
-/
import StrategyScript.Scope.Forest

namespace StrategyScript

namespace Value

mutual

/-- The functions in a value, as often as they are there. -/
def functions : Value → List Function
  | .function f => [f]
  | .record fields => functionsOfFields fields
  | .list items => functionsOfItems items
  | .null | .boolean _ | .number _ | .string _ | .builtin _ => []

def functionsOfItems : List Value → List Function
  | [] => []
  | v :: vs => functions v ++ functionsOfItems vs

def functionsOfFields {bound : Option String} : Dictionary Value bound → List Function
  | .nil => []
  | .cons _ v _ fs => functions v ++ functionsOfFields fs

end

end Value

/-- How many different functions there are among these. -/
def Function.distinct (fs : List Function) : Nat := (fs.map (·.id)).eraseDups.length

/-- Who holds scopes and values from outside, each as often as it is held. -/
structure Holders where
  scopes : List ScopeId
  values : List Value

namespace Holders

def functions (h : Holders) : List Function := h.values.flatMap (·.functions)

/-- The scopes that are held, and those that functions are held with. -/
def roots (h : Holders) : List ScopeId := h.scopes ++ h.functions.map (·.closure)

end Holders

namespace Forest

/-! ## What is held -/

/-- The functions that are bound in a scope, once for each name. -/
def functions (f : Forest) (i : ScopeId) : List Function := (f.bindings i).values.flatMap (·.functions)

/-- The scopes that a scope holds, by standing inside it or by a function. -/
def holds (f : Forest) (i : ScopeId) : List ScopeId := (f.parent? i).toList ++ (f.functions i).map (·.closure)

/-- The scopes that are held by none but these scopes. -/
def dropping (f : Forest) (h : Holders) (gone : List ScopeId) : List ScopeId :=
  (List.range f.size).filter fun i =>
    !h.roots.contains i && (List.range f.size).all fun j => gone.contains j || !(f.holds j).contains i

/-- The scopes that are gone after so many rounds, each of which drops what only the gone ones held. -/
def goneAfter (f : Forest) (h : Holders) : Nat → List ScopeId
  | 0 => []
  | n + 1 => f.dropping h (f.goneAfter h n)

/-- The scopes that are still there. -/
def present (f : Forest) (h : Holders) : List ScopeId :=
  (List.range f.size).filter fun i => !(f.goneAfter h f.size).contains i

/-! ## Counts -/

/-- The functions that are held, as often as they are. -/
def heldFunctions (f : Forest) (h : Holders) : List Function := h.functions ++ (f.present h).flatMap f.functions

def functionCount (f : Forest) (h : Holders) (g : Function) : Nat := (f.heldFunctions h).countP (·.id == g.id)

def scopeCount (f : Forest) (h : Holders) (i : ScopeId) : Nat :=
  h.scopes.count i + (f.present h).countP (f.parent? · == some i) +
    Function.distinct ((f.heldFunctions h).filter (·.closure == i))

/-! ## Releasing -/

/-- What becomes of a scope that is to be released. -/
inductive Release
  | noClosures
  | released
  | retained
deriving DecidableEq, Repr

/-- The functions bound in a scope that were declared there, once for each name. -/
def closures (f : Forest) (i : ScopeId) : List Function :=
  (f.bindings i).values.filterMap fun v =>
    match v with
    | .function g => if g.closure == i then some g else none
    | _ => none

/-- A scope that is in hand is held by nobody else but its own functions, and these only by names in it. -/
def isUnreachable (f : Forest) (h : Holders) (i : ScopeId) : Bool :=
  let own := f.closures i
  own.all (fun g => f.functionCount h g == own.countP (·.id == g.id)) &&
    f.scopeCount h i == 1 + Function.distinct own

/-- Releases a scope that is in hand: its bindings are dropped if nobody can come to them. Without
functions of its own it goes by itself. -/
def release (f : Forest) (h : Holders) (i : ScopeId) : Release × Forest :=
  if (f.closures i).isEmpty then (.noClosures, f)
  else if f.isUnreachable h i then (.released, f.clear i)
  else (.retained, f)

end Forest

end StrategyScript
