/-
Scopes. A scope binds names to values and knows the scopes around it; a name means what the nearest
scope says that binds it. All scopes ever made are kept together in one forest.
-/
import StrategyScript.Value.Basic
import StrategyScript.Run.Fault

namespace StrategyScript

/-- The bindings of one scope, and the scopes around it, the nearest first. -/
structure Scope where
  bindings : Dictionary Value
  outer : List ScopeId
deriving Repr, Inhabited

structure Forest where
  scopes : Array Scope
deriving Repr, Inhabited

namespace Forest

def empty : Forest := ⟨#[]⟩

def scope? (f : Forest) (i : ScopeId) : Option Scope := f.scopes[i]?

/-- The bindings of one scope alone, in ascending order of the names. -/
def bindings (f : Forest) (i : ScopeId) : Dictionary Value :=
  ((f.scope? i).map (·.bindings)).getD .nil

/-- A scope and those around it, the nearest first. -/
def chain (f : Forest) (i : ScopeId) : List ScopeId :=
  match f.scope? i with
  | some s => i :: s.outer
  | none => []

/-- The scope directly around another one. -/
def parent? (f : Forest) (i : ScopeId) : Option ScopeId := (f.scope? i).bind (·.outer.head?)

/-! ## Making scopes -/

/-- The number that the next scope gets. -/
def size (f : Forest) : Nat := f.scopes.size

/-- A scope with nothing around it. -/
def addGlobal (f : Forest) : Forest :=
  ⟨f.scopes.push ⟨[], []⟩⟩

/-- A scope inside another one. -/
def addChild (f : Forest) (parent : ScopeId) (bindings : Dictionary Value) : Forest :=
  let outer := f.chain parent
  ⟨f.scopes.push ⟨bindings, outer⟩⟩

/-! ## Names -/

/-- The nearest scope that binds a name. -/
def resolve (f : Forest) (i : ScopeId) (name : String) : Option ScopeId :=
  (f.chain i).find? fun j => (f.bindings j).contains name

/-- Binds a name in the scope itself. -/
def define (f : Forest) (i : ScopeId) (name : String) (value : Value) : Forest :=
  ⟨f.scopes.modify i fun s => { s with bindings := s.bindings.insert name value }⟩

/-- What a name means in a scope. -/
def lookup (f : Forest) (i : ScopeId) (name : String) : Option Value :=
  (f.resolve i name).bind fun j => (f.bindings j).get? name

/-- Like `lookup`; the error does not know a line yet. -/
def get (f : Forest) (i : ScopeId) (name : String) : Except RuntimeError Value :=
  match f.lookup i name with
  | some v => .ok v
  | none => .error (.undefinedVariable name)

/-- Changes what a name means, where it is bound; never binds a new name. -/
def set (f : Forest) (i : ScopeId) (name : String) (value : Value) :
    Except RuntimeError Forest :=
  match f.resolve i name with
  | some j => .ok (f.define j name value)
  | none => .error (.undefinedVariable name)

/-- Drops all bindings of a scope. -/
def clear (f : Forest) (i : ScopeId) : Forest :=
  ⟨f.scopes.modify i fun s => { s with bindings := .nil }⟩

/-- Binds the built-ins in a scope. -/
def defineBuiltins (f : Forest) (i : ScopeId) : Forest :=
  Builtin.all.foldl (fun f b => f.define i b.name (.builtin b)) f

end Forest

end StrategyScript
