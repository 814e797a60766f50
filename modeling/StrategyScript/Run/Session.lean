/-
Sessions: all that one interpreter keeps, within a run and between runs. Also the shape of a
computation on a session: it may succeed, fail, or use up its fuel, and each outcome carries the
session as it is then.
-/
import StrategyScript.Scope.Forest
import StrategyScript.Market.Snapshot
import StrategyScript.Trade.Log
import StrategyScript.Run.Builtin

namespace StrategyScript

/-- The deepest nesting of calls, unless told otherwise. -/
def defaultCallDepth : Nat := 64

/-- What a run may use. Steps are statements and rounds of loops; without a limit they are not
counted out. -/
structure Limits where
  maxSteps : Option Nat := none
  maxCallDepth : Nat := defaultCallDepth
deriving DecidableEq, Repr

structure Session where
  scopes : Forest
  /-- The scope that names are looked up in now. -/
  current : ScopeId
  /-- The number that the next function gets. -/
  nextFunction : Nat
  market : Market
  trades : TradeLog
  limits : Limits
  steps : Nat
  depth : Nat
  /-- The scopes that were left while somebody could still come to them, the first one first. They are
  only noted by an interpreter that releases scopes. -/
  retained : List ScopeId := []
deriving Repr

namespace Session

/-- The scope of the built-ins and of what scripts declare outside of all blocks. -/
def globalScope : ScopeId := 0

def new (limits : Limits) : Session where
  scopes := (Forest.empty.addGlobal).defineBuiltins globalScope
  current := globalScope
  nextFunction := 0
  market := .empty
  trades := .empty
  limits := limits
  steps := 0
  depth := 0

/-- What a name means outside of all blocks, built-ins included. -/
def global (s : Session) (name : String) : Option Value :=
  s.scopes.lookup globalScope name

/-- The globals in ascending order of their names, without those whose value is a built-in. -/
def globals (s : Session) : Dictionary Value :=
  (s.scopes.bindings globalScope).filter fun (_, v) => v.kind != .builtin

end Session

/-! ## Computations -/

/-- How a computation on a session ends. -/
inductive Outcome (α : Type)
  | done (value : α) (after : Session)
  | failed (error : RuntimeError) (after : Session)
  | unfinished (after : Session)
deriving Repr

def Eval (α : Type) : Type := Session → Outcome α

namespace Eval

@[inline] protected def pure (a : α) : Eval α := fun s => .done a s

@[inline] protected def bind (m : Eval α) (f : α → Eval β) : Eval β := fun s =>
  match m s with
  | .done a s => f a s
  | .failed e s => .failed e s
  | .unfinished s => .unfinished s

instance : Monad Eval where
  pure := Eval.pure
  bind := Eval.bind

/-- The fuel is used up. -/
@[inline] def outOfFuel : Eval α := fun s => .unfinished s

@[inline] def fail (e : RuntimeError) : Eval α := fun s => .failed e s

@[inline] def ofExcept (r : Except RuntimeError α) : Eval α := fun s =>
  match r with
  | .ok a => .done a s
  | .error e => .failed e s

/-! ## Steps -/

/-- Counts a step, and fails when there are more than the limit. -/
def tick : Eval Unit := fun s =>
  let s := { s with steps := s.steps + 1 }
  match s.limits.maxSteps with
  | some limit => if limit < s.steps then .failed (.stepLimitExceeded limit) s else .done () s
  | none => .done () s

/-! ## Names -/

/-- What a name means in the current scope. -/
def lookup (name : String) (line : Nat) : Eval Value := fun s =>
  match s.scopes.get s.current name with
  | .ok v => .done v s
  | .error e => .failed (e.atLine line) s

/-- Changes what a name means, where it is bound. -/
def assign (name : String) (value : Value) (line : Nat) : Eval Unit := fun s =>
  match s.scopes.resolve s.current name with
  | some owner => .done () { s with scopes := s.scopes.define owner name value }
  | none => .failed (.fault (.undefinedVariable name) line) s

theorem assign_eq (name : String) (value : Value) (line : Nat) (s : Session) :
    assign name value line s =
      match s.scopes.set s.current name value with
      | .ok scopes => .done () { s with scopes }
      | .error e => .failed (e.atLine line) s := by
  unfold assign Forest.set
  cases s.scopes.resolve s.current name <;> rfl

/-- Binds a name in the current scope. -/
def define (name : String) (value : Value) : Eval Unit := fun s =>
  .done () { s with scopes := s.scopes.define s.current name value }

/-- A new function that is closed over the current scope. -/
def newFunction (decl : FunctionDecl) : Eval Function := fun s =>
  .done ⟨s.nextFunction, decl, s.current⟩ { s with nextFunction := s.nextFunction + 1 }

/-! ## Scopes and calls -/

/-- Goes back to a scope and adjusts the call depth, whatever the outcome. -/
@[inline] def restoring (current : ScopeId) (adjust : Nat → Nat) (o : Outcome α) : Outcome α :=
  match o with
  | .done a s => .done a { s with current, depth := adjust s.depth }
  | .failed e s => .failed e { s with current, depth := adjust s.depth }
  | .unfinished s => .unfinished s

/-- Computes in a new scope inside the current one. -/
def inBlock (m : Eval α) : Eval α := fun s =>
  let current := s.current
  let inner := s.scopes.size
  restoring current id
    (m { s with scopes := s.scopes.addChild current [], current := inner })

/-- Computes in a new scope inside `parent` that starts with `bindings`, one call deeper. -/
def inCall (parent : ScopeId) (bindings : Dictionary Value) (m : Eval α) : Eval α := fun s =>
  let current := s.current
  let depth := s.depth
  let inner := s.scopes.size
  restoring current (· - 1)
    (m { s with
      scopes := s.scopes.addChild parent bindings, current := inner, depth := depth + 1 })

/-- Fails when the calls are nested as deeply as they may be. -/
def checkDepth (line : Nat) : Eval Unit := fun s =>
  if s.limits.maxCallDepth ≤ s.depth then
    .failed (.fault (.callDepthExceeded s.limits.maxCallDepth) line) s
  else .done () s

/-! ## Built-ins and trades -/

/-- Adds a trade to the log. -/
def trade (action : TradeAction) (order : Argument.Order) : Eval Unit := fun s =>
  .done () { s with trades := s.trades.trade s.market action order }

/-- Calls a built-in. -/
def callBuiltin (b : Builtin) (args : List Value) (line : Nat) : Eval Value := fun s =>
  match b.apply s.market s.trades args with
  | .ok (v, trades) => .done v { s with trades }
  | .error fault => .failed (.fault (.invalidArgument b.name fault.message) line) s

end Eval

end StrategyScript
