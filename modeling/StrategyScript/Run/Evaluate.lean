/-
The meaning of expressions and statements. Evaluation takes fuel, one unit for each level of the
recursion; a computation that needs more is unfinished, which is neither success nor failure. The
evaluator is the same whether scopes are kept or released.
-/
import StrategyScript.Run.Memory
import StrategyScript.Run.Operator

namespace StrategyScript

/-- How a statement ends: the next one follows, or a function returns. -/
inductive Flow
  | normal
  | returned (value : Value) (line : Nat)
deriving Repr

/-- The parameters of a call. Arguments that are missing are null, and those beyond the parameters
are dropped. -/
def bindParameters : List String → List Value → Dictionary Value → Dictionary Value
  | [], _, d => d
  | p :: ps, [], d => bindParameters ps [] (d.insert p .null)
  | p :: ps, v :: vs, d => bindParameters ps vs (d.insert p v)

/-- What a call of a function is worth after its body has ended so. -/
def Flow.result : Flow → Value
  | .normal => .null
  | .returned v _ => v

/-- The values that the end of a statement holds. -/
def Flow.values : Flow → List Value
  | .normal => []
  | .returned v _ => [v]

open Eval

namespace Memory

mutual

/-- The value of an expression. -/
def evaluate (μ : Memory) : Nat → Expr → Eval Value
  | 0, _ => outOfFuel
  | fuel + 1, e =>
    match e with
    | .number x _ => pure (.number x)
    | .string s _ => pure (.string s)
    | .boolean b _ => pure (.boolean b)
    | .identifier name p => lookup name p.line
    | .assign name value p => do
      let v ← evaluate μ fuel value
      assign name v p.line
      return v
    | .binary op left right p => do
      let l ← evaluate μ fuel left
      match op with
      -- only the truth of the left side is needed from here on, so it is held no longer
      | .and =>
        if l.isTruthy then return .boolean (← evaluate μ fuel right).isTruthy
        else return .boolean false
      | .or =>
        if l.isTruthy then return .boolean true
        else return .boolean (← evaluate μ fuel right).isTruthy
      | op => do
        let r ← evaluate (μ.hold [l]) fuel right
        ofExcept (op.apply l r p.line)
    | .unary op operand p => do
      let v ← evaluate μ fuel operand
      ofExcept (op.apply v p.line)
    | .call callee args p => do
      let f ← lookup callee p.line
      let vs ← evaluateAll (μ.hold [f]) fuel args
      match f with
      | .function f => callFunction (μ.hold [.function f]) fuel f vs p.line
      | .builtin b => callBuiltin b vs p.line
      | _ => fail (.fault (.notCallable callee) p.line)
    | .index target i p => do
      let t ← evaluate μ fuel target
      let v ← evaluate (μ.hold [t]) fuel i
      ofExcept (t.at v p.line)

/-- The values of expressions, from left to right. -/
def evaluateAll (μ : Memory) : Nat → List Expr → Eval (List Value)
  | 0, _ => outOfFuel
  | _ + 1, [] => pure []
  | fuel + 1, e :: es => do
    let v ← evaluate μ fuel e
    let vs ← evaluateAll (μ.hold [v]) fuel es
    return v :: vs

/-- Calls a function: its body runs in a new scope inside the scope of its declaration. The arguments are
bound there, and not held beside. -/
def callFunction (μ : Memory) : Nat → Function → List Value → Nat → Eval Value
  | 0, _, _, _ => outOfFuel
  | fuel + 1, f, args, line => do
    checkDepth line
    let flow ← μ.inCall Flow.values f.closure (bindParameters f.decl.params args [])
      fun μ => executeAll μ fuel f.decl.body
    return flow.result

/-- Executes a statement. -/
def execute (μ : Memory) : Nat → Stmt → Eval Flow
  | 0, _ => outOfFuel
  | fuel + 1, stmt => do
    tick
    match stmt with
    | .function name params body => do
      let f ← newFunction ⟨name, params, body⟩
      define name (.function f)
      return .normal
    | .var name none => do
      define name .null
      return .normal
    | .var name (some value) => do
      let v ← evaluate μ fuel value
      define name v
      return .normal
    | .branch condition thenBranch elseBranch => do
      if (← evaluate μ fuel condition).isTruthy then execute μ fuel thenBranch
      else match elseBranch with
        | some s => execute μ fuel s
        | none => return .normal
    | .whileLoop condition body => loop μ fuel (some condition) none body
    | .forLoop none condition increment body =>
      μ.inBlock Flow.values fun μ => loop μ fuel condition increment body
    | .forLoop (some start) condition increment body => μ.inBlock Flow.values fun μ => do
      let _ ← execute μ fuel start.toStmt
      loop μ fuel condition increment body
    | .ret none line => return .returned .null line
    | .ret (some value) line => return .returned (← evaluate μ fuel value) line
    | .trade action args line => do
      let vs ← evaluateAll μ fuel args
      match Argument.classify vs with
      | .ok order => do
        trade action order
        return .normal
      | .error fault => fail (.typeFault (.trade action fault) line)
    | .block body => μ.inBlock Flow.values fun μ => executeAll μ fuel body
    | .expr value => do
      let _ ← evaluate μ fuel value
      return .normal

/-- Executes statements in order, up to the first that returns. -/
def executeAll (μ : Memory) : Nat → List Stmt → Eval Flow
  | 0, _ => outOfFuel
  | _ + 1, [] => return .normal
  | fuel + 1, stmt :: stmts => do
    match ← execute μ fuel stmt with
    | .normal => executeAll μ fuel stmts
    | .returned v line => return .returned v line

/-- Repeats a body, and the increment behind it, as long as the condition holds; a missing condition
does. -/
def loop (μ : Memory) : Nat → Option Expr → Option Expr → Stmt → Eval Flow
  | 0, _, _, _ => outOfFuel
  | fuel + 1, condition, increment, body => do
    let goesOn ← match condition with
      | some c => do
        let v ← evaluate μ fuel c
        pure v.isTruthy
      | none => pure true
    if goesOn then
      tick
      match ← execute μ fuel body with
      | .normal => do
        match increment with
        | some i => do
          let _ ← evaluate μ fuel i
          loop μ fuel condition increment body
        | none => loop μ fuel condition increment body
      | .returned v line => return .returned v line
    else return .normal

end

end Memory

/-! ## All scopes kept -/

def evaluate (fuel : Nat) (e : Expr) : Eval Value := Memory.kept.evaluate fuel e

def evaluateAll (fuel : Nat) (es : List Expr) : Eval (List Value) := Memory.kept.evaluateAll fuel es

def callFunction (fuel : Nat) (f : Function) (args : List Value) (line : Nat) : Eval Value :=
  Memory.kept.callFunction fuel f args line

def execute (fuel : Nat) (stmt : Stmt) : Eval Flow := Memory.kept.execute fuel stmt

def executeAll (fuel : Nat) (stmts : List Stmt) : Eval Flow := Memory.kept.executeAll fuel stmts

def loop (fuel : Nat) (condition increment : Option Expr) (body : Stmt) : Eval Flow :=
  Memory.kept.loop fuel condition increment body

end StrategyScript
