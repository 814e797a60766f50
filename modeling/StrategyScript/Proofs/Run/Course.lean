/-
The course of a run: which parts a computation has, in which session each of them begins, and all the
sessions that are met on the way, in order. A part is a computation that the evaluator starts for
another one; between two parts nothing but single steps takes place. Whatever is to hold at all times
is said of the sessions of a course, and whatever an interpreter can come to is on the course of some
run.
-/
import StrategyScript.Proofs.Run.Fuel

namespace StrategyScript

/-- One of the computations that evaluation is made of, with what it is about. -/
inductive Task
  | evaluate (e : Expr)
  | evaluateAll (es : List Expr)
  | call (f : Function) (args : List Value) (line : Nat)
  | execute (stmt : Stmt)
  | executeAll (stmts : List Stmt)
  | loop (condition increment : Option Expr) (body : Stmt)

/-- A task that begins: the fuel it is given and the session it finds. -/
structure Moment where
  fuel : Nat
  task : Task
  session : Session

namespace Outcome

variable {α β : Type}

/-- The session in which the computation has ended, if it has. -/
def ended? : Outcome α → Option Session
  | .done _ s | .failed _ s => some s
  | .unfinished _ => none

/-- What follows a result; after an error nothing does. -/
def next (o : Outcome α) (follows : α → Session → List β) : List β :=
  match o with
  | .done a s => follows a s
  | .failed _ _ | .unfinished _ => []

theorem mem_next {o : Outcome α} {follows : α → Session → List β} {b : β} (h : b ∈ o.next follows) :
    ∃ a s, o = .done a s ∧ b ∈ follows a s := by
  cases o with
  | done a s => exact ⟨a, s, rfl, h⟩
  | failed e s => cases h
  | unfinished s => cases h

@[simp] theorem next_nil (o : Outcome α) : o.next (fun _ _ => ([] : List β)) = [] := by cases o <;> rfl

end Outcome

namespace Session

/-- The session inside a new scope, with the calls nested so deeply. -/
def enter (s : Session) (parent : ScopeId) (bindings : Dictionary Value) (depth : Nat) : Session :=
  { s with scopes := s.scopes.addChild parent bindings, current := s.scopes.size, depth }

def enterBlock (s : Session) : Session := s.enter s.current [] s.depth

def enterCall (s : Session) (f : Function) (args : List Value) : Session :=
  s.enter f.closure (bindParameters f.decl.params args []) (s.depth + 1)

end Session

/-! ## Parts -/

/-- With the left operand known, the right one is needed. -/
def BinaryOp.needsRight (op : BinaryOp) (left : Value) : Bool :=
  match op with
  | .and => left.isTruthy
  | .or => !left.isTruthy
  | _ => true

namespace Task

/-- The session in which a task ends, if it does with so much fuel. -/
def ended? (fuel : Nat) (task : Task) (s : Session) : Option Session :=
  match task with
  | .evaluate e => (StrategyScript.evaluate fuel e s).ended?
  | .evaluateAll es => (StrategyScript.evaluateAll fuel es s).ended?
  | .call f args line => (callFunction fuel f args line s).ended?
  | .execute stmt => (StrategyScript.execute fuel stmt s).ended?
  | .executeAll stmts => (StrategyScript.executeAll fuel stmts s).ended?
  | .loop condition increment body => (StrategyScript.loop fuel condition increment body s).ended?

end Task

/-- The parts of an expression, each with the session in which it begins. -/
def Expr.parts (fuel : Nat) (e : Expr) (s : Session) : List (Task × Session) :=
  match e with
  | .number _ _ | .string _ _ | .boolean _ _ | .identifier _ _ => []
  | .assign _ value _ => [(.evaluate value, s)]
  | .binary op left right _ =>
    (.evaluate left, s) :: (evaluate fuel left s).next fun l t =>
      if op.needsRight l then [(.evaluate right, t)] else []
  | .unary _ operand _ => [(.evaluate operand, s)]
  | .call callee args p =>
    (Eval.lookup callee p.line s).next fun f t =>
      (.evaluateAll args, t) :: (evaluateAll fuel args t).next fun vs u =>
        match f with
        | .function f => [(.call f vs p.line, u)]
        | _ => []
  | .index target i _ =>
    (.evaluate target, s) :: (evaluate fuel target s).next fun _ t => [(.evaluate i, t)]

/-- The parts of a statement, once its step is counted. -/
def Stmt.parts (fuel : Nat) (stmt : Stmt) (s : Session) : List (Task × Session) :=
  match stmt with
  | .function _ _ _ | .var _ none | .ret none _ => []
  | .var _ (some value) | .ret (some value) _ | .expr value => [(.evaluate value, s)]
  | .branch condition thenBranch elseBranch =>
    (.evaluate condition, s) :: (evaluate fuel condition s).next fun v t =>
      if v.isTruthy then [(.execute thenBranch, t)]
      else elseBranch.toList.map fun stmt => (.execute stmt, t)
  | .whileLoop condition body => [(.loop (some condition) none body, s)]
  | .forLoop none condition increment body => [(.loop condition increment body, s.enterBlock)]
  | .forLoop (some start) condition increment body =>
    (.execute start.toStmt, s.enterBlock) :: (execute fuel start.toStmt s.enterBlock).next fun _ t =>
      [(.loop condition increment body, t)]
  | .trade _ args _ => [(.evaluateAll args, s)]
  | .block body => [(.executeAll body, s.enterBlock)]

/-- The parts of one round of a loop and the rounds behind it. -/
def Stmt.roundParts (fuel : Nat) (condition increment : Option Expr) (body : Stmt) (s : Session) :
    List (Task × Session) :=
  (Eval.tick s).next fun _ t => (.execute body, t) :: (execute fuel body t).next fun flow u =>
    match flow with
    | .returned _ _ => []
    | .normal =>
      match increment with
      | some i =>
        (.evaluate i, u) :: (evaluate fuel i u).next fun _ v => [(.loop condition increment body, v)]
      | none => [(.loop condition increment body, u)]

namespace Task

/-- The parts of a task in the order in which they begin. Each has one unit of fuel less than the task. -/
def parts (fuel : Nat) (task : Task) (s : Session) : List (Task × Session) :=
  match task with
  | .evaluate e => e.parts fuel s
  | .evaluateAll [] => []
  | .evaluateAll (e :: es) =>
    (.evaluate e, s) :: (StrategyScript.evaluate fuel e s).next fun _ t => [(.evaluateAll es, t)]
  | .call f args line =>
    (Eval.checkDepth line s).next fun _ t => [(.executeAll f.decl.body, t.enterCall f args)]
  | .execute stmt => (Eval.tick s).next fun _ t => stmt.parts fuel t
  | .executeAll [] => []
  | .executeAll (stmt :: stmts) =>
    (.execute stmt, s) :: (StrategyScript.execute fuel stmt s).next fun flow t =>
      match flow with
      | .normal => [(.executeAll stmts, t)]
      | .returned _ _ => []
  | .loop none increment body => Stmt.roundParts fuel none increment body s
  | .loop (some c) increment body =>
    (.evaluate c, s) :: (StrategyScript.evaluate fuel c s).next fun v t =>
      if v.isTruthy then Stmt.roundParts fuel (some c) increment body t else []

/-- A task and its parts, the parts of these, and so on. -/
def moments : Nat → Task → Session → List Moment
  | 0, task, s => [⟨0, task, s⟩]
  | fuel + 1, task, s =>
    ⟨fuel + 1, task, s⟩ :: (task.parts fuel s).flatMap fun p => p.1.moments fuel p.2

/-- The sessions that are met while a task runs, in order: each part contributes the one in which it
begins and the one in which it ends. -/
def trace : Nat → Task → Session → List Session
  | 0, _, s => [s]
  | fuel + 1, task, s =>
    s :: ((task.parts fuel s).flatMap fun p => p.1.trace fuel p.2) ++
      (task.ended? (fuel + 1) s).toList

/-- The sessions that are met in these parts. -/
def traces (fuel : Nat) (parts : List (Task × Session)) : List Session :=
  parts.flatMap fun p => p.1.trace fuel p.2

theorem traces_append (fuel : Nat) (parts parts' : List (Task × Session)) :
    traces fuel (parts ++ parts') = traces fuel parts ++ traces fuel parts' := List.flatMap_append

theorem traces_singleton (fuel : Nat) (task : Task) (s : Session) : traces fuel [(task, s)] = task.trace fuel s :=
  List.append_nil _

theorem mem_moments_self (fuel : Nat) (task : Task) (s : Session) : ⟨fuel, task, s⟩ ∈ task.moments fuel s := by
  cases fuel <;> exact List.mem_cons_self

/-- The parts of a moment belong where it belongs. -/
theorem mem_moments_part {n fuel : Nat} {task₀ task task' : Task} {s₀ s s' : Session}
    (h : ⟨n + 1, task, s⟩ ∈ task₀.moments fuel s₀) (hp : (task', s') ∈ task.parts n s) :
    ⟨n, task', s'⟩ ∈ task₀.moments fuel s₀ := by
  induction fuel generalizing task₀ s₀ with
  | zero => cases List.mem_singleton.1 h
  | succ fuel ih =>
    refine List.mem_cons_of_mem _ (List.mem_flatMap.2 ?_)
    rcases List.mem_cons.1 h with h | h
    · cases h
      exact ⟨_, hp, mem_moments_self ..⟩
    · obtain ⟨p, hpart, h⟩ := List.mem_flatMap.1 h
      exact ⟨p, hpart, ih h⟩

end Task

namespace Moment

def ended? (m : Moment) : Option Session := m.task.ended? m.fuel m.session

def moments (m : Moment) : List Moment := m.task.moments m.fuel m.session

def trace (m : Moment) : List Session := m.task.trace m.fuel m.session

end Moment

end StrategyScript
