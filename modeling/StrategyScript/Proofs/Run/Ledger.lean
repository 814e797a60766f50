/-
What a computation adds to the trade log. A trade statement and a call of a trading built-in make one
record when they succeed; nothing else makes any. So the log after a task is the log before it, with
the records of its parts behind it, in the order of the parts, and its own record at the end.

The proof is one induction on the fuel over all tasks, like the one that every discipline rests on.
-/
import StrategyScript.Proofs.Run.Discipline

namespace StrategyScript

open Eval

namespace Outcome

/-- The computation has a result. -/
def isDone {α : Type} : Outcome α → Bool
  | .done _ _ => true
  | .failed _ _ | .unfinished _ => false

end Outcome

/-! ## Records -/

/-- The record that a trade with these arguments makes, if they are accepted. -/
def Session.made (s : Session) (action : TradeAction) (args : List Value) : List TradeRecord :=
  match Argument.classify args with
  | .ok order => [s.trades.nextRecord action order.message order.quantity s.market.referencePrice]
  | .error _ => []

/-- The trade that a call of the value makes. -/
def Value.trade? : Value → Option TradeAction
  | .builtin (.trade action) => some action
  | _ => none

theorem Value.trade?_eq_some {v : Value} {action : TradeAction} (h : v.trade? = some action) :
    v = .builtin (.trade action) := by
  unfold trade? at h
  split at h <;> cases h
  rfl

namespace Task

/-- The trade that a task asks for itself, and not by one of its parts. -/
def trade? (task : Task) (s : Session) : Option TradeAction :=
  match task with
  | .execute (.trade action _ _) => some action
  -- the name is looked up before the arguments are evaluated, which may give it another meaning
  | .evaluate (.call callee _ _) => (s.scopes.lookup s.current callee).bind Value.trade?
  | _ => none

/-- Whether a task comes to a result with so much fuel. -/
def succeeds (fuel : Nat) (task : Task) (s : Session) : Bool :=
  match task with
  | .evaluate e => (StrategyScript.evaluate fuel e s).isDone
  | .evaluateAll es => (StrategyScript.evaluateAll fuel es s).isDone
  | .call f args line => (callFunction fuel f args line s).isDone
  | .execute stmt => (StrategyScript.execute fuel stmt s).isDone
  | .executeAll stmts => (StrategyScript.executeAll fuel stmts s).isDone
  | .loop condition increment body => (StrategyScript.loop fuel condition increment body s).isDone

/-- The record that a task makes itself, after those of its parts. -/
def own (fuel : Nat) (task : Task) (s : Session) : List TradeRecord :=
  match task with
  | .execute (.trade action args _) =>
    (tick s).next fun _ t => (StrategyScript.evaluateAll fuel args t).next fun vs u => u.made action vs
  | .evaluate (.call callee args p) =>
    (Eval.lookup callee p.line s).next fun f t =>
      (StrategyScript.evaluateAll fuel args t).next fun vs u =>
        match f.trade? with
        | some action => u.made action vs
        | none => []
  | _ => []

section

variable {n : Nat} {callee : String} {args : List Expr} {p : Position} {s : Session}

theorem own_call_of_none (h : s.scopes.lookup s.current callee = none) :
    own n (.evaluate (.call callee args p)) s = [] := by
  have hlookup := lookup_eq callee p.line s
  rw [h] at hlookup
  rw [own, hlookup, Outcome.next]

theorem own_call_of_some {f : Value} (h : s.scopes.lookup s.current callee = some f) :
    own n (.evaluate (.call callee args p)) s = (StrategyScript.evaluateAll n args s).next fun vs t =>
      match f.trade? with
      | some action => t.made action vs
      | none => [] := by
  have hlookup := lookup_eq callee p.line s
  rw [h] at hlookup
  rw [own, hlookup, Outcome.next]

end

/-- All records that a task and its parts make, in order. -/
def ledger : Nat → Task → Session → List TradeRecord
  | 0, _, _ => []
  | fuel + 1, task, s => ((task.parts fuel s).flatMap fun p => p.1.ledger fuel p.2) ++ task.own fuel s

/-- The records that these parts make. -/
def ledgers (fuel : Nat) (parts : List (Task × Session)) : List TradeRecord :=
  parts.flatMap fun p => p.1.ledger fuel p.2

theorem ledgers_append (fuel : Nat) (parts parts' : List (Task × Session)) :
    ledgers fuel (parts ++ parts') = ledgers fuel parts ++ ledgers fuel parts' := List.flatMap_append

end Task

/-! ## Steps that leave the log alone -/

/-- The computation has no parts and does not touch the log. -/
def LeavesLog {α : Type} (m : Eval α) : Prop := ∀ s t, (m s).ended? = some t → t.trades = s.trades

section

variable {α β : Type}

theorem leavesLog_pure (a : α) : LeavesLog (pure a : Eval α) := fun s t ht => by cases ht; rfl

theorem leavesLog_fail (e : RuntimeError) : LeavesLog (fail e : Eval α) := fun s t ht => by cases ht; rfl

theorem leavesLog_ofExcept (r : Except RuntimeError α) : LeavesLog (ofExcept r) := fun s t ht => by
  cases r <;> cases ht <;> rfl

theorem leavesLog_tick : LeavesLog tick := by
  intro s t ht
  have hsession : t = (tick s).session := by
    cases ho : tick s <;> rw [ho] at ht <;> cases ht <;> rfl
  rw [hsession, session_tick]

theorem leavesLog_lookup (x : String) (line : Nat) : LeavesLog (lookup x line) := by
  intro s t ht
  rw [lookup_eq] at ht
  split at ht <;> cases ht <;> rfl

theorem leavesLog_assign (x : String) (v : Value) (line : Nat) : LeavesLog (assign x v line) := by
  intro s t ht
  unfold assign at ht
  split at ht <;> cases ht <;> rfl

theorem leavesLog_define (x : String) (v : Value) : LeavesLog (define x v) := fun s t ht => by cases ht; rfl

theorem leavesLog_newFunction (decl : FunctionDecl) : LeavesLog (newFunction decl) := fun s t ht => by cases ht; rfl

theorem leavesLog_checkDepth (line : Nat) : LeavesLog (checkDepth line) := by
  intro s t ht
  unfold checkDepth at ht
  split at ht <;> cases ht <;> rfl

theorem Builtin.log_of_apply {b : Builtin} {market : Market} {log log' : TradeLog} {args : List Value} {v : Value}
    (hb : ∀ action, b ≠ .trade action) (h : b.apply market log args = .ok (v, log')) : log' = log := by
  have hreading : ∀ r : Except ArgumentFault Value, apply.reading log r = .ok (v, log') → log' = log := by
    intro r hr
    cases r <;> cases hr
    rfl
  cases b with
  | trade action => exact absurd rfl (hb action)
  | position => cases h; rfl
  | _ => exact hreading _ h

theorem leavesLog_callBuiltin {b : Builtin} (hb : ∀ action, b ≠ .trade action) (args : List Value) (line : Nat) :
    LeavesLog (callBuiltin b args line) := by
  intro s t ht
  unfold callBuiltin at ht
  cases h : b.apply s.market s.trades args with
  | error fault => rw [h] at ht; cases ht; rfl
  | ok r => rw [h] at ht; cases ht; exact Builtin.log_of_apply hb h

theorem LeavesLog.bind {m : Eval α} {f : α → Eval β} (h : LeavesLog m) (hf : ∀ a, LeavesLog (f a)) :
    LeavesLog (m >>= f) := by
  intro s u hu
  cases ho : m s with
  | done a t =>
    rw [bind_done f ho] at hu
    exact (hf a t u hu).trans (h s t (by rw [ho]; rfl))
  | failed e t =>
    rw [bind_failed f ho] at hu
    cases hu
    exact h s u (by rw [ho]; rfl)
  | unfinished t =>
    rw [bind_unfinished f ho] at hu
    cases hu

end

/-! ## Composition -/

/-- A computation that begins in `s` and comes to `o` adds to the log what these parts add with fuel `n`
for each, and behind that the given records. -/
def Books {α : Type} (n : Nat) (s : Session) (parts : List (Task × Session)) (own : List TradeRecord)
    (o : Outcome α) : Prop :=
  ∀ t, o.ended? = some t → t.trades.records = s.trades.records ++ (Task.ledgers n parts ++ own)

section

variable {α β : Type} {n : Nat} {s : Session} {parts : List (Task × Session)} {o : Outcome α}

theorem LeavesLog.books {m : Eval α} (h : LeavesLog m) (n : Nat) (s : Session) : Books n s [] [] (m s) := by
  intro t ht
  rw [h s t ht]
  exact (List.append_nil _).symm

/-- One computation after another; records of its own are made by the second. -/
theorem Books.bind {m : Eval α} {f : α → Eval β} {follows : α → Session → List (Task × Session)}
    {own : α → Session → List TradeRecord} (h : Books n s parts [] (m s))
    (hf : ∀ a t, Books n t (follows a t) (own a t) (f a t)) :
    Books n s (parts ++ (m s).next follows) ((m s).next own) ((m >>= f) s) := by
  intro u hu
  rw [Task.ledgers_append]
  cases ho : m s with
  | done a t =>
    rw [bind_done f ho] at hu
    rw [hf a t u hu, h t (by rw [ho]; rfl), List.append_nil]
    simp only [Outcome.next, List.append_assoc]
  | failed e t =>
    rw [bind_failed f ho] at hu
    cases hu
    rw [h u (by rw [ho]; rfl)]
    simp only [Outcome.next, Task.ledgers, List.flatMap_nil, List.append_nil]
  | unfinished t =>
    rw [bind_unfinished f ho] at hu
    cases hu

/-- What follows has no parts. -/
theorem Books.last {m : Eval α} {f : α → Eval β} {own : α → Session → List TradeRecord}
    (h : Books n s parts [] (m s)) (hf : ∀ a t, Books n t [] (own a t) (f a t)) :
    Books n s parts ((m s).next own) ((m >>= f) s) := by
  have hbind := h.bind hf
  rwa [Outcome.next_nil, List.append_nil] at hbind

/-- What follows has no records of its own. -/
theorem Books.seq {m : Eval α} {f : α → Eval β} {follows : α → Session → List (Task × Session)}
    (h : Books n s parts [] (m s)) (hf : ∀ a t, Books n t (follows a t) [] (f a t)) :
    Books n s (parts ++ (m s).next follows) [] ((m >>= f) s) := by
  have hbind := h.bind hf
  rwa [Outcome.next_nil] at hbind

/-- What follows leaves the log alone. -/
theorem Books.then {m : Eval α} {f : α → Eval β} (h : Books n s parts [] (m s)) (hf : ∀ a, LeavesLog (f a)) :
    Books n s parts [] ((m >>= f) s) := by
  have hlast := h.last fun a t => (hf a).books n t
  rwa [Outcome.next_nil] at hlast

/-- A computation in a new scope. -/
theorem Books.within {parent : ScopeId} {bindings : Dictionary Value} {depth : Nat} (adjust : Nat → Nat)
    (h : Books n (s.enter parent bindings depth) parts [] o) : Books n s parts [] (restoring s.current adjust o) := by
  intro t ht
  obtain ⟨u, hu, rfl⟩ := Discipline.ended?_restoring ht
  exact h u hu

end

/-! ## All tasks -/

/-- With so much fuel, each task adds to the log what its ledger says. -/
def Balanced (n : Nat) : Prop :=
  ∀ (task : Task) (s t : Session), task.ended? n s = some t → t.trades.records = s.trades.records ++ task.ledger n s

section

variable {α : Type} {n : Nat} {s : Session}

theorem Balanced.part (h : Balanced n) (task : Task) {o : Outcome α} (ho : o.ended? = task.ended? n s) :
    Books n s [(task, s)] [] o := fun t ht => by
  rw [h task s t (ho ▸ ht), Task.ledgers, List.flatMap_singleton, List.append_nil]

/-- A call of a trading built-in makes one record, if it accepts the arguments. -/
theorem books_callTrade (action : TradeAction) (args : List Value) (line : Nat) :
    Books n s [] (s.made action args) (callBuiltin (.trade action) args line s) := by
  unfold callBuiltin Session.made
  cases hc : Argument.classify args with
  | ok order =>
    simp only [Builtin.apply, hc]
    exact fun t ht => by cases ht; exact TradeLog.records_emit ..
  | error fault =>
    simp only [Builtin.apply, hc]
    exact fun t ht => by cases ht; exact (List.append_nil _).symm

theorem Balanced.evaluate_succ (h : Balanced n) (e : Expr) (s : Session) :
    Books n s (e.parts n s) (Task.own n (.evaluate e) s) (evaluate (n + 1) e s) := by
  have hvalue : ∀ {e s}, Books n s [(.evaluate e, s)] [] (evaluate n e s) := h.part (.evaluate _) rfl
  cases e with
  | number x p | string x p | boolean b p => exact (leavesLog_pure _).books n s
  | identifier x p => exact (leavesLog_lookup x p.line).books n s
  | assign x value p => exact hvalue.then fun v => (leavesLog_assign x v p.line).bind fun _ => leavesLog_pure v
  | binary op left right p =>
    refine hvalue.seq fun l t => ?_
    have htruth : Books n t [(.evaluate right, t)] []
        ((do return .boolean (← evaluate n right).isTruthy : Eval Value) t) := hvalue.then fun _ => leavesLog_pure _
    have hop : ∀ op : BinaryOp, Books n t [(.evaluate right, t)] []
        ((do Eval.ofExcept (op.apply l (← evaluate n right) p.line) : Eval Value) t) :=
      fun op => hvalue.then fun _ => leavesLog_ofExcept _
    cases op
    case and =>
      cases hb : l.isTruthy with
      | true => simp only [BinaryOp.needsRight, hb]; exact htruth
      | false => simp only [BinaryOp.needsRight, hb]; exact (leavesLog_pure _).books n t
    case or =>
      cases hb : l.isTruthy with
      | true => simp only [BinaryOp.needsRight, hb]; exact (leavesLog_pure _).books n t
      | false => simp only [BinaryOp.needsRight, hb]; exact htruth
    all_goals exact hop _
  | unary op operand p => exact hvalue.then fun v => leavesLog_ofExcept _
  | call callee args p =>
    refine ((leavesLog_lookup callee p.line).books n s).bind fun f t => ?_
    refine (h.part (.evaluateAll args) rfl).bind fun vs u => ?_
    cases f with
    | function f => exact h.part (.call f vs p.line) rfl
    | builtin b =>
      cases b with
      | trade action => exact books_callTrade action vs p.line
      | _ => exact LeavesLog.books (leavesLog_callBuiltin (by exact nofun) vs p.line) n u
    | null | boolean _ | number _ | string _ | record _ | list _ => exact (leavesLog_fail _).books n u
  | index target i p =>
    refine hvalue.seq fun v t => ?_
    exact hvalue.then fun w => leavesLog_ofExcept _

theorem Balanced.evaluateAll_succ (h : Balanced n) (es : List Expr) (s : Session) :
    Books n s (Task.parts n (.evaluateAll es) s) [] (evaluateAll (n + 1) es s) := by
  cases es with
  | nil => exact (leavesLog_pure _).books n s
  | cons e es =>
    refine (h.part (.evaluate e) rfl).seq fun v t => ?_
    exact (h.part (.evaluateAll es) rfl).then fun vs => leavesLog_pure _

theorem Balanced.call_succ (h : Balanced n) (f : Function) (args : List Value) (line : Nat) (s : Session) :
    Books n s (Task.parts n (.call f args line) s) [] (callFunction (n + 1) f args line s) := by
  refine ((leavesLog_checkDepth line).books n s).seq fun _ t => ?_
  have hbody : Books n (t.enterCall f args) [(.executeAll f.decl.body, t.enterCall f args)] []
      (executeAll n f.decl.body (t.enterCall f args)) := h.part (.executeAll f.decl.body) rfl
  exact Books.then (hbody.within (· - 1)) fun flow => leavesLog_pure _

theorem Balanced.execute_succ (h : Balanced n) (stmt : Stmt) (s : Session) :
    Books n s (Task.parts n (.execute stmt) s) (Task.own n (.execute stmt) s) (execute (n + 1) stmt s) := by
  have hvalue : ∀ {e s}, Books n s [(.evaluate e, s)] [] (evaluate n e s) := h.part (.evaluate _) rfl
  have hstmt : ∀ {stmt s}, Books n s [(.execute stmt, s)] [] (execute n stmt s) := h.part (.execute _) rfl
  have hloop : ∀ {c i body s}, Books n s [(.loop c i body, s)] [] (loop n c i body s) := h.part (.loop _ _ _) rfl
  have hnormal : ∀ x v, LeavesLog (do define x v; return .normal : Eval Flow) :=
    fun x v => (leavesLog_define x v).bind fun _ => leavesLog_pure _
  have htick : Books n s [] [] (tick s) := leavesLog_tick.books n s
  cases stmt with
  | trade action args line =>
    refine htick.bind fun _ t => (h.part (.evaluateAll args) rfl).last fun vs u => ?_
    unfold Session.made
    cases hc : Argument.classify vs with
    | ok order => exact fun t ht => by cases ht; exact TradeLog.records_emit ..
    | error fault => exact (leavesLog_fail _).books n u
  | function name params body =>
    exact htick.seq fun _ t => ((leavesLog_newFunction _).bind fun f => hnormal name (.function f)).books n t
  | var name value =>
    cases value with
    | none => exact htick.seq fun _ t => (hnormal name .null).books n t
    | some e => exact htick.seq fun _ t => hvalue.then fun v => hnormal name v
  | branch c thenBranch elseBranch =>
    refine htick.seq fun _ t => hvalue.seq fun v u => ?_
    cases v.isTruthy with
    | true => exact hstmt
    | false =>
      cases elseBranch with
      | none => exact (leavesLog_pure _).books n u
      | some e => exact hstmt
  | whileLoop c body => exact htick.seq fun _ t => hloop
  | forLoop start c increment body =>
    cases start with
    | none => exact htick.seq fun _ t => Books.within id hloop
    | some start => exact htick.seq fun _ t => Books.within id (hstmt.seq fun _ u => hloop)
  | ret value line =>
    cases value with
    | none => exact htick.seq fun _ t => (leavesLog_pure _).books n t
    | some e => exact htick.seq fun _ t => hvalue.then fun v => leavesLog_pure _
  | block body => exact htick.seq fun _ t => Books.within id (h.part (.executeAll body) rfl)
  | expr value => exact htick.seq fun _ t => hvalue.then fun _ => leavesLog_pure _

theorem Balanced.executeAll_succ (h : Balanced n) (stmts : List Stmt) (s : Session) :
    Books n s (Task.parts n (.executeAll stmts) s) [] (executeAll (n + 1) stmts s) := by
  cases stmts with
  | nil => exact (leavesLog_pure _).books n s
  | cons stmt stmts =>
    refine (h.part (.execute stmt) rfl).seq fun flow t => ?_
    cases flow with
    | normal => exact h.part (.executeAll stmts) rfl
    | returned v line => exact (leavesLog_pure _).books n t

theorem Balanced.round (h : Balanced n) (condition increment : Option Expr) (body : Stmt) (s : Session) :
    Books n s (Stmt.roundParts n condition increment body s) [] (loopRound n condition increment body s) := by
  -- the step is counted before the body runs, so a round that is refused makes no records
  refine (leavesLog_tick.books n s).seq fun _ t => ?_
  refine (h.part (.execute body) rfl).seq fun flow u => ?_
  cases flow with
  | returned v line => exact (leavesLog_pure _).books n u
  | normal =>
    cases increment with
    | none => exact h.part (.loop condition none body) rfl
    | some i =>
      refine (h.part (.evaluate i) rfl).seq fun _ v => ?_
      exact h.part (.loop condition (some i) body) rfl

theorem Balanced.loop_succ (h : Balanced n) (condition increment : Option Expr) (body : Stmt) (s : Session) :
    Books n s (Task.parts n (.loop condition increment body) s) [] (loop (n + 1) condition increment body s) := by
  cases condition with
  | none => exact h.round none increment body s
  | some c =>
    refine (h.part (.evaluate c) rfl).seq fun v t => ?_
    cases v.isTruthy with
    | true => exact h.round (some c) increment body t
    | false => exact (leavesLog_pure _).books n t

end

/-- The log after a task is the log before it and the ledger of the task. -/
theorem balanced (n : Nat) : Balanced n := by
  induction n with
  | zero =>
    intro task s t ht
    cases task <;> cases ht
  | succ n h =>
    intro task s t ht
    cases task with
    | evaluate e => exact h.evaluate_succ e s t ht
    | evaluateAll es => exact h.evaluateAll_succ es s t ht
    | call f args line => exact h.call_succ f args line s t ht
    | execute stmt => exact h.execute_succ stmt s t ht
    | executeAll stmts => exact h.executeAll_succ stmts s t ht
    | loop condition increment body => exact h.loop_succ condition increment body s t ht

end StrategyScript
