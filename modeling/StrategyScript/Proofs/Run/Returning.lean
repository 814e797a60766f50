/-
Where a return leads. It ends the statements around it, blocks, branches and loops alike, one after the
other, and none of them does anything more; a call ends this, for it has a value and no ending. What
gets out of the program itself is an error, and there is no other way to that error.
-/
import StrategyScript.Proofs.Syntax.Within
import StrategyScript.Proofs.Run.Onward
import StrategyScript.Proofs.Run.History
import StrategyScript.Proofs.Run.Turn

namespace StrategyScript

open Eval

/-! ## Errors of evaluation -/

/-- The error that a run ends with when a return gets out of its program. -/
def RuntimeError.isOpenReturn : RuntimeError → Bool
  | .fault .returnOutsideFunction _ => true
  | _ => false

/-- The computation has other errors, if any. -/
def Spares {α : Type} (m : Eval α) : Prop := ∀ s e t, m s = .failed e t → e.isOpenReturn = false

section

variable {α β : Type}

theorem spares_pure (a : α) : Spares (pure a : Eval α) := nofun

theorem spares_outOfFuel : Spares (outOfFuel : Eval α) := nofun

theorem spares_fail {e : RuntimeError} (he : e.isOpenReturn = false) : Spares (fail e : Eval α) := by
  intro s f t h
  cases h
  exact he

theorem spares_ofExcept {r : Except RuntimeError α} (hr : ∀ e, r = .error e → e.isOpenReturn = false) :
    Spares (ofExcept r) := by
  intro s e t h
  cases r <;> cases h
  exact hr e rfl

theorem spares_tick : Spares tick := by
  intro s e t h
  simp only [tick] at h
  split at h
  · split at h <;> cases h
    rfl
  · cases h

theorem spares_lookup (x : String) (line : Nat) : Spares (lookup x line) := by
  intro s e t h
  rw [lookup_eq] at h
  split at h <;> cases h
  rfl

theorem spares_assign (x : String) (v : Value) (line : Nat) : Spares (assign x v line) := by
  intro s e t h
  unfold assign at h
  split at h <;> cases h
  rfl

theorem spares_define (x : String) (v : Value) : Spares (define x v) := nofun

theorem spares_newFunction (decl : FunctionDecl) : Spares (newFunction decl) := nofun

theorem spares_trade (action : TradeAction) (order : Argument.Order) : Spares (trade action order) := nofun

theorem spares_checkDepth (line : Nat) : Spares (checkDepth line) := by
  intro s e t h
  unfold checkDepth at h
  split at h <;> cases h
  rfl

theorem spares_callBuiltin (b : Builtin) (args : List Value) (line : Nat) : Spares (callBuiltin b args line) := by
  intro s e t h
  unfold callBuiltin at h
  split at h <;> cases h
  rfl

theorem Spares.bind {m : Eval α} {f : α → Eval β} (h : Spares m) (hf : ∀ a, Spares (f a)) : Spares (m >>= f) := by
  intro s e u hu
  cases ho : m s with
  | done a t =>
    rw [bind_done f ho] at hu
    exact hf a t e u hu
  | failed e' t =>
    rw [bind_failed f ho] at hu
    cases hu
    exact h s _ _ ho
  | unfinished t =>
    rw [bind_unfinished f ho] at hu
    cases hu

theorem Spares.restoring {m : Eval α} (h : Spares m) (enter : Session → Session) (adjust : Nat → Nat) :
    Spares fun s => restoring s.current adjust (m (enter s)) := by
  intro s e t ht
  obtain ⟨u, hu, -⟩ := restoring_failed ht
  exact h _ e u hu

end

theorem BinaryOp.spares (op : BinaryOp) (l r : Value) (line : Nat) : Spares (ofExcept (op.apply l r line)) := by
  refine spares_ofExcept fun e he => ?_
  unfold apply at he
  split at he
  · cases he; rfl
  · cases ho : op.operate l r <;> rw [ho] at he <;> cases he
    rfl

theorem UnaryOp.spares (op : UnaryOp) (v : Value) (line : Nat) : Spares (ofExcept (op.apply v line)) :=
  spares_ofExcept fun e he => by cases op <;> cases v <;> cases he <;> rfl

theorem Value.spares_at (v i : Value) (line : Nat) : Spares (ofExcept (v.at i line)) := by
  refine spares_ofExcept fun e he => ?_
  unfold Value.at at he
  split at he
  · split at he <;> cases he
    rfl
  · split at he <;> cases he
    rfl
  all_goals cases he; rfl

/-- With so much fuel, no task fails over a return. -/
structure AllSpare (n : Nat) : Prop where
  evaluate : ∀ e, Spares (evaluate n e)
  evaluateAll : ∀ es, Spares (evaluateAll n es)
  call : ∀ f args line, Spares (callFunction n f args line)
  execute : ∀ stmt, Spares (execute n stmt)
  executeAll : ∀ stmts, Spares (executeAll n stmts)
  loop : ∀ condition increment body, Spares (loop n condition increment body)

namespace AllSpare

variable {n : Nat}

theorem evaluate_succ (h : AllSpare n) (e : Expr) : Spares (StrategyScript.evaluate (n + 1) e) := by
  cases e with
  | number x p | string x p | boolean b p => exact spares_pure _
  | identifier x p => exact spares_lookup x p.line
  | assign x value p => exact (h.evaluate value).bind fun v => (spares_assign x v p.line).bind fun _ => spares_pure v
  | binary op left right p =>
    refine (h.evaluate left).bind fun l => ?_
    have htruth : Spares (do return Value.boolean (← StrategyScript.evaluate n right).isTruthy) :=
      (h.evaluate right).bind fun _ => spares_pure _
    cases op
    case and =>
      cases hb : l.isTruthy with
      | true => exact htruth
      | false => exact spares_pure _
    case or =>
      cases hb : l.isTruthy with
      | true => exact spares_pure _
      | false => exact htruth
    all_goals exact (h.evaluate right).bind fun r => BinaryOp.spares _ l r p.line
  | unary op operand p => exact (h.evaluate operand).bind fun v => op.spares v p.line
  | call callee args p =>
    refine (spares_lookup callee p.line).bind fun f => (h.evaluateAll args).bind fun vs => ?_
    cases f with
    | function f => exact h.call f vs p.line
    | builtin b => exact spares_callBuiltin b vs p.line
    | null | boolean _ | number _ | string _ | record _ | list _ => exact spares_fail rfl
  | index target i p => exact (h.evaluate target).bind fun v => (h.evaluate i).bind fun w => v.spares_at w p.line

theorem execute_succ (h : AllSpare n) (stmt : Stmt) : Spares (StrategyScript.execute (n + 1) stmt) := by
  refine spares_tick.bind fun _ => ?_
  have hnormal : ∀ x v, Spares (do define x v; return Flow.normal) :=
    fun x v => (spares_define x v).bind fun _ => spares_pure _
  cases stmt with
  | function name params body => exact (spares_newFunction _).bind fun f => hnormal name (.function f)
  | var name value =>
    cases value with
    | none => exact hnormal name .null
    | some e => exact (h.evaluate e).bind fun v => hnormal name v
  | branch c thenBranch elseBranch =>
    refine (h.evaluate c).bind fun v => ?_
    cases v.isTruthy with
    | true => exact h.execute thenBranch
    | false =>
      cases elseBranch with
      | none => exact spares_pure _
      | some e => exact h.execute e
  | whileLoop c body => exact h.loop (some c) none body
  | forLoop start c increment body =>
    cases start with
    | none => exact (h.loop c increment body).restoring Session.enterBlock id
    | some start =>
      exact ((h.execute start.toStmt).bind fun _ => h.loop c increment body).restoring Session.enterBlock id
  | ret value line =>
    cases value with
    | none => exact spares_pure _
    | some e => exact (h.evaluate e).bind fun v => spares_pure _
  | trade action args line =>
    refine (h.evaluateAll args).bind fun vs => ?_
    cases Argument.classify vs with
    | ok order => exact (spares_trade action order).bind fun _ => spares_pure _
    | error fault => exact spares_fail rfl
  | block body => exact (h.executeAll body).restoring Session.enterBlock id
  | expr value => exact (h.evaluate value).bind fun _ => spares_pure _

theorem loop_succ (h : AllSpare n) (condition increment : Option Expr) (body : Stmt) :
    Spares (StrategyScript.loop (n + 1) condition increment body) := by
  have hround : Spares (loopRound n condition increment body) := by
    refine spares_tick.bind fun _ => (h.execute body).bind fun flow => ?_
    cases flow with
    | returned v line => exact spares_pure _
    | normal =>
      cases increment with
      | none => exact h.loop condition none body
      | some i => exact (h.evaluate i).bind fun _ => h.loop condition (some i) body
  cases condition with
  | none => exact hround
  | some c =>
    refine (h.evaluate c).bind fun v => ?_
    cases hb : v.isTruthy with
    | true => exact hround
    | false => exact spares_pure _

end AllSpare

/-- Evaluation never fails over a return: that a program has returned is noticed only when it is over. -/
theorem allSpare (n : Nat) : AllSpare n := by
  induction n with
  | zero =>
    exact ⟨fun _ => spares_outOfFuel, fun _ => spares_outOfFuel, fun _ _ _ => spares_outOfFuel,
      fun _ => spares_outOfFuel, fun _ => spares_outOfFuel, fun _ _ _ => spares_outOfFuel⟩
  | succ n ih =>
    refine ⟨ih.evaluate_succ, fun es => ?_, fun f args line => ?_, ih.execute_succ, fun stmts => ?_, ih.loop_succ⟩
    · cases es with
      | nil => exact spares_pure _
      | cons e es => exact (ih.evaluate e).bind fun v => (ih.evaluateAll es).bind fun vs => spares_pure _
    · refine (spares_checkDepth line).bind fun _ => ?_
      exact Spares.bind ((ih.executeAll f.decl.body).restoring (·.enterCall f args) (· - 1)) fun flow => spares_pure _
    · cases stmts with
      | nil => exact spares_pure _
      | cons stmt stmts =>
        refine (ih.execute stmt).bind fun flow => ?_
        cases flow with
        | normal => exact ih.executeAll stmts
        | returned v line => exact spares_pure _

/-! ## Which statements return -/

theorem Eval.done_of_bind {α β : Type} {m : Eval α} {f : α → Eval β} {s u : Session} {b : β}
    (h : (m >>= f) s = .done b u) : ∃ a t, m s = .done a t ∧ f a t = .done b u := by
  cases ho : m s with
  | done a t => exact ⟨a, t, rfl, (bind_done f ho).symm.trans h⟩
  | failed e t => rw [bind_failed f ho] at h; cases h
  | unfinished t => rw [bind_unfinished f ho] at h; cases h

/-- If the computation returns, then from one of these lines. -/
def ReturnsFrom (lines : List Nat) (m : Eval Flow) : Prop := ∀ s v line t, m s = .done (.returned v line) t → line ∈ lines

section

variable {α : Type} {lines lines' : List Nat} {m next : Eval Flow}

theorem returnsFrom_normal : ReturnsFrom lines (return .normal) := nofun

theorem ReturnsFrom.mono (h : ReturnsFrom lines m) (hsub : lines ⊆ lines') : ReturnsFrom lines' m :=
  fun s v line t ht => hsub (h s v line t ht)

/-- Behind a computation that has no ending of its own. -/
theorem ReturnsFrom.after {m : Eval α} {f : α → Eval Flow} (hf : ∀ a, ReturnsFrom lines (f a)) :
    ReturnsFrom lines (m >>= f) := by
  intro s v line u hu
  obtain ⟨a, t, -, hu⟩ := done_of_bind hu
  exact hf a t v line u hu

theorem ReturnsFrom.onward (h : ReturnsFrom lines m) (hnext : ReturnsFrom lines next) :
    ReturnsFrom lines (m >>= Flow.onward next) := by
  intro s v line u hu
  obtain ⟨flow, t, ho, hu⟩ := done_of_bind hu
  cases flow with
  | normal => exact hnext t v line u hu
  | returned w l =>
    cases hu
    exact h s v line _ ho

theorem ReturnsFrom.restoring (h : ReturnsFrom lines m) (enter : Session → Session) (adjust : Nat → Nat) :
    ReturnsFrom lines fun s => restoring s.current adjust (m (enter s)) := by
  intro s v line t ht
  obtain ⟨u, hu, -⟩ := restoring_done ht
  exact h _ v line u hu

end

/-- With so much fuel, what returns does so from a return statement that stands in it, and not in the body
of a function. -/
structure Disclosed (n : Nat) : Prop where
  execute : ∀ stmt, ReturnsFrom stmt.openReturns (execute n stmt)
  executeAll : ∀ stmts, ReturnsFrom (Stmt.openReturnsAll stmts) (executeAll n stmts)
  loop : ∀ condition increment body, ReturnsFrom body.openReturns (loop n condition increment body)

theorem LoopStart.openReturns_toStmt (start : LoopStart) : start.toStmt.openReturns = [] := by
  cases start <;> rfl

namespace Disclosed

variable {n : Nat}

theorem execute_succ (h : Disclosed n) (stmt : Stmt) : ReturnsFrom stmt.openReturns (StrategyScript.execute (n + 1) stmt) := by
  refine .after fun _ => ?_
  cases stmt with
  | function name params body => exact .after fun _ => .after fun _ => returnsFrom_normal
  | var name value =>
    cases value with
    | none => exact .after fun _ => returnsFrom_normal
    | some e => exact .after fun _ => .after fun _ => returnsFrom_normal
  | branch c thenBranch elseBranch =>
    refine .after fun v => ?_
    cases elseBranch with
    | none =>
      cases v.isTruthy with
      | true => exact h.execute thenBranch
      | false => exact returnsFrom_normal
    | some e =>
      have hlines : (Stmt.branch c thenBranch (some e)).openReturns = thenBranch.openReturns ++ e.openReturns :=
        List.filterMap_append
      rw [hlines]
      cases v.isTruthy with
      | true => exact (h.execute thenBranch).mono (List.subset_append_left ..)
      | false => exact (h.execute e).mono (List.subset_append_right ..)
  | whileLoop c body => exact h.loop (some c) none body
  | forLoop start c increment body =>
    cases start with
    | none => exact (h.loop c increment body).restoring Session.enterBlock id
    | some start => exact (ReturnsFrom.after fun _ => h.loop c increment body).restoring Session.enterBlock id
  | ret value line =>
    have hreturn : ∀ v, ReturnsFrom (Stmt.ret value line).openReturns (return .returned v line) := fun v _ _ _ _ ht => by
      cases ht
      exact List.mem_singleton_self line
    cases value with
    | none => exact hreturn .null
    | some e => exact .after hreturn
  | trade action args line =>
    refine .after fun vs => ?_
    cases Argument.classify vs with
    | ok order => exact .after fun _ => returnsFrom_normal
    | error fault => exact nofun
  | block body => exact (h.executeAll body).restoring Session.enterBlock id
  | expr value => exact .after fun _ => returnsFrom_normal

theorem loop_succ (h : Disclosed n) (condition increment : Option Expr) (body : Stmt) :
    ReturnsFrom body.openReturns (StrategyScript.loop (n + 1) condition increment body) := by
  have hround : ReturnsFrom body.openReturns (loopRound n condition increment body) := by
    refine .after fun _ => (h.execute body).onward ?_
    cases increment with
    | none => exact h.loop condition none body
    | some i => exact .after fun _ => h.loop condition (some i) body
  cases condition with
  | none => exact hround
  | some c =>
    refine .after fun v => ?_
    cases hb : v.isTruthy with
    | true => exact hround
    | false => exact returnsFrom_normal

theorem executeAll_succ (h : Disclosed n) (stmts : List Stmt) :
    ReturnsFrom (Stmt.openReturnsAll stmts) (StrategyScript.executeAll (n + 1) stmts) := by
  cases stmts with
  | nil => exact returnsFrom_normal
  | cons stmt stmts =>
    rw [Stmt.openReturnsAll_cons]
    refine ((h.execute stmt).mono (List.subset_append_left ..)).onward ?_
    exact (h.executeAll stmts).mono (List.subset_append_right ..)

end Disclosed

theorem disclosed (n : Nat) : Disclosed n := by
  induction n with
  | zero => exact ⟨fun _ => nofun, fun _ => nofun, fun _ _ _ => nofun⟩
  | succ n ih => exact ⟨ih.execute_succ, ih.executeAll_succ, ih.loop_succ⟩

/-- A return statement has no other way to end. -/
theorem Stmt.returned_of_ret {n : Nat} {value : Option Expr} {line : Nat} {flow : Flow} {s u : Session}
    (h : execute n (.ret value line) s = .done flow u) : ∃ v, flow = .returned v line := by
  cases n with
  | zero => cases h
  | succ n =>
    obtain ⟨_, t, -, h⟩ := done_of_bind h
    cases value with
    | none => cases h; exact ⟨.null, rfl⟩
    | some e =>
      obtain ⟨v, w, -, h⟩ := done_of_bind h
      cases h
      exact ⟨v, rfl⟩

/-! ## What a return ends -/

namespace Task

def isCall : Task → Bool
  | .call _ _ _ => true
  | .evaluate _ | .evaluateAll _ | .execute _ | .executeAll _ | .loop _ _ _ => false

/-- The task returns, and leaves the session behind that is given, up to the scope in which names are
looked up. Only statements return. -/
def Returns (n : Nat) (task : Task) (s : Session) (v : Value) (line : Nat) (u : Session) : Prop :=
  match task with
  | .evaluate _ | .evaluateAll _ | .call _ _ _ => False
  | .execute stmt => ∃ current, StrategyScript.execute n stmt s = .done (.returned v line) { u with current }
  | .executeAll stmts => ∃ current, StrategyScript.executeAll n stmts s = .done (.returned v line) { u with current }
  | .loop condition increment body =>
    ∃ current, StrategyScript.loop n condition increment body s = .done (.returned v line) { u with current }

end Task

theorem LoopStart.not_returns {n : Nat} {start : LoopStart} {s : Session} {v : Value} {line : Nat} {u : Session} :
    ¬ (Task.execute start.toStmt).Returns n s v line u := by
  rintro ⟨current, h⟩
  have hmem := (disclosed n).execute _ _ _ _ _ h
  rw [start.openReturns_toStmt] at hmem
  cases hmem

/-- A part that returns is the last one, and the computation that it is a part of comes to `o`: it returns
the same. -/
def Relays (n : Nat) (parts : List (Task × Session)) (o : Outcome Flow) : Prop :=
  ∀ p ∈ parts, ∀ v line u, p.1.Returns n p.2 v line u →
    (∃ current, o = .done (.returned v line) { u with current }) ∧ ∃ before, parts = before ++ [p]

section

variable {n : Nat} {s : Session} {parts : List (Task × Session)} {o : Outcome Flow}

theorem relays_nil : Relays n [] o := nofun

theorem Relays.cons {task : Task} (h : Relays n parts o) (htask : ∀ v line u, ¬ task.Returns n s v line u) :
    Relays n ((task, s) :: parts) o := by
  intro p hp v line u hr
  rcases List.mem_cons.1 hp with rfl | hp
  · exact absurd hr (htask v line u)
  · obtain ⟨ho, before, hbefore⟩ := h p hp v line u hr
    exact ⟨ho, (task, s) :: before, by rw [hbefore, List.cons_append]⟩

/-- The part is all there is. -/
theorem relays_single {task : Task}
    (h : ∀ v line u, task.Returns n s v line u → ∃ current, o = .done (.returned v line) { u with current }) :
    Relays n [(task, s)] o := by
  intro p hp v line u hr
  obtain rfl := List.mem_singleton.1 hp
  exact ⟨h v line u hr, [], rfl⟩

theorem relays_execute (stmt : Stmt) : Relays n [(.execute stmt, s)] (execute n stmt s) :=
  relays_single fun _ _ _ h => h

theorem relays_executeAll (stmts : List Stmt) : Relays n [(.executeAll stmts, s)] (executeAll n stmts s) :=
  relays_single fun _ _ _ h => h

theorem relays_loop (condition increment : Option Expr) (body : Stmt) :
    Relays n [(.loop condition increment body, s)] (loop n condition increment body s) := relays_single fun _ _ _ h => h

theorem Relays.restoring (h : Relays n parts o) (current : ScopeId) : Relays n parts (restoring current id o) := by
  intro p hp v line u hr
  obtain ⟨⟨_, ho⟩, hlast⟩ := h p hp v line u hr
  exact ⟨⟨current, by rw [ho]; rfl⟩, hlast⟩

/-- Behind a computation that is not to be a part. -/
theorem Relays.next {α : Type} {m : Eval α} {f : α → Eval Flow} {follows : α → Session → List (Task × Session)}
    (h : ∀ a t, Relays n (follows a t) (f a t)) : Relays n ((m s).next follows) ((m >>= f) s) := by
  cases ho : m s with
  | done a t =>
    rw [bind_done f ho]
    exact h a t
  | failed e t | unfinished t => exact relays_nil

/-- Behind an expression. -/
theorem Relays.value {e : Expr} {f : Value → Eval Flow} {follows : Value → Session → List (Task × Session)}
    (h : ∀ v t, Relays n (follows v t) (f v t)) :
    Relays n ((.evaluate e, s) :: (evaluate n e s).next follows) ((evaluate n e >>= f) s) :=
  (Relays.next h).cons fun _ _ _ => id

/-- An expression, and nothing behind it. -/
theorem relays_value (e : Expr) : Relays n [(.evaluate e, s)] o := relays_nil.cons fun _ _ _ => id

/-- Behind a statement, which may itself return. -/
theorem Relays.onward {stmt : Stmt} {rest : Flow → Eval Flow} {follows : Flow → Session → List (Task × Session)}
    (h : ∀ t, Relays n (follows .normal t) (rest .normal t)) (hfollows : ∀ v line t, follows (.returned v line) t = [])
    (hrest : ∀ v line, rest (.returned v line) = return .returned v line) :
    Relays n ((.execute stmt, s) :: (execute n stmt s).next follows) ((execute n stmt >>= rest) s) := by
  intro p hp v line u hr
  rcases List.mem_cons.1 hp with rfl | hp
  · obtain ⟨current, ho⟩ := hr
    rw [bind_done _ ho, ho, Outcome.next, hfollows, hrest]
    exact ⟨⟨current, rfl⟩, [], rfl⟩
  · obtain ⟨flow, t, ho, hp⟩ := Outcome.mem_next hp
    cases flow with
    | normal =>
      obtain ⟨hreturns, before, hbefore⟩ := h t p hp v line u hr
      rw [bind_done _ ho, ho, Outcome.next]
      exact ⟨hreturns, (.execute stmt, s) :: before, by rw [hbefore, List.cons_append]⟩
    | returned w l =>
      rw [hfollows] at hp
      cases hp

end

section

variable {n : Nat} {s : Session}

theorem Stmt.relays_parts (stmt : Stmt) : Relays n (Task.parts n (.execute stmt) s) (execute (n + 1) stmt s) := by
  refine Relays.next fun _ t => ?_
  cases stmt with
  | function name params body => exact relays_nil
  | var name value | ret value line =>
    cases value with
    | none => exact relays_nil
    | some e => exact relays_value e
  | branch c thenBranch elseBranch =>
    refine Relays.value fun v u => ?_
    cases v.isTruthy with
    | true => exact relays_execute thenBranch
    | false =>
      cases elseBranch with
      | none => exact relays_nil
      | some e => exact relays_execute e
  | whileLoop c body => exact relays_loop (some c) none body
  | forLoop start c increment body =>
    cases start with
    | none => exact (relays_loop c increment body).restoring t.current
    | some start =>
      refine Relays.restoring (o := (execute n start.toStmt >>= fun _ => loop n c increment body) t.enterBlock) ?_ t.current
      exact (Relays.next fun _ u => relays_loop c increment body).cons fun _ _ _ => start.not_returns
  | trade action args line => exact relays_nil.cons fun _ _ _ => id
  | block body => exact (relays_executeAll body).restoring t.current
  | expr value => exact relays_value value

theorem relays_round (condition increment : Option Expr) (body : Stmt) :
    Relays n (Stmt.roundParts n condition increment body s) (loopRound n condition increment body s) := by
  refine Relays.next fun _ t => Relays.onward (fun u => ?_) (fun _ _ _ => rfl) fun _ _ => rfl
  cases increment with
  | none => exact relays_loop condition none body
  | some i => exact Relays.value fun _ w => relays_loop condition (some i) body

theorem relays_rounds (condition increment : Option Expr) (body : Stmt) :
    Relays n (Task.parts n (.loop condition increment body) s) (loop (n + 1) condition increment body s) := by
  cases condition with
  | none => exact relays_round none increment body
  | some c =>
    refine Relays.value fun v t => ?_
    cases hb : v.isTruthy with
    | true => exact relays_round (some c) increment body
    | false => exact relays_nil

/-- No part of an expression returns. -/
theorem Expr.not_returns_part {e : Expr} {p : Task × Session} (hp : p ∈ e.parts n s) {v : Value} {line : Nat}
    {u : Session} : ¬ p.1.Returns n p.2 v line u := by
  cases e.parts_begin p hp with
  | within _ hpart =>
    cases e <;> simp only [Task.subtasks, subtasks, List.mem_cons, List.not_mem_nil, or_false] at hpart
    case binary | index => rcases hpart with rfl | rfl <;> exact id
    all_goals subst hpart; exact id
  | calls _ => exact id

/-- A task that returns through one of its parts does nothing after it. Calls are where returns end. -/
theorem Task.returns_of_part {task : Task} {p : Task × Session} {v : Value} {line : Nat} {u : Session}
    (hcall : task.isCall = false) (hp : p ∈ task.parts n s) (hr : p.1.Returns n p.2 v line u) :
    task.Returns (n + 1) s v line u ∧ ∃ before, task.parts n s = before ++ [p] := by
  cases task with
  | evaluate e => exact absurd hr (Expr.not_returns_part hp)
  | evaluateAll es =>
    cases es with
    | nil => cases hp
    | cons e es =>
      rcases List.mem_cons.1 hp with rfl | hp
      · exact hr.elim
      · obtain ⟨_, t, -, hp⟩ := Outcome.mem_next hp
        rw [List.mem_singleton.1 hp] at hr
        exact hr.elim
  | call f args line => cases hcall
  | execute stmt => exact stmt.relays_parts p hp v line u hr
  | executeAll stmts =>
    cases stmts with
    | nil => cases hp
    | cons stmt stmts =>
      have h : Relays n (Task.parts n (.executeAll (stmt :: stmts)) s) (StrategyScript.executeAll (n + 1) (stmt :: stmts) s) :=
        Relays.onward (fun t => relays_executeAll stmts) (fun _ _ _ => rfl) fun _ _ => rfl
      exact h p hp v line u hr
  | loop condition increment body => exact relays_rounds condition increment body p hp v line u hr

end

/-! ## Runs -/

/-- The second moment is on the course of the first, and not inside of a call. -/
inductive Moment.Outside (m : Moment) : Moment → Prop
  | self : Outside m m
  | part {n : Nat} {task : Task} {s : Session} {p : Task × Session} (h : Outside m ⟨n + 1, task, s⟩)
    (hcall : task.isCall = false) (hp : p ∈ task.parts n s) : Outside m ⟨n, p.1, p.2⟩

/-- What returns outside of all calls is the last thing that happens. -/
theorem Moment.Outside.returns {m m' : Moment} {v : Value} {line : Nat} {u : Session} (h : m.Outside m')
    (hr : m'.task.Returns m'.fuel m'.session v line u) :
    m.task.Returns m.fuel m.session v line u ∧ m'.moments <:+ m.moments := by
  induction h with
  | self => exact ⟨hr, List.suffix_refl _⟩
  | @part n task s p _ hcall hp ih =>
    obtain ⟨htask, before, hbefore⟩ := Task.returns_of_part hcall hp hr
    obtain ⟨hreturns, hsuffix⟩ := ih htask
    refine ⟨hreturns, List.IsSuffix.trans ?_ hsuffix⟩
    show p.1.moments n p.2 <:+ ⟨n + 1, task, s⟩ :: (task.parts n s).flatMap fun p => p.1.moments n p.2
    rw [hbefore, List.flatMap_append, List.flatMap_singleton, ← List.cons_append]
    exact List.suffix_append _ _

namespace Session

variable {s : Session} {fuel : Nat} {p : Program} {market : Market}

/-- A program that returns has failed. -/
theorem run_of_returned {v : Value} {line : Nat} {u : Session}
    (h : executeAll fuel p (s.prepare market) = .done (.returned v line) u) :
    s.run fuel p market = (.failure (.fault .returnOutsideFunction line), { u with current := globalScope }) := by
  unfold run executeProgram
  rw [bind_done _ h]
  rfl

/-- A run that fails over a return is that of a program that returns. -/
theorem returned_of_run {line : Nat} (h : (s.run fuel p market).1 = .failure (.fault .returnOutsideFunction line)) :
    ∃ v u, executeAll fuel p (s.prepare market) = .done (.returned v line) u := by
  unfold run executeProgram at h
  cases ho : executeAll fuel p (s.prepare market) with
  | done flow u =>
    rw [bind_done _ ho] at h
    cases flow with
    | normal => cases h
    | returned v l => cases h; exact ⟨v, u, rfl⟩
  | failed e u =>
    rw [bind_failed _ ho] at h
    cases h
    cases (allSpare fuel).executeAll p _ _ _ ho
  | unfinished u => rw [bind_unfinished _ ho] at h; cases h

/-- Whatever an interpreter has come through, a run fails over a return only where the program has one on
that line that stands outside of all functions. Where such a statement is executed and its value is there,
it is the last thing that happens, and the run fails over it with the trades made until then. -/
theorem run_return (s : Session) (fuel : Nat) (p : Program) (market : Market) :
    (∀ line, (s.run fuel p market).1 = .failure (.fault .returnOutsideFunction line) →
      ∃ value, .ret value line ∈ Stmt.withinAll false p) ∧
    (∀ n value line t flow u, (s.start fuel p market).Outside ⟨n, .execute (.ret value line), t⟩ →
      execute n (.ret value line) t = .done flow u →
      s.run fuel p market = (.failure (.fault .returnOutsideFunction line), { u with current := globalScope }) ∧
        (Task.execute (.ret value line)).moments n t <:+ (s.start fuel p market).moments) ∧
    ((∀ value line, .ret value line ∉ Stmt.withinAll false p) →
      ∀ line, (s.run fuel p market).1 ≠ .failure (.fault .returnOutsideFunction line)) := by
  have hlines : ∀ line, (s.run fuel p market).1 = .failure (.fault .returnOutsideFunction line) →
      ∃ value, .ret value line ∈ Stmt.withinAll false p := fun line h => by
    obtain ⟨v, u, hreturned⟩ := returned_of_run h
    exact Stmt.mem_openReturnsAll.1 ((disclosed fuel).executeAll _ _ _ _ _ hreturned)
  refine ⟨hlines, fun n value line t flow u hm ho => ?_, fun hnone line h => ?_⟩
  · obtain ⟨v, rfl⟩ := Stmt.returned_of_ret ho
    obtain ⟨⟨current, hreturned⟩, hsuffix⟩ := hm.returns ⟨u.current, ho⟩
    exact ⟨run_of_returned (u := { u with current }) hreturned, hsuffix⟩
  · obtain ⟨value, hvalue⟩ := hlines line h
    exact hnone value line hvalue

/-- A return in a loop between two trades: only the first trade is made, the loop does not go on, and the
run fails on the line of the return. -/
theorem run_return_in_loop :
    let turn : Stmt := .block [.ret none 2, .trade .sell [] 3]
    let p : Program := [.trade .buy [] 1, .forLoop none none (some (.call "buy" [] ⟨2, 9⟩)) turn, .trade .sell [] 4]
    let s := new ⟨none, 64⟩
    (s.run 12 p .empty).1 = .failure (.fault .returnOutsideFunction 2) ∧
      (s.run 12 p .empty).2.trades.records.map (·.action) = [.buy] ∧
      ∃ value, .ret value 2 ∈ Stmt.withinAll false p := by
  intro turn p s
  obtain ⟨hlines, hends, -⟩ := run_return s 12 p .empty
  -- from the program to the loop, through a round of it to its body, and there to the first statement
  have hloop := ((Moment.Outside.self (m := s.start 12 p .empty)).part rfl
    (List.mem_cons_of_mem _ (List.mem_singleton_self _))).part rfl List.mem_cons_self
  have hturn := (hloop.part rfl (List.mem_singleton_self _)).part rfl List.mem_cons_self
  have hret := (hturn.part rfl (List.mem_singleton_self _)).part rfl List.mem_cons_self
  obtain ⟨hrun, -⟩ := hends _ _ _ _ _ _ hret rfl
  have hfailed := congrArg Prod.fst hrun
  exact ⟨hfailed, by rw [hrun]; rfl, hlines 2 hfailed⟩

end Session

end StrategyScript
