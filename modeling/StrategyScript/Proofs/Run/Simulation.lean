/-
Simulations between runs. A simulation is a relation between computations that the single steps of
evaluation keep: counting, looking up, binding, calling, trading. It is then kept by whole expressions
and statements, whatever their form: when both sides run the same tree, up to a relocation of its
positions, they stay related. The right side may have more fuel than the left.

The proof is one induction on the fuel over the six functions of the evaluator. Everything that is
proved about two runs, or about each run alone, is an instance.
-/
import StrategyScript.Proofs.Run.Step
import StrategyScript.Run.Script

namespace StrategyScript

open Eval

/-- One round of a loop, once its condition holds, and the rounds behind it. -/
def Memory.loopRound (μ : Memory) (fuel : Nat) (condition increment : Option Expr) (body : Stmt) : Eval Flow := do
  tick
  match ← μ.execute fuel body with
  | .normal =>
    match increment with
    | some i => do
      let _ ← μ.evaluate fuel i
      μ.loop fuel condition increment body
    | none => μ.loop fuel condition increment body
  | .returned v line => return .returned v line

def loopRound (fuel : Nat) (condition increment : Option Expr) (body : Stmt) : Eval Flow :=
  Memory.kept.loopRound fuel condition increment body

/-- A relation between computations, and why each step of evaluation keeps it. -/
structure Simulation where
  /-- How the tree on the right differs from the one on the left. -/
  moves : Relocation
  /-- How much more fuel there is on the right. -/
  slack : Nat
  /-- The names that the tree may use. -/
  allows : String → Prop
  /-- What holds of every value that is met. -/
  fits : Value → Prop
  /-- Related computations whose results are related by the argument. -/
  Rel : ∀ {α β : Type}, (α → β → Prop) → Eval α → Eval β → Prop
  fits_plain : ∀ v, v.kind = .null ∨ v.kind = .boolean ∨ v.kind = .number ∨ v.kind = .string → fits v
  fits_at : ∀ {t i v line}, fits t → t.at i line = .ok v → fits v
  allows_decl : ∀ {f}, fits (.function f) → ∀ x ∈ f.decl.names, allows x
  pure : ∀ {α β : Type} {R : α → β → Prop} {a b}, R a b → Rel R (Pure.pure a) (Pure.pure b)
  bind : ∀ {α β γ δ : Type} {R : α → β → Prop} {T : γ → δ → Prop} {m n} {f : α → Eval γ} {g : β → Eval δ},
    Rel R m n → (∀ a b, R a b → Rel T (f a) (g b)) → Rel T (m >>= f) (n >>= g)
  outOfFuel : ∀ {α β : Type} {R : α → β → Prop} {n : Eval β},
    (slack = 0 → n = Eval.outOfFuel) → Rel R (Eval.outOfFuel : Eval α) n
  fault : ∀ {α β : Type} {R : α → β → Prop} {cause line},
    Rel R (fail (.fault cause line)) (fail (.fault cause (moves.line line)))
  tick : Rel Eq tick tick
  lookup : ∀ {x line}, allows x →
    Rel (fun v w => fits v ∧ w = v.relocate moves) (lookup x line) (lookup x (moves.line line))
  assign : ∀ {x v line}, allows x → fits v →
    Rel Eq (assign x v line) (assign x (v.relocate moves) (moves.line line))
  define : ∀ {x v}, allows x → fits v → Rel Eq (define x v) (define x (v.relocate moves))
  newFunction : ∀ decl, (∀ x ∈ decl.names, allows x) →
    Rel (fun f g => fits (.function f) ∧ g = f.relocate moves) (newFunction decl)
      (newFunction (decl.relocate moves))
  inBlock : ∀ {α β : Type} {R : α → β → Prop} {m n}, Rel R m n → Rel R (inBlock m) (inBlock n)
  inCall : ∀ {α β : Type} {R : α → β → Prop} {m n f args} (line), fits (.function f) →
    (∀ v ∈ args, fits v) → Rel R m n →
    Rel R (do checkDepth line; inCall f.closure (bindParameters f.decl.params args []) m)
      (do
        checkDepth (moves.line line)
        inCall f.closure (bindParameters f.decl.params (args.map (Value.relocate moves)) []) n)
  trade : ∀ {action order}, Rel Eq (trade action order) (trade action order)
  callBuiltin : ∀ {b args line}, fits (.builtin b) → (∀ v ∈ args, fits v) →
    Rel (fun v w => fits v ∧ w = v.relocate moves) (callBuiltin b args line)
      (callBuiltin b (args.map (Value.relocate moves)) (moves.line line))

namespace Simulation

variable (S : Simulation)

/-! ## Related results -/

def Matches (v w : Value) : Prop := S.fits v ∧ w = v.relocate S.moves

def MatchesAll (vs ws : List Value) : Prop :=
  (∀ v ∈ vs, S.fits v) ∧ ws = vs.map (Value.relocate S.moves)

def MatchesFlow : Flow → Flow → Prop
  | .normal, g => g = .normal
  | .returned v line, g => S.fits v ∧ g = .returned (v.relocate S.moves) (S.moves.line line)

/-- The tree uses no other names. -/
def Allows (names : List String) : Prop := ∀ x ∈ names, S.allows x

variable {S}

@[simp] theorem allows_nil : S.Allows [] := by simp [Allows]

@[simp] theorem allows_cons {x : String} {xs : List String} :
    S.Allows (x :: xs) ↔ S.allows x ∧ S.Allows xs := List.forall_mem_cons

@[simp] theorem allows_append {xs ys : List String} :
    S.Allows (xs ++ ys) ↔ S.Allows xs ∧ S.Allows ys := List.forall_mem_append

theorem isTruthy_eq {v w : Value} (h : S.Matches v w) : w.isTruthy = v.isTruthy := by
  rw [h.2, Value.isTruthy_relocate]

theorem pure_boolean {b : Bool} : S.Rel S.Matches (Pure.pure (.boolean b)) (Pure.pure (.boolean b)) :=
  S.pure ⟨S.fits_plain _ (.inr (.inl rfl)), rfl⟩

theorem matches_result {f g : Flow} (h : S.MatchesFlow f g) : S.Matches f.result g.result := by
  cases f with
  | normal => rw [show g = .normal from h]; exact ⟨S.fits_plain .null (.inl rfl), rfl⟩
  | returned v line => rw [h.2]; exact ⟨h.1, rfl⟩

/-- Operations on values. Their errors are faults, never an exhausted budget. -/
theorem ofExcept {r : Except RuntimeError Value} (hv : ∀ v, r = .ok v → S.fits v)
    (he : ∀ e, r = .error e → ∃ cause line, e = .fault cause line) :
    S.Rel S.Matches (ofExcept r) (ofExcept (relocateAnswer S.moves r)) := by
  cases r with
  | ok v => exact S.pure ⟨hv v rfl, rfl⟩
  | error e =>
    obtain ⟨cause, line, rfl⟩ := he e rfl
    exact S.fault

end Simulation

/-! ## What operations answer -/

theorem BinaryOp.operate_plain {op : BinaryOp} {left right v : Value} (h : op.operate left right = .ok v) :
    v.kind = .boolean ∨ v.kind = .number ∨ v.kind = .string := by
  cases op
  case equal | notEqual | and | or => cases h; exact .inl rfl
  all_goals
    cases left <;> cases right <;>
      simp only [operate, compareValues, combine, Except.ok.injEq, reduceCtorEq] at h <;>
      subst h <;> simp [Value.kind]

theorem BinaryOp.apply_ok {op : BinaryOp} {left right v : Value} {line : Nat}
    (h : op.apply left right line = .ok v) : v.kind = .boolean ∨ v.kind = .number ∨ v.kind = .string := by
  unfold apply at h
  split at h
  · cases h
  · cases ho : op.operate left right with
    | ok w => rw [ho] at h; cases h; exact operate_plain ho
    | error e => rw [ho] at h; cases h

theorem BinaryOp.apply_error {op : BinaryOp} {left right : Value} {line : Nat} {e : RuntimeError}
    (h : op.apply left right line = .error e) : ∃ cause, e = .fault cause line := by
  unfold apply at h
  split at h
  · cases h; exact ⟨_, rfl⟩
  · cases ho : op.operate left right with
    | ok w => rw [ho] at h; cases h
    | error f => rw [ho] at h; cases h; exact ⟨_, rfl⟩

theorem UnaryOp.apply_ok {op : UnaryOp} {operand v : Value} {line : Nat}
    (h : op.apply operand line = .ok v) : v.kind = .boolean ∨ v.kind = .number := by
  cases op <;> cases operand <;> cases h <;> simp [Value.kind]

theorem UnaryOp.apply_error {op : UnaryOp} {operand : Value} {line : Nat} {e : RuntimeError}
    (h : op.apply operand line = .error e) : ∃ cause, e = .fault cause line := by
  cases op <;> cases operand <;> cases h <;> exact ⟨_, rfl⟩

theorem Value.at_error {target index : Value} {line : Nat} {e : RuntimeError}
    (h : target.at index line = .error e) : ∃ cause, e = .fault cause line := by
  unfold Value.at at h
  split at h
  · split at h <;> cases h
    exact ⟨_, rfl⟩
  · split at h <;> cases h
    exact ⟨_, rfl⟩
  all_goals cases h; exact ⟨_, rfl⟩

namespace Simulation

variable {S : Simulation}

theorem binary {op : BinaryOp} {l l' r r' : Value} {line : Nat} (hl : S.Matches l l')
    (hr : S.Matches r r') :
    S.Rel S.Matches (Eval.ofExcept (op.apply l r line)) (Eval.ofExcept (op.apply l' r' (S.moves.line line))) := by
  rw [hl.2, hr.2, BinaryOp.apply_relocate]
  refine ofExcept (fun v h => S.fits_plain v ?_) fun e h => ?_
  · rcases BinaryOp.apply_ok h with hk | hk | hk <;> simp [hk]
  · obtain ⟨cause, rfl⟩ := BinaryOp.apply_error h
    exact ⟨cause, line, rfl⟩

theorem unary {op : UnaryOp} {v v' : Value} {line : Nat} (hv : S.Matches v v') :
    S.Rel S.Matches (Eval.ofExcept (op.apply v line)) (Eval.ofExcept (op.apply v' (S.moves.line line))) := by
  rw [hv.2, UnaryOp.apply_relocate]
  refine ofExcept (fun v h => S.fits_plain v ?_) fun e h => ?_
  · rcases UnaryOp.apply_ok h with hk | hk <;> simp [hk]
  · obtain ⟨cause, rfl⟩ := UnaryOp.apply_error h
    exact ⟨cause, line, rfl⟩

theorem index {t t' i i' : Value} {line : Nat} (ht : S.Matches t t') (hi : S.Matches i i') :
    S.Rel S.Matches (Eval.ofExcept (t.at i line)) (Eval.ofExcept (t'.at i' (S.moves.line line))) := by
  rw [ht.2, hi.2, Value.at_relocate]
  refine ofExcept (fun v h => S.fits_at ht.1 h) fun e h => ?_
  obtain ⟨cause, rfl⟩ := Value.at_error h
  exact ⟨cause, line, rfl⟩

/-! ## Whole expressions and statements -/

variable (S)

/-- What a simulation says about all trees, for one amount of fuel on the left. -/
structure Keeps (fuel : Nat) : Prop where
  evaluate : ∀ e, S.Allows e.names →
    S.Rel S.Matches (evaluate fuel e) (evaluate (fuel + S.slack) (e.relocate S.moves))
  evaluateAll : ∀ es, S.Allows (Expr.namesAll es) →
    S.Rel S.MatchesAll (evaluateAll fuel es) (evaluateAll (fuel + S.slack) (Expr.relocateAll S.moves es))
  callFunction : ∀ f args line, S.fits (.function f) → (∀ v ∈ args, S.fits v) →
    S.Rel S.Matches (callFunction fuel f args line)
      (callFunction (fuel + S.slack) (f.relocate S.moves) (args.map (Value.relocate S.moves))
        (S.moves.line line))
  execute : ∀ s, S.Allows s.names →
    S.Rel S.MatchesFlow (execute fuel s) (execute (fuel + S.slack) (s.relocate S.moves))
  executeAll : ∀ ss, S.Allows (Stmt.namesAll ss) →
    S.Rel S.MatchesFlow (executeAll fuel ss) (executeAll (fuel + S.slack) (Stmt.relocateAll S.moves ss))
  loop : ∀ condition increment body, S.Allows (Expr.namesIn condition) →
    S.Allows (Expr.namesIn increment) → S.Allows body.names →
    S.Rel S.MatchesFlow (loop fuel condition increment body)
      (loop (fuel + S.slack) (condition.map (Expr.relocate S.moves))
        (increment.map (Expr.relocate S.moves)) (body.relocate S.moves))

theorem keeps_zero : S.Keeps 0 where
  evaluate _ _ := S.outOfFuel fun h => by rw [h]; rfl
  evaluateAll _ _ := S.outOfFuel fun h => by rw [h]; rfl
  callFunction _ _ _ _ _ := S.outOfFuel fun h => by rw [h]; rfl
  execute _ _ := S.outOfFuel fun h => by rw [h]; rfl
  executeAll _ _ := S.outOfFuel fun h => by rw [h]; rfl
  loop _ _ _ _ _ _ := S.outOfFuel fun h => by rw [h]; rfl

variable {S} {fuel : Nat}

theorem Keeps.evaluate_succ (h : S.Keeps fuel) (e : Expr) (hn : S.Allows e.names) :
    S.Rel S.Matches (StrategyScript.evaluate (fuel + 1) e)
      (StrategyScript.evaluate (fuel + 1 + S.slack) (e.relocate S.moves)) := by
  rw [Nat.add_right_comm]
  cases e with
  | number x p | string s p | boolean b p =>
    exact S.pure ⟨S.fits_plain _ (by simp [Value.kind]), rfl⟩
  | identifier name p =>
    simp only [StrategyScript.evaluate, Memory.evaluate, Expr.relocate, S.moves.line_position]
    exact S.lookup (hn name (by simp [Expr.names]))
  | assign name value p =>
    simp only [StrategyScript.evaluate, Memory.evaluate, Expr.relocate, S.moves.line_position]
    simp only [Expr.names, allows_cons] at hn
    refine S.bind (h.evaluate value hn.2) fun v w hv => ?_
    rw [hv.2]
    exact S.bind (S.assign hn.1 hv.1) fun _ _ _ => S.pure ⟨hv.1, rfl⟩
  | binary op left right p =>
    simp only [StrategyScript.evaluate, Memory.evaluate, Memory.hold, Expr.relocate, S.moves.line_position]
    simp only [Expr.names, allows_append] at hn
    refine S.bind (h.evaluate left hn.1) fun l l' hl => ?_
    -- `and` and `or` reach the right side by the truth of the left one, every other operator does so always
    have htruth : S.Rel S.Matches
        (do return .boolean (← StrategyScript.evaluate fuel right).isTruthy)
        (do return .boolean (← StrategyScript.evaluate (fuel + S.slack) (right.relocate S.moves)).isTruthy) := by
      refine S.bind (h.evaluate right hn.2) fun r r' hr => ?_
      rw [isTruthy_eq hr]
      exact pure_boolean
    have hop : ∀ op : BinaryOp, S.Rel S.Matches
        (do Eval.ofExcept (op.apply l (← StrategyScript.evaluate fuel right) p.line))
        (do Eval.ofExcept (op.apply l' (← StrategyScript.evaluate (fuel + S.slack) (right.relocate S.moves))
          (S.moves.line p.line))) :=
      fun op => S.bind (h.evaluate right hn.2) fun r r' hr => binary hl hr
    cases op
    case and =>
      simp only [isTruthy_eq hl]
      split
      · exact htruth
      · exact pure_boolean
    case or =>
      simp only [isTruthy_eq hl]
      split
      · exact pure_boolean
      · exact htruth
    all_goals exact hop _
  | unary op operand p =>
    simp only [StrategyScript.evaluate, Memory.evaluate, Expr.relocate, S.moves.line_position]
    exact S.bind (h.evaluate operand hn) fun v w hv => unary hv
  | call callee args p =>
    simp only [StrategyScript.evaluate, Memory.evaluate, Memory.hold, Expr.relocate, S.moves.line_position]
    simp only [Expr.names, allows_cons] at hn
    refine S.bind (S.lookup hn.1) fun f f' hf => S.bind (h.evaluateAll args hn.2) fun vs ws hvs => ?_
    rw [hf.2, hvs.2]
    -- both sides found the same kind of value, so they call alike or fail alike
    cases f with
    | function f => exact h.callFunction f vs p.line hf.1 hvs.1
    | builtin b => exact S.callBuiltin hf.1 hvs.1
    | null | boolean _ | number _ | string _ | record _ | list _ => exact S.fault
  | index target i p =>
    simp only [StrategyScript.evaluate, Memory.evaluate, Memory.hold, Expr.relocate, S.moves.line_position]
    simp only [Expr.names, allows_append] at hn
    exact S.bind (h.evaluate target hn.1) fun t t' ht => S.bind (h.evaluate i hn.2) fun v v' hv => index ht hv

theorem Keeps.evaluateAll_succ (h : S.Keeps fuel) (es : List Expr) (hn : S.Allows (Expr.namesAll es)) :
    S.Rel S.MatchesAll (StrategyScript.evaluateAll (fuel + 1) es)
      (StrategyScript.evaluateAll (fuel + 1 + S.slack) (Expr.relocateAll S.moves es)) := by
  rw [Nat.add_right_comm]
  cases es with
  | nil => exact S.pure ⟨by simp, rfl⟩
  | cons e es =>
    simp only [Expr.namesAll, allows_append] at hn
    refine S.bind (h.evaluate e hn.1) fun v w hv => S.bind (h.evaluateAll es hn.2) fun vs ws hvs => ?_
    rw [hv.2, hvs.2]
    exact S.pure ⟨by simpa using ⟨hv.1, hvs.1⟩, rfl⟩

theorem Keeps.callFunction_succ (h : S.Keeps fuel) (f : Function) (args : List Value) (line : Nat)
    (hf : S.fits (.function f)) (hargs : ∀ v ∈ args, S.fits v) :
    S.Rel S.Matches (StrategyScript.callFunction (fuel + 1) f args line)
      (StrategyScript.callFunction (fuel + 1 + S.slack) (f.relocate S.moves)
        (args.map (Value.relocate S.moves)) (S.moves.line line)) := by
  rw [Nat.add_right_comm]
  have hbody : S.Allows (Stmt.namesAll f.decl.body) := fun x hx =>
    S.allows_decl hf x (by simp [FunctionDecl.names, hx])
  have hcall := S.bind (S.inCall line hf hargs (h.executeAll f.decl.body hbody))
    (f := fun flow => Pure.pure flow.result) (g := fun flow => Pure.pure flow.result) (T := S.Matches)
    fun a b hab => S.pure (matches_result hab)
  rw [Eval.bind_assoc, Eval.bind_assoc] at hcall
  exact hcall

theorem Keeps.execute_succ (h : S.Keeps fuel) (s : Stmt) (hn : S.Allows s.names) :
    S.Rel S.MatchesFlow (StrategyScript.execute (fuel + 1) s)
      (StrategyScript.execute (fuel + 1 + S.slack) (s.relocate S.moves)) := by
  rw [Nat.add_right_comm]
  have hnormal : S.Rel S.MatchesFlow (Pure.pure Flow.normal) (Pure.pure Flow.normal) := S.pure rfl
  refine S.bind S.tick fun _ _ _ => ?_
  cases s with
  | function name params body =>
    simp only [Stmt.names, List.cons_append, allows_cons] at hn
    refine S.bind (S.newFunction ⟨name, params, body⟩ fun x hx => ?_) fun f g hf => ?_
    · simp only [FunctionDecl.names, List.cons_append, List.mem_cons] at hx
      rcases hx with rfl | hx
      · exact hn.1
      · exact hn.2 x hx
    · obtain ⟨hf, rfl⟩ := hf
      exact S.bind (S.define hn.1 hf) fun _ _ _ => hnormal
  | var name value =>
    cases value with
    | none =>
      simp only [Stmt.names, allows_cons] at hn
      exact S.bind (S.define hn.1 (S.fits_plain .null (.inl rfl))) fun _ _ _ => hnormal
    | some e =>
      simp only [Stmt.names, Expr.namesIn, allows_cons] at hn
      refine S.bind (h.evaluate e hn.2) fun v w hv => ?_
      rw [hv.2]
      exact S.bind (S.define hn.1 hv.1) fun _ _ _ => hnormal
  | branch c thenBranch elseBranch =>
    rw [Stmt.relocate_branch]
    have hc : S.Allows c.names := by
      cases elseBranch <;> simp only [Stmt.names, allows_append] at hn <;> tauto
    have ht : S.Allows thenBranch.names := by
      cases elseBranch <;> simp only [Stmt.names, allows_append] at hn <;> tauto
    refine S.bind (h.evaluate c hc) fun v w hv => ?_
    rw [isTruthy_eq hv]
    split
    · exact h.execute thenBranch ht
    · cases elseBranch with
      | none => exact hnormal
      | some e =>
        simp only [Stmt.names, allows_append] at hn
        exact h.execute e hn.2
  | whileLoop c body =>
    simp only [Stmt.names, allows_append] at hn
    exact h.loop (some c) none body hn.1 (by simp [Expr.namesIn]) hn.2
  | forLoop start c increment body =>
    cases start with
    | none =>
      simp only [Stmt.names, allows_append] at hn
      exact S.inBlock (h.loop c increment body hn.1.1 hn.1.2 hn.2)
    | some start =>
      simp only [Stmt.names, allows_append] at hn
      refine S.inBlock (S.bind (R := S.MatchesFlow) ?_ fun _ _ _ => h.loop c increment body hn.1.1.2 hn.1.2 hn.2)
      rw [LoopStart.toStmt_relocate]
      exact h.execute start.toStmt (by rw [LoopStart.names_toStmt]; exact hn.1.1.1)
  | ret value line =>
    cases value with
    | none => exact S.pure ⟨S.fits_plain .null (.inl rfl), rfl⟩
    | some e => exact S.bind (h.evaluate e hn) fun v w hv => S.pure ⟨hv.1, by rw [hv.2]⟩
  | trade action args line =>
    refine S.bind (h.evaluateAll args hn) fun vs ws hvs => ?_
    rw [hvs.2, Argument.classify_relocate]
    cases Argument.classify vs with
    | ok order => exact S.bind S.trade fun _ _ _ => hnormal
    | error fault => exact S.fault
  | block body => exact S.inBlock (h.executeAll body hn)
  | expr value => exact S.bind (h.evaluate value hn) fun _ _ _ => hnormal

theorem Keeps.executeAll_succ (h : S.Keeps fuel) (ss : List Stmt) (hn : S.Allows (Stmt.namesAll ss)) :
    S.Rel S.MatchesFlow (StrategyScript.executeAll (fuel + 1) ss)
      (StrategyScript.executeAll (fuel + 1 + S.slack) (Stmt.relocateAll S.moves ss)) := by
  rw [Nat.add_right_comm]
  cases ss with
  | nil => exact S.pure rfl
  | cons s ss =>
    simp only [Stmt.namesAll, allows_append] at hn
    refine S.bind (h.execute s hn.1) fun f g hf => ?_
    cases f with
    | normal => rw [show g = .normal from hf]; exact h.executeAll ss hn.2
    | returned v line => rw [hf.2]; exact S.pure ⟨hf.1, rfl⟩

theorem Keeps.loop_succ (h : S.Keeps fuel) (condition increment : Option Expr) (body : Stmt)
    (hc : S.Allows (Expr.namesIn condition)) (hi : S.Allows (Expr.namesIn increment))
    (hb : S.Allows body.names) :
    S.Rel S.MatchesFlow (StrategyScript.loop (fuel + 1) condition increment body)
      (StrategyScript.loop (fuel + 1 + S.slack) (condition.map (Expr.relocate S.moves))
        (increment.map (Expr.relocate S.moves)) (body.relocate S.moves)) := by
  rw [Nat.add_right_comm]
  -- the rounds that follow have less fuel, also on the right
  have hround : S.Rel S.MatchesFlow (loopRound fuel condition increment body)
      (loopRound (fuel + S.slack) (condition.map (Expr.relocate S.moves))
        (increment.map (Expr.relocate S.moves)) (body.relocate S.moves)) := by
    refine S.bind S.tick fun _ _ _ => S.bind (h.execute body hb) fun f g hf => ?_
    cases f with
    | returned v line => rw [hf.2]; exact S.pure ⟨hf.1, rfl⟩
    | normal =>
      rw [show g = .normal from hf]
      cases increment with
      | none => exact h.loop condition none body hc hi hb
      | some i => exact S.bind (h.evaluate i hi) fun _ _ _ => h.loop condition (some i) body hc hi hb
  cases condition with
  | none => exact hround
  | some c =>
    refine S.bind (h.evaluate c hc) fun v w hv => ?_
    rw [isTruthy_eq hv]
    cases v.isTruthy with
    | false => exact S.pure rfl
    | true => exact hround

variable (S)

/-- Whatever the single steps keep, the run of every tree keeps. -/
theorem keeps (fuel : Nat) : S.Keeps fuel := by
  induction fuel with
  | zero => exact S.keeps_zero
  | succ fuel h =>
    exact ⟨h.evaluate_succ, h.evaluateAll_succ, h.callFunction_succ, h.execute_succ, h.executeAll_succ, h.loop_succ⟩

theorem keeps_program (fuel : Nat) (p : Program) (hn : S.Allows (Stmt.namesAll p)) :
    S.Rel Eq (executeProgram fuel p) (executeProgram (fuel + S.slack) (Stmt.relocateAll S.moves p)) := by
  refine S.bind ((S.keeps fuel).executeAll p hn) fun f g hf => ?_
  cases f with
  | normal => rw [show g = .normal from hf]; exact S.pure rfl
  | returned v line => rw [hf.2]; exact S.fault

end Simulation

end StrategyScript
