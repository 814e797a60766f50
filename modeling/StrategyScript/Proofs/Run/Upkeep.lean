/-
Every task keeps up every discipline: first the single steps, then the tasks by the parts that they
have, all six kinds together, by induction on the fuel.
-/
import StrategyScript.Proofs.Run.Discipline

namespace StrategyScript

open Eval Value

/-! ## What operations refuse -/

section

variable {line line' : Nat} {x : String}

/-- The operands have values, so no name is missing. -/
theorem BinaryOp.apply_defined {op : BinaryOp} {left right : Value} :
    op.apply left right line ≠ .error (.fault (.undefinedVariable x) line') := by
  intro h
  unfold apply at h
  split at h
  · cases h
  · cases ho : op.operate left right with
    | ok v => rw [ho] at h; cases h
    | error f => rw [ho] at h; cases h

theorem UnaryOp.apply_defined {op : UnaryOp} {operand : Value} :
    op.apply operand line ≠ .error (.fault (.undefinedVariable x) line') := by
  intro h
  cases op <;> cases operand <;> cases h

theorem Value.at_defined {target index : Value} :
    target.at index line ≠ .error (.fault (.undefinedVariable x) line') := by
  intro h
  unfold Value.at at h
  split at h
  · split at h <;> cases h
  · split at h <;> cases h
  all_goals cases h

end

namespace Discipline

section

variable {X : Discipline} {α β : Type} {n : Nat} {names : List String} {P : Session → α → Prop} {s t : Session}

/-! ## Single steps -/

theorem shows_tick (hs : X.Sound s) : X.Shows n names (fun _ _ => True) s [] (tick s) := by
  have hcounted : X.Sound s.counted := sound_of_grows s.returns_counted.toGrows (X.counted hs.good) hs.holds
  have hreturns : s.Returns names s.counted := s.returns_counted.mono (List.nil_subset _)
  by_cases hb : s.limits.Affords (s.steps + 1)
  · rw [tick_within hb]
    exact shows_done hcounted hreturns trivial
  · obtain ⟨limit, hl, hlt⟩ := Limits.not_affords hb
    rw [tick_beyond hl hlt]
    exact shows_failed hcounted hreturns nofun

theorem shows_lookup (hs : X.Sound s) (x : String) (line : Nat) :
    X.Shows n names X.FitsValue s [] (lookup x line s) := by
  rw [lookup_eq]
  cases h : s.scopes.lookup s.current x with
  | some v => exact shows_done hs (.refl _ s) (hs.holds.lookup h)
  | none =>
    refine shows_failed hs (.refl _ s) fun y line' he => ?_
    cases he
    exact Forest.resolve_of_lookup h

theorem shows_fail (hs : X.Sound s) {e : RuntimeError} (he : ∀ x line, e ≠ .fault (.undefinedVariable x) line) :
    X.Shows n names P s [] (fail e s) :=
  shows_failed hs (.refl _ s) fun x line h => absurd h (he x line)

theorem shows_ofExcept (hs : X.Sound s) {r : Except RuntimeError Value} (hv : ∀ v, r = .ok v → v.Fits (X.Fits s))
    (he : ∀ x line, r ≠ .error (.fault (.undefinedVariable x) line)) :
    X.Shows n names X.FitsValue s [] (ofExcept r s) := by
  cases r with
  | ok v => exact shows_done hs (.refl _ s) (hv v rfl)
  | error e => exact shows_fail hs fun x line h => he x line (h ▸ rfl)

theorem shows_assign {m : Nat} {x : String} {e : Expr} {p : Position} {s₀ : Session} {v : Value}
    (hm : X.Admits ⟨m, .evaluate (.assign x e p), s₀⟩) (hs : X.Sound s) (hv : X.FitsValue s v) :
    X.Shows n names (fun _ _ => True) s [] (assign x v p.line s) := by
  unfold assign
  cases h : s.scopes.resolve s.current x with
  | some owner =>
    have hgood : X.Good (s.binding owner x v) := X.assigned hm hs.good h hv
    exact shows_done (sound_of_grows (s.grows_binding owner x v) hgood (hs.holds.define hv))
      ((Session.returns_assign h v).mono (List.nil_subset _)) trivial
  | none =>
    refine shows_failed hs (.refl _ s) fun y line he => ?_
    cases he
    exact h

theorem shows_define {m : Nat} {stmt : Stmt} {s₀ : Session} {x : String} {v : Value}
    (hm : X.Admits ⟨m, .execute stmt, s₀⟩) (hs : X.Sound s) (hx : x ∈ stmt.declaredHere) (hv : X.FitsValue s v) :
    X.Shows n stmt.declaredHere (fun _ _ => True) s [] (define x v s) := by
  have hgood : X.Good (s.binding s.current x v) := X.defined hm hs.good hx hv
  exact shows_done (sound_of_grows (s.grows_binding s.current x v) hgood (hs.holds.define hv))
    ((s.returns_define x v).mono (List.cons_subset.2 ⟨hx, List.nil_subset _⟩)) trivial

theorem shows_newFunction {m : Nat} {decl : FunctionDecl} {s₀ : Session}
    (hm : X.Admits ⟨m, .execute (.function decl.name decl.params decl.body), s₀⟩) (hs : X.Sound s) :
    X.Shows n names X.Fits s [] (newFunction decl s) :=
  shows_done (sound_of_grows s.returns_numbered.toGrows (X.numbered hs.good) hs.holds)
    (s.returns_numbered.mono (List.nil_subset _)) (X.fits_grows s.returns_numbered.toGrows (X.fits_new hm hs.good))

/-- The check of the depth changes nothing. -/
theorem shows_checkDepth (hs : X.Sound s) (line : Nat) :
    X.Shows n names (fun t _ => t = s ∧ s.depth < s.limits.maxCallDepth) s [] (checkDepth line s) := by
  unfold checkDepth
  split
  · exact shows_failed hs (.refl _ s) nofun
  · rename_i h
    exact shows_done hs (.refl _ s) ⟨rfl, Nat.lt_of_not_le h⟩

theorem sound_traded (hs : X.Sound s) (action : TradeAction) (order : Argument.Order) :
    X.Sound (s.logged (s.trades.trade s.market action order)) :=
  sound_of_grows (Session.returns_logged ⟨_, (TradeLog.records_emit ..).symm⟩).toGrows (X.traded hs.good) hs.holds

theorem shows_trade (hs : X.Sound s) (action : TradeAction) (order : Argument.Order) :
    X.Shows n names (fun _ _ => True) s [] (trade action order s) :=
  shows_done (sound_traded hs action order)
    ((Session.returns_logged ⟨_, (TradeLog.records_emit ..).symm⟩).mono (List.nil_subset _)) trivial

/-- A built-in leaves the log alone or adds a trade. -/
theorem shows_callBuiltin (hs : X.Sound s) (b : Builtin) (args : List Value) (line : Nat) :
    X.Shows n names X.FitsValue s [] (callBuiltin b args line s) := by
  unfold callBuiltin
  cases h : b.apply s.market s.trades args with
  | error fault => exact shows_failed hs (.refl _ s) nofun
  | ok r =>
    obtain ⟨v, log⟩ := r
    refine shows_done ?_ ((Session.returns_logged (Builtin.records_apply h)).mono (List.nil_subset _))
      (fits_data (Builtin.apply_data h))
    rcases b.touches s.market args with ⟨r, -, hb⟩ | ⟨-, hb⟩ | ⟨action, order, hb⟩
    · rw [hb] at h
      cases r <;> cases h
      exact hs
    · rw [hb] at h
      cases h
      exact hs
    · rw [hb] at h
      cases h
      exact sound_traded hs action order

/-! ## Tasks -/

variable (X) in
/-- What a discipline says of all tasks with so much fuel. -/
structure Keeps (n : Nat) : Prop where
  evaluate : ∀ e s, X.Right ⟨n, .evaluate e, s⟩ →
    X.Scene n [] X.FitsValue s [(.evaluate e, s)] (evaluate n e s)
  evaluateAll : ∀ es s, X.Right ⟨n, .evaluateAll es, s⟩ →
    X.Scene n [] X.FitsAll s [(.evaluateAll es, s)] (evaluateAll n es s)
  call : ∀ f args line s, X.Right ⟨n, .call f args line, s⟩ →
    X.Scene n [] X.FitsValue s [(.call f args line, s)] (callFunction n f args line s)
  execute : ∀ stmt s, X.Right ⟨n, .execute stmt, s⟩ →
    X.Scene n stmt.declaredHere X.FitsFlow s [(.execute stmt, s)] (execute n stmt s)
  executeAll : ∀ stmts s, X.Right ⟨n, .executeAll stmts, s⟩ →
    X.Scene n (stmts.flatMap Stmt.declaredHere) X.FitsFlow s [(.executeAll stmts, s)] (executeAll n stmts s)
  loop : ∀ condition increment body s, X.Right ⟨n, .loop condition increment body, s⟩ →
    X.Scene n body.declaredHere X.FitsFlow s [(.loop condition increment body, s)]
      (loop n condition increment body s)

/-! ### As parts -/

theorem Shows.part {task : Task} {names' : List String} {o : Outcome α} (hsub : names ⊆ names') (hs : X.Sound s)
    (hsuits : task.Suits (X.Fits s)) (h : X.Right ⟨n, task, s⟩ → X.Scene n names P s [(task, s)] o) :
    X.Shows n names' P s [(task, s)] o := by
  have hpart : X.Shows n names P s [(task, s)] o := fun ha =>
    h ⟨ha _ (List.mem_singleton_self _) hs.good hsuits, hs, hsuits⟩
  exact hpart.mono hsub

section

variable (h : X.Keeps n) (hs : X.Sound s)
include h hs

theorem Keeps.evaluates (e : Expr) : X.Shows n names X.FitsValue s [(.evaluate e, s)] (StrategyScript.evaluate n e s) :=
  .part (List.nil_subset _) hs trivial (h.evaluate e s)

theorem Keeps.evaluatesAll (es : List Expr) :
    X.Shows n names X.FitsAll s [(.evaluateAll es, s)] (StrategyScript.evaluateAll n es s) :=
  .part (List.nil_subset _) hs trivial (h.evaluateAll es s)

theorem Keeps.calls {f : Function} {args : List Value} (hf : X.Fits s f) (hargs : X.FitsAll s args) (line : Nat) :
    X.Shows n names X.FitsValue s [(.call f args line, s)] (callFunction n f args line s) :=
  .part (List.nil_subset _) hs ⟨hf, hargs⟩ (h.call f args line s)

theorem Keeps.executes {stmt : Stmt} (hsub : stmt.declaredHere ⊆ names) :
    X.Shows n names X.FitsFlow s [(.execute stmt, s)] (StrategyScript.execute n stmt s) :=
  .part hsub hs trivial (h.execute stmt s)

theorem Keeps.executesAll {stmts : List Stmt} (hsub : stmts.flatMap Stmt.declaredHere ⊆ names) :
    X.Shows n names X.FitsFlow s [(.executeAll stmts, s)] (StrategyScript.executeAll n stmts s) :=
  .part hsub hs trivial (h.executeAll stmts s)

theorem Keeps.loops {body : Stmt} (hsub : body.declaredHere ⊆ names) (condition increment : Option Expr) :
    X.Shows n names X.FitsFlow s [(.loop condition increment body, s)]
      (StrategyScript.loop n condition increment body s) :=
  .part hsub hs trivial (h.loop condition increment body s)

end

/-! ### From their parts -/

theorem FitsValue.grows {v : Value} (hv : X.FitsValue s v) (hg : s.Grows t) : X.FitsValue t v :=
  hv.mono fun _ => X.fits_grows hg

theorem shows_value (hs : X.Sound s) {v : Value}
    (h : v.kind = .null ∨ v.kind = .boolean ∨ v.kind = .number ∨ v.kind = .string) :
    X.Shows n names X.FitsValue s [] (.done v s) := shows_done hs (.refl _ s) (fits_plain h)

theorem shows_binary (hs : X.Sound s) (op : BinaryOp) (l r : Value) (line : Nat) :
    X.Shows n names X.FitsValue s [] (ofExcept (op.apply l r line) s) := by
  refine shows_ofExcept hs (fun v hv => fits_plain ?_) fun x line' => BinaryOp.apply_defined
  rcases BinaryOp.apply_ok hv with hk | hk | hk <;> simp [hk]

theorem Keeps.evaluate_succ (h : X.Keeps n) {e : Expr} (hr : X.Right ⟨n + 1, .evaluate e, s⟩) :
    X.Shows n [] X.FitsValue s (e.parts n s) (StrategyScript.evaluate (n + 1) e s) := by
  have hs := hr.sound
  cases e with
  | number x p | string x p | boolean b p => exact shows_value hs (by simp [Value.kind])
  | identifier x p => exact shows_lookup hs x p.line
  | assign x value p =>
    refine (h.evaluates hs value).then fun v t ht _ hv => ?_
    exact (shows_assign hr.admits ht hv).then fun _ u hu hret _ => shows_done hu (.refl _ u) (hv.grows hret.toGrows)
  | binary op left right p =>
    refine (h.evaluates hs left).bind fun l t ht _ hl => ?_
    have htruth : X.Shows n [] X.FitsValue t [(.evaluate right, t)]
        ((do return .boolean (← StrategyScript.evaluate n right).isTruthy : Eval Value) t) :=
      (h.evaluates ht right).then fun r u hu _ _ => shows_value hu (.inr (.inl rfl))
    have hop : ∀ op : BinaryOp, X.Shows n [] X.FitsValue t [(.evaluate right, t)]
        ((do Eval.ofExcept (op.apply l (← StrategyScript.evaluate n right) p.line) : Eval Value) t) :=
      fun op => (h.evaluates ht right).then fun r u hu _ _ => shows_binary hu op l r p.line
    cases op
    case and =>
      cases hb : l.isTruthy with
      | true => simp only [BinaryOp.needsRight, hb]; exact htruth
      | false => simp only [BinaryOp.needsRight, hb]; exact shows_value ht (.inr (.inl rfl))
    case or =>
      cases hb : l.isTruthy with
      | true => simp only [BinaryOp.needsRight, hb]; exact shows_value ht (.inr (.inl rfl))
      | false => simp only [BinaryOp.needsRight, hb]; exact htruth
    all_goals exact hop _
  | unary op operand p =>
    refine (h.evaluates hs operand).then fun v t ht _ _ => ?_
    refine shows_ofExcept ht (fun w hw => fits_plain ?_) fun x line' => UnaryOp.apply_defined
    rcases UnaryOp.apply_ok hw with hk | hk <;> simp [hk]
  | call callee args p =>
    refine (shows_lookup hs callee p.line).bind fun f t ht _ hf => ?_
    refine (h.evaluatesAll ht args).bind fun vs u hu hret hvs => ?_
    cases f with
    | function f => exact h.calls hu ((hf.grows hret.toGrows).function f rfl) hvs p.line
    | builtin b => exact shows_callBuiltin hu b vs p.line
    | null | boolean _ | number _ | string _ | record _ | list _ => exact shows_fail hu nofun
  | index target i p =>
    refine (h.evaluates hs target).bind fun v t ht _ hv => ?_
    refine (h.evaluates ht i).then fun w u hu _ _ => ?_
    exact shows_ofExcept hu (fun x hx => hv.at hx) fun x line' => Value.at_defined

/-! ### New scopes -/

theorem sound_enterBlock (hs : X.Sound s) : X.Sound s.enterBlock :=
  sound_of_grows (s.grows_enter s.current [] s.depth) (X.entered hs.good)
    (hs.holds.addChild (fun _ _ h => by cases h) s.current)

theorem sound_enterCall (hs : X.Sound s) {f : Function} {args : List Value} (hf : X.Fits s f)
    (hargs : X.FitsAll s args) (hd : s.depth < s.limits.maxCallDepth) : X.Sound (s.enterCall f args) :=
  sound_of_grows (s.grows_enter ..) (X.called hs.good hf hd)
    (hs.holds.addChild (fun _ _ => Forest.fits_bindParameters hargs) f.closure)

theorem FitsFlow.grows {flow : Flow} (hg : s.Grows t) (hf : X.FitsFlow s flow) : X.FitsFlow t flow := by
  cases flow with
  | normal => trivial
  | returned v line => exact FitsValue.grows hf hg

theorem Shows.inBlock (inner : List String) {m : Eval Flow} {parts : List (Task × Session)} (hs : X.Sound s)
    (h : X.Shows n inner X.FitsFlow s.enterBlock parts (m s.enterBlock)) :
    X.Shows n names X.FitsFlow s parts (Eval.inBlock m s) :=
  (h.within id hs rfl FitsFlow.grows).mono (List.nil_subset _)

theorem Shows.inCall (inner : List String) {m : Eval Flow} {parts : List (Task × Session)} {f : Function}
    {args : List Value} (hs : X.Sound s)
    (h : X.Shows n inner X.FitsFlow (s.enterCall f args) parts (m (s.enterCall f args))) :
    X.Shows n [] X.FitsFlow s parts (Eval.inCall f.closure (bindParameters f.decl.params args []) m s) :=
  h.within (· - 1) hs rfl FitsFlow.grows

/-! ### The other tasks -/

theorem Keeps.evaluateAll_succ (h : X.Keeps n) {es : List Expr} (hr : X.Right ⟨n + 1, .evaluateAll es, s⟩) :
    X.Shows n [] X.FitsAll s (Task.parts n (.evaluateAll es) s) (StrategyScript.evaluateAll (n + 1) es s) := by
  cases es with
  | nil => exact shows_done hr.sound (.refl _ s) nofun
  | cons e es =>
    refine (h.evaluates hr.sound e).bind fun v t ht _ hv => ?_
    refine (h.evaluatesAll ht es).then fun vs u hu hret hvs => shows_done hu (.refl _ u) ?_
    exact List.forall_mem_cons.2 ⟨hv.grows hret.toGrows, hvs⟩

theorem Keeps.call_succ (h : X.Keeps n) {f : Function} {args : List Value} {line : Nat}
    (hr : X.Right ⟨n + 1, .call f args line, s⟩) :
    X.Shows n [] X.FitsValue s (Task.parts n (.call f args line) s) (callFunction (n + 1) f args line s) := by
  refine (shows_checkDepth hr.sound line).bind fun _ t ht _ hd => ?_
  obtain ⟨rfl, hd⟩ := hd
  have hinner : X.Sound (t.enterCall f args) := sound_enterCall ht hr.suits.1 hr.suits.2 hd
  refine (Shows.inCall _ ht (h.executesAll hinner (List.Subset.refl _))).then fun flow u hu _ hflow => ?_
  cases flow with
  | normal => exact shows_value hu (.inl rfl)
  | returned v line => exact shows_done hu (.refl _ u) hflow

theorem Keeps.execute_succ (h : X.Keeps n) {stmt : Stmt} (hr : X.Right ⟨n + 1, .execute stmt, s⟩) :
    X.Shows n stmt.declaredHere X.FitsFlow s (Task.parts n (.execute stmt) s)
      (StrategyScript.execute (n + 1) stmt s) := by
  refine (shows_tick hr.sound).bind fun _ t ht _ _ => ?_
  have hnormal : ∀ {names : List String} {u : Session}, X.Sound u →
      X.Shows n names X.FitsFlow u [] (.done .normal u) := fun hu => shows_done hu (.refl _ _) trivial
  cases stmt with
  | function name params body =>
    refine (shows_newFunction hr.admits ht).then fun f u hu _ hf => ?_
    exact (shows_define hr.admits hu (List.mem_singleton_self _) (fits_function hf)).then fun _ v hv _ _ => hnormal hv
  | var name value =>
    have hdefine : ∀ {u : Session} {v : Value}, X.Sound u → X.FitsValue u v → X.Shows n [name] X.FitsFlow u []
        ((do define name v; return .normal : Eval Flow) u) := fun hu hv =>
      (shows_define hr.admits hu (List.mem_singleton_self _) hv).then fun _ w hw _ _ => hnormal hw
    cases value with
    | none => exact hdefine ht (fits_plain (.inl rfl))
    | some e => exact (h.evaluates ht e).then fun v u hu _ hv => hdefine hu hv
  | branch c thenBranch elseBranch =>
    refine (h.evaluates ht c).bind fun v u hu _ _ => ?_
    cases v.isTruthy with
    | true =>
      refine h.executes hu ?_
      cases elseBranch with
      | none => exact List.Subset.refl _
      | some e => exact List.subset_append_left _ _
    | false =>
      cases elseBranch with
      | none => exact hnormal hu
      | some e => exact h.executes hu (List.subset_append_right _ _)
  | whileLoop c body => exact h.loops ht (List.Subset.refl _) (some c) none
  | forLoop start c increment body =>
    cases start with
    | none => exact Shows.inBlock _ ht (h.loops (sound_enterBlock ht) (List.Subset.refl _) c increment)
    | some start =>
      refine Shows.inBlock (start.toStmt.declaredHere ++ body.declaredHere) ht ?_
      refine (h.executes (sound_enterBlock ht) (List.subset_append_left _ _)).bind fun _ u hu _ _ => ?_
      exact h.loops hu (List.subset_append_right _ _) c increment
  | ret value line =>
    cases value with
    | none => exact shows_done ht (.refl _ t) (fits_plain (.inl rfl))
    | some e => exact (h.evaluates ht e).then fun v u hu _ hv => shows_done hu (.refl _ u) hv
  | trade action args line =>
    refine (h.evaluatesAll ht args).then fun vs u hu _ _ => ?_
    cases hc : Argument.classify vs with
    | ok order => exact (shows_trade hu action order).then fun _ v hv _ _ => hnormal hv
    | error fault => exact shows_fail hu nofun
  | block body => exact Shows.inBlock _ ht (h.executesAll (sound_enterBlock ht) (List.Subset.refl _))
  | expr value => exact (h.evaluates ht value).then fun _ u hu _ _ => hnormal hu

theorem Keeps.executeAll_succ (h : X.Keeps n) {stmts : List Stmt} (hr : X.Right ⟨n + 1, .executeAll stmts, s⟩) :
    X.Shows n (stmts.flatMap Stmt.declaredHere) X.FitsFlow s (Task.parts n (.executeAll stmts) s)
      (StrategyScript.executeAll (n + 1) stmts s) := by
  cases stmts with
  | nil => exact shows_done hr.sound (.refl _ s) trivial
  | cons stmt stmts =>
    refine (h.executes hr.sound (List.subset_append_left _ _)).bind fun flow t ht _ hflow => ?_
    cases flow with
    | normal => exact h.executesAll ht (List.subset_append_right _ _)
    | returned v line => exact shows_done ht (.refl _ t) hflow

theorem Keeps.round (h : X.Keeps n) (hs : X.Sound s) (condition increment : Option Expr) (body : Stmt) :
    X.Shows n body.declaredHere X.FitsFlow s (Stmt.roundParts n condition increment body s)
      (loopRound n condition increment body s) := by
  refine (shows_tick hs).bind fun _ t ht _ _ => ?_
  refine (h.executes ht (List.Subset.refl _)).bind fun flow u hu _ hflow => ?_
  cases flow with
  | returned v line => exact shows_done hu (.refl _ u) hflow
  | normal =>
    cases increment with
    | none => exact h.loops hu (List.Subset.refl _) condition none
    | some i =>
      exact (h.evaluates hu i).bind fun _ v hv _ _ => h.loops hv (List.Subset.refl _) condition (some i)

theorem Keeps.loop_succ (h : X.Keeps n) {condition increment : Option Expr} {body : Stmt}
    (hr : X.Right ⟨n + 1, .loop condition increment body, s⟩) :
    X.Shows n body.declaredHere X.FitsFlow s (Task.parts n (.loop condition increment body) s)
      (StrategyScript.loop (n + 1) condition increment body s) := by
  cases condition with
  | none => exact h.round hr.sound none increment body
  | some c =>
    refine (h.evaluates hr.sound c).bind fun v t ht _ _ => ?_
    cases v.isTruthy with
    | true => exact h.round ht (some c) increment body
    | false => exact shows_done ht (.refl _ t) trivial

/-! ## All tasks -/

variable (X)

theorem keeps_zero : X.Keeps 0 where
  evaluate _ _ hr := scene_zero hr
  evaluateAll _ _ hr := scene_zero hr
  call _ _ _ _ hr := scene_zero hr
  execute _ _ hr := scene_zero hr
  executeAll _ _ hr := scene_zero hr
  loop _ _ _ _ hr := scene_zero hr

/-- Whatever the single steps keep up, every task does. -/
theorem keeps (n : Nat) : X.Keeps n := by
  induction n with
  | zero => exact X.keeps_zero
  | succ n h =>
    -- the parts of what is right are admitted, so what the parts show is so
    exact
      { evaluate := fun e s hr => (h.evaluate_succ hr fun _ => X.admits_part hr.admits).whole hr rfl
        evaluateAll := fun es s hr => (h.evaluateAll_succ hr fun _ => X.admits_part hr.admits).whole hr rfl
        call := fun f args line s hr => (h.call_succ hr fun _ => X.admits_part hr.admits).whole hr rfl
        execute := fun stmt s hr => (h.execute_succ hr fun _ => X.admits_part hr.admits).whole hr rfl
        executeAll := fun stmts s hr => (h.executeAll_succ hr fun _ => X.admits_part hr.admits).whole hr rfl
        loop := fun c i body s hr => (h.loop_succ hr fun _ => X.admits_part hr.admits).whole hr rfl }

variable {X} {m : Moment}

/-- What a scene says of a task it says whatever kind of task it is. -/
theorem Right.scene (hr : X.Right m) {C : Prop}
    (h : ∀ {α : Type} {P : Session → α → Prop} {o : Outcome α}, m.ended? = o.ended? →
      X.Scene m.fuel m.task.declaredHere P m.session [(m.task, m.session)] o → C) : C := by
  obtain ⟨n, task, s⟩ := m
  cases task with
  | evaluate e => exact h rfl ((X.keeps n).evaluate e s hr)
  | evaluateAll es => exact h rfl ((X.keeps n).evaluateAll es s hr)
  | call f args line => exact h rfl ((X.keeps n).call f args line s hr)
  | execute stmt => exact h rfl ((X.keeps n).execute stmt s hr)
  | executeAll stmts => exact h rfl ((X.keeps n).executeAll stmts s hr)
  | loop c i body => exact h rfl ((X.keeps n).loop c i body s hr)

theorem Right.part {task : Task} (hr : X.Right ⟨n + 1, task, s⟩) : ∀ p ∈ task.parts n s, X.Right ⟨n, p.1, p.2⟩ := by
  cases task with
  | evaluate e => exact ((X.keeps n).evaluate_succ hr fun _ => X.admits_part hr.admits).right
  | evaluateAll es => exact ((X.keeps n).evaluateAll_succ hr fun _ => X.admits_part hr.admits).right
  | call f args line => exact ((X.keeps n).call_succ hr fun _ => X.admits_part hr.admits).right
  | execute stmt => exact ((X.keeps n).execute_succ hr fun _ => X.admits_part hr.admits).right
  | executeAll stmts => exact ((X.keeps n).executeAll_succ hr fun _ => X.admits_part hr.admits).right
  | loop c i body => exact ((X.keeps n).loop_succ hr fun _ => X.admits_part hr.admits).right

/-- The discipline holds at all moments of a task that begins at one. -/
theorem Right.moments {task : Task} (hr : X.Right ⟨n, task, s⟩) : ∀ m ∈ task.moments n s, X.Right m := by
  induction n generalizing task s with
  | zero =>
    intro m hm
    rw [List.mem_singleton.1 hm]
    exact hr
  | succ n ih =>
    intro m hm
    rcases List.mem_cons.1 hm with rfl | hm
    · exact hr
    · obtain ⟨p, hp, hm⟩ := List.mem_flatMap.1 hm
      exact ih (hr.part p hp) m hm

theorem Right.trace (hr : X.Right m) : ∀ u ∈ m.trace, X.Sound u := by
  refine hr.scene fun _ h u hu => h.met u ?_
  rw [Task.traces_singleton]
  exact hu

theorem Right.ordered (hr : X.Right m) : m.trace.Pairwise Session.Grows := by
  refine hr.scene fun _ h => ?_
  have hordered := (List.pairwise_cons.1 h.ordered).2
  rwa [Task.traces_singleton] at hordered

theorem Right.grows (hr : X.Right m) : ∀ u ∈ m.trace, m.session.Grows u := by
  refine hr.scene fun _ h u hu => (List.pairwise_cons.1 h.ordered).1 u ?_
  rw [Task.traces_singleton]
  exact hu

theorem Right.before (hr : X.Right m) {t : Session} (ht : m.ended? = some t) : ∀ u ∈ m.trace, u.Grows t := by
  refine hr.scene fun ho h u hu => h.before t (ho ▸ ht) u ?_
  rw [Task.traces_singleton]
  exact hu

theorem Right.ended (hr : X.Right m) {t : Session} (ht : m.ended? = some t) :
    X.Sound t ∧ m.session.Returns m.task.declaredHere t := by
  refine hr.scene fun ho h => ?_
  rw [ho] at ht
  exact ⟨h.sound t ht, h.returns t ht⟩

end

end Discipline

end StrategyScript
