/-
When evaluation comes to an end. A computation is given more and more fuel; it settles if from some
amount on it ends, and ends in one way. Single steps take no fuel and end at once, so a task settles as
soon as all its parts do; and it settles wherever a measure falls from every task to the parts that
it has. Which parts these are depends on what the earlier ones have come to, so they are looked at
with enough fuel for all of them.
-/
import StrategyScript.Proofs.Run.Course

namespace StrategyScript

open Eval

/-- From some amount of fuel on, the computation comes to this outcome. -/
def ComesTo {α : Type} (m : Nat → Eval α) (s : Session) (o : Outcome α) : Prop :=
  ∃ enough, ∀ n, enough ≤ n → m n s = o

/-- The computation comes to an end. -/
def Settles {α : Type} (m : Nat → Eval α) (s : Session) : Prop := ∃ o, o.ended? ≠ none ∧ ComesTo m s o

/-- A computation that takes no fuel and ends. -/
def Prompt {α : Type} (m : Eval α) : Prop := ∀ s, (m s).ended? ≠ none

section

variable {α β : Type}

/-! ## Single steps -/

theorem prompt_pure (a : α) : Prompt (pure a : Eval α) := fun s => Option.some_ne_none s

theorem prompt_fail (e : RuntimeError) : Prompt (fail e : Eval α) := fun s => Option.some_ne_none s

theorem prompt_ofExcept (r : Except RuntimeError α) : Prompt (ofExcept r) := fun s => by
  cases r <;> exact Option.some_ne_none s

theorem prompt_tick : Prompt tick := by
  intro s
  by_cases hb : s.limits.Affords (s.steps + 1)
  · rw [tick_within hb]
    nofun
  · obtain ⟨limit, hl, hlt⟩ := Limits.not_affords hb
    rw [tick_beyond hl hlt]
    nofun

theorem prompt_lookup (x : String) (line : Nat) : Prompt (lookup x line) := by
  intro s
  rw [lookup_eq]
  split <;> exact Option.some_ne_none _

theorem prompt_assign (x : String) (v : Value) (line : Nat) : Prompt (assign x v line) := by
  intro s
  unfold assign
  split <;> exact Option.some_ne_none _

theorem prompt_define (x : String) (v : Value) : Prompt (define x v) := fun _ => Option.some_ne_none _

theorem prompt_newFunction (decl : FunctionDecl) : Prompt (newFunction decl) := fun _ => Option.some_ne_none _

theorem prompt_checkDepth (line : Nat) : Prompt (checkDepth line) := by
  intro s
  unfold checkDepth
  split <;> exact Option.some_ne_none _

theorem prompt_trade (action : TradeAction) (order : Argument.Order) : Prompt (trade action order) :=
  fun _ => Option.some_ne_none _

theorem prompt_callBuiltin (b : Builtin) (args : List Value) (line : Nat) : Prompt (callBuiltin b args line) := by
  intro s
  unfold callBuiltin
  split <;> exact Option.some_ne_none _

theorem Prompt.bind {m : Eval α} {f : α → Eval β} (h : Prompt m) (hf : ∀ a, Prompt (f a)) : Prompt (m >>= f) := by
  intro s
  have hs := h s
  cases ho : m s with
  | done a t =>
    rw [bind_done f ho]
    exact hf a t
  | failed e t =>
    rw [bind_failed f ho]
    nofun
  | unfinished t =>
    rw [ho] at hs
    exact absurd rfl hs

/-! ## Composition -/

variable {s : Session}

theorem Prompt.settles {m : Eval α} (h : Prompt m) (s : Session) : Settles (fun _ => m) s :=
  ⟨m s, h s, 0, fun _ _ => rfl⟩

theorem Settles.of_succ {m : Nat → Eval α} (h : Settles (fun n => m (n + 1)) s) : Settles m s := by
  obtain ⟨o, ho, enough, hm⟩ := h
  refine ⟨o, ho, enough + 1, fun n hn => ?_⟩
  obtain ⟨k, rfl⟩ := Nat.exists_eq_add_of_lt (Nat.lt_of_succ_le hn)
  exact hm _ (Nat.le_add_right enough k)

theorem Settles.bind {m : Nat → Eval α} {f : Nat → α → Eval β} (h : Settles m s)
    (hf : ∀ a t, ComesTo m s (.done a t) → Settles (fun n => f n a) t) : Settles (fun n => m n >>= f n) s := by
  obtain ⟨o, ho, enough, hm⟩ := h
  cases o with
  | done a t =>
    obtain ⟨o', ho', enough', hf⟩ := hf a t ⟨enough, hm⟩
    refine ⟨o', ho', max enough enough', fun n hn => ?_⟩
    exact (bind_done (f n) (hm n (le_of_max_le_left hn))).trans (hf n (le_of_max_le_right hn))
  | failed e t => exact ⟨.failed e t, nofun, enough, fun n hn => bind_failed (f n) (hm n hn)⟩
  | unfinished t => exact absurd rfl ho

/-- What follows has no parts of its own. -/
theorem Settles.then {m : Nat → Eval α} {f : α → Eval β} (h : Settles m s) (hf : ∀ a, Prompt (f a)) :
    Settles (fun n => m n >>= f) s := h.bind fun a t _ => (hf a).settles t

theorem Settles.restoring {m : Nat → Eval α} {u : Session} (h : Settles m u) (current : ScopeId) (adjust : Nat → Nat) :
    Settles (fun n _ => restoring current adjust (m n u)) s := by
  obtain ⟨o, ho, enough, hm⟩ := h
  refine ⟨Eval.restoring current adjust o, ?_, enough, fun n hn => congrArg _ (hm n hn)⟩
  cases o with
  | done a t | failed e t => nofun
  | unfinished t => exact absurd rfl ho

theorem Settles.inBlock {m : Nat → Eval α} (h : Settles m s.enterBlock) : Settles (fun n => inBlock (m n)) s :=
  h.restoring (s := s) s.current id

theorem Settles.inCall {m : Nat → Eval α} {f : Function} {args : List Value} (h : Settles m (s.enterCall f args)) :
    Settles (fun n => inCall f.closure (bindParameters f.decl.params args []) (m n)) s :=
  h.restoring (s := s) s.current (· - 1)

end

/-! ## Tasks -/

def Task.Settles (task : Task) (s : Session) : Prop :=
  match task with
  | .evaluate e => StrategyScript.Settles (fun n => StrategyScript.evaluate n e) s
  | .evaluateAll es => StrategyScript.Settles (fun n => StrategyScript.evaluateAll n es) s
  | .call f args line => StrategyScript.Settles (fun n => callFunction n f args line) s
  | .execute stmt => StrategyScript.Settles (fun n => StrategyScript.execute n stmt) s
  | .executeAll stmts => StrategyScript.Settles (fun n => StrategyScript.executeAll n stmts) s
  | .loop condition increment body =>
    StrategyScript.Settles (fun n => StrategyScript.loop n condition increment body) s

/-- With enough fuel for each, all of these parts settle. -/
def AllSettle (parts : Nat → List (Task × Session)) : Prop :=
  ∃ enough, ∀ n, enough ≤ n → ∀ p ∈ parts n, p.1.Settles p.2

section

variable {α : Type} {s t : Session} {task : Task} {parts : Nat → List (Task × Session)}

theorem AllSettle.head (h : AllSettle fun n => (task, s) :: parts n) : task.Settles s := by
  obtain ⟨enough, h⟩ := h
  exact h enough le_rfl (task, s) List.mem_cons_self

theorem AllSettle.tail (h : AllSettle fun n => (task, s) :: parts n) : AllSettle parts := by
  obtain ⟨enough, h⟩ := h
  exact ⟨enough, fun n hn p hp => h n hn p (List.mem_cons_of_mem _ hp)⟩

theorem AllSettle.next {m : Nat → Eval α} {follows : Nat → α → Session → List (Task × Session)} {a : α}
    (h : AllSettle fun n => (m n s).next (follows n)) (hm : ComesTo m s (.done a t)) :
    AllSettle fun n => follows n a t := by
  obtain ⟨enough, h⟩ := h
  obtain ⟨enough', hm⟩ := hm
  refine ⟨max enough enough', fun n hn p hp => h n (le_of_max_le_left hn) p ?_⟩
  show p ∈ (m n s).next (follows n)
  rw [hm n (le_of_max_le_right hn)]
  exact hp

/-! ### From their parts -/

theorem Expr.settles_of_parts {e : Expr} (h : AllSettle fun n => e.parts n s) :
    Settles (fun n => evaluate n e) s := by
  refine .of_succ ?_
  cases e with
  | number x p | string x p | boolean b p => exact (prompt_pure _).settles s
  | identifier x p => exact (prompt_lookup x p.line).settles s
  | assign x value p =>
    exact Settles.then h.head fun v => (prompt_assign x v p.line).bind fun _ => prompt_pure v
  | binary op left right p =>
    refine Settles.bind h.head fun l t hl => ?_
    have hright := h.tail.next hl
    have htruth : Settles (fun n => evaluate n right) t →
        Settles (fun n => do return Value.boolean (← evaluate n right).isTruthy) t :=
      fun hr => hr.then fun _ => prompt_pure _
    cases op
    case and =>
      cases hb : l.isTruthy with
      | true =>
        simp only [BinaryOp.needsRight, hb, if_true] at hright ⊢
        exact htruth hright.head
      | false => exact (prompt_pure _).settles t
    case or =>
      cases hb : l.isTruthy with
      | true => exact (prompt_pure _).settles t
      | false =>
        simp only [BinaryOp.needsRight, hb, Bool.not_false, if_true] at hright ⊢
        exact htruth hright.head
    all_goals exact Settles.then hright.head fun r => prompt_ofExcept _
  | unary op operand p => exact Settles.then h.head fun v => prompt_ofExcept _
  | call callee args p =>
    refine Settles.bind ((prompt_lookup callee p.line).settles s) fun f t hf => ?_
    have hargs := h.next hf
    refine Settles.bind hargs.head fun vs u hvs => ?_
    cases f with
    | function f => exact (hargs.tail.next hvs).head
    | builtin b => exact (prompt_callBuiltin b vs p.line).settles u
    | null | boolean _ | number _ | string _ | record _ | list _ => exact (prompt_fail _).settles u
  | index target i p =>
    refine Settles.bind h.head fun v t hv => ?_
    exact Settles.then (h.tail.next hv).head fun w => prompt_ofExcept _

theorem Stmt.settles_of_parts {stmt : Stmt} (h : AllSettle fun n => Task.parts n (.execute stmt) s) :
    Settles (fun n => execute n stmt) s := by
  refine .of_succ (Settles.bind (prompt_tick.settles s) fun _ t ht => ?_)
  have h : AllSettle fun n => stmt.parts n t := h.next ht
  cases stmt with
  | function name params body =>
    have hprompt : Prompt (do
        let f ← newFunction ⟨name, params, body⟩
        define name (.function f)
        return Flow.normal) :=
      (prompt_newFunction _).bind fun f => (prompt_define name _).bind fun _ => prompt_pure _
    exact hprompt.settles t
  | var name value =>
    have hdefine : ∀ v, Prompt (do define name v; return Flow.normal) := fun v =>
      (prompt_define name v).bind fun _ => prompt_pure _
    cases value with
    | none => exact (hdefine .null).settles t
    | some e => exact Settles.then h.head hdefine
  | branch c thenBranch elseBranch =>
    refine Settles.bind h.head fun v u hv => ?_
    have hbranch := h.tail.next hv
    cases hb : v.isTruthy with
    | true =>
      simp only [hb, if_true] at hbranch ⊢
      exact hbranch.head
    | false =>
      cases elseBranch with
      | none => exact (prompt_pure _).settles u
      | some e =>
        simp only [hb] at hbranch
        exact hbranch.head
  | whileLoop c body => exact h.head
  | forLoop start c increment body =>
    cases start with
    | none => exact Settles.inBlock h.head
    | some start => exact Settles.inBlock (Settles.bind h.head fun _ u hu => (h.tail.next hu).head)
  | ret value line =>
    cases value with
    | none => exact (prompt_pure _).settles t
    | some e => exact Settles.then h.head fun v => prompt_pure _
  | trade action args line =>
    refine Settles.then h.head fun vs => ?_
    cases Argument.classify vs with
    | ok order => exact (prompt_trade action order).bind fun _ => prompt_pure _
    | error fault => exact prompt_fail _
  | block body => exact Settles.inBlock h.head
  | expr value => exact Settles.then h.head fun _ => prompt_pure _

theorem settles_round {condition increment : Option Expr} {body : Stmt}
    (h : AllSettle fun n => Stmt.roundParts n condition increment body s) :
    Settles (fun n => loopRound n condition increment body) s := by
  refine Settles.bind (prompt_tick.settles s) fun _ t ht => ?_
  have h := h.next ht
  refine Settles.bind h.head fun flow u hu => ?_
  have h := h.tail.next hu
  cases flow with
  | returned v line => exact (prompt_pure _).settles u
  | normal =>
    cases increment with
    | none => exact h.head
    | some i => exact Settles.bind h.head fun _ w hw => (h.tail.next hw).head

/-- A task comes to an end if its parts do. -/
theorem Task.settles_of_parts (h : AllSettle fun n => task.parts n s) : task.Settles s := by
  cases task with
  | evaluate e => exact e.settles_of_parts h
  | evaluateAll es =>
    refine Settles.of_succ ?_
    cases es with
    | nil => exact (prompt_pure _).settles s
    | cons e es =>
      refine Settles.bind h.head fun v t hv => ?_
      exact Settles.then (h.tail.next hv).head fun vs => prompt_pure _
  | call f args line =>
    refine Settles.of_succ (Settles.bind ((prompt_checkDepth line).settles s) fun _ t ht => ?_)
    exact Settles.then (.inCall (h.next ht).head) fun flow => prompt_pure _
  | execute stmt => exact stmt.settles_of_parts h
  | executeAll stmts =>
    refine Settles.of_succ ?_
    cases stmts with
    | nil => exact (prompt_pure _).settles s
    | cons stmt stmts =>
      refine Settles.bind h.head fun flow t hflow => ?_
      cases flow with
      | normal => exact (h.tail.next hflow).head
      | returned v line => exact (prompt_pure _).settles t
  | loop condition increment body =>
    refine Settles.of_succ ?_
    cases condition with
    | none => exact settles_round h
    | some c =>
      refine Settles.bind h.head fun v t hv => ?_
      have h := h.tail.next hv
      cases hb : v.isTruthy with
      | true =>
        simp only [hb, if_true] at h ⊢
        exact settles_round h
      | false => exact (prompt_pure _).settles t

/-! ## Measures -/

/-- Tasks come to an end where a measure falls from each of them to its parts. -/
theorem Task.settles_of_measure {α : Type} {r : α → α → Prop} (wf : WellFounded r) (measure : Task → Session → α)
    {P : Task → Session → Prop}
    (hfalls : ∀ {n task s}, P task s → ∀ p ∈ Task.parts n task s, P p.1 p.2 ∧ r (measure p.1 p.2) (measure task s))
    (h : P task s) : task.Settles s := by
  generalize ha : measure task s = a
  induction a using wf.induction generalizing task s with
  | _ a ih =>
    subst ha
    refine settles_of_parts ⟨0, fun n _ p hp => ?_⟩
    obtain ⟨hpart, hless⟩ := hfalls h p hp
    exact ih _ hless hpart rfl

end

/-- A run ends if its statements do. -/
theorem Session.ends_of_settles {s : Session} {p : Program} {market : Market}
    (h : (Task.executeAll p).Settles (s.prepare market)) : ∃ e t, s.Ends p market e t := by
  obtain ⟨o, ho, enough, hrun⟩ := h
  have hrun : executeAll enough p (s.prepare market) = o := hrun enough le_rfl
  have hends : (s.run enough p market).1 ≠ .unfinished := by
    unfold run executeProgram
    cases o with
    | done flow t =>
      rw [bind_done _ hrun]
      cases flow <;> nofun
    | failed e t =>
      rw [bind_failed _ hrun]
      nofun
    | unfinished t => exact absurd rfl ho
  exact ⟨_, _, hends, enough, rfl⟩

end StrategyScript
