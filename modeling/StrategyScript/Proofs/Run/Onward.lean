/-
Where the parts of a task begin. Between the beginning of a task and that of a part, computations have
ended; none of them changes the limits or the depth of calls, or takes back a step that was counted. The
parts themselves are spelled out in the task, and smaller than it, with two exceptions. A call that an
expression makes is not in its text, and goes one level deeper. A loop goes on with itself, one step later.
-/
import StrategyScript.Proofs.Run.Termination
import StrategyScript.Proofs.Run.Invariant
import StrategyScript.Proofs.Run.Growth

namespace StrategyScript

open Eval

/-! ## What is counted -/

/-- The second session comes later, with the same limits and at the same depth. -/
structure Session.Onward (s t : Session) : Prop where
  limits : t.limits = s.limits
  steps : s.steps ≤ t.steps
  depth : t.depth = s.depth

/-- What any computation that begins in `s` does to the limits and to what is held against them. Its
results satisfy `P`. -/
structure Steady {α : Type} (P : α → Prop) (s : Session) (o : Outcome α) : Prop where
  gives : o.Gives P
  limits : o.session.limits = s.limits
  steps : s.steps ≤ o.session.steps
  depth : ∀ a t, o = .done a t → t.depth = s.depth
  /-- No step is counted after the one that exceeds the budget. -/
  budget : ∀ limit, s.limits.maxSteps = some limit → s.steps ≤ limit → o.session.steps ≤ limit + 1 ∧
    ∀ a t, o = .done a t → t.steps ≤ limit

section

variable {α β : Type} {P : α → Prop} {Q : β → Prop} {s t u : Session}

theorem Session.Onward.refl (s : Session) : s.Onward s := ⟨rfl, le_rfl, rfl⟩

theorem Session.Onward.trans (h : s.Onward t) (h' : t.Onward u) : s.Onward u :=
  ⟨h'.limits.trans h.limits, h.steps.trans h'.steps, h'.depth.trans h.depth⟩

theorem Session.onward_counted (s : Session) : s.Onward s.counted := ⟨rfl, Nat.le_succ _, rfl⟩

theorem Session.onward_enterBlock (s : Session) : s.Onward s.enterBlock := ⟨rfl, le_rfl, rfl⟩

theorem Steady.onward {o : Outcome α} {a : α} (h : Steady P s o) (ho : o = .done a t) : s.Onward t := by
  subst ho
  exact ⟨h.limits, h.steps, h.depth a t rfl⟩

/-- A step that counts nothing. -/
theorem steady_done {a : α} (ha : P a) (hl : t.limits = s.limits) (hn : t.steps = s.steps) (hd : t.depth = s.depth) :
    Steady P s (.done a t) where
  gives _ _ ho := by cases ho; exact ha
  limits := hl
  steps := hn.ge
  depth _ _ ho := by cases ho; exact hd
  budget limit _ hs := by
    refine ⟨hn.trans_le (hs.trans (Nat.le_succ limit)), fun _ _ ho => ?_⟩
    cases ho
    exact hn.trans_le hs

/-- An outcome without a result. -/
theorem Steady.stop {o : Outcome α} {o' : Outcome β} (h : Steady P s o) (hs : o'.session = o.session)
    (hd : ∀ a t, o' ≠ .done a t) : Steady Q s o' where
  gives a t ho := absurd ho (hd a t)
  limits := hs ▸ h.limits
  steps := hs ▸ h.steps
  depth a t ho := absurd ho (hd a t)
  budget limit hl hle := ⟨hs ▸ (h.budget limit hl hle).1, fun a t ho => absurd ho (hd a t)⟩

theorem steady_stop {o : Outcome α} (hs : o.session = s) (hd : ∀ a t, o ≠ .done a t) : Steady P s o :=
  (steady_done (a := ()) trivial rfl rfl rfl).stop (P := fun _ => True) hs hd

theorem Steady.trans {a : α} {o : Outcome β} (h : Steady P s (.done a t)) (h' : Steady Q t o) : Steady Q s o where
  gives := h'.gives
  limits := h'.limits.trans h.limits
  steps := h.steps.trans h'.steps
  depth b u ho := (h'.depth b u ho).trans (h.depth a t rfl)
  budget limit hl hle := h'.budget limit (h.limits ▸ hl) ((h.budget limit hl hle).2 a t rfl)

theorem Steady.bind {m : Eval α} {f : α → Eval β} (h : Steady P s (m s)) (hf : ∀ a t, P a → Steady Q t (f a t)) :
    Steady Q s ((m >>= f) s) := by
  cases ho : m s with
  | done a t =>
    rw [bind_done f ho]
    have hP := h.gives a t ho
    rw [ho] at h
    exact h.trans (hf a t hP)
  | failed e t =>
    rw [bind_failed f ho]
    exact h.stop (by rw [ho]; rfl) nofun
  | unfinished t =>
    rw [bind_unfinished f ho]
    exact h.stop (by rw [ho]; rfl) nofun

/-- From a new scope back to the one before it. -/
theorem Steady.restoring {o : Outcome α} (h : Steady P u o) (hl : u.limits = s.limits) (hn : u.steps = s.steps)
    (adjust : Nat → Nat) (hd : adjust u.depth = s.depth) : Steady P s (restoring s.current adjust o) := by
  obtain ⟨rl, -, rn⟩ := session_restoring o s.current adjust
  refine ⟨fun a t ho => ?_, rl.trans (h.limits.trans hl), ?_, fun a t ho => ?_, fun limit hlimit hle => ?_⟩
  · obtain ⟨v, hv, -⟩ := restoring_done ho
    exact h.gives a v hv
  · rw [rn, ← hn]
    exact h.steps
  · obtain ⟨v, hv, rfl⟩ := restoring_done ho
    exact (congrArg adjust (h.depth a v hv)).trans hd
  · obtain ⟨hlast, hdone⟩ := h.budget limit (hl ▸ hlimit) (hn ▸ hle)
    refine ⟨rn ▸ hlast, fun a t ho => ?_⟩
    obtain ⟨v, hv, rfl⟩ := restoring_done ho
    exact hdone a v hv

theorem steady_tick (s : Session) : Steady (fun _ => True) s (tick s) := by
  have hsteps := session_tick s
  refine ⟨fun _ _ _ => trivial, by rw [hsteps], by rw [hsteps]; exact Nat.le_succ _, fun a t ho => ?_,
    fun limit hl hle => ⟨?_, fun a t ho => ?_⟩⟩
  · rw [ho] at hsteps
    exact congrArg (·.depth) hsteps
  · rw [hsteps]
    exact Nat.succ_le_succ hle
  · -- a step beyond the budget has no result
    by_contra hlt
    rw [ho] at hsteps
    rw [show t = _ from hsteps] at hlt
    rw [tick_beyond hl (Nat.lt_of_not_le hlt)] at ho
    cases ho

end

/-- Counting within the budget, as an invariant of computations. -/
def steady : Invariant where
  allows _ := True
  fits _ := True
  Holds P m := ∀ s, Steady P s (m s)
  fits_plain _ _ := trivial
  fits_at _ _ := trivial
  allows_decl _ _ _ := trivial
  pure ha _ := steady_done ha rfl rfl rfl
  bind h hf s := (h s).bind fun a t ha => hf a ha t
  outOfFuel _ := steady_stop rfl nofun
  fault _ := steady_stop rfl nofun
  tick s := steady_tick s
  lookup {x line} _ s := by
    rw [lookup_eq]
    split
    · exact steady_done trivial rfl rfl rfl
    · exact steady_stop rfl nofun
  assign {x v line} _ _ s := by
    unfold assign
    split
    · exact steady_done trivial rfl rfl rfl
    · exact steady_stop rfl nofun
  define _ _ _ := steady_done trivial rfl rfl rfl
  newFunction _ _ _ := steady_done trivial rfl rfl rfl
  inBlock h s := (h s.enterBlock).restoring (s := s) rfl rfl id rfl
  inCall {α P m f args} line _ _ h s := by
    rw [call_eq]
    split
    · exact steady_stop rfl nofun
    · exact (h (s.enterCall f args)).restoring (s := s) rfl rfl (· - 1) rfl
  trade _ := steady_done trivial rfl rfl rfl
  callBuiltin {b args line} _ _ s := by
    unfold callBuiltin
    split
    · exact steady_done trivial rfl rfl rfl
    · exact steady_stop rfl nofun

/-! ## What is spelled out -/

def Expr.subtasks : Expr → List Task
  | .number _ _ | .string _ _ | .boolean _ _ | .identifier _ _ => []
  | .assign _ value _ => [.evaluate value]
  | .unary _ operand _ => [.evaluate operand]
  | .binary _ left right _ => [.evaluate left, .evaluate right]
  | .index target i _ => [.evaluate target, .evaluate i]
  | .call _ args _ => [.evaluateAll args]

/-- Without those of a function that is only declared. -/
def Stmt.subtasks : Stmt → List Task
  | .function _ _ _ | .var _ none | .ret none _ => []
  | .var _ (some value) | .ret (some value) _ | .expr value => [.evaluate value]
  | .branch condition thenBranch none => [.evaluate condition, .execute thenBranch]
  | .branch condition thenBranch (some elseBranch) =>
    [.evaluate condition, .execute thenBranch, .execute elseBranch]
  | .whileLoop condition body => [.loop (some condition) none body]
  | .forLoop none condition increment body => [.loop condition increment body]
  | .forLoop (some start) condition increment body => [.execute start.toStmt, .loop condition increment body]
  | .trade _ args _ => [.evaluateAll args]
  | .block body => [.executeAll body]

/-- What a task has in it that takes no step to begin. -/
def Task.subtasks : Task → List Task
  | .evaluate e => e.subtasks
  | .evaluateAll (e :: es) => [.evaluate e, .evaluateAll es]
  | .executeAll (stmt :: stmts) => [.execute stmt, .executeAll stmts]
  | .loop (some condition) _ _ => [.evaluate condition]
  | .evaluateAll [] | .executeAll [] | .loop none _ _ | .execute _ | .call _ _ _ => []

/-- The size of what a task evaluates or executes, of a loop that of its condition. A call is none the
larger for what the function does. -/
noncomputable def Task.size : Task → Nat
  | .evaluate e => sizeOf e
  | .evaluateAll es => sizeOf es
  | .call _ _ _ => 0
  | .execute stmt => sizeOf stmt
  | .executeAll stmts => sizeOf stmts
  | .loop condition _ _ => sizeOf condition

theorem LoopStart.sizeOf_toStmt (start : LoopStart) : sizeOf start.toStmt = sizeOf start := by
  cases start <;> simp [toStmt]

theorem Stmt.sizeOf_pos (stmt : Stmt) : 0 < sizeOf stmt := by cases stmt <;> simp

theorem Expr.size_subtasks (e : Expr) : ∀ task ∈ e.subtasks, task.size < sizeOf e := by
  cases e <;> simp [subtasks, Task.size] <;> omega

theorem Stmt.size_subtasks (stmt : Stmt) : ∀ task ∈ stmt.subtasks, task.size < sizeOf stmt := by
  fun_cases Stmt.subtasks stmt <;> simp [Task.size, LoopStart.sizeOf_toStmt]
  all_goals first | omega | grind [Stmt.sizeOf_pos]

theorem Task.size_subtasks (task : Task) : ∀ part ∈ task.subtasks, part.size < task.size := by
  cases task with
  | evaluate e => exact e.size_subtasks
  | evaluateAll es => cases es <;> simp [subtasks, size]; omega
  | executeAll stmts => cases stmts <;> simp [subtasks, size]; omega
  | loop condition increment body => cases condition <;> simp [subtasks, size]
  | call f args line | execute stmt => simp [subtasks]

/-! ## Where parts begin -/

/-- How a part follows on the beginning of its task. -/
inductive Task.Begins (s : Session) : Task → Task × Session → Prop
  | within {task part : Task} {t : Session} (ht : s.Onward t) (hp : part ∈ task.subtasks) : Begins s task (part, t)
  | calls {e : Expr} {f : Function} {args : List Value} {line : Nat} {t : Session} (ht : s.Onward t) :
    Begins s (.evaluate e) (.call f args line, t)
  | enters {f : Function} {args : List Value} {line : Nat} (hd : s.depth < s.limits.maxCallDepth) :
    Begins s (.call f args line) (.executeAll f.decl.body, s.enterCall f args)
  | counts {stmt : Stmt} {part : Task} {t : Session} (hb : s.limits.Affords (s.steps + 1))
    (ht : s.counted.Onward t) (hp : part ∈ stmt.subtasks) : Begins s (.execute stmt) (part, t)
  | repeats {condition increment : Option Expr} {body : Stmt} {part : Task} {t u : Session} (hu : s.Onward u)
    (hb : u.limits.Affords (u.steps + 1)) (ht : u.counted.Onward t) :
    Begins s (.loop condition increment body) (part, t)

/-- All of these parts begin after `s`, and each is a task that satisfies `Q`. -/
def Follow (s : Session) (Q : Task → Prop) (parts : List (Task × Session)) : Prop :=
  ∀ p ∈ parts, s.Onward p.2 ∧ Q p.1

section

variable {n : Nat} {s t u : Session} {Q : Task → Prop} {parts : List (Task × Session)}

namespace Follow

theorem nil : Follow s Q [] := nofun

theorem cons {task : Task} (ht : s.Onward t) (hQ : Q task) (h : Follow s Q parts) :
    Follow s Q ((task, t) :: parts) := List.forall_mem_cons.2 ⟨⟨ht, hQ⟩, h⟩

theorem single {task : Task} (ht : s.Onward t) (hQ : Q task) : Follow s Q [(task, t)] := cons ht hQ nil

theorem next {α : Type} {P : α → Prop} {o : Outcome α} {follows : α → Session → List (Task × Session)}
    (ht : s.Onward t) (ho : Steady P t o) (h : ∀ a u, s.Onward u → Follow s Q (follows a u)) :
    Follow s Q (o.next follows) := by
  intro p hp
  obtain ⟨a, u, hu, hp⟩ := Outcome.mem_next hp
  exact h a u (ht.trans (ho.onward hu)) p hp

end Follow

open Follow

theorem steady_evaluate (n : Nat) (e : Expr) (s : Session) : Steady (fun _ => True) s (evaluate n e s) :=
  steady.evaluate n e (fun _ _ => trivial) s

theorem steady_evaluateAll (n : Nat) (es : List Expr) (s : Session) :
    Steady (fun vs => ∀ v ∈ vs, True) s (evaluateAll n es s) := steady.evaluateAll n es (fun _ _ => trivial) s

theorem steady_execute (n : Nat) (stmt : Stmt) (s : Session) :
    Steady (Flow.Carries fun _ => True) s (execute n stmt s) := steady.execute n stmt (fun _ _ => trivial) s

theorem tick_done (h : tick s = .done () t) : s.limits.Affords (s.steps + 1) ∧ t = s.counted := by
  by_cases hb : s.limits.Affords (s.steps + 1)
  · rw [tick_within hb] at h
    cases h
    exact ⟨hb, rfl⟩
  · obtain ⟨limit, hl, hlt⟩ := Limits.not_affords hb
    rw [tick_beyond hl hlt] at h
    cases h

/-! ### Expressions, statements, rounds -/

theorem Expr.parts_begin (e : Expr) : ∀ p ∈ e.parts n s, (Task.evaluate e).Begins s p := by
  have hwithin : ∀ {parts}, Follow s (· ∈ e.subtasks) parts → ∀ p ∈ parts, (Task.evaluate e).Begins s p :=
    fun h p hp => .within (h p hp).1 (h p hp).2
  cases e with
  | number _ _ | string _ _ | boolean _ _ | identifier _ _ => exact nofun
  | assign x value p | unary op operand p => exact hwithin (single (.refl s) (by simp [subtasks]))
  | binary op left right p =>
    refine hwithin (cons (.refl s) (by simp [subtasks]) (next (.refl s) (steady_evaluate ..) fun l t ht => ?_))
    split
    · exact single ht (by simp [subtasks])
    · exact nil
  | index target i p =>
    refine hwithin (cons (.refl s) (by simp [subtasks]) (next (.refl s) (steady_evaluate ..) fun v t ht => ?_))
    exact single ht (by simp [subtasks])
  | call callee args p =>
    intro p hp
    obtain ⟨v, t, hv, hp⟩ := Outcome.mem_next hp
    have ht := (steady.lookup trivial s).onward hv
    rcases List.mem_cons.1 hp with rfl | hp
    · exact .within ht (List.mem_singleton_self _)
    · obtain ⟨vs, u, hvs, hp⟩ := Outcome.mem_next hp
      cases v with
      | function f =>
        rw [List.mem_singleton.1 hp]
        exact .calls (ht.trans ((steady_evaluateAll n args t).onward hvs))
      | null | boolean _ | number _ | string _ | record _ | list _ | builtin _ => cases hp

theorem Stmt.parts_follow (stmt : Stmt) : Follow s (· ∈ stmt.subtasks) (stmt.parts n s) := by
  cases stmt with
  | function name params body => exact nil
  | var name value | ret value line =>
    cases value with
    | none => exact nil
    | some e => exact single (.refl s) (by simp [subtasks])
  | expr value => exact single (.refl s) (by simp [subtasks])
  | branch c thenBranch elseBranch =>
    cases elseBranch with
    | none =>
      refine cons (.refl s) (by simp [subtasks]) (next (.refl s) (steady_evaluate ..) fun v t ht => ?_)
      split
      · exact single ht (by simp [subtasks])
      · exact nil
    | some e =>
      refine cons (.refl s) (by simp [subtasks]) (next (.refl s) (steady_evaluate ..) fun v t ht => ?_)
      split
      · exact single ht (by simp [subtasks])
      · exact single ht (by simp [subtasks])
  | whileLoop c body => exact single (.refl s) (by simp [subtasks])
  | forLoop start c increment body =>
    have hblock := s.onward_enterBlock
    cases start with
    | none => exact single hblock (by simp [subtasks])
    | some start =>
      refine cons hblock (by simp [subtasks]) (next hblock (steady_execute ..) fun _ t ht => ?_)
      exact single ht (by simp [subtasks])
  | trade action args line => exact single (.refl s) (by simp [subtasks])
  | block body => exact single s.onward_enterBlock (by simp [subtasks])

theorem Stmt.mem_roundParts {c i : Option Expr} {body : Stmt} {p : Task × Session}
    (h : p ∈ Stmt.roundParts n c i body s) : s.limits.Affords (s.steps + 1) ∧ s.counted.Onward p.2 := by
  obtain ⟨_, t, ht, hp⟩ := Outcome.mem_next h
  obtain ⟨hb, rfl⟩ := tick_done ht
  refine ⟨hb, ((?_ : Follow s.counted (fun _ => True) _) p hp).1⟩
  refine cons (.refl _) trivial (next (.refl _) (steady_execute ..) fun flow u hu => ?_)
  cases flow with
  | returned v line => exact nil
  | normal =>
    cases i with
    | none => exact single hu trivial
    | some e => exact cons hu trivial (next hu (steady_evaluate ..) fun _ v hv => single hv trivial)

/-! ### All tasks -/

theorem Task.parts_begin (task : Task) : ∀ p ∈ task.parts n s, task.Begins s p := by
  intro p hp
  have hwithin : ∀ {parts}, Follow s (· ∈ task.subtasks) parts → p ∈ parts → task.Begins s p :=
    fun h hp => .within (h p hp).1 (h p hp).2
  cases task with
  | evaluate e => exact e.parts_begin p hp
  | evaluateAll es =>
    cases es with
    | nil => cases hp
    | cons e es =>
      refine hwithin (cons (.refl s) (by simp [subtasks]) (next (.refl s) (steady_evaluate ..) fun v t ht => ?_)) hp
      exact single ht (by simp [subtasks])
  | call f args line =>
    obtain ⟨_, t, ht, hp⟩ := Outcome.mem_next hp
    unfold checkDepth at ht
    split at ht
    · cases ht
    · cases ht
      rw [List.mem_singleton.1 hp]
      exact .enters (Nat.lt_of_not_le ‹_›)
  | execute stmt =>
    obtain ⟨_, t, ht, hp⟩ := Outcome.mem_next hp
    obtain ⟨hb, rfl⟩ := tick_done ht
    exact .counts hb (stmt.parts_follow p hp).1 (stmt.parts_follow p hp).2
  | executeAll stmts =>
    cases stmts with
    | nil => cases hp
    | cons stmt stmts =>
      refine hwithin (cons (.refl s) (by simp [subtasks]) (next (.refl s) (steady_execute ..) fun flow t ht => ?_)) hp
      cases flow with
      | normal => exact single ht (by simp [subtasks])
      | returned v line => exact nil
  | loop c i body =>
    have hround : ∀ {t}, s.Onward t → p ∈ Stmt.roundParts n c i body t → (Task.loop c i body).Begins s p :=
      fun ht hp => .repeats ht (Stmt.mem_roundParts hp).1 (Stmt.mem_roundParts hp).2
    cases c with
    | none => exact hround (.refl s) hp
    | some c =>
      rcases List.mem_cons.1 hp with rfl | hp
      · exact .within (.refl s) (List.mem_singleton_self _)
      · obtain ⟨v, t, ht, hp⟩ := Outcome.mem_next hp
        cases hb : v.isTruthy with
        | true =>
          simp only [hb, if_true] at hp
          exact hround ((steady_evaluate n c s).onward ht) hp
        | false => simp [hb] at hp

end

end StrategyScript
