/-
Without loops every run ends. The limit on nested calls is enough, whatever way functions call each
other: a call goes one level deeper, and at one level the tasks get smaller. For this no function may
have a loop in it, so that every function a run can create comes from a declaration without loops is
kept up from the start of the run.
-/
import StrategyScript.Proofs.Run.Onward
import StrategyScript.Proofs.Run.History

namespace StrategyScript

open Eval

/-! ## Statements without loops -/

mutual

/-- There is no `while` and no `for` in it, at any depth. -/
def Stmt.isLoopFree : Stmt → Bool
  | .whileLoop _ _ | .forLoop _ _ _ _ => false
  | .function _ _ body | .block body => Stmt.allLoopFree body
  | .branch _ thenBranch none => thenBranch.isLoopFree
  | .branch _ thenBranch (some elseBranch) => thenBranch.isLoopFree && elseBranch.isLoopFree
  | .var _ _ | .ret _ _ | .trade _ _ _ | .expr _ => true

def Stmt.allLoopFree : List Stmt → Bool
  | [] => true
  | s :: ss => s.isLoopFree && Stmt.allLoopFree ss

end

def Task.LoopFree : Task → Prop
  | .evaluate _ | .evaluateAll _ => True
  | .call f _ _ => Stmt.allLoopFree f.decl.body
  | .execute stmt => stmt.isLoopFree
  | .executeAll stmts => Stmt.allLoopFree stmts
  | .loop _ _ _ => False

section

variable {n : Nat} {s : Session} {task : Task}

theorem Stmt.loopFree_subtasks {stmt : Stmt} (h : stmt.isLoopFree) : ∀ part ∈ stmt.subtasks, part.LoopFree := by
  fun_cases Stmt.subtasks stmt <;> simp_all [Stmt.isLoopFree, Task.LoopFree]

theorem Task.loopFree_subtasks (h : task.LoopFree) : ∀ part ∈ task.subtasks, part.LoopFree := by
  cases task with
  | evaluate e => cases e <;> simp [subtasks, Expr.subtasks, LoopFree]
  | evaluateAll es => cases es <;> simp [subtasks, LoopFree]
  | executeAll stmts => cases stmts <;> simp_all [subtasks, LoopFree, Stmt.allLoopFree]
  | call f args line | execute stmt => simp [subtasks]
  | loop condition increment body => exact h.elim

/-- The parts of a task have no loop in them, if the functions they call have none. -/
theorem Task.loopFree_of_part {p : Task × Session} (h : task.LoopFree) (hp : p ∈ task.parts n s)
    (hsuits : p.1.Suits fun f => Stmt.allLoopFree f.decl.body) : p.1.LoopFree := by
  cases task.parts_begin p hp with
  | within _ hpart => exact Task.loopFree_subtasks h _ hpart
  | calls _ => exact hsuits.1
  | enters _ => exact h
  | counts _ _ hpart => exact Stmt.loopFree_subtasks h _ hpart
  | repeats _ _ _ => exact h.elim

/-! ## Runs without loops -/

/-- No function in a session has a loop in it. -/
def loopFree : Discipline where
  Good _ := True
  Fits _ f := Stmt.allLoopFree f.decl.body
  Admits m := m.task.LoopFree
  admits_part h hp _ hsuits := Task.loopFree_of_part h hp hsuits
  fits_grows _ h := h
  fits_new h _ := h
  counted _ := trivial
  numbered _ := trivial
  traded _ := trivial
  assigned _ _ _ _ := trivial
  defined _ _ _ _ := trivial
  entered _ := trivial
  called _ _ _ := trivial
  left _ _ _ := trivial

theorem right_loopFree {p : Program} (hp : Stmt.allLoopFree p) (c : Limits) (fuel : Nat) (market : Market) :
    loopFree.Right ((Session.new c).start fuel p market) :=
  ⟨hp, ⟨trivial, Forest.holds_builtins _ _⟩, trivial⟩

/-- How much deeper calls may go when a task begins, and how large it is. -/
noncomputable def Task.headroom (task : Task) (s : Session) : ℕ ×ₗ ℕ :=
  toLex (s.limits.maxCallDepth - s.depth, task.size)

theorem Task.headroom_of_size {t : Session} {part : Task} (ht : s.Onward t) (h : part.size < task.size) :
    part.headroom t < task.headroom s := by
  unfold headroom
  rw [ht.limits, ht.depth]
  exact Prod.Lex.toLex_lt_toLex.2 (.inr ⟨rfl, h⟩)

/-- Each part is smaller, or a level deeper. -/
theorem Task.headroom_falls (h : task.LoopFree) : ∀ p ∈ task.parts n s, p.1.headroom p.2 < task.headroom s := by
  intro p hp
  cases task.parts_begin p hp with
  | within ht hpart => exact headroom_of_size ht (task.size_subtasks _ hpart)
  | calls ht => exact headroom_of_size ht (by cases ‹Expr› <;> simp [size])
  | enters hd =>
    have hless : s.limits.maxCallDepth - (s.depth + 1) < s.limits.maxCallDepth - s.depth := by omega
    exact Prod.Lex.toLex_lt_toLex.2 (.inl hless)
  | counts _ ht hpart => exact headroom_of_size (s.onward_counted.trans ht) (Stmt.size_subtasks _ _ hpart)
  | repeats _ _ _ => exact h.elim

end

namespace Session

/-- A program without loops comes to an end in a new interpreter, in success or with an error, without
a budget of steps and however deep calls may be nested. -/
theorem loopFree_run_ends {p : Program} (hp : Stmt.allLoopFree p) (maxCallDepth : Nat) (market : Market) :
    ∃ e t, (new ⟨none, maxCallDepth⟩).Ends p market e t := by
  refine ends_of_settles ?_
  refine Task.settles_of_measure wellFounded_lt Task.headroom (P := fun task s => ∀ n, loopFree.Right ⟨n, task, s⟩)
    (fun hr part hpart => ?_) fun n => right_loopFree hp ⟨none, maxCallDepth⟩ n market
  have hright := (hr (_ + 1)).part part hpart
  exact ⟨fun n => ⟨hright.admits, hright.sound, hright.suits⟩, Task.headroom_falls (hr 0).admits part hpart⟩

/-- Two functions that call each other, the one twice in an expression, the other through a function of
its own, which is the one that is refused. -/
theorem runaway_recursion_ends :
    let p : Program := [
      .function "f" [] [.ret (some (.binary .add (.call "g" [] ⟨1, 23⟩) (.call "g" [] ⟨1, 29⟩) ⟨1, 27⟩)) 1],
      .function "g" [] [.function "h" [] [.ret (some (.call "f" [] ⟨3, 10⟩)) 3], .expr (.call "h" [] ⟨4, 3⟩)],
      .expr (.call "f" [] ⟨6, 1⟩)]
    let s := new ⟨none, 5⟩
    Stmt.allLoopFree p ∧ ∃ e t, s.Ends p .empty e t ∧ e.error?.bind (·.line?) = some 4 := by
  intro p s
  have hp : Stmt.allLoopFree p := by decide +kernel
  have hends : s.Ends p .empty (s.run 40 p .empty).1 (s.run 40 p .empty).2 :=
    ⟨by decide +kernel, 40, Prod.mk.eta.symm⟩
  obtain ⟨e, t, hended⟩ := loopFree_run_ends hp 5 .empty
  refine ⟨hp, e, t, hended, ?_⟩
  rw [(hended.unique hends).1]
  decide +kernel

end Session

end StrategyScript
