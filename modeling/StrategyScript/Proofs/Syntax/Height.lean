/-
How high the trees of a program are. The height counts every step from a node to one of its parts. The
depth does not count the steps to the left operand of an operator and to the target of an index: a row of
operators or of indices leans to the left, and its height grows with its length while its depth does not.
-/
import StrategyScript.Proofs.Syntax.Chain

namespace StrategyScript

/-! ## Height and depth -/

mutual

/-- How many nodes there are on the longest way down. -/
def Expr.height : Expr → Nat
  | .number _ _ | .string _ _ | .boolean _ _ | .identifier _ _ => 1
  | .assign _ value _ => value.height + 1
  | .binary _ left right _ => max left.height right.height + 1
  | .unary _ operand _ => operand.height + 1
  | .call _ args _ => Expr.heightAll args + 1
  | .index target i _ => max target.height i.height + 1

def Expr.heightAll : List Expr → Nat
  | [] => 0
  | e :: es => max e.height (Expr.heightAll es)

end

mutual

/-- How many nodes there are on a way down, where a step to the left does not count. -/
def Expr.depth : Expr → Nat
  | .number _ _ | .string _ _ | .boolean _ _ | .identifier _ _ => 1
  | .assign _ value _ => value.depth + 1
  | .binary _ left right _ => max left.depth (right.depth + 1)
  | .unary _ operand _ => operand.depth + 1
  | .call _ args _ => Expr.depthAll args + 1
  | .index target i _ => max target.depth (i.depth + 1)

def Expr.depthAll : List Expr → Nat
  | [] => 0
  | e :: es => max e.depth (Expr.depthAll es)

end

theorem Expr.depthAll_le {n : Nat} {es : List Expr} (h : ∀ e ∈ es, e.depth ≤ n) : Expr.depthAll es ≤ n := by
  induction es with
  | nil => exact Nat.zero_le n
  | cons e es ih =>
    obtain ⟨he, hes⟩ := List.forall_mem_cons.1 h
    exact Nat.max_le.2 ⟨he, ih hes⟩

/-! ## The expressions of a program -/

def LoopStart.slots : LoopStart → List Expr
  | .var _ value => value.toList
  | .expr value => [value]

mutual

/-- The expressions that are parts of the statement or of a statement in it, but of no expression. -/
def Stmt.slots : Stmt → List Expr
  | .function _ _ body | .block body => Stmt.slotsAll body
  | .var _ value | .ret value _ => value.toList
  | .branch c thenBranch none => c :: thenBranch.slots
  | .branch c thenBranch (some elseBranch) => c :: (thenBranch.slots ++ elseBranch.slots)
  | .whileLoop c body => c :: body.slots
  | .forLoop none c increment body => c.toList ++ (increment.toList ++ body.slots)
  | .forLoop (some start) c increment body => start.slots ++ (c.toList ++ (increment.toList ++ body.slots))
  | .trade _ args _ => args
  | .expr value => [value]

def Stmt.slotsAll : List Stmt → List Expr
  | [] => []
  | s :: ss => s.slots ++ Stmt.slotsAll ss

end

theorem Stmt.slotsAll_eq (ss : List Stmt) : Stmt.slotsAll ss = ss.flatMap Stmt.slots := by
  induction ss with
  | nil => rfl
  | cons s ss ih => rw [Stmt.slotsAll, ih, List.flatMap_cons]

/-! ## Rows of one rank -/

def Sign.isBinary : Sign → Bool
  | .binary _ => true
  | _ => false

namespace Expr

theorem root_mem {e : Expr} {o : BinaryOp} (h : o ∈ e.root?) : .binary o ∈ e.signs := by
  cases e with
  | binary op left right p =>
    cases h
    exact binary_mem
  | _ => cases h

/-- Operators of one rank stand one above another, all in the left operands. -/
theorem Grouped.lt_height {e : Expr} (h : e.Grouped)
    (hone : ∀ o o', .binary o ∈ e.signs → .binary o' ∈ e.signs → o.rank = o'.rank) :
    e.signs.countP Sign.isBinary < e.height := by
  induction h with
  | atom a p => cases a <;> exact Nat.one_pos
  | unary op p h _ ih =>
    have hoperand := ih fun o o' ho ho' => hone o o' (List.mem_cons_of_mem _ ho) (List.mem_cons_of_mem _ ho')
    exact Nat.lt_succ_of_lt hoperand
  | @binary op p left right hleft hright _ hlt ih _ =>
    have hsub : ∀ {sign}, sign ∈ left.signs → sign ∈ (Expr.binary op left right p).signs := List.mem_append_left _
    have hsub' : ∀ {sign}, sign ∈ right.signs → sign ∈ (Expr.binary op left right p).signs :=
      fun h => List.mem_append_right _ (List.mem_cons_of_mem _ h)
    have hleft := ih fun o o' ho ho' => hone o o' (hsub ho) (hsub ho')
    -- an operator in the right operand would be tighter
    have hroot : right.root? = none := by
      by_contra hsome
      obtain ⟨o, ho⟩ := Option.ne_none_iff_exists'.1 hsome
      exact (hlt o ho).ne (hone op o binary_mem (hsub' (root_mem ho)))
    have hnone : right.signs.countP Sign.isBinary = 0 := by
      rw [List.countP_eq_zero]
      rintro sign hsign hbinary
      cases sign with
      | binary o => exact hright.binary_not_mem hroot o hsign
      | _ => cases hbinary
    rw [Expr.signs, List.countP_append, List.countP_cons_of_pos rfl, hnone, Expr.height]
    omega

end Expr

end StrategyScript
