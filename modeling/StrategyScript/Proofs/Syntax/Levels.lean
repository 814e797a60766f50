/-
How many levels there are in a program. On a way down from the program, every statement is a level, every
expression that a statement has, and inside an expression what is assigned, the operand of a unary
operator, each argument and each index. The operands of the other operators and the target of an index are
on the level of the expression they are in.
-/
import StrategyScript.Proofs.Syntax.Height
import StrategyScript.Proofs.Syntax.Within

namespace StrategyScript

/-! ## Levels -/

mutual

/-- The levels inside an expression, on the way that has the most. -/
def Expr.levels : Expr → Nat
  | .number _ _ | .string _ _ | .boolean _ _ | .identifier _ _ => 0
  | .assign _ value _ => value.levels + 1
  | .binary _ left right _ => max left.levels right.levels
  | .unary _ operand _ => operand.levels + 1
  | .call _ args _ => Expr.levelsAll args
  | .index target i _ => max target.levels (i.levels + 1)

/-- The same for expressions each of which is a level. -/
def Expr.levelsAll : List Expr → Nat
  | [] => 0
  | e :: es => max (e.levels + 1) (Expr.levelsAll es)

end

mutual

/-- The levels inside a statement, on the way that has the most. The start of a `for` loop is not a
statement, but its expression is one that the loop has. -/
def Stmt.levels : Stmt → Nat
  | .function _ _ body | .block body => Stmt.levelsAll body
  | .var _ value | .ret value _ => Expr.levelsAll value.toList
  | .branch c thenBranch none => max (c.levels + 1) (thenBranch.levels + 1)
  | .branch c thenBranch (some elseBranch) =>
    max (c.levels + 1) (max (thenBranch.levels + 1) (elseBranch.levels + 1))
  | .whileLoop c body => max (c.levels + 1) (body.levels + 1)
  | .forLoop none c increment body =>
    max (Expr.levelsAll (c.toList ++ increment.toList)) (body.levels + 1)
  | .forLoop (some start) c increment body =>
    max (Expr.levelsAll (start.slots ++ (c.toList ++ increment.toList))) (body.levels + 1)
  | .trade _ args _ => Expr.levelsAll args
  | .expr value => value.levels + 1

/-- The levels of a program, or of the statements in a block. -/
def Stmt.levelsAll : List Stmt → Nat
  | [] => 0
  | s :: ss => max (s.levels + 1) (Stmt.levelsAll ss)

end

theorem Expr.levelsAll_le {n : Nat} {es : List Expr} : Expr.levelsAll es ≤ n ↔ ∀ e ∈ es, e.levels < n := by
  induction es with
  | nil => simp [levelsAll]
  | cons e es ih => rw [levelsAll, Nat.max_le, ih, List.forall_mem_cons, Nat.succ_le_iff]

theorem Stmt.levelsAll_le {n : Nat} {ss : List Stmt} : Stmt.levelsAll ss ≤ n ↔ ∀ s ∈ ss, s.levels < n := by
  induction ss with
  | nil => simp [levelsAll]
  | cons s ss ih => rw [levelsAll, Nat.max_le, ih, List.forall_mem_cons, Nat.succ_le_iff]

/-! ## What a statement has itself -/

namespace Stmt

/-- The expressions that are parts of the statement and not of one in it. -/
def ownSlots : Stmt → List Expr
  | .function _ _ _ | .block _ => []
  | .var _ value | .ret value _ => value.toList
  | .branch c _ _ | .whileLoop c _ => [c]
  | .forLoop none c increment _ => c.toList ++ increment.toList
  | .forLoop (some start) c increment _ => start.slots ++ (c.toList ++ increment.toList)
  | .trade _ args _ => args
  | .expr value => [value]

/-- The statements that are parts of the statement and not of one in it. -/
def inner : Stmt → List Stmt
  | .function _ _ body | .block body => body
  | .branch _ thenBranch elseBranch => thenBranch :: elseBranch.toList
  | .whileLoop _ body | .forLoop _ _ _ body => [body]
  | .var _ _ | .ret _ _ | .trade _ _ _ | .expr _ => []

theorem mem_slots {e : Expr} {s : Stmt} : e ∈ s.slots ↔ e ∈ s.ownSlots ∨ ∃ t ∈ s.inner, e ∈ t.slots := by
  cases s with
  | function _ _ body | block body => simp [slots, ownSlots, inner, slotsAll_eq]
  | branch c t o => cases o <;> simp [slots, ownSlots, inner]
  | forLoop start c i body => cases start <;> simp [slots, ownSlots, inner, or_assoc]
  | var _ value | ret value _ | whileLoop c body | trade _ args _ | expr value => simp [slots, ownSlots, inner]

theorem levels_le {n : Nat} {s : Stmt} :
    s.levels ≤ n ↔ (∀ e ∈ s.ownSlots, e.levels < n) ∧ ∀ t ∈ s.inner, t.levels < n := by
  cases s with
  | function _ _ body | block body => simp [levels, ownSlots, inner, levelsAll_le]
  | var _ value | ret value _ => simp [levels, ownSlots, inner, Expr.levelsAll_le]
  | branch c t e => cases e <;> simp [levels, ownSlots, inner]
  | whileLoop c body => simp [levels, ownSlots, inner]
  | forLoop start c i body => cases start <;> simp only [levels, ownSlots, inner, Nat.max_le, Expr.levelsAll_le,
      Nat.succ_le_iff, List.mem_singleton, forall_eq]
  | trade _ args _ => simp [levels, ownSlots, inner, Expr.levelsAll_le]
  | expr value => simp [levels, ownSlots, inner]

theorem withinAll_eq (bodies : Bool) (ss : List Stmt) : Stmt.withinAll bodies ss = ss.flatMap (Stmt.within bodies) := by
  induction ss with
  | nil => rfl
  | cons s ss ih => rw [withinAll, ih, List.flatMap_cons]

/-- All statements in a statement are those in its own ones. -/
theorem within_true (s : Stmt) : s.within true = s :: Stmt.withinAll true s.inner := by
  cases s with
  | branch c t e => cases e <;> simp [within, withinAll, inner]
  | _ => simp [within, withinAll, inner]

end Stmt

end StrategyScript
