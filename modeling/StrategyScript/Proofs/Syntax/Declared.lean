/-
The names that a statement declares in the scope it is executed in: those of its variables and
functions, less what stands in blocks, `for` loops and bodies of functions, for these have scopes of
their own.
-/
import StrategyScript.Syntax.Declared
import Mathlib.Tactic

namespace StrategyScript

def Stmt.declaredHere : Stmt → List String
  | .function name _ _ | .var name _ => [name]
  | .branch _ thenBranch none => thenBranch.declaredHere
  | .branch _ thenBranch (some elseBranch) => thenBranch.declaredHere ++ elseBranch.declaredHere
  | .whileLoop _ body => body.declaredHere
  | .forLoop _ _ _ _ | .ret _ _ | .trade _ _ _ | .block _ | .expr _ => []

theorem Stmt.declaredHere_subset (stmt : Stmt) : stmt.declaredHere ⊆ stmt.declared := by
  fun_induction Stmt.declaredHere stmt with
  | case1 name params body | case2 => simp [Stmt.declared]
  | case3 _ t ih => exact ih
  | case4 _ t e iht ihe =>
    rw [Stmt.declared]
    exact List.append_subset.2
      ⟨List.Subset.trans iht (List.subset_append_left ..), List.Subset.trans ihe (List.subset_append_right ..)⟩
  | case5 _ body ih => exact ih
  | _ => exact List.nil_subset _

end StrategyScript
