/-
The statements that stand in a statement, at any depth. What stands in the body of a function is executed
by those who call it and not where it stands, so it can be left out.
-/
import StrategyScript.Syntax.Stmt

namespace StrategyScript

mutual

/-- A statement and those in it, in the order of the text; those in the bodies of functions only if asked
for. The start of a `for` loop is not a statement. -/
def Stmt.within (bodies : Bool) (stmt : Stmt) : List Stmt :=
  stmt :: match stmt with
  | .function _ _ body => if bodies then Stmt.withinAll bodies body else []
  | .branch _ thenBranch none => thenBranch.within bodies
  | .branch _ thenBranch (some elseBranch) => thenBranch.within bodies ++ elseBranch.within bodies
  | .whileLoop _ body | .forLoop _ _ _ body => body.within bodies
  | .block body => Stmt.withinAll bodies body
  | .var _ _ | .ret _ _ | .trade _ _ _ | .expr _ => []

def Stmt.withinAll (bodies : Bool) : List Stmt → List Stmt
  | [] => []
  | s :: ss => s.within bodies ++ Stmt.withinAll bodies ss

end

/-- The line of a return statement. -/
def Stmt.returnLine? : Stmt → Option Nat
  | .ret _ line => some line
  | _ => none

/-- The lines of the return statements that stand outside of all function bodies. -/
def Stmt.openReturns (stmt : Stmt) : List Nat := (stmt.within false).filterMap Stmt.returnLine?

/-- The same for the statements of a program, or of a block. -/
def Stmt.openReturnsAll (stmts : List Stmt) : List Nat := (Stmt.withinAll false stmts).filterMap Stmt.returnLine?

theorem Stmt.mem_openReturnsAll {line : Nat} {stmts : List Stmt} :
    line ∈ Stmt.openReturnsAll stmts ↔ ∃ value, .ret value line ∈ Stmt.withinAll false stmts := by
  unfold openReturnsAll
  rw [List.mem_filterMap]
  constructor
  · rintro ⟨stmt, hmem, hline⟩
    cases stmt <;> cases hline
    exact ⟨_, hmem⟩
  · rintro ⟨value, hmem⟩
    exact ⟨_, hmem, rfl⟩

theorem Stmt.openReturnsAll_cons (stmt : Stmt) (stmts : List Stmt) :
    Stmt.openReturnsAll (stmt :: stmts) = stmt.openReturns ++ Stmt.openReturnsAll stmts := by
  rw [openReturnsAll, withinAll, List.filterMap_append]
  rfl

end StrategyScript
