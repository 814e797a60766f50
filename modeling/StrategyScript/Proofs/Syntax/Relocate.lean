/-
Positions in syntax trees. A relocation moves every position of a tree and changes nothing else; the
relocation that forgets positions tells which trees are the same but for lines and columns. Also the
names that a tree uses, which no relocation touches.
-/
import StrategyScript.Syntax.Stmt

namespace StrategyScript

/-! ## Relocations -/

/-- Where positions go. Some statements keep a line only, so lines alone must have a place to go,
and it must be the line of the whole position. -/
structure Relocation where
  position : Position → Position
  line : Nat → Nat
  line_position : ∀ p, (position p).line = line p.line

namespace Relocation

/-- Everything stays where it is. -/
def stay : Relocation := ⟨fun p => p, fun l => l, fun _ => rfl⟩

@[simp] theorem stay_position (p : Position) : stay.position p = p := rfl

@[simp] theorem stay_line (l : Nat) : stay.line l = l := rfl

/-- Everything goes to one place. -/
def erase : Relocation := ⟨fun _ => ⟨0, 0⟩, fun _ => 0, fun _ => rfl⟩

end Relocation

/-! ## Expressions -/

mutual

def Expr.relocate (ρ : Relocation) : Expr → Expr
  | .number x p => .number x (ρ.position p)
  | .string s p => .string s (ρ.position p)
  | .boolean b p => .boolean b (ρ.position p)
  | .identifier name p => .identifier name (ρ.position p)
  | .assign name value p => .assign name (value.relocate ρ) (ρ.position p)
  | .binary op left right p => .binary op (left.relocate ρ) (right.relocate ρ) (ρ.position p)
  | .unary op operand p => .unary op (operand.relocate ρ) (ρ.position p)
  | .call callee args p => .call callee (Expr.relocateAll ρ args) (ρ.position p)
  | .index target i p => .index (target.relocate ρ) (i.relocate ρ) (ρ.position p)

def Expr.relocateAll (ρ : Relocation) : List Expr → List Expr
  | [] => []
  | e :: es => e.relocate ρ :: Expr.relocateAll ρ es

end

theorem Expr.relocateAll_eq_map (ρ : Relocation) (es : List Expr) :
    Expr.relocateAll ρ es = es.map (Expr.relocate ρ) := by
  induction es with
  | nil => rfl
  | cons e es ih => simp [Expr.relocateAll, ih]

mutual

/-- The names that an expression reads, assigns to or calls. -/
def Expr.names : Expr → List String
  | .number _ _ | .string _ _ | .boolean _ _ => []
  | .identifier name _ => [name]
  | .assign name value _ => name :: value.names
  | .binary _ left right _ => left.names ++ right.names
  | .unary _ operand _ => operand.names
  | .call callee args _ => callee :: Expr.namesAll args
  | .index target i _ => target.names ++ i.names

def Expr.namesAll : List Expr → List String
  | [] => []
  | e :: es => e.names ++ Expr.namesAll es

end

/-! ## Statements -/

def LoopStart.relocate (ρ : Relocation) : LoopStart → LoopStart
  | .var name value => .var name (value.map (Expr.relocate ρ))
  | .expr value => .expr (value.relocate ρ)

mutual

def Stmt.relocate (ρ : Relocation) : Stmt → Stmt
  | .function name params body => .function name params (Stmt.relocateAll ρ body)
  | .var name value => .var name (value.map (Expr.relocate ρ))
  | .branch c thenBranch none => .branch (c.relocate ρ) (thenBranch.relocate ρ) none
  | .branch c thenBranch (some elseBranch) =>
    .branch (c.relocate ρ) (thenBranch.relocate ρ) (some (elseBranch.relocate ρ))
  | .whileLoop c body => .whileLoop (c.relocate ρ) (body.relocate ρ)
  | .forLoop start c increment body =>
    .forLoop (start.map (LoopStart.relocate ρ)) (c.map (Expr.relocate ρ))
      (increment.map (Expr.relocate ρ)) (body.relocate ρ)
  | .ret value line => .ret (value.map (Expr.relocate ρ)) (ρ.line line)
  | .trade action args line => .trade action (Expr.relocateAll ρ args) (ρ.line line)
  | .block body => .block (Stmt.relocateAll ρ body)
  | .expr value => .expr (value.relocate ρ)

def Stmt.relocateAll (ρ : Relocation) : List Stmt → List Stmt
  | [] => []
  | s :: ss => s.relocate ρ :: Stmt.relocateAll ρ ss

end

theorem Stmt.relocate_branch (ρ : Relocation) (c : Expr) (thenBranch : Stmt)
    (elseBranch : Option Stmt) :
    (Stmt.branch c thenBranch elseBranch).relocate ρ =
      .branch (c.relocate ρ) (thenBranch.relocate ρ) (elseBranch.map (Stmt.relocate ρ)) := by
  cases elseBranch <;> rfl

theorem LoopStart.toStmt_relocate (ρ : Relocation) (start : LoopStart) :
    (start.relocate ρ).toStmt = start.toStmt.relocate ρ := by
  cases start <;> rfl

def LoopStart.names : LoopStart → List String
  | .var name none => [name]
  | .var name (some value) => name :: value.names
  | .expr value => value.names

/-- The names in a part that may be missing. -/
def Expr.namesIn : Option Expr → List String
  | none => []
  | some e => e.names

mutual

/-- The names that a statement uses or declares, parameters included. -/
def Stmt.names : Stmt → List String
  | .function name params body => name :: params ++ Stmt.namesAll body
  | .var name value => name :: Expr.namesIn value
  | .branch c thenBranch none => c.names ++ thenBranch.names
  | .branch c thenBranch (some elseBranch) => c.names ++ thenBranch.names ++ elseBranch.names
  | .whileLoop c body => c.names ++ body.names
  | .forLoop none c increment body => Expr.namesIn c ++ Expr.namesIn increment ++ body.names
  | .forLoop (some start) c increment body =>
    start.names ++ Expr.namesIn c ++ Expr.namesIn increment ++ body.names
  | .ret value _ => Expr.namesIn value
  | .trade _ args _ => Expr.namesAll args
  | .block body => Stmt.namesAll body
  | .expr value => value.names

def Stmt.namesAll : List Stmt → List String
  | [] => []
  | s :: ss => s.names ++ Stmt.namesAll ss

end

theorem LoopStart.names_toStmt (start : LoopStart) : start.toStmt.names = start.names := by
  rcases start with ⟨name, _ | value⟩ | value <;> rfl

namespace FunctionDecl

def relocate (ρ : Relocation) (d : FunctionDecl) : FunctionDecl :=
  { d with body := Stmt.relocateAll ρ d.body }

def names (d : FunctionDecl) : List String :=
  d.name :: d.params ++ Stmt.namesAll d.body

end FunctionDecl

/-! ## Nothing moves -/

mutual

@[simp] theorem Expr.relocate_stay : ∀ e : Expr, e.relocate .stay = e
  | .number _ _ | .string _ _ | .boolean _ _ | .identifier _ _ => rfl
  | .assign _ value _ => by simp only [Expr.relocate, Expr.relocate_stay value, Relocation.stay_position]
  | .binary _ left right _ => by
    simp only [Expr.relocate, Expr.relocate_stay left, Expr.relocate_stay right, Relocation.stay_position]
  | .unary _ operand _ => by simp only [Expr.relocate, Expr.relocate_stay operand, Relocation.stay_position]
  | .call _ args _ => by simp only [Expr.relocate, Expr.relocateAll_stay args, Relocation.stay_position]
  | .index target i _ => by
    simp only [Expr.relocate, Expr.relocate_stay target, Expr.relocate_stay i, Relocation.stay_position]

@[simp] theorem Expr.relocateAll_stay : ∀ es : List Expr, Expr.relocateAll .stay es = es
  | [] => rfl
  | e :: es => by rw [Expr.relocateAll, Expr.relocate_stay e, Expr.relocateAll_stay es]

end

@[simp] theorem Expr.map_relocate_stay (e : Option Expr) : e.map (Expr.relocate .stay) = e := by
  cases e <;> simp

@[simp] theorem LoopStart.map_relocate_stay (start : Option LoopStart) :
    start.map (LoopStart.relocate .stay) = start := by
  rcases start with _ | _ | _ <;> simp [LoopStart.relocate]

mutual

@[simp] theorem Stmt.relocate_stay : ∀ s : Stmt, s.relocate .stay = s
  | .function _ _ body => by simp only [Stmt.relocate, Stmt.relocateAll_stay body]
  | .var _ _ => by simp only [Stmt.relocate, Expr.map_relocate_stay]
  | .branch _ thenBranch none => by
    simp only [Stmt.relocate, Expr.relocate_stay, Stmt.relocate_stay thenBranch]
  | .branch _ thenBranch (some elseBranch) => by
    simp only [Stmt.relocate, Expr.relocate_stay, Stmt.relocate_stay thenBranch, Stmt.relocate_stay elseBranch]
  | .whileLoop _ body => by simp only [Stmt.relocate, Expr.relocate_stay, Stmt.relocate_stay body]
  | .forLoop _ _ _ body => by
    simp only [Stmt.relocate, LoopStart.map_relocate_stay, Expr.map_relocate_stay, Stmt.relocate_stay body]
  | .ret _ _ => by simp only [Stmt.relocate, Expr.map_relocate_stay, Relocation.stay_line]
  | .trade _ _ _ => by simp only [Stmt.relocate, Expr.relocateAll_stay, Relocation.stay_line]
  | .block body => by simp only [Stmt.relocate, Stmt.relocateAll_stay body]
  | .expr _ => by simp only [Stmt.relocate, Expr.relocate_stay]

@[simp] theorem Stmt.relocateAll_stay : ∀ ss : List Stmt, Stmt.relocateAll .stay ss = ss
  | [] => rfl
  | s :: ss => by rw [Stmt.relocateAll, Stmt.relocate_stay s, Stmt.relocateAll_stay ss]

end

@[simp] theorem FunctionDecl.relocate_stay (d : FunctionDecl) : d.relocate .stay = d := by
  simp [FunctionDecl.relocate]

end StrategyScript
