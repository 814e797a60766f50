/-
Positions in a source text: a line and a column, both counted from one, in characters.
-/

namespace StrategyScript

structure Position where
  line : Nat
  column : Nat
deriving DecidableEq, Repr, Inhabited

namespace Position

def start : Position := ⟨1, 1⟩

/-- The position after a character: a line feed opens a new line. -/
def advance (p : Position) (c : Char) : Position :=
  if c = '\n' then ⟨p.line + 1, 1⟩ else ⟨p.line, p.column + 1⟩

/-- The position after a text. -/
def advanceAll (p : Position) (cs : List Char) : Position :=
  cs.foldl advance p

@[simp] theorem advanceAll_nil (p : Position) : p.advanceAll [] = p := rfl

@[simp] theorem advanceAll_cons (p : Position) (c : Char) (cs : List Char) :
    p.advanceAll (c :: cs) = (p.advance c).advanceAll cs := rfl

/-- Reading order. -/
def before (p q : Position) : Prop :=
  p.line < q.line ∨ p.line = q.line ∧ p.column < q.column

instance (p q : Position) : Decidable (p.before q) := by
  unfold before; infer_instance

theorem before_trans {p q r : Position} (hpq : p.before q) (hqr : q.before r) : p.before r := by
  unfold before at *; omega

theorem before_advance (p : Position) (c : Char) : p.before (p.advance c) := by
  unfold before advance; split <;> simp

end Position

end StrategyScript
