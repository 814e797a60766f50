/-
Operators without parentheses. A chain is a row of operands with an operator between each two, where an
operand is a smallest expression behind any number of unary operators. A tree is grouped when it has no
other nodes, every operator stands above tighter ones, and operators of one rank are grouped from the
left. There is no more than one way to group a chain.
-/
import StrategyScript.Proofs.Syntax.Sign
import StrategyScript.Proofs.Syntax.Meet

namespace StrategyScript

/-! ## Chains -/

/-- How tight an operator is, from `or` up. -/
def BinaryOp.rank : BinaryOp → Nat
  | .or => 0
  | .and => 1
  | .equal | .notEqual => 2
  | .less | .lessEqual | .greater | .greaterEqual => 3
  | .add | .subtract => 4
  | .multiply | .divide => 5

/-- An expression of one token. -/
inductive Atom
  | number (value : Float)
  | string (value : String)
  | boolean (value : Bool)
  | name (name : String)

namespace Atom

def sign : Atom → Sign
  | number x => .number x
  | string s => .string s
  | boolean b => .boolean b
  | name x => .name x

def expr (p : Position) : Atom → Expr
  | number x => .number x p
  | string s => .string s p
  | boolean b => .boolean b p
  | name x => .identifier x p

end Atom

structure Operand where
  unary : List UnaryOp
  atom : Atom

/-- Operators with the operands on their right. -/
abbrev Links := List (BinaryOp × Operand)

structure Chain where
  first : Operand
  links : Links

def Operand.signs (x : Operand) : List Sign := x.unary.map .unary ++ [x.atom.sign]

def Links.signs (links : Links) : List Sign := links.flatMap fun (op, x) => .binary op :: x.signs

def Chain.signs (chain : Chain) : List Sign := chain.first.signs ++ chain.links.signs

def Chain.operands (chain : Chain) : List Operand := chain.first :: chain.links.map (·.2)

/-! ## Grouped trees -/

namespace Expr

/-- The operator with two operands at the root. -/
def root? : Expr → Option BinaryOp
  | .binary op _ _ _ => some op
  | _ => none

/-- Of the operators with two operands, none is looser than the one above it or stands below a unary one; only
on the left of an operator may there be one of the same rank. -/
inductive Grouped : Expr → Prop
  | atom (a : Atom) (p : Position) : Grouped (a.expr p)
  | unary (op : UnaryOp) (p : Position) {e : Expr} (h : e.Grouped) (hroot : e.root? = none) : Grouped (.unary op e p)
  | binary (op : BinaryOp) (p : Position) {left right : Expr} (hleft : left.Grouped) (hright : right.Grouped)
      (hle : ∀ o ∈ left.root?, op.rank ≤ o.rank) (hlt : ∀ o ∈ right.root?, op.rank < o.rank) :
    Grouped (.binary op left right p)

end Expr

@[simp] theorem Atom.signs_expr (a : Atom) (p : Position) : (a.expr p).signs = [a.sign] := by cases a <;> rfl

@[simp] theorem Atom.root_expr (a : Atom) (p : Position) : (a.expr p).root? = none := by cases a <;> rfl

theorem Atom.sign_injective {a b : Atom} (h : a.sign = b.sign) : a = b := by
  cases a <;> cases b <;> cases h <;> rfl

theorem Atom.sign_ne_unary (a : Atom) (op : UnaryOp) : a.sign ≠ .unary op := by cases a <;> nofun

theorem Atom.sign_ne_binary (a : Atom) (op : BinaryOp) : a.sign ≠ .binary op := by cases a <;> nofun

theorem Atom.expr_alike (a : Atom) (p q : Position) : (a.expr p).Alike (a.expr q) := by cases a <;> rfl

theorem Expr.binary_mem {op : BinaryOp} {left right : Expr} {p : Position} :
    .binary op ∈ (Expr.binary op left right p).signs :=
  List.mem_append_right _ List.mem_cons_self

namespace Expr.Grouped

variable {e f left right : Expr} {op : BinaryOp}

/-- The root is the loosest operator of a grouped tree. -/
theorem root_le (h : e.Grouped) {o : BinaryOp} (ho : .binary o ∈ e.signs) : ∃ root ∈ e.root?, root.rank ≤ o.rank := by
  induction h with
  | atom a p =>
    rw [a.signs_expr, List.mem_singleton] at ho
    exact absurd ho.symm (a.sign_ne_binary o)
  | unary op p h hroot ih =>
    rw [Expr.signs, List.mem_cons] at ho
    rcases ho with ho | ho
    · cases ho
    · obtain ⟨root, hmem, -⟩ := ih ho
      rw [hroot] at hmem
      cases hmem
  | binary op p hleft hright hle hlt ihleft ihright =>
    refine ⟨op, rfl, ?_⟩
    rw [Expr.signs, List.mem_append, List.mem_cons] at ho
    rcases ho with ho | ho | ho
    · obtain ⟨root, hmem, hroot⟩ := ihleft ho
      exact (hle root hmem).trans hroot
    · cases ho
      exact le_rfl
    · obtain ⟨root, hmem, hroot⟩ := ihright ho
      exact (hlt root hmem).le.trans hroot

theorem binary_not_mem (h : e.Grouped) (hroot : e.root? = none) (o : BinaryOp) : .binary o ∉ e.signs := by
  intro ho
  obtain ⟨root, hmem, -⟩ := h.root_le ho
  rw [hroot] at hmem
  cases hmem

/-- Read from the left, the root of one grouped tree is not before the root of another with the same signs:
each of the two operators would be tighter than the other. -/
theorem root_not_before {left' right' : Expr} {op' : BinaryOp} {between : List Sign} (hright : right.Grouped)
    (hlt : ∀ o ∈ right.root?, op.rank < o.rank) (hleft : left'.Grouped) (hle : ∀ o ∈ left'.root?, op'.rank ≤ o.rank)
    (hl : left'.signs = left.signs ++ between)
    (hr : .binary op :: right.signs = between ++ .binary op' :: right'.signs) :
    left.signs = left'.signs ∧ op = op' ∧ right.signs = right'.signs := by
  cases between with
  | nil =>
    rw [List.append_nil] at hl
    rw [List.nil_append, List.cons.injEq] at hr
    obtain ⟨hop, hsame⟩ := hr
    cases hop
    exact ⟨hl.symm, rfl, hsame⟩
  | cons sign between =>
    rw [List.cons_append, List.cons.injEq] at hr
    obtain ⟨rfl, hr⟩ := hr
    have hin : .binary op' ∈ right.signs := by simp [hr]
    have hin' : .binary op ∈ left'.signs := by simp [hl]
    obtain ⟨root, hroot, hroot'⟩ := hright.root_le hin
    obtain ⟨o, ho, ho'⟩ := hleft.root_le hin'
    have htighter := hlt root hroot
    have hlooser := hle o ho
    omega

/-- Grouped trees with the same signs are the same but for positions. -/
theorem unique (he : e.Grouped) (hf : f.Grouped) (h : e.signs = f.signs) : e.Alike f := by
  induction he generalizing f with
  | atom a p =>
    cases hf with
    | atom b q =>
      rw [a.signs_expr, b.signs_expr, List.singleton_inj] at h
      rw [Atom.sign_injective h]
      exact b.expr_alike p q
    | unary op q _ _ =>
      rw [a.signs_expr, Expr.signs, List.cons.injEq] at h
      exact absurd h.1 (a.sign_ne_unary op)
    | binary op q _ _ _ _ => exact absurd (h ▸ binary_mem) (binary_not_mem (.atom a p) (a.root_expr p) op)
  | unary op p he hroot ih =>
    cases hf with
    | atom b q =>
      rw [b.signs_expr, Expr.signs, List.cons.injEq] at h
      exact absurd h.1.symm (b.sign_ne_unary op)
    | unary op' q hf _ =>
      rw [Expr.signs, Expr.signs, List.cons.injEq] at h
      obtain ⟨hop, hsigns⟩ := h
      cases hop
      exact congrArg (Expr.unary op · _) (ih hf hsigns)
    | binary op' q _ _ _ _ => exact absurd (h ▸ binary_mem) (binary_not_mem (.unary op p he hroot) rfl op')
  | binary op p hleft hright hle hlt ihleft ihright =>
    cases hf with
    | atom b q => exact absurd (h ▸ binary_mem) (binary_not_mem (.atom b q) (b.root_expr q) op)
    | unary op' q hf hroot => exact absurd (h ▸ binary_mem) (binary_not_mem (.unary op' q hf hroot) rfl op)
    | binary op' q hleft' hright' hle' hlt' =>
      rw [Expr.signs, Expr.signs] at h
      rcases List.append_eq_append_iff.1 h with ⟨between, hl, hr⟩ | ⟨between, hl, hr⟩
      · obtain ⟨hsame, rfl, hsame'⟩ := root_not_before hright hlt hleft' hle' hl hr
        exact congrArg₂ (Expr.binary op · · _) (ihleft hleft' hsame) (ihright hright' hsame')
      · obtain ⟨hsame, rfl, hsame'⟩ := root_not_before hright' hlt' hleft hle hl hr
        exact congrArg₂ (Expr.binary _ · · _) (ihleft hleft' hsame.symm) (ihright hright' hsame'.symm)

end Expr.Grouped

end StrategyScript
