/-
What the limit of nesting limits. A level is used up where the grammar becomes deeper: by parentheses,
arguments, indices, assigned values and the operand of a unary operator. So the depth of every tree is
bounded, by seven nodes a level at most, one for a unary operator, a call or an index and one for each
rank of operators. Where a loop reads on, no level is used up, and the height of trees has no bound.
-/
import StrategyScript.Proofs.Syntax.Height
import StrategyScript.Proofs.Parse.Chain
import StrategyScript.Proofs.Parse.Yield
import StrategyScript.Proofs.Token.Item

namespace StrategyScript

open StrategyScript.Parser

namespace Parse

/-! ## Depth of expressions -/

theorem atom_depth {t : Token} {e : Expr} (h : atom? t = .ok e) : e.depth = 1 := by
  simp only [atom?] at h
  split at h
  case h_1 | h_4 =>
    split at h
    · cases h
      rfl
    · cases h
  case h_2 =>
    cases h
    rfl
  case h_3 =>
    split at h
    · cases h
      rfl
    · split at h
      · cases h
        rfl
      · cases h
        rfl
  case h_5 => cases h

end Parse

section

variable {s : Sides} {m n k : Nat}

/-- A unary operator, a call or an index is one node more, and so is each rank of operators. -/
theorem Expr.Made.depth_le {e f : Expr} (h : Made s (fun e _ => e.depth ≤ m) k e f) : e.depth ≤ m + 1 + k := by
  induction h with
  | atom _ _ he _ =>
    rw [Parse.atom_depth he]
    omega
  | parens h => omega
  | call _ hargs _ => exact Nat.succ_le_succ (depthAll_le (forall_mem_of_forall₂ hargs fun _ _ he => he))
  | index _ hi ih => exact Nat.max_le.2 ⟨ih, Nat.succ_le_succ hi⟩
  | unary _ h => exact Nat.succ_le_succ h
  | looser _ ih => exact Nat.le_succ_of_le ih
  | binary _ _ _ ihl ihr => exact Nat.max_le.2 ⟨ihl, Nat.succ_le_succ ihr⟩
  | @assign k x p q v w _ hv _ =>
    have hdepth : (Expr.assign x v p).depth = v.depth + 1 := rfl
    omega

/-- What is true of every expression that is read is true of all expressions in a statement. -/
theorem MadeOf.slots_inside {R : Expr → Prop} {t : Stmt} (h : MadeOf R (fun t => ∀ e ∈ t.slots, R e) t) :
    ∀ e ∈ t.slots, R e := by
  intro e he
  rcases Stmt.mem_slots.1 he with he | ⟨t, ht, he⟩
  · exact h.slots e he
  · exact h.inner t ht e he

theorem Stmt.Made.depth_le {t u : Stmt} {w : s.Place}
    (h : Made s (fun e _ => e.depth ≤ 7 * n) (fun t _ _ => ∀ e ∈ t.slots, e.depth ≤ 7 * (n - 1)) t u w) :
    ∀ e ∈ t.slots, e.depth ≤ 7 * n := by
  have hparts := h.parts (S := fun t _ => ∀ e ∈ t.slots, e.depth ≤ 7 * (n - 1))
  refine MadeOf.slots_inside ⟨hparts.slots, fun u hu e he => ?_, hparts.trade⟩
  obtain ⟨_, hinner⟩ := hparts.inner u hu
  exact (hinner e he).trans (by omega)

end

namespace Parse

/-- No expression of a program is deeper than seven nodes for each level that the limit of nesting leaves to
expressions. -/
theorem source_depth_le {text : String} {p : Program} (h : source text = .ok p) :
    ∀ e ∈ Stmt.slotsAll p, e.depth ≤ 7 * (maxNesting - 1) := by
  intro e he
  rw [Stmt.slotsAll_eq] at he
  obtain ⟨s, hs, hes⟩ := List.mem_flatMap.1 he
  obtain ⟨_, hdepth⟩ := Sides.oneRow_same.program (R := fun n e => e.depth ≤ 7 * n)
    (S := fun n t _ => ∀ e ∈ t.slots, e.depth ≤ 7 * (n - 1)) (fun n e f h => h.depth_le.trans (by omega))
    (fun n t u w h => h.depth_le) (.of (.ofTokens (Lexer.tokens text))) rfl h s hs
  exact hdepth e hes

theorem declared_sum_depth_le :
    ∃ p, source "var x = a + b + -(c + d)[e]" = .ok p ∧ ∀ e ∈ Stmt.slotsAll p, e.depth ≤ 7 * (maxNesting - 1) := by
  obtain ⟨p, hp⟩ : ∃ p, source "var x = a + b + -(c + d)[e]" = .ok p := ⟨_, rfl⟩
  exact ⟨p, hp, source_depth_le hp⟩

/-! ## Height of expressions -/

def one : Lexer.Item :=
  .numeral "1" ⟨['1'], List.cons_ne_nil _ _, List.forall_mem_singleton.2 rfl, .inl rfl⟩

/-- A sum of ones, with `n` plus signs. -/
def ones : Nat → List Lexer.Item
  | 0 => [one]
  | n + 1 => one :: .symbol .plus :: ones n

/-- The same as a chain, where `x` is the value of one. -/
def sumOf (x : Float) (n : Nat) : Chain := ⟨⟨[], .number x⟩, .replicate n (.add, ⟨[], .number x⟩)⟩

theorem ones_kept {x : Float} (hx : Number.readFloat "1" = .ok x) {n : Nat} {ls : List Lexeme}
    (h : List.Forall₂ (fun i l => Lexer.Item.Is l i) (ones n) ls) :
    List.Forall₂ (fun sign l => l.KeptAs sign) (sumOf x n).signs ls := by
  induction n generalizing ls with
  | zero =>
    obtain _ | ⟨hone, hnil⟩ := h
    cases hnil
    cases hone
    exact .cons ⟨rfl, hx⟩ .nil
  | succ n ih =>
    obtain _ | ⟨hone, hrest⟩ := h
    obtain _ | ⟨hplus, hrest⟩ := hrest
    cases hone
    cases hplus
    exact .cons ⟨rfl, hx⟩ (.cons rfl (ih hrest))

theorem sum_signs (x : Float) (n : Nat) :
    (sumOf x n).signs = .number x :: (List.replicate n [Sign.binary .add, .number x]).flatten := by
  simp [sumOf, Chain.signs, Links.signs, Operand.signs, Atom.sign, List.flatMap_def]

theorem sum_height (n : Nat) : ∃ text e, source text = .ok [.expr e] ∧ n < e.height := by
  obtain ⟨x, hx⟩ : ∃ x, Number.readFloat "1" = .ok x := ⟨_, rfl⟩
  let text := String.ofList (Lexer.written (ones n))
  have hkept : List.Forall₂ (fun sign l => l.KeptAs sign) (sumOf x n).signs (Lexer.lexemes text.toList) := by
    rw [String.toList_ofList]
    exact ones_kept hx (Lexer.lexemes_written (ones n))
  have hunary : ∀ y ∈ (sumOf x n).operands, y.unary.length + 2 ≤ maxNesting := by
    simp [sumOf, Chain.operands, maxNesting]
  have htrade : ∀ l ∈ (Lexer.lexemes text.toList).head?, ∀ action, l.kind ≠ .keyword (.trade action) := by
    generalize Lexer.lexemes text.toList = ls at hkept
    obtain _ | ⟨⟨hkind, -⟩, -⟩ := hkept
    rintro _ ⟨⟩
    rw [hkind]
    intro action htrade
    cases htrade
  obtain ⟨e, he, hgroups⟩ := source_chain hkept hunary htrade
  have hadd : ∀ o, .binary o ∈ e.signs → o = .add := by
    intro o ho
    rw [hgroups.signs, sum_signs] at ho
    have hsome : ¬n = 0 ∧ o = .add := by simpa using ho
    exact hsome.2
  have hcount : e.signs.countP Sign.isBinary = n := by
    rw [hgroups.signs, sum_signs]
    simp [Sign.isBinary, List.countP_flatten, List.countP_cons]
  have hheight := hgroups.grouped.lt_height fun o o' ho ho' => by rw [hadd o ho, hadd o' ho']
  rw [hcount] at hheight
  exact ⟨text, e, he, hheight⟩

/-- The height of trees has no bound: a sum is as high as it is long. -/
theorem height_unbounded : ¬ ∃ bound, ∀ text p, source text = .ok p → ∀ e ∈ Stmt.slotsAll p, e.height ≤ bound := by
  rintro ⟨bound, hbound⟩
  obtain ⟨text, e, he, hlt⟩ := sum_height bound
  exact (hbound text _ he e (List.mem_singleton_self e)).not_gt hlt

end Parse

end StrategyScript
