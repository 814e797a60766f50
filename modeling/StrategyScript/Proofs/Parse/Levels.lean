/-
The limit of nesting holds on every program that is read. A parser that takes the levels that are left
gives no expression and no statement with more of them inside.
-/
import StrategyScript.Proofs.Parse.Yield

namespace StrategyScript

namespace Parse

theorem atom_levels {t : Token} {e : Expr} (h : atom? t = .ok e) : e.levels = 0 := by
  simp only [atom?] at h
  split at h
  case h_1 | h_4 =>
    split at h <;> cases h
    rfl
  case h_2 => cases h; rfl
  case h_3 =>
    split at h
    · cases h; rfl
    · split at h <;> cases h <;> rfl
  case h_5 => cases h

end Parse

section

variable {s : Sides} {n k : Nat}

/-- Operators do not use up a level, but what stands inside does. -/
theorem Expr.Made.levels_le {e f : Expr} (h : Made s (fun e _ => e.levels < n) k e f) : e.levels ≤ n := by
  induction h with
  | atom _ _ he _ =>
    rw [Parse.atom_levels he]
    exact Nat.zero_le n
  | parens h => exact Nat.le_of_lt h
  | call _ hargs _ => exact Expr.levelsAll_le.2 (forall_mem_of_forall₂ hargs fun _ _ he => he)
  | index _ hi ih => exact Nat.max_le.2 ⟨ih, hi⟩
  | unary _ h => exact h
  | looser _ ih => exact ih
  | binary _ _ _ ihl ihr => exact Nat.max_le.2 ⟨ihl, ihr⟩
  | assign _ hv _ => exact hv

theorem Stmt.Made.levels_le {t u : Stmt} {w : s.Place}
    (h : Made s (fun e _ => e.levels < n) (fun t _ _ => t.levels < n) t u w) : t.levels ≤ n := by
  have hparts := h.parts (S := fun t _ => t.levels < n)
  refine Stmt.levels_le.2 ⟨hparts.slots, fun u hu => ?_⟩
  obtain ⟨_, hlevels⟩ := hparts.inner u hu
  exact hlevels

end

/-- No way down in a program has more levels than may be nested. -/
theorem Parse.program_levels {tokens : List Token} {p : Program} (hp : program tokens = .ok p) :
    Stmt.levelsAll p ≤ maxNesting := by
  refine Stmt.levelsAll_le.2 fun t ht => ?_
  obtain ⟨_, hlevels⟩ := Sides.oneRow_same.program (R := fun n e => e.levels < n) (S := fun n t _ => t.levels < n)
    (fun _ _ _ h => Nat.lt_succ_of_le h.levels_le) (fun _ _ _ _ h => Nat.lt_succ_of_le h.levels_le)
    (.of (.ofTokens tokens)) rfl hp t ht
  exact hlevels

end StrategyScript
