/-
Computations that may fail, read from their results to what was computed before.
-/
import Mathlib.Data.List.Forall2

namespace StrategyScript

section

variable {ε α β : Type}

/-- A computation that has succeeded has done so step by step. -/
theorem bind_eq_ok {r : Except ε α} {f : α → Except ε β} {b : β} (h : (r >>= f) = .ok b) :
    ∃ a, r = .ok a ∧ f a = .ok b := by
  cases r with
  | error e => cases h
  | ok a => exact ⟨a, rfl, h⟩

/-! ## Lists of computations -/

variable {f : α → Except ε β} {xs : List α}

/-- All of them succeed, each with its result. -/
theorem mapM_eq_ok_iff {ys : List β} : xs.mapM f = .ok ys ↔ List.Forall₂ (fun x y => f x = .ok y) xs ys := by
  induction xs generalizing ys with
  | nil => cases ys <;> simp [pure, Except.pure]
  | cons x xs ih =>
    rw [List.mapM_cons]
    constructor
    · intro h
      obtain ⟨y, hy, h⟩ := bind_eq_ok h
      obtain ⟨ys, hys, h⟩ := bind_eq_ok h
      cases h
      exact .cons hy (ih.1 hys)
    · rintro (_ | ⟨hy, hys⟩)
      rw [hy, ih.2 hys]
      rfl

/-- The first one that fails decides. -/
theorem mapM_eq_error_iff {e : ε} :
    xs.mapM f = .error e ↔ ∃ (i : Nat) (x : α), xs[i]? = some x ∧ f x = .error e ∧
      ∀ j < i, ∀ w, xs[j]? = some w → ∃ y, f w = .ok y := by
  induction xs with
  | nil => simp [pure, Except.pure]
  | cons x xs ih =>
    rw [List.mapM_cons]
    cases hx : f x with
    | error e' =>
      constructor
      · intro h
        cases h
        exact ⟨0, x, rfl, hx, fun j hj => absurd hj (Nat.not_lt_zero j)⟩
      · rintro ⟨i, w, hw, he, hbefore⟩
        cases i with
        | zero =>
          cases hw
          cases hx.symm.trans he
          rfl
        | succ i =>
          obtain ⟨y, hy⟩ := hbefore 0 (Nat.succ_pos i) x rfl
          rw [hx] at hy
          cases hy
    | ok y =>
      have hstep : ((Except.ok y >>= fun z => xs.mapM f >>= fun zs => pure (z :: zs)) = Except.error e) ↔
          xs.mapM f = .error e := by
        cases xs.mapM f with
        | error e' => exact Iff.rfl
        | ok zs => exact iff_of_false nofun nofun
      rw [hstep, ih]
      constructor
      · rintro ⟨i, w, hw, he, hbefore⟩
        refine ⟨i + 1, w, hw, he, fun j hj v hv => ?_⟩
        cases j with
        | zero =>
          cases hv
          exact ⟨y, hx⟩
        | succ j => exact hbefore j (Nat.lt_of_succ_lt_succ hj) v hv
      · rintro ⟨i, w, hw, he, hbefore⟩
        cases i with
        | zero =>
          cases hw
          rw [hx] at he
          cases he
        | succ i => exact ⟨i, w, hw, he, fun j hj => hbefore (j + 1) (Nat.succ_lt_succ hj)⟩

end

end StrategyScript
