/-
The extremes of a row of numbers. Doubles are in order by the side of zero they are on, then by exponent and
mantissa; a NaN is not in the order. A search that begins with the infinity at one end and passes over NaNs ends at
a number of the row that no other one surpasses. Only where there are nothing but NaNs it ends where it has begun, at
an infinity that is not in the row.
-/
import StrategyScript.Proofs.Fault
import StrategyScript.Proofs.Number.Text
import StrategyScript.Run.Builtin
import Mathlib

namespace StrategyScript.Number

open Float.Model Float.Model.UnpackedFloat

/-! ## The order of doubles -/

/-- Where a number stands in the order. The two zeros stand at one place. -/
def rank : UnpackedFloat → ℤ ×ₗ ℤ ×ₗ ℤ
  | .infinity .negative => toLex (-2, toLex (0, 0))
  | .finite .negative m e _ => toLex (-1, toLex (-e, -m))
  | .zero _ | .notANumber => toLex (0, toLex (0, 0))
  | .finite .positive m e _ => toLex (1, toLex (e, m))
  | .infinity .positive => toLex (2, toLex (0, 0))

theorem then_eq_lt_iff {e e' : ℤ} {m m' : ℕ} :
    (compare e e').then (compare m m') = .lt ↔ e < e' ∨ e = e' ∧ m < m' := by
  rw [Ordering.then_eq_lt, Int.compare_eq_lt, Int.compare_eq_eq, Nat.compare_eq_lt]

theorem then_eq_gt_iff {e e' : ℤ} {m m' : ℕ} :
    (compare e e').then (compare m m') = .gt ↔ e' < e ∨ e = e' ∧ m' < m := by
  rw [Ordering.then_eq_gt, Int.compare_eq_gt, Int.compare_eq_eq, Nat.compare_eq_gt]

theorem unpacked_lt_iff (x y : UnpackedFloat) :
    x.lt y = true ↔ x ≠ .notANumber ∧ y ≠ .notANumber ∧ rank x < rank y := by
  unfold UnpackedFloat.lt
  -- The sides of zero decide, and on one side exponent and mantissa, which count backwards below zero.
  rcases x with (_ | _) | _ | _ | ⟨_ | _, m, e, hm⟩ <;> rcases y with (_ | _) | _ | _ | ⟨_ | _, m', e', hm'⟩ <;>
    simp [UnpackedFloat.compare, rank, Prod.Lex.toLex_lt_toLex, then_eq_lt_iff, then_eq_gt_iff]
  all_goals decide

/-- Only an infinity stands at the end of the order. -/
theorem rank_neg_infinity_lt : ∀ {u : UnpackedFloat}, u ≠ .infinity .negative → rank (.infinity .negative) < rank u
  | .infinity .negative, h => absurd rfl h
  | .infinity .positive, _ | .zero _, _ | .notANumber, _ | .finite .negative .., _ | .finite .positive .., _ => by
    simp [rank, Prod.Lex.toLex_lt_toLex]

theorem rank_lt_infinity : ∀ {u : UnpackedFloat}, u ≠ .infinity .positive → rank u < rank (.infinity .positive)
  | .infinity .positive, h => absurd rfl h
  | .infinity .negative, _ | .zero _, _ | .notANumber, _ | .finite .negative .., _ | .finite .positive .., _ => by
    simp [rank, Prod.Lex.toLex_lt_toLex]

section

variable {x y z : Float}

theorem lt_iff : x < y ↔ x.isNaN = false ∧ y.isNaN = false ∧ rank x.toModel.unpack < rank y.toModel.unpack := by
  rw [isNaN_eq_false_iff, isNaN_eq_false_iff, ← unpacked_lt_iff]
  exact ⟨fun h => of_decide_eq_true h, fun h => decide_eq_true h⟩

theorem not_isNaN_of_lt (h : x < y) : x.isNaN = false ∧ y.isNaN = false :=
  ⟨(lt_iff.1 h).1, (lt_iff.1 h).2.1⟩

theorem not_lt_self (x : Float) : ¬ x < x := fun h => (lt_iff.1 h).2.2.ne rfl

theorem lt_chain (hxy : x < y) (hyz : y < z) : x < z := by
  obtain ⟨hx, -, hlow⟩ := lt_iff.1 hxy
  obtain ⟨-, hz, hhigh⟩ := lt_iff.1 hyz
  exact lt_iff.2 ⟨hx, hz, hlow.trans hhigh⟩

theorem beq_of_unpack_eq (h : x.toModel.unpack = y.toModel.unpack) (hx : x.isNaN = false) : (x == y) = true := by
  have hself : (x == x) = true := by simpa using hx
  show UnpackedFloat.beq x.toModel.unpack y.toModel.unpack = true
  rw [← h]
  exact hself

theorem neg_infinity_lt (hx : x.isNaN = false) (hne : x.toModel.unpack ≠ .infinity .negative) : -infinity < x := by
  refine lt_iff.2 ⟨by decide, hx, ?_⟩
  exact rank_neg_infinity_lt hne

theorem lt_infinity (hx : x.isNaN = false) (hne : x.toModel.unpack ≠ .infinity .positive) : x < infinity := by
  refine lt_iff.2 ⟨hx, by decide, ?_⟩
  exact rank_lt_infinity hne

end

/-! ## The search -/

/-- The one of two numbers that surpasses the other; a NaN gives way. -/
def prefer (beats : Float → Float → Prop) [DecidableRel beats] (x y : Float) : Float :=
  if x.isNaN then y else if y.isNaN then x else if beats y x then y else x

/-- A relation by which numbers surpass each other, and a number behind all others to begin with. -/
structure Searchable (beats : Float → Float → Prop) (start : Float) : Prop where
  irrefl : ∀ x, ¬ beats x x
  trans : ∀ {x y z}, beats x y → beats y z → beats x z
  number : ∀ {x y}, beats x y → x.isNaN = false
  start_number : start.isNaN = false
  last : ∀ {x}, x.isNaN = false → ¬ beats x start → (start == x) = true

theorem searchable_greatest : Searchable (fun x y => y < x) (-infinity) where
  irrefl := not_lt_self
  trans hxy hyz := lt_chain hyz hxy
  number h := (not_isNaN_of_lt h).2
  start_number := by decide
  last hx hlast := by
    have hend := not_imp_comm.1 (neg_infinity_lt hx) hlast
    exact beq_of_unpack_eq hend.symm (by decide)

theorem searchable_least : Searchable (· < ·) infinity where
  irrefl := not_lt_self
  trans := lt_chain
  number h := (not_isNaN_of_lt h).1
  start_number := by decide
  last hx hlast := by
    have hend := not_imp_comm.1 (lt_infinity hx) hlast
    exact beq_of_unpack_eq hend.symm (by decide)

theorem largest_eq (xs : List Float) : largest xs = xs.foldl (prefer fun x y => y < x) (-infinity) := rfl

theorem smallest_eq (xs : List Float) : smallest xs = xs.foldl (prefer (· < ·)) infinity := rfl

/-- What a search through a row ends at that has begun with a number `m`. -/
structure Found (beats : Float → Float → Prop) (m : Float) (xs : List Float) (best : Float) : Prop where
  number : best.isNaN = false
  mem : best ∈ m :: xs
  behind : ∀ {y}, beats y best → beats y m
  unsurpassed : ∀ y ∈ xs, ¬ beats y best

section

variable {beats : Float → Float → Prop} [DecidableRel beats] {start m x : Float} {xs : List Float}

theorem Searchable.prefer (h : Searchable beats start) (hm : m.isNaN = false) (x : Float) :
    Found beats m [x] (prefer beats m x) := by
  rw [Number.prefer, if_neg (by rw [hm]; exact Bool.false_ne_true)]
  split
  · rename_i hx
    refine ⟨hm, List.mem_cons_self, id, List.forall_mem_singleton.2 fun hbeats => ?_⟩
    exact absurd hx (by rw [h.number hbeats]; exact Bool.false_ne_true)
  · split
    · rename_i hx hbeats
      refine ⟨h.number hbeats, List.mem_cons_of_mem _ List.mem_cons_self, fun hy => h.trans hy hbeats, ?_⟩
      exact List.forall_mem_singleton.2 (h.irrefl x)
    · rename_i hbeats
      exact ⟨hm, List.mem_cons_self, id, List.forall_mem_singleton.2 hbeats⟩

/-- The search is never worse off than where it has begun. -/
theorem Searchable.foldl (h : Searchable beats start) (hm : m.isNaN = false) (xs : List Float) :
    Found beats m xs (xs.foldl (Number.prefer beats) m) := by
  induction xs generalizing m with
  | nil => exact ⟨hm, List.mem_cons_self, id, List.forall_mem_nil _⟩
  | cons x xs ih =>
    obtain ⟨hnumber, hstep, hbehind, hx⟩ := h.prefer hm x
    obtain ⟨hbest, hmem, hrest, hxs⟩ := ih hnumber
    refine ⟨hbest, ?_, fun hy => hbehind (hrest hy), List.forall_mem_cons.2 ⟨fun hbeats => ?_, hxs⟩⟩
    · rcases List.mem_cons.1 hmem with heq | hmem
      · rw [List.foldl_cons, heq]
        exact List.mem_append_left xs hstep
      · exact List.mem_append_right [m, x] hmem
    · exact hx x List.mem_cons_self (hrest hbeats)

/-- The number is in the row, whatever the sign of a zero and the bits of a NaN. -/
def OneOf (x : Float) (xs : List Float) : Prop :=
  ∃ y ∈ xs, (x == y) = true ∨ x.isNaN = true ∧ y.isNaN = true

theorem OneOf.of_mem (h : x ∈ xs) : OneOf x xs := by
  refine ⟨x, h, ?_⟩
  by_cases hx : x.isNaN = true
  · exact .inr ⟨hx, hx⟩
  · exact .inl (by simpa using hx)

/-- A search from the end of the order ends in the row, unless there are only NaNs there. -/
theorem Searchable.oneOf (h : Searchable beats start) (hnumber : ∃ y ∈ xs, y.isNaN = false) :
    OneOf (xs.foldl (Number.prefer beats) start) xs := by
  obtain ⟨-, hmem, -, hall⟩ := h.foldl h.start_number xs
  generalize xs.foldl (Number.prefer beats) start = best at *
  rcases List.mem_cons.1 hmem with rfl | hmem
  · obtain ⟨y, hy, hynan⟩ := hnumber
    exact ⟨y, hy, .inl (h.last hynan (hall y hy))⟩
  · exact .of_mem hmem

theorem Searchable.eq_start (h : Searchable beats start) (hnan : ∀ y ∈ xs, y.isNaN = true) :
    xs.foldl (Number.prefer beats) start = start := by
  obtain ⟨hnumber, hmem, -, -⟩ := h.foldl h.start_number xs
  refine (List.mem_cons.1 hmem).resolve_right fun hmem => ?_
  rw [hnan _ hmem] at hnumber
  cases hnumber

end

end StrategyScript.Number

namespace StrategyScript.Builtin

open Argument Number

section

variable (market : Market) (log : TradeLog) {xs : List Float}

theorem numbers_map (hne : xs ≠ []) : numbers (xs.map .number) = .ok xs := by
  rw [numbers, if_neg (by simpa using hne), mapM_eq_ok_iff, List.forall₂_map_left_iff, List.forall₂_same]
  exact fun _ _ => rfl

theorem apply_max (hne : xs ≠ []) : apply .max market log (xs.map .number) =
    .ok (.number (xs.foldl (prefer fun x y => y < x) (-infinity)), log) := by
  rw [← largest_eq]
  simp only [apply, apply.reading, numbers_map hne, Except.map]

theorem apply_min (hne : xs ≠ []) : apply .min market log (xs.map .number) =
    .ok (.number (xs.foldl (prefer (· < ·)) infinity), log) := by
  rw [← smallest_eq]
  simp only [apply, apply.reading, numbers_map hne, Except.map]

/-! ## Main statement -/

/-- Of one number or more `max` gives one that no other is greater than, and `min` one that no other is less than.
They are among the numbers, unless all of these are NaNs: then they are the infinities at the far ends. -/
theorem extremes_of_numbers (hne : xs ≠ []) :
    ∃ greatest least : Float,
      apply .max market log (xs.map .number) = .ok (.number greatest, log) ∧
      apply .min market log (xs.map .number) = .ok (.number least, log) ∧
      (∀ y ∈ xs, ¬ greatest < y) ∧ (∀ y ∈ xs, ¬ y < least) ∧
      if ∀ y ∈ xs, y.isNaN = true then greatest = -infinity ∧ least = infinity
      else OneOf greatest xs ∧ OneOf least xs := by
  have hmax := searchable_greatest.foldl searchable_greatest.start_number xs
  have hmin := searchable_least.foldl searchable_least.start_number xs
  refine ⟨_, _, apply_max market log hne, apply_min market log hne, hmax.unsurpassed, hmin.unsurpassed, ?_⟩
  split
  · rename_i hnan
    exact ⟨searchable_greatest.eq_start hnan, searchable_least.eq_start hnan⟩
  · rename_i hnan
    have hnumber : ∃ y ∈ xs, y.isNaN = false := by simpa using hnan
    exact ⟨searchable_greatest.oneOf hnumber, searchable_least.oneOf hnumber⟩

end

/-- Among a NaN, both zeros and an infinity the first zero is the greatest, and the infinity is the least. -/
theorem extremes_among_zeros :
    let xs := [notANumber, -0.0, -infinity, 0.0]
    xs ≠ [] ∧ apply .max .empty .empty (xs.map .number) = .ok (.number (-0.0), .empty) ∧
      apply .min .empty .empty (xs.map .number) = .ok (.number (-infinity), .empty) ∧
      (∀ y ∈ xs, ¬ -0.0 < y) ∧ (∀ y ∈ xs, ¬ y < -infinity) ∧ OneOf (-0.0) xs ∧ OneOf (-infinity) xs := by
  intro xs
  have hne : xs ≠ [] := List.cons_ne_nil _ _
  have hnumber : ¬ ∀ y ∈ xs, y.isNaN = true := by decide
  have hmax : apply .max .empty .empty (xs.map .number) = .ok (.number (-0.0), .empty) := rfl
  have hmin : apply .min .empty .empty (xs.map .number) = .ok (.number (-infinity), .empty) := rfl
  obtain ⟨greatest, least, hgreatest, hleast, habove, hbelow, hin⟩ := extremes_of_numbers .empty .empty hne
  obtain rfl : -0.0 = greatest := by simpa using hmax.symm.trans hgreatest
  obtain rfl : -infinity = least := by simpa using hmin.symm.trans hleast
  rw [if_neg hnumber] at hin
  exact ⟨hne, hmax, hmin, habove, hbelow, hin⟩

/-- The extremes of a NaN alone are the infinities, which are not among the arguments. -/
theorem extremes_of_nan_alone :
    let xs := [notANumber]
    apply .max .empty .empty (xs.map .number) = .ok (.number (-infinity), .empty) ∧ ¬ OneOf (-infinity) xs ∧
      apply .min .empty .empty (xs.map .number) = .ok (.number infinity, .empty) ∧ ¬ OneOf infinity xs := by
  intro xs
  refine ⟨rfl, ?_, rfl, ?_⟩
  all_goals
    rintro ⟨y, hy, hy'⟩
    rw [List.mem_singleton.1 hy] at hy'
    revert hy'
    decide

end StrategyScript.Builtin
