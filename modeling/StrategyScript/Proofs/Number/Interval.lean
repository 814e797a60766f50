/-
The rounding interval of a double. The digits that are found for it lie in the interval, whichever grid they are
found on, and one of the thirty grids is fine enough. The intervals of two doubles have no point in common: where one
ends and the other begins only the even mantissa has the end. So the digits are those of one double alone.
-/
import StrategyScript.Number.Shortest
import Mathlib.Tactic
import Mathlib.Data.Rat.Defs

namespace StrategyScript.Number

/-- The number that the digits stand for. -/
def Decimal.value (d : Decimal) : ℚ := d.digits * 10 ^ d.exponent

namespace Binary

/-- A quarter of the last place of the mantissa. -/
def quarter (b : Binary) : ℚ := 2 ^ (b.exponent - 2)

theorem quarter_pos (b : Binary) : 0 < b.quarter := zpow_pos (by norm_num) _

/-- The number lies in the rounding interval. -/
structure Holds (b : Binary) (v : ℚ) : Prop where
  lower : b.lowerEnd * b.quarter < v ∨ b.closed = true ∧ b.lowerEnd * b.quarter = v
  upper : v < b.upperEnd * b.quarter ∨ b.closed = true ∧ v = b.upperEnd * b.quarter

section

variable {b : Binary} {p : Int}

/-! ## Grids -/

/-- The multiples of `10^p` and the quarters, both as natural numbers, have the same factor to what they stand for. -/
theorem exists_scale (b : Binary) (p : Int) : ∃ K : ℚ, 0 < K ∧
    ((Nat.pow 2 (b.exponent - 2).toNat * Nat.pow 10 (-p).toNat : Nat) : ℚ) = b.quarter * K ∧
    ((Nat.pow 10 p.toNat * Nat.pow 2 (2 - b.exponent).toNat : Nat) : ℚ) = 10 ^ p * K := by
  have hten : (10 : ℚ) ^ p * 10 ^ (-p).toNat = 10 ^ p.toNat := by
    rw [← zpow_natCast, ← zpow_natCast, ← zpow_add₀ (by norm_num)]
    congr 1
    omega
  have htwo : b.quarter * (2 : ℚ) ^ (2 - b.exponent).toNat = 2 ^ (b.exponent - 2).toNat := by
    rw [quarter, ← zpow_natCast, ← zpow_natCast, ← zpow_add₀ (by norm_num)]
    congr 1
    omega
  refine ⟨10 ^ (-p).toNat * 2 ^ (2 - b.exponent).toNat, by positivity, ?_, ?_⟩
  · push_cast [Nat.pow_eq]
    rw [← htwo]
    ring
  · push_cast [Nat.pow_eq]
    rw [← hten]
    ring

theorem lowerEnd_le (b : Binary) : b.lowerEnd ≤ b.quarters := by
  unfold lowerEnd
  split <;> exact Nat.sub_le _ _

/-- Of the two neighbours of the value the one below is certain to be under the upper end, and the one above over the
lower end, so that each has one end to be held against. -/
theorem fits_of_onGrid {n scale unit : Nat} (hs : scale = Nat.pow 2 (b.exponent - 2).toNat * Nat.pow 10 (-p).toNat)
    (hu : unit = Nat.pow 10 p.toNat * Nat.pow 2 (2 - b.exponent).toNat) (h : b.onGrid p = some n) :
    (b.lowerEnd * scale < n * unit ∨ b.closed = true ∧ b.lowerEnd * scale = n * unit) ∧
      (n * unit < b.upperEnd * scale ∨ b.closed = true ∧ n * unit = b.upperEnd * scale) := by
  have hscale : 0 < scale := hs ▸ Nat.mul_pos (Nat.pow_pos (by decide)) (Nat.pow_pos (by decide))
  have hunit : 0 < unit := hu ▸ Nat.mul_pos (Nat.pow_pos (by decide)) (Nat.pow_pos (by decide))
  unfold onGrid at h
  rw [← hs, ← hu] at h
  dsimp only at h
  have hbelow : b.quarters * scale / unit * unit ≤ b.quarters * scale := Nat.div_mul_le_self _ _
  have habove : b.quarters * scale < (b.quarters * scale / unit + 1) * unit :=
    Nat.lt_mul_of_div_lt (Nat.lt_succ_self _) hunit
  have hlow : b.lowerEnd * scale ≤ b.quarters * scale := Nat.mul_le_mul_right _ b.lowerEnd_le
  have hhigh : b.quarters * scale < b.upperEnd * scale := Nat.mul_lt_mul_of_pos_right (by simp [upperEnd]) hscale
  generalize b.quarters * scale / unit = below at *
  have hfits : (n = below ∧ (b.lowerEnd * scale < n * unit ∨ b.closed = true ∧ b.lowerEnd * scale = n * unit)) ∨
      (n = below + 1 ∧ (n * unit < b.upperEnd * scale ∨ b.closed = true ∧ n * unit = b.upperEnd * scale)) := by
    simp only [Bool.or_eq_true, Bool.and_eq_true, decide_eq_true_eq, beq_iff_eq] at h
    split_ifs at h with hboth hnearer hfirst hsecond <;> cases h
    · exact .inl ⟨rfl, hboth.1⟩
    · exact .inr ⟨rfl, hboth.2⟩
    · exact .inl ⟨rfl, hfirst⟩
    · exact .inr ⟨rfl, hsecond⟩
  rcases hfits with ⟨rfl, hlower⟩ | ⟨rfl, hupper⟩
  · exact ⟨hlower, .inl (hbelow.trans_lt hhigh)⟩
  · exact ⟨.inl (hlow.trans_lt habove), hupper⟩

/-- Natural numbers with one factor to two numbers are in the order of those. -/
theorem lt_iff_of_scale {m n : Nat} {v w K : ℚ} (hK : 0 < K) (hm : (m : ℚ) = v * K) (hn : (n : ℚ) = w * K) :
    m < n ↔ v < w := by
  rw [← Nat.cast_lt (α := ℚ), hm, hn, mul_lt_mul_iff_of_pos_right hK]

theorem eq_iff_of_scale {m n : Nat} {v w K : ℚ} (hK : 0 < K) (hm : (m : ℚ) = v * K) (hn : (n : ℚ) = w * K) :
    m = n ↔ v = w := by
  rw [← Nat.cast_inj (R := ℚ), hm, hn, mul_left_inj' hK.ne']

/-- What is found on a grid lies in the interval. -/
theorem holds_of_onGrid {n : Nat} (h : b.onGrid p = some n) : b.Holds (n * 10 ^ p) := by
  obtain ⟨K, hK, hscale, hunit⟩ := exists_scale b p
  obtain ⟨hlower, hupper⟩ := fits_of_onGrid rfl rfl h
  have hend : ∀ k : Nat, ((k * (Nat.pow 2 (b.exponent - 2).toNat * Nat.pow 10 (-p).toNat) : Nat) : ℚ) =
      k * b.quarter * K := fun k => by rw [Nat.cast_mul, hscale, mul_assoc]
  have hdigits : ((n * (Nat.pow 10 p.toNat * Nat.pow 2 (2 - b.exponent).toNat) : Nat) : ℚ) = n * 10 ^ p * K := by
    rw [Nat.cast_mul, hunit, mul_assoc]
  constructor
  · rwa [lt_iff_of_scale hK (hend _) hdigits, eq_iff_of_scale hK (hend _) hdigits] at hlower
  · rwa [lt_iff_of_scale hK hdigits (hend _), eq_iff_of_scale hK hdigits (hend _)] at hupper

/-- On a grid no wider than a quarter the upper neighbour is in the interval at the latest. -/
theorem isSome_onGrid (h : (10 : ℚ) ^ p ≤ b.quarter) : (b.onGrid p).isSome := by
  obtain ⟨K, hK, hscale, hunit⟩ := exists_scale b p
  have hfine : Nat.pow 10 p.toNat * Nat.pow 2 (2 - b.exponent).toNat ≤
      Nat.pow 2 (b.exponent - 2).toNat * Nat.pow 10 (-p).toNat := by
    rw [← Nat.cast_le (α := ℚ), hscale, hunit]
    exact mul_le_mul_of_nonneg_right h hK.le
  have hpos : 0 < Nat.pow 2 (b.exponent - 2).toNat * Nat.pow 10 (-p).toNat :=
    Nat.mul_pos (Nat.pow_pos (by decide)) (Nat.pow_pos (by decide))
  unfold onGrid
  dsimp only
  generalize Nat.pow 2 (b.exponent - 2).toNat * Nat.pow 10 (-p).toNat = scale at *
  generalize Nat.pow 10 p.toNat * Nat.pow 2 (2 - b.exponent).toNat = unit at *
  have hbelow : b.quarters * scale / unit * unit ≤ b.quarters * scale := Nat.div_mul_le_self _ _
  have habove : (b.quarters * scale / unit + 1) * unit < b.upperEnd * scale := by
    rw [upperEnd, add_mul, add_mul]
    omega
  simp only [habove, decide_true, Bool.true_or, Bool.and_true, if_true]
  split_ifs <;> rfl

/-! ## The search -/

/-- If one of the grids has a hit, what is found is a hit on its grid. -/
theorem onGrid_firstGrid {n k : Nat} (hk : k < n) (h : (b.onGrid (p - k)).isSome) :
    b.onGrid (b.firstGrid n p).exponent = some (b.firstGrid n p).digits := by
  induction n generalizing p k with
  | zero => exact absurd hk (Nat.not_lt_zero k)
  | succ n ih =>
    unfold firstGrid
    cases hp : b.onGrid p with
    | some digits => exact hp
    | none =>
      cases k with
      | zero =>
        rw [Nat.cast_zero, sub_zero, hp] at h
        cases h
      | succ k =>
        refine ih (Nat.lt_of_succ_lt_succ hk) ?_
        rwa [Nat.cast_succ, add_comm, ← sub_sub] at h

theorem ten_zpow_le {a k : Nat} {t : Int} (hk : k ≠ 0) (hp : k * p ≤ a * t) (h : ((10 : ℚ) ^ a) ^ t ≤ (2 ^ k) ^ t) :
    (10 : ℚ) ^ p ≤ 2 ^ t := by
  refine le_of_pow_le_pow_left₀ hk (zpow_nonneg (by norm_num) t) ?_
  calc ((10 : ℚ) ^ p) ^ k = 10 ^ (k * p) := by rw [← zpow_natCast, ← zpow_mul, mul_comm]
    _ ≤ 10 ^ (a * t) := zpow_le_zpow_right₀ (by norm_num) hp
    _ = (10 ^ a) ^ t := by rw [zpow_mul, zpow_natCast]
    _ ≤ (2 ^ k) ^ t := h
    _ = (2 ^ t) ^ k := by rw [← zpow_natCast, ← zpow_natCast, zpow_comm]

end

/-- A mantissa and an exponent with which there is a double. Only at the lowest exponent is there no leading bit. -/
structure Proper (b : Binary) : Prop where
  upper : b.mantissa < 2 ^ 53
  lower : b.mantissa < 2 ^ 52 → b.exponent = -1074
  least : -1074 ≤ b.exponent
  greatest : b.exponent ≤ 972

section

variable {b : Binary}

/-- The last grid is fine enough. The logarithm of two is more than `3 / 10`, which does for positive exponents, and
less than `4 / 13`, which does for negative ones. -/
theorem Proper.fine (h : b.Proper) : (10 : ℚ) ^ (b.coarsest - 29) ≤ b.quarter := by
  have hlog : b.mantissa.log2 ≤ 52 := by
    by_cases hm : b.mantissa = 0
    · simp [hm]
    · exact Nat.le_of_lt_succ ((Nat.log2_lt hm).2 h.upper)
  have hleast := h.least
  have hgreatest := h.greatest
  unfold quarter coarsest
  by_cases he : 2 ≤ b.exponent
  · refine ten_zpow_le (a := 3) (k := 10) (by decide) ?_ ?_
    · push_cast
      omega
    · exact zpow_le_zpow_left₀ (by omega) (by norm_num) (by norm_num)
  · refine ten_zpow_le (a := 4) (k := 13) (by decide) ?_ ?_
    · push_cast
      omega
    · obtain ⟨n, hn⟩ := Int.eq_ofNat_of_zero_le (show 0 ≤ -(b.exponent - 2) by omega)
      rw [neg_eq_iff_eq_neg] at hn
      rw [hn, zpow_neg, zpow_neg, zpow_natCast, zpow_natCast]
      exact inv_anti₀ (by positivity) (pow_le_pow_left₀ (by norm_num) (by norm_num) n)

/-- The digits of a double lie in its interval. -/
theorem Proper.holds_shortest (h : b.Proper) : b.Holds b.shortest.value := by
  exact holds_of_onGrid (onGrid_firstGrid (k := 29) (by decide) (isSome_onGrid h.fine))

/-! ## Two intervals -/

theorem Holds.pos {v : ℚ} (h : b.Holds v) (hm : 0 < b.mantissa) : 0 < v := by
  have hend : 0 < b.lowerEnd := by
    unfold lowerEnd quarters
    split <;> omega
  have hlower : 0 < b.lowerEnd * b.quarter := mul_pos (Nat.cast_pos.2 hend) b.quarter_pos
  rcases h.lower with hlt | ⟨-, heq⟩
  · exact hlower.trans hlt
  · exact heq ▸ hlower

variable {c : Binary} {v : ℚ}

/-- A point of two intervals lies over the lower end of the one and under the upper end of the other. -/
theorem Holds.ends_le {j : Nat} (hb : b.Holds v) (hc : c.Holds v) (hj : c.exponent = b.exponent + j) :
    c.lowerEnd * 2 ^ j < b.upperEnd ∨ c.lowerEnd * 2 ^ j = b.upperEnd ∧ b.closed = true ∧ c.closed = true := by
  have hquarter : c.quarter = 2 ^ j * b.quarter := by
    rw [quarter, quarter, hj, ← zpow_natCast, ← zpow_add₀ (by norm_num)]
    congr 1
    ring
  have hscaled : (c.lowerEnd : ℚ) * c.quarter = ((c.lowerEnd * 2 ^ j : Nat) : ℚ) * b.quarter := by
    rw [hquarter]
    push_cast
    ring
  have hpos := b.quarter_pos
  have hlower := hc.lower
  have hupper := hb.upper
  rw [hscaled] at hlower
  rcases hlower with hlt | ⟨hcclosed, heq⟩
  · refine .inl ?_
    have h : ((c.lowerEnd * 2 ^ j : Nat) : ℚ) * b.quarter < b.upperEnd * b.quarter := by
      rcases hupper with hlt' | ⟨-, heq'⟩
      · exact hlt.trans hlt'
      · exact heq' ▸ hlt
    exact_mod_cast lt_of_mul_lt_mul_right h hpos.le
  · rcases hupper with hlt' | ⟨hbclosed, heq'⟩
    · refine .inl ?_
      rw [← heq] at hlt'
      exact_mod_cast lt_of_mul_lt_mul_right hlt' hpos.le
    · refine .inr ⟨?_, hbclosed, hcclosed⟩
      exact_mod_cast mul_right_cancel₀ hpos.ne' (heq.trans heq')

/-- The intervals of a double and of a greater one have no point in common. -/
theorem Holds.not_greater (hb : b.Proper) (hc : c.Proper) (hv : b.Holds v) (hw : c.Holds v)
    (hlt : b.exponent < c.exponent ∨ b.exponent = c.exponent ∧ b.mantissa < c.mantissa) : False := by
  obtain ⟨j, hj⟩ := Int.eq_ofNat_of_zero_le (show 0 ≤ c.exponent - b.exponent by omega)
  have hends := hv.ends_le hw (j := j) (by omega)
  have hupper := hb.upper
  have hleast := hb.least
  have hleading : leadingBit = 2 ^ 52 := rfl
  have hlowest : lowestExponent = -1074 := rfl
  simp only [closed, decide_eq_true_eq] at hends
  unfold lowerEnd upperEnd quarters at hends
  rw [hleading, hlowest] at hends
  rcases Nat.eq_zero_or_pos j with rfl | hpos
  · -- Next to each other the two meet at the end, and one of two mantissas in succession is odd.
    split_ifs at hends <;> omega
  · -- Twice as far apart, the lower end of the one is not below the upper end of the greatest mantissa, which is odd.
    have hlower := hc.lower
    have htwo : 2 ≤ 2 ^ j := Nat.le_self_pow hpos.ne' 2
    have hdouble : ∀ k : Nat, k * 2 ≤ k * 2 ^ j := fun k => Nat.mul_le_mul_left k htwo
    split_ifs at hends with hpower
    · have hscaled := hdouble (4 * c.mantissa - 1)
      omega
    · have hscaled := hdouble (4 * c.mantissa - 2)
      omega

theorem Holds.unique (hb : b.Proper) (hc : c.Proper) (hv : b.Holds v) (hw : c.Holds v) : b = c := by
  obtain ⟨m, e⟩ := b
  obtain ⟨n, f⟩ := c
  rcases lt_trichotomy e f with hlt | rfl | hlt
  · exact (hv.not_greater hb hc hw (.inl hlt)).elim
  · rcases lt_trichotomy m n with hlt | rfl | hlt
    · exact (hv.not_greater hb hc hw (.inr ⟨rfl, hlt⟩)).elim
    · rfl
    · exact (hw.not_greater hc hb hv (.inr ⟨rfl, hlt⟩)).elim
  · exact (hw.not_greater hc hb hv (.inl hlt)).elim

end

end Binary

end StrategyScript.Number
