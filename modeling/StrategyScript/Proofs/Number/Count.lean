/-
Counts as doubles. A natural number below two to the fifty-third is a double exactly: moved to the left
until it has all the bits of a significand, it loses none of them in rounding or in packing. So cut back
to a count the double is the number again.
-/
import StrategyScript.Number.Arithmetic
import Mathlib

namespace StrategyScript.Number

open Float.Model Float.Model.UnpackedFloat

/-! ## Significands of full length -/

theorem targetExponent_eq (e : Int) : Format.binary64.targetExponent e = max (e - 53) (-1074) := rfl

/-- A significand of all bits, and an exponent with which it is a double. -/
structure Normal (m : Nat) (e : Int) : Prop where
  lower : 2 ^ 52 ≤ m
  upper : m < 2 ^ 53
  least : -1074 ≤ e
  greatest : e ≤ 971

section

variable {m : Nat} {e : Int}

theorem Normal.pos (h : Normal m e) : 0 < m := (Nat.two_pow_pos 52).trans_le h.lower

theorem Normal.log2_mul (h : Normal m e) (j : Nat) : (m * 2 ^ j).log2 = 52 + j := by
  have hpos : 0 < 2 ^ j := Nat.two_pow_pos j
  rw [Nat.log2_eq_iff (Nat.mul_pos h.pos hpos).ne', pow_add, show 52 + j + 1 = 53 + j by omega, pow_add]
  exact ⟨Nat.mul_le_mul_right _ h.lower, Nat.mul_lt_mul_of_pos_right h.upper hpos⟩

theorem Normal.log2 (h : Normal m e) : m.log2 = 52 := by
  simpa using h.log2_mul 0

/-- The exponent that rounding aims at, however far the significand has been moved. -/
theorem Normal.target (h : Normal m e) (j : Nat) :
    Format.binary64.targetExponent (totalExponent (m * 2 ^ j) (e - j)) = e := by
  have hleast := h.least
  rw [targetExponent_eq, totalExponent, h.log2_mul j]
  push_cast
  omega

/-- Moved to the right by as many places as to the left, a significand loses nothing. -/
theorem shiftRight_exact (m j : Nat) :
    ExtendedMantissa.ofMantissaAndAccuracy (m * 2 ^ j) .exact >>> j =
      ExtendedMantissa.ofMantissaAndAccuracy m .exact := by
  show Nat.repeat ExtendedMantissa.shiftRightOne j ⟨m * 2 ^ j, false, false⟩ = ⟨m, false, false⟩
  induction j generalizing m with
  | zero => simp [Nat.repeat]
  | succ j ih =>
    have hmoved : m * 2 ^ (j + 1) = m * 2 * 2 ^ j := by ring
    rw [Nat.repeat, hmoved, ih (m * 2)]
    simp [ExtendedMantissa.shiftRightOne]

theorem Normal.shift (h : Normal m e) (j : Nat) :
    shiftToTargetExponent Format.binary64 (m * 2 ^ j) (e - j) .exact =
      (ExtendedMantissa.ofMantissaAndAccuracy m .exact, e) := by
  have hplaces : (e - (e - (j : Int))).toNat = j := by omega
  unfold shiftToTargetExponent shiftToExponent
  rw [h.target j]
  dsimp only
  rw [hplaces, shiftRight_exact, sub_add_cancel]

theorem Normal.round (h : Normal m e) (s : Sign) (j : Nat) :
    roundWithAccuracy Format.binary64 s (m * 2 ^ j) (e - j) .exact = .finite s m e h.pos := by
  have hstays := h.shift 0
  rw [pow_zero, mul_one, Nat.cast_zero, sub_zero] at hstays
  have hrounded : (ExtendedMantissa.ofMantissaAndAccuracy m .exact).roundedMantissa = m := rfl
  unfold roundWithAccuracy
  simp only [h.shift j, hrounded, hstays]
  exact dif_neg h.pos.ne'

/-! ## Packing -/

/-- A bit in front of a significand counts as much as all its places and one more. -/
theorem toNat_append_one {w : Nat} (v : BitVec w) : (1#1 ++ v).toNat = 2 ^ w + v.toNat := by
  rw [BitVec.toNat_append, BitVec.toNat_ofNat, ← Nat.shiftLeft_add_eq_or_of_lt v.isLt, Nat.shiftLeft_eq]
  simp

/-- What separates the exponent of a significand from its field. -/
theorem bias_eq : (Format.binary64.exponentBias : Int) + Format.binary64.mantissaBitsWithoutImplicit = 1075 := rfl

/-- The field of the exponent. -/
def exponentField (e : Int) : BitVec 11 := BitVec.ofNat 11 (e + 1075).toNat

theorem Normal.toNat_exponentField (h : Normal m e) : (exponentField e).toNat = (e + 1075).toNat := by
  have hgreatest := h.greatest
  rw [exponentField, BitVec.toNat_ofNat]
  omega

theorem Normal.toNat_mantissa (h : Normal m e) : (1#1 ++ BitVec.ofNat 52 m).toNat = m := by
  obtain ⟨hlower, hupper, -, -⟩ := h
  rw [toNat_append_one, BitVec.toNat_ofNat]
  omega

/-- The field is neither that of infinities nor that of numbers too small for a full significand. -/
theorem Normal.exponentField_ordinary (h : Normal m e) : exponentField e ≠ -1#11 ∧ exponentField e ≠ 0#11 := by
  have hleast := h.least
  have hgreatest := h.greatest
  constructor
  all_goals
    intro heq
    have hfield := congrArg BitVec.toNat heq
    rw [h.toNat_exponentField] at hfield
    simp at hfield
    omega

theorem Normal.pack (h : Normal m e) (s : Sign) :
    UnpackedFloat.pack Format.binary64 (.finite s m e h.pos) =
      packComponents Format.binary64 s (exponentField e) (BitVec.ofNat 52 m) := by
  have hgreatest := h.greatest
  unfold UnpackedFloat.pack
  dsimp only
  rw [add_assoc, bias_eq, h.log2, if_neg (by omega)]
  exact if_pos rfl

theorem Normal.unpack_pack (h : Normal m e) (s : Sign) :
    UnpackedFloat.unpack Format.binary64 (UnpackedFloat.pack Format.binary64 (.finite s m e h.pos)) =
      .finite s m e h.pos := by
  rw [h.pack]
  unfold UnpackedFloat.unpack
  simp only [unpackMantissa_packComponents, unpackExponent_packComponents, unpackSign_packComponents,
    Sign.ofBitVec_toBitVec]
  rw [if_neg h.exponentField_ordinary.1, if_neg h.exponentField_ordinary.2]
  simp only [finite.injEq, true_and]
  refine ⟨h.toNat_mantissa, ?_⟩
  have hleast := h.least
  rw [bias_eq, h.toNat_exponentField]
  omega

end

/-! ## Counts -/

section

variable {k : Nat}

/-- The significand of a count is the count itself, moved to the left as far as it goes. -/
theorem normal_count (hpos : 0 < k) (hk : k < 2 ^ 53) : Normal (k * 2 ^ (52 - k.log2)) (k.log2 - 52) := by
  have hlog : k.log2 < 53 := (Nat.log2_lt hpos.ne').2 hk
  have hbelow : 2 ^ k.log2 * 2 ^ (52 - k.log2) = 2 ^ 52 := by
    rw [← pow_add]
    congr 1
    omega
  have habove : 2 ^ (k.log2 + 1) * 2 ^ (52 - k.log2) = 2 ^ 53 := by
    rw [← pow_add]
    congr 1
    omega
  refine ⟨?_, ?_, by omega, by omega⟩
  · exact hbelow.ge.trans (Nat.mul_le_mul_right _ (Nat.log2_self_le hpos.ne'))
  · exact (Nat.mul_lt_mul_of_pos_right Nat.lt_log2_self (Nat.two_pow_pos _)).trans_eq habove

theorem ofNat_eq_finite (hpos : 0 < k) (hk : k < 2 ^ 53) :
    UnpackedFloat.ofNat Format.binary64 k =
      .finite .positive (k * 2 ^ (52 - k.log2)) (k.log2 - 52) (normal_count hpos hk).pos := by
  have hlog : k.log2 < 53 := (Nat.log2_lt hpos.ne').2 hk
  have hsign : compare (k : Int) 0 = .gt := Int.compare_eq_gt.2 (by omega)
  have htarget : Format.binary64.targetExponent (totalExponent k 0) = k.log2 - 52 := by
    rw [targetExponent_eq, totalExponent]
    omega
  have hplaces : (0 - ((k.log2 : Int) - 52)).toNat = 52 - k.log2 := by omega
  have hexponent : 0 - ((52 - k.log2 : Nat) : Int) = k.log2 - 52 := by omega
  have hround := (normal_count hpos hk).round .positive 0
  rw [pow_zero, mul_one, Nat.cast_zero, sub_zero] at hround
  unfold UnpackedFloat.ofNat UnpackedFloat.ofInt UnpackedFloat.normalize
  rw [hsign]
  dsimp only
  rw [Int.toNat_natCast, UnpackedFloat.round, htarget, decreaseExponent, hplaces]
  dsimp only
  rw [hexponent, Nat.shiftLeft_eq, hround]

theorem unpack_toFloat (hpos : 0 < k) (hk : k < 2 ^ 53) :
    k.toUInt64.toFloat.toModel.unpack =
      .finite .positive (k * 2 ^ (52 - k.log2)) (k.log2 - 52) (normal_count hpos hk).pos := by
  have hword : k.toUInt64.toNat = k := Nat.mod_eq_of_lt (by omega)
  show UnpackedFloat.unpack Format.binary64 (UnpackedFloat.pack Format.binary64
    (UnpackedFloat.ofNat Format.binary64 k.toUInt64.toNat)) = _
  rw [hword, ofNat_eq_finite hpos hk, (normal_count hpos hk).unpack_pack]

/-- The double of a count. -/
theorem unpack_ofNat (hpos : 0 < k) (hk : k < 2 ^ 53) :
    (Float.ofNat k).toModel.unpack =
      .finite .positive (k * 2 ^ (52 - k.log2)) (k.log2 - 52) (normal_count hpos hk).pos := by
  have hnormal := normal_count hpos hk
  have hofNat : Float.ofNat k = k.toUInt64.toFloat * Float.ofBits 0x3FF0000000000000 := dif_pos ⟨hk, by decide⟩
  have hone : (Float.ofBits 0x3FF0000000000000).toModel.unpack = .finite .positive (2 ^ 52) (-52) (by decide) := rfl
  have hproduct : (Float.ofNat k).toModel.unpack = UnpackedFloat.unpack Format.binary64 (UnpackedFloat.pack
      Format.binary64 (UnpackedFloat.mul Format.binary64 k.toUInt64.toFloat.toModel.unpack
        (Float.ofBits 0x3FF0000000000000).toModel.unpack)) := by
    rw [hofNat]
    rfl
  have hround := hnormal.round .positive 52
  rw [hproduct, unpack_toFloat hpos hk, hone]
  show UnpackedFloat.unpack Format.binary64 (UnpackedFloat.pack Format.binary64 (roundWithAccuracy Format.binary64
    .positive (k * 2 ^ (52 - k.log2) * 2 ^ 52) ((k.log2 : Int) - 52 - (52 : Nat)) .exact)) = _
  rw [hround, hnormal.unpack_pack]

end

/-- The double is that natural number exactly. -/
inductive IsCount (x : Float) : Nat → Prop
  | zero (s : Sign) (h : x.toModel.unpack = .zero s) : IsCount x 0
  | finite {c : Nat} (m : Nat) (e : Int) (hm : 0 < m) (h : x.toModel.unpack = .finite .positive m e hm)
      (hvalue : m * 2 ^ e.toNat = c * 2 ^ (-e).toNat) : IsCount x c

namespace IsCount

variable {x : Float} {c : Nat}

theorem isFinite (h : IsCount x c) : x.isFinite = true := by
  show x.toModel.unpack.isFinite = true
  cases h with
  | zero s h => rw [h]; rfl
  | finite m e hm h => rw [h]; rfl

theorem zero_le (h : IsCount x c) : 0.0 ≤ x := by
  refine decide_eq_true (p := (0.0 : Float).toModel ≤ x.toModel) ?_
  show UnpackedFloat.le _ x.toModel.unpack = true
  cases h with
  | zero s h => rw [h]; cases s <;> rfl
  | finite m e hm h => rw [h]; rfl

theorem not_lt_zero (h : IsCount x c) : ¬ x < 0.0 := by
  intro hlt
  have hmodel : UnpackedFloat.lt x.toModel.unpack (0.0 : Float).toModel.unpack = true := of_decide_eq_true hlt
  cases h with
  | zero s h => rw [h] at hmodel; cases s <;> cases hmodel
  | finite m e hm h => rw [h] at hmodel; cases hmodel

theorem beq_self (h : IsCount x c) : (x == x) = true := by
  rw [Float.beq_self_iff]
  rintro rfl
  exact absurd h.isFinite (by decide)

/-- Nothing is lost but what a 64-bit count cannot hold. -/
theorem toCount_eq (h : IsCount x c) : toCount x = min c (2 ^ 64 - 1) := by
  have hclamp : ∀ n : Nat, (UInt64.ofNatClamp n).toNat = min n (2 ^ 64 - 1) := by
    intro n
    unfold UInt64.ofNatClamp
    split
    · rename_i hn
      exact (min_eq_left (Nat.le_sub_one_of_lt hn)).symm
    · rename_i hn
      exact (min_eq_right ((Nat.sub_le _ _).trans (not_lt.1 hn))).symm
  show (UInt64.ofNatClamp (UnpackedFloat.toInt 0 (UInt64.size - 1) x.toModel.unpack).toNat).toNat = _
  cases h with
  | zero s h => rw [h, hclamp]; rfl
  | finite m e hm h hvalue =>
    have hplaces : (0 - (e - (e.toNat : Int))).toNat = (-e).toNat := by omega
    have hint : roundToInt .positive m e = c := by
      unfold roundToInt decreaseExponent shiftToExponent
      dsimp only
      rw [sub_zero, hplaces, Nat.shiftLeft_eq, hvalue, shiftRight_exact]
      rfl
    rw [h, hclamp]
    show min (roundToInt .positive m e).toNat _ = _
    rw [hint, Int.toNat_natCast]

end IsCount

theorem isCount_ofNat {k : Nat} (hk : k < 2 ^ 53) : IsCount (Float.ofNat k) k := by
  rcases Nat.eq_zero_or_pos k with rfl | hpos
  · exact .zero .positive rfl
  · have hlog : k.log2 < 53 := (Nat.log2_lt hpos.ne').2 hk
    have hleft : ((k.log2 : Int) - 52).toNat = 0 := by omega
    have hright : (-((k.log2 : Int) - 52)).toNat = 52 - k.log2 := by omega
    refine .finite _ _ _ (unpack_ofNat hpos hk) ?_
    rw [hleft, hright, pow_zero, mul_one]

/-- A count that has been made a double is still the same count. -/
theorem toCount_ofNat {k : Nat} (hk : k < 2 ^ 53) : toCount (Float.ofNat k) = k :=
  (isCount_ofNat hk).toCount_eq.trans (min_eq_left (by omega))

end StrategyScript.Number
