/-
A numeral has no sign, and the number it stands for is never negative, not even a negative zero. The
sign is followed through rounding, which keeps it, and through the bits, where it is the highest.
-/
import StrategyScript.Number.Read
import StrategyScript.Number.Shortest
import Mathlib

namespace StrategyScript.Number

open Float.Model Float.Model.UnpackedFloat

/-! ## Rounding keeps the sign -/

/-- Without a minus. A NaN has no sign. -/
def Unsigned : UnpackedFloat → Prop
  | .notANumber => True
  | .infinity s | .zero s | .finite s _ _ _ => s = .positive

theorem unsigned_round (spec : Format) (m : Nat) (e : Int) (a : Accuracy) :
    Unsigned (roundWithAccuracy spec .positive m e a) := by
  unfold roundWithAccuracy
  dsimp only
  split <;> rfl

theorem unsigned_mul {spec : Format} {x y : UnpackedFloat} (hx : Unsigned x) (hy : Unsigned y) :
    Unsigned (mul spec x y) := by
  cases x <;> cases y <;> cases hx <;> cases hy
  case finite.finite => exact unsigned_round _ _ _ _
  all_goals trivial

theorem unsigned_div {spec : Format} {x y : UnpackedFloat} (hx : Unsigned x) (hy : Unsigned y) :
    Unsigned (div spec x y) := by
  cases x <;> cases y <;> cases hx <;> cases hy
  case finite.finite => exact unsigned_round _ _ _ _
  all_goals trivial

theorem unsigned_ofNat (spec : Format) (n : Nat) : Unsigned (UnpackedFloat.ofNat spec n) := by
  unfold UnpackedFloat.ofNat UnpackedFloat.ofInt UnpackedFloat.normalize
  split
  · rename_i h
    rw [Int.compare_eq_lt] at h
    omega
  · rfl
  · exact unsigned_round _ _ _ _

theorem unsigned_ofScientific (spec : Format) (m : Nat) (e : Int) :
    Unsigned (UnpackedFloat.ofScientific spec m e) := by
  unfold UnpackedFloat.ofScientific
  split
  · rfl
  · split
    · rfl
    · split
      · rfl
      · split
        · exact unsigned_mul rfl rfl
        · exact unsigned_div rfl rfl

/-! ## The sign bit -/

theorem packComponents_lt (spec : Format) (e : BitVec spec.exponentBits)
    (m : BitVec spec.mantissaBitsWithoutImplicit) :
    (packComponents spec .positive e m).toNat < 2 ^ (spec.exponentBits + spec.mantissaBitsWithoutImplicit) := by
  have hexponent : ((0#1 ++ e : BitVec (1 + spec.exponentBits))).toNat = e.toNat := by
    rw [BitVec.toNat_append]
    simp
  unfold packComponents
  rw [BitVec.toNat_append, show Sign.positive.toBitVec = 0#1 from rfl, hexponent]
  refine Nat.or_lt_two_pow ?_ (m.isLt.trans_le (Nat.pow_le_pow_right (by decide) (Nat.le_add_left _ _)))
  rw [Nat.shiftLeft_eq, pow_add]
  exact Nat.mul_lt_mul_of_pos_right e.isLt (by positivity)

theorem pack_lt {x : UnpackedFloat} (h : Unsigned x) : (UnpackedFloat.pack Format.binary64 x).toNat < 2 ^ 63 := by
  have hlt := packComponents_lt Format.binary64
  unfold UnpackedFloat.pack
  split
  · exact hlt _ _
  · cases h; exact hlt _ _
  · cases h; exact hlt _ _
  · cases h
    dsimp only
    split
    · exact hlt _ _
    · split <;> exact hlt _ _

theorem unsigned_unpack {b : BitVec 64} (h : b.toNat < 2 ^ 63) : Unsigned (UnpackedFloat.unpack Format.binary64 b) := by
  have hsign : @unpackSign Format.binary64 b = 0#1 := by
    refine BitVec.eq_of_toNat_eq ?_
    have hshift : b.toNat >>> 63 = 0 := by rw [Nat.shiftRight_eq_div_pow, Nat.div_eq_of_lt h]
    show (b.toNat >>> 63) % _ = 0
    rw [hshift, Nat.zero_mod]
  unfold UnpackedFloat.unpack
  dsimp only
  rw [hsign]
  split
  · split
    · rfl
    · trivial
  · split
    · split <;> rfl
    · rfl

/-! ## Doubles without a minus -/

theorem isNegative_eq_false {x : Float} : isNegative x = false ↔ x.toBits.toNat < 2 ^ 63 := by
  unfold isNegative
  rw [decide_eq_false_iff_not, Nat.not_le]
  rfl

theorem isNegative_ofModel {x : UnpackedFloat} (h : Unsigned x) : isNegative (Float.ofModel (.pack x)) = false :=
  isNegative_eq_false.2 (pack_lt h)

theorem unsigned_toModel {x : Float} (h : isNegative x = false) : Unsigned x.toModel.unpack :=
  unsigned_unpack (isNegative_eq_false.1 h)

theorem isNegative_ofBits {b : UInt64} (h : b.toNat < 2 ^ 63) : isNegative (Float.ofBits b) = false :=
  isNegative_ofModel (unsigned_unpack h)

theorem isNegative_mul {x y : Float} (hx : isNegative x = false) (hy : isNegative y = false) :
    isNegative (x * y) = false :=
  isNegative_ofModel (unsigned_mul (unsigned_toModel hx) (unsigned_toModel hy))

theorem isNegative_div {x y : Float} (hx : isNegative x = false) (hy : isNegative y = false) :
    isNegative (x / y) = false :=
  isNegative_ofModel (unsigned_div (unsigned_toModel hx) (unsigned_toModel hy))

theorem isNegative_powerOfTen {x : Float} (h : x ∈ Float.exactlyRepresentablePowersOfTen) : isNegative x = false := by
  unfold Float.exactlyRepresentablePowersOfTen at h
  simp only [List.mem_toArray, List.mem_cons, List.not_mem_nil, or_false] at h
  rcases h with h | h | h | h | h | h | h | h | h | h | h | h | h | h | h | h | h | h | h | h | h | h | h <;>
    exact h ▸ isNegative_ofBits (by decide)

theorem isNegative_ofScientific (m : Nat) (s : Bool) (e : Nat) : isNegative (Float.ofScientific m s e) = false := by
  unfold Float.ofScientific
  split
  · have hm : isNegative m.toUInt64.toFloat = false := isNegative_ofModel (unsigned_ofNat _ _)
    have hsize : e < Float.exactlyRepresentablePowersOfTen.size := by
      simp [Float.exactlyRepresentablePowersOfTen]
      omega
    have hpower := isNegative_powerOfTen (Array.getElem_mem hsize)
    dsimp only
    split
    · exact isNegative_div hm hpower
    · exact isNegative_mul hm hpower
  · exact isNegative_ofModel (unsigned_ofScientific _ _ _)

/-! ## Numerals -/

theorem isNegative_nearest (mantissa : Nat) (exponent : Int) : isNegative (nearest mantissa exponent) = false := by
  unfold nearest
  dsimp only
  split
  · exact isNegative_ofScientific _ _ _
  · split
    · exact isNegative_ofBits (by decide)
    · split
      · exact isNegative_ofScientific _ _ _
      · exact isNegative_ofScientific _ _ _

theorem isNegative_readDecimal {cs : List Char} {x : Float} (h : readDecimal cs = some x) : isNegative x = false := by
  unfold readDecimal at h
  dsimp only at h
  split at h
  all_goals
    split at h
    · cases h
    · obtain ⟨e, -, rfl⟩ := Option.map_eq_some_iff.1 h
      exact isNegative_nearest _ _

theorem isNegative_readMagnitude {cs : List Char} {x : Float} (h : readMagnitude cs = some x) :
    isNegative x = false := by
  unfold readMagnitude at h
  dsimp only at h
  split at h
  · cases h; exact isNegative_ofBits (by decide)
  · split at h
    · cases h; exact isNegative_ofBits (by decide)
    · exact isNegative_readDecimal h

/-- What does not begin with a minus is not negative. -/
theorem isNegative_readFloat {c : Char} {cs : List Char} {x : Float} (hc : c ≠ '-')
    (h : readFloat (String.ofList (c :: cs)) = .ok x) : isNegative x = false := by
  unfold readFloat at h
  split at h
  · cases h
  · rw [String.toList_ofList] at h
    have hsigned : (signed (c :: cs)).1 = false := by
      unfold signed
      split
      · rename_i heq
        cases heq
        exact absurd rfl hc
      · rfl
      · rfl
    dsimp only at h
    split at h
    · rename_i y hy
      rw [hsigned] at h
      cases h
      exact isNegative_readMagnitude hy
    · cases h

end StrategyScript.Number
