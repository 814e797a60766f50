/-
Numerals as doubles. Rounding never makes a NaN, and neither does packing; so the number nearest to a decimal is not
one. What is written in digits, with a point among or behind them or without one, always reads as a number, and that
number is not negative, not even a negative zero.
-/
import StrategyScript.Proofs.Number.Distinct
import StrategyScript.Proofs.Number.Sign
import StrategyScript.Proofs.Token.Spell

namespace StrategyScript.Number

open Float.Model Float.Model.UnpackedFloat

/-! ## Rounding and packing make no NaN -/

section

variable {spec : Format} {s : UnpackedFloat.Sign} {m : Nat} {e : Int} {x : UnpackedFloat}

theorem number_round (spec : Format) (s : UnpackedFloat.Sign) (m : Nat) (e : Int) (a : Accuracy) :
    roundWithAccuracy spec s m e a ≠ .notANumber := by
  unfold roundWithAccuracy
  dsimp only
  split <;> nofun

theorem number_mul (hx : x ≠ .notANumber) (hm : 0 < m) : UnpackedFloat.mul spec x (.finite s m e hm) ≠ .notANumber := by
  cases x with
  | notANumber => exact absurd rfl hx
  | finite => exact number_round _ _ _ _ _
  | _ => nofun

theorem number_div (hx : x ≠ .notANumber) (hm : 0 < m) : UnpackedFloat.div spec x (.finite s m e hm) ≠ .notANumber := by
  cases x with
  | notANumber => exact absurd rfl hx
  | finite => exact number_round _ _ _ _ _
  | _ => nofun

theorem number_ofNat (spec : Format) (n : Nat) : UnpackedFloat.ofNat spec n ≠ .notANumber := by
  unfold UnpackedFloat.ofNat UnpackedFloat.ofInt UnpackedFloat.normalize
  split
  · exact number_round _ _ _ _ _
  · nofun
  · exact number_round _ _ _ _ _

theorem number_ofScientific (spec : Format) (m : Nat) (e : Int) :
    UnpackedFloat.ofScientific spec m e ≠ .notANumber := by
  unfold UnpackedFloat.ofScientific
  split
  · nofun
  · split
    · nofun
    · split
      · nofun
      · split
        · refine number_mul ?_ _
          nofun
        · refine number_div ?_ _
          nofun

theorem number_packComponents {f : BitVec 11} {v : BitVec 52} (h : f = -1#11 → v = 0#52) :
    UnpackedFloat.unpack Format.binary64 (packComponents Format.binary64 s f v) ≠ .notANumber := by
  unfold UnpackedFloat.unpack
  simp only [unpackMantissa_packComponents, unpackExponent_packComponents]
  split
  · rename_i hf
    rw [if_pos (h hf)]
    nofun
  · split
    · split <;> nofun
    · nofun

/-- Only a NaN has the field of an infinity together with a mantissa. -/
theorem number_unpack_pack (hx : x ≠ .notANumber) :
    UnpackedFloat.unpack Format.binary64 (UnpackedFloat.pack Format.binary64 x) ≠ .notANumber := by
  unfold UnpackedFloat.pack
  split
  · exact absurd rfl hx
  · exact number_packComponents fun _ => rfl
  · exact number_packComponents fun _ => rfl
  · dsimp only
    split
    · exact number_packComponents fun _ => rfl
    · rename_i hlt
      split
      · refine number_packComponents fun hfield => ?_
        have hfield := congrArg BitVec.toNat hfield
        rw [BitVec.toNat_ofNat] at hfield
        have hones : (-1#11).toNat = 2 ^ 11 - 1 := rfl
        rw [hones] at hfield
        omega
      · exact number_packComponents fun h => absurd h (by decide)

end

/-! ## Doubles that are numbers -/

theorem isNaN_ofModel {x : UnpackedFloat} (hx : x ≠ .notANumber) : (Float.ofModel (.pack x)).isNaN = false :=
  isNaN_eq_false_iff.2 (number_unpack_pack hx)

theorem finite_powerOfTen {x : Float} (h : x ∈ Float.exactlyRepresentablePowersOfTen) :
    ∃ s m e hm, x.toModel.unpack = .finite s m e hm := by
  unfold Float.exactlyRepresentablePowersOfTen at h
  simp only [List.mem_toArray, List.mem_cons, List.not_mem_nil, or_false] at h
  rcases h with h | h | h | h | h | h | h | h | h | h | h | h | h | h | h | h | h | h | h | h | h | h | h <;>
    exact h ▸ ⟨_, _, _, _, rfl⟩

theorem isNaN_ofScientific (m : Nat) (s : Bool) (e : Nat) : (Float.ofScientific m s e).isNaN = false := by
  unfold Float.ofScientific
  split
  · have hm : m.toUInt64.toFloat.toModel.unpack ≠ .notANumber := number_unpack_pack (number_ofNat _ _)
    have hsize : e < Float.exactlyRepresentablePowersOfTen.size := by
      simp [Float.exactlyRepresentablePowersOfTen]
      omega
    obtain ⟨s, m, e, hpos, hpower⟩ := finite_powerOfTen (Array.getElem_mem hsize)
    dsimp only
    split
    · refine isNaN_ofModel ?_
      rw [hpower]
      exact number_div hm hpos
    · refine isNaN_ofModel ?_
      rw [hpower]
      exact number_mul hm hpos
  · exact isNaN_ofModel (number_ofScientific _ _ _)

theorem isNaN_nearest (mantissa : Nat) (exponent : Int) : (nearest mantissa exponent).isNaN = false := by
  unfold nearest
  dsimp only
  split
  · exact isNaN_ofScientific _ _ _
  · split
    · decide
    · split
      · exact isNaN_ofScientific _ _ _
      · exact isNaN_ofScientific _ _ _

/-- A number without a minus is not below zero. -/
theorem zero_le_of_not_isNegative {x : Float} (hsign : isNegative x = false) (hnan : x.isNaN = false) : 0.0 ≤ x := by
  have hunsigned := unsigned_toModel hsign
  have hnumber := isNaN_eq_false_iff.1 hnan
  refine decide_eq_true (p := (0.0 : Float).toModel ≤ x.toModel) ?_
  show UnpackedFloat.le _ x.toModel.unpack = true
  generalize x.toModel.unpack = u at *
  cases u with
  | notANumber => exact absurd rfl hnumber
  | infinity s | zero s | finite s m e hm =>
    cases hunsigned
    rfl

/-! ## Numerals -/

theorem readDecimal_numeral {cs : List Char} (h : IsNumeral cs) : ∃ n e, readDecimal cs = some (nearest n e) := by
  obtain ⟨whole, hne, hwhole, rfl | ⟨fraction, hfraction, rfl⟩⟩ := h
  · have htake : cs.takeWhile Char.isDigit = cs := List.takeWhile_eq_self_iff.2 hwhole
    have hdrop : cs.dropWhile Char.isDigit = [] := List.dropWhile_eq_nil_iff.2 hwhole
    unfold readDecimal
    rw [htake, hdrop]
    exact ⟨_, _, if_neg fun hnone => hne hnone.1⟩
  · have hpoint : ∀ c, ('.' :: fraction).head? = some c → c.isDigit = false := by
      rintro c ⟨⟩
      rfl
    have hend : fraction.dropWhile Char.isDigit = [] := List.dropWhile_eq_nil_iff.2 hfraction
    unfold readDecimal
    rw [Lexer.takeWhile_of_stop hwhole hpoint, Lexer.dropWhile_of_stop hwhole hpoint]
    simp only [hend]
    exact ⟨_, _, if_neg fun hnone => hne hnone.1⟩

/-- The names of the infinities and of NaN begin with letters. -/
theorem readMagnitude_numeral {cs : List Char} (h : IsNumeral cs) : readMagnitude cs = readDecimal cs := by
  obtain ⟨c, rest, rfl, hc⟩ := h.head
  have hlower : c.toLower = c := by
    refine Char.toLower_eq_of_not_isUpper fun hupper => ?_
    have hletter : 'A'.val ≤ c.val := (of_decide_eq_true hupper).1
    exact absurd (hletter.trans (Char.isDigit_iff_toNat.1 hc).2) (by decide)
  have hname : ∀ (d : Char) (ds : List Char), d.isDigit = false →
      String.ofList ((c :: rest).map Char.toLower) ≠ String.ofList (d :: ds) := by
    intro d ds hd heq
    rw [List.map_cons, hlower] at heq
    obtain ⟨rfl, -⟩ := List.cons.inj (String.ofList_inj.1 heq)
    rw [hc] at hd
    cases hd
  unfold readMagnitude
  dsimp only
  rw [if_neg (not_or.2 ⟨hname 'i' ['n', 'f'] rfl, hname 'i' ['n', 'f', 'i', 'n', 'i', 't', 'y'] rfl⟩),
    if_neg (hname 'n' ['a', 'n'] rfl)]

theorem readFloat_numeral {s : String} (h : IsNumeral s.toList) :
    ∃ x, readFloat s = .ok x ∧ 0.0 ≤ x ∧ isNegative x = false := by
  obtain ⟨c, rest, hs, hc⟩ := h.head
  obtain ⟨n, e, hread⟩ := readDecimal_numeral h
  have hsign := isNegative_nearest n e
  refine ⟨nearest n e, ?_, zero_le_of_not_isNegative hsign (isNaN_nearest n e), hsign⟩
  have hne : s ≠ "" := by
    rintro rfl
    cases hs
  have hsigned : signed s.toList = (false, s.toList) := by
    rw [hs]
    unfold signed
    split
    · rename_i heq
      cases heq
      cases hc
    · rename_i heq
      cases heq
      cases hc
    · rfl
  unfold readFloat
  rw [if_neg hne, hsigned]
  dsimp only
  rw [readMagnitude_numeral h, hread]
  rfl

end StrategyScript.Number
