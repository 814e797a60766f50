/-
Different numbers have different texts. The sign and the magnitude of a double are all its bits, the digits of the
magnitude stand for a number in its rounding interval, and that number can be told from the text, however long it is.
-/
import StrategyScript.Proofs.Number.Interval
import StrategyScript.Proofs.Number.Text
import StrategyScript.Number.Read
import Mathlib

namespace StrategyScript.Number

/-! ## Bits -/

section

variable {x y : Float}

/-- Sign, exponent and fraction of the bits, and the magnitude that they make. -/
theorem exists_fields (x : Float) : ∃ fraction biased : Nat, fraction < 2 ^ 52 ∧ biased < 2 ^ 11 ∧
    x.toBits.toNat = (isNegative x).toNat * 2 ^ 63 + biased * 2 ^ 52 + fraction ∧
    (biased = 0 ∧ magnitude x = ⟨fraction, -1074⟩ ∨
      0 < biased ∧ magnitude x = ⟨2 ^ 52 + fraction, (biased : Int) - 1075⟩) := by
  have hleading : leadingBit = 2 ^ 52 := rfl
  have hlowest : lowestExponent = -1074 := rfl
  have hlt : x.toBits.toNat < 2 ^ 64 := x.toBits.toNat_lt
  have hsign : (isNegative x).toNat = x.toBits.toNat / 2 ^ 63 := by
    unfold isNegative
    rw [Nat.pow_eq]
    by_cases h : 2 ^ 63 ≤ x.toBits.toNat
    · rw [decide_eq_true h, Bool.toNat_true]
      omega
    · rw [decide_eq_false h, Bool.toNat_false]
      omega
  refine ⟨x.toBits.toNat % 2 ^ 52, x.toBits.toNat / 2 ^ 52 % 2 ^ 11, Nat.mod_lt _ (by decide), Nat.mod_lt _ (by decide),
    by omega, ?_⟩
  unfold magnitude
  rw [hleading, hlowest, Nat.pow_eq]
  dsimp only
  split
  · rename_i hbiased
    exact .inl ⟨hbiased, rfl⟩
  · rename_i hbiased
    refine .inr ⟨Nat.pos_of_ne_zero hbiased, ?_⟩
    rw [Binary.mk.injEq]
    omega

theorem magnitude_inj (hs : isNegative x = isNegative y) (h : magnitude x = magnitude y) : x = y := by
  obtain ⟨f, e, hf, he, hbits, hx⟩ := exists_fields x
  obtain ⟨f', e', hf', he', hbits', hy⟩ := exists_fields y
  rw [hs] at hbits
  refine Float.toBits_inj.1 (UInt64.toNat_inj.1 ?_)
  rcases hx with ⟨rfl, hx⟩ | ⟨hpos, hx⟩ <;> rcases hy with ⟨rfl, hy⟩ | ⟨hpos', hy⟩ <;>
    rw [hx, hy, Binary.mk.injEq] at h <;> omega

theorem proper_magnitude (x : Float) : (magnitude x).Proper := by
  obtain ⟨f, e, hf, he, -, ⟨rfl, hx⟩ | ⟨hpos, hx⟩⟩ := exists_fields x
  · rw [hx]
    exact ⟨hf.trans (by decide), fun _ => rfl, le_rfl, by norm_num⟩
  · rw [hx]
    constructor <;> dsimp only <;> omega

/-- Both infinities have the magnitude that follows that of the greatest double. -/
theorem magnitude_of_isInf (h : x.isInf) : magnitude x = ⟨leadingBit, 972⟩ := by
  have hpack := Float.Model.UnpackedFloat.pack_unpack_of_valid x.toModel.valid
  have hinf : x.toModel.unpack.isInf = true := h
  cases hu : x.toModel.unpack with
  | infinity s =>
    have hbits : x.toBits = ⟨Float.Model.UnpackedFloat.pack Float.Model.Format.binary64 (.infinity s)⟩ := by
      rw [← hu]
      exact UInt64.toBitVec_inj.1 hpack.symm
    unfold magnitude
    rw [hbits]
    cases s <;> rfl
  | _ =>
    rw [hu] at hinf
    cases hinf

/-- Zeros are the doubles without a mantissa. -/
theorem mantissa_eq_zero_iff : (magnitude x).mantissa = 0 ↔ (x == 0.0) = true := by
  constructor
  · intro h
    obtain ⟨f, e, hf, he, hbits, ⟨rfl, hx⟩ | ⟨hpos, hx⟩⟩ := exists_fields x
    · rw [hx] at h
      dsimp only at h
      subst h
      cases hs : isNegative x with
      | false =>
        rw [magnitude_inj (y := Float.ofBits 0) hs hx]
        rfl
      | true =>
        rw [magnitude_inj (y := Float.ofBits 0x8000000000000000) hs hx]
        rfl
    · rw [hx] at h
      dsimp only at h
      omega
  · intro h
    obtain ⟨-, -, rfl | ⟨rfl, -⟩ | ⟨rfl, -⟩⟩ := Float.beq_iff_ne_nan_and_eq.1 h
    · rfl
    · rfl
    · rfl

end

/-! ## Digits -/

/-- The number that digits stand for, with a point among them or without. -/
def numeralValue (cs : List Char) : ℚ :=
  let fraction := (cs.dropWhile (· ≠ '.')).tail
  digitsValue (cs.takeWhile (· ≠ '.') ++ fraction) / 10 ^ fraction.length

theorem digitsValue_eq (cs : List Char) : digitsValue cs = Nat.ofDigitChars 10 cs 0 := rfl

theorem digitsValue_toDigits (n : Nat) : digitsValue (Nat.toDigits 10 n) = n := Nat.ofDigitChars_ten_toDigits

theorem digitsValue_append_zeros (cs : List Char) (k : Nat) :
    digitsValue (cs ++ List.replicate k '0') = 10 ^ k * digitsValue cs := by
  rw [digitsValue_eq, Nat.ofDigitChars_append, Nat.ofDigitChars_replicate_zero, digitsValue_eq]

theorem digitsValue_zeros_append (k : Nat) (cs : List Char) :
    digitsValue (List.replicate k '0' ++ cs) = digitsValue cs := by
  rw [digitsValue_eq, Nat.ofDigitChars_append, Nat.ofDigitChars_replicate_zero, mul_zero, digitsValue_eq]

theorem ne_point {cs : List Char} (h : ∀ c ∈ cs, c.isDigit) : ∀ c ∈ cs, decide (c ≠ '.') = true := by
  intro c hc
  refine decide_eq_true ?_
  rintro rfl
  exact absurd (h _ hc) (by decide)

theorem numeralValue_whole {cs : List Char} (h : ∀ c ∈ cs, c.isDigit) : numeralValue cs = digitsValue cs := by
  have htake : cs.takeWhile (· ≠ '.') = cs := List.takeWhile_eq_self_iff.2 (ne_point h)
  have hdrop : cs.dropWhile (· ≠ '.') = [] := List.dropWhile_eq_nil_iff.2 (ne_point h)
  rw [numeralValue, htake, hdrop, List.tail_nil, List.append_nil, List.length_nil, pow_zero, div_one]

theorem numeralValue_point {whole : List Char} (h : ∀ c ∈ whole, c.isDigit) (fraction : List Char) :
    numeralValue (whole ++ '.' :: fraction) = digitsValue (whole ++ fraction) / 10 ^ fraction.length := by
  have htake : (whole ++ '.' :: fraction).takeWhile (· ≠ '.') = whole := by
    rw [List.takeWhile_append_of_pos (ne_point h)]
    simp
  have hdrop : (whole ++ '.' :: fraction).dropWhile (· ≠ '.') = '.' :: fraction := by
    rw [List.dropWhile_append_of_pos (ne_point h)]
    simp
  rw [numeralValue, htake, hdrop, List.tail_cons]

/-- The number can be told from the text, wherever the point is put. -/
theorem numeralValue_positional (d : Decimal) : numeralValue d.positional = d.value := by
  have hdigits := isDigit_toDigits d.digits
  unfold Decimal.positional Decimal.value
  dsimp only
  split
  · rename_i hexponent
    obtain ⟨k, hk⟩ := Int.eq_ofNat_of_zero_le hexponent
    rw [hk, Int.toNat_natCast, numeralValue_whole, digitsValue_append_zeros, digitsValue_toDigits]
    · rw [Nat.cast_mul, Nat.cast_pow, Nat.cast_ofNat, zpow_natCast, mul_comm]
    · intro c hc
      rcases List.mem_append.1 hc with hc | hc
      · exact hdigits c hc
      · rw [List.eq_of_mem_replicate hc]
        rfl
  · rename_i hexponent
    obtain ⟨k, hk⟩ := Int.eq_ofNat_of_zero_le (show 0 ≤ -d.exponent by omega)
    have hpower : (10 : ℚ) ^ d.exponent = (10 ^ k)⁻¹ := by
      rw [← neg_neg d.exponent, hk, zpow_neg, zpow_natCast]
    rw [hk, Int.toNat_natCast, hpower, ← div_eq_mul_inv]
    split
    · -- The point is put between two digits, and there are as many digits behind it as the exponent says.
      rw [numeralValue_point (fun c hc => hdigits c (List.mem_of_mem_take hc)), List.take_append_drop,
        digitsValue_toDigits, List.length_drop]
      congr 2
      omega
    · -- All digits are behind the point, with zeros in front of them that count for nothing.
      rename_i hplaces
      generalize hn : k - (Nat.toDigits 10 d.digits).length = n
      have hlength : (List.replicate n '0' ++ Nat.toDigits 10 d.digits).length = k := by
        rw [List.length_append, List.length_replicate]
        omega
      have hskip : digitsValue (['0'] ++ (List.replicate n '0' ++ Nat.toDigits 10 d.digits)) = d.digits :=
        (digitsValue_zeros_append 1 _).trans ((digitsValue_zeros_append n _).trans (digitsValue_toDigits _))
      have hpoint := numeralValue_point (List.forall_mem_singleton.2 (rfl : '0'.isDigit = true))
        (List.replicate n '0' ++ Nat.toDigits 10 d.digits)
      rw [hskip, hlength] at hpoint
      exact hpoint

/-! ## Texts -/

section

variable {x y : Float}

theorem IsNumeral.head {cs : List Char} (h : IsNumeral cs) : ∃ c rest, cs = c :: rest ∧ c.isDigit := by
  obtain ⟨whole, hne, hdigits, hcs⟩ := h
  obtain ⟨c, rest, rfl⟩ := List.exists_cons_of_ne_nil hne
  rcases hcs with rfl | ⟨fraction, -, rfl⟩
  · exact ⟨c, rest, rfl, hdigits c List.mem_cons_self⟩
  · exact ⟨c, rest ++ '.' :: fraction, rfl, hdigits c List.mem_cons_self⟩

theorem magnitudeText_zero (h : (x == 0.0) = true) : magnitudeText x = ['0'] := by
  have hinf : x.isInf = false := by
    obtain ⟨-, -, rfl | ⟨rfl, -⟩ | ⟨rfl, -⟩⟩ := Float.beq_iff_ne_nan_and_eq.1 h <;> rfl
  rw [magnitudeText, hinf, h]
  rfl

theorem magnitudeText_digits (hinf : x.isInf = false) (h : (x == 0.0) = false) :
    magnitudeText x = (magnitude x).shortest.positional := by
  rw [magnitudeText, hinf, h]
  rfl

theorem magnitudeText_inf (h : x.isInf = true) : magnitudeText x = ['i', 'n', 'f'] := by
  rw [magnitudeText, h]
  rfl

theorem isNumeral_magnitudeText (hinf : x.isInf = false) : IsNumeral (magnitudeText x) := by
  cases h : x == 0.0 with
  | true => exact magnitudeText_zero h ▸ ⟨['0'], List.cons_ne_nil _ _, List.forall_mem_singleton.2 rfl, .inl rfl⟩
  | false => exact magnitudeText_digits hinf h ▸ isNumeral_positional _

/-- A text of a magnitude begins neither as that of a NaN does nor with a minus. -/
theorem magnitudeText_head (x : Float) : ∃ c rest, magnitudeText x = c :: rest ∧ c ≠ 'N' ∧ c ≠ '-' := by
  cases hinf : x.isInf with
  | true => exact ⟨'i', ['n', 'f'], magnitudeText_inf hinf, by decide, by decide⟩
  | false =>
    obtain ⟨c, rest, hcs, hc⟩ := (isNumeral_magnitudeText hinf).head
    refine ⟨c, rest, hcs, ?_, ?_⟩ <;>
      · rintro rfl
        exact absurd hc (by decide)

/-- The text of a double that is not zero stands for a number in its interval. -/
theorem holds_numeralValue (hinf : x.isInf = false) (h : (x == 0.0) = false) :
    (magnitude x).Holds (numeralValue (magnitudeText x)) := by
  rw [magnitudeText_digits hinf h, numeralValue_positional]
  exact (proper_magnitude x).holds_shortest

theorem magnitudeText_ne_inf (hinf : x.isInf = false) : magnitudeText x ≠ ['i', 'n', 'f'] := by
  intro h
  obtain ⟨c, rest, hcs, hc⟩ := (isNumeral_magnitudeText hinf).head
  rw [h] at hcs
  cases hcs
  exact absurd hc (by decide)

/-- Only zeros are written as zero is. -/
theorem zero_of_magnitudeText (hx : (x == 0.0) = true) (hinf : y.isInf = false)
    (h : magnitudeText x = magnitudeText y) : (y == 0.0) = true := by
  by_contra hy
  rw [Bool.not_eq_true] at hy
  have hmantissa : 0 < (magnitude y).mantissa :=
    Nat.pos_of_ne_zero fun h0 => absurd (mantissa_eq_zero_iff.1 h0) (by rw [hy]; decide)
  have hpos := (holds_numeralValue hinf hy).pos hmantissa
  rw [← h, magnitudeText_zero hx, numeralValue_whole (List.forall_mem_singleton.2 rfl)] at hpos
  exact absurd hpos (lt_irrefl 0)

theorem magnitude_of_zero (h : (x == 0.0) = true) : magnitude x = ⟨0, -1074⟩ := by
  have hmantissa := mantissa_eq_zero_iff.2 h
  have hexponent := (proper_magnitude x).lower (by rw [hmantissa]; decide)
  generalize magnitude x = b at *
  cases b
  cases hmantissa
  cases hexponent
  rfl

theorem magnitudeText_inj (h : magnitudeText x = magnitudeText y) : magnitude x = magnitude y := by
  cases hx : x.isInf with
  | true => cases hy : y.isInf with
    | true => rw [magnitude_of_isInf hx, magnitude_of_isInf hy]
    | false => exact absurd (h.symm.trans (magnitudeText_inf hx)) (magnitudeText_ne_inf hy)
  | false => cases hy : y.isInf with
    | true => exact absurd (h.trans (magnitudeText_inf hy)) (magnitudeText_ne_inf hx)
    | false =>
      cases hzero : x == 0.0 with
      | true => rw [magnitude_of_zero hzero, magnitude_of_zero (zero_of_magnitudeText hzero hy h)]
      | false =>
        have hzero' : (y == 0.0) = false := by
          by_contra hne
          rw [Bool.not_eq_false] at hne
          rw [zero_of_magnitudeText hne hx h.symm] at hzero
          cases hzero
        exact (holds_numeralValue hx hzero).unique (proper_magnitude x) (proper_magnitude y)
          (h ▸ holds_numeralValue hy hzero')

theorem toList_text (x : Float) : (text x).toList =
    if x.isNaN then ['N', 'a', 'N'] else if isNegative x then '-' :: magnitudeText x else magnitudeText x := by
  unfold text
  split_ifs
  · rfl
  · exact String.toList_ofList
  · exact String.toList_ofList

theorem text_ne_empty (x : Float) : text x ≠ "" := by
  intro h
  obtain ⟨c, rest, hcs, -, -⟩ := magnitudeText_head x
  have hlist := toList_text x
  rw [h, hcs] at hlist
  split_ifs at hlist <;> cases hlist

/-- Two numbers with one text are the same: the two zeros have two texts, and there is one NaN. -/
theorem text_inj (h : text x = text y) : x = y := by
  have hlist : (text x).toList = (text y).toList := congrArg String.toList h
  obtain ⟨c, rest, hx, hxN, hxsign⟩ := magnitudeText_head x
  obtain ⟨d, rest', hy, hyN, hysign⟩ := magnitudeText_head y
  rw [toList_text, toList_text] at hlist
  split_ifs at hlist with hxnan hynan hyneg hxneg hynan hyneg hynan hyneg
  · rw [Float.isNaN_eq_decide_eq_nan, decide_eq_true_eq] at hxnan hynan
    rw [hxnan, hynan]
  · cases hlist
  · rw [hy] at hlist
    cases hlist
    exact absurd rfl hyN
  · cases hlist
  · exact magnitude_inj (hxneg.trans hyneg.symm) (magnitudeText_inj (List.cons_inj_right _ |>.1 hlist))
  · rw [hy] at hlist
    cases hlist
    exact absurd rfl hysign
  · rw [hx] at hlist
    cases hlist
    exact absurd rfl hxN
  · rw [hx] at hlist
    cases hlist
    exact absurd rfl hxsign
  · rw [Bool.not_eq_true] at hxneg hyneg
    exact magnitude_inj (hxneg.trans hyneg.symm) (magnitudeText_inj hlist)

end

end StrategyScript.Number
