/-
What the text of a number looks like. A finite number without a minus is written in digits, with a
point and more digits behind it or not, and never with an exponent.
-/
import StrategyScript.Number.Text
import Mathlib

namespace StrategyScript.Number

/-- Digits, then perhaps a point and more digits. -/
def IsNumeral (cs : List Char) : Prop :=
  ∃ whole, whole ≠ [] ∧ (∀ c ∈ whole, c.isDigit) ∧
    (cs = whole ∨ ∃ fraction, (∀ c ∈ fraction, c.isDigit) ∧ cs = whole ++ '.' :: fraction)

theorem isDigit_toDigits (n : Nat) : ∀ c ∈ Nat.toDigits 10 n, c.isDigit :=
  fun _ hc => Nat.isDigit_of_mem_toDigits (by decide) (by decide) hc

theorem isNumeral_positional (d : Decimal) : IsNumeral d.positional := by
  have hdigits := isDigit_toDigits d.digits
  have hpos : 0 < (Nat.toDigits 10 d.digits).length := Nat.length_toDigits_pos
  unfold Decimal.positional
  dsimp only
  split
  · refine ⟨_, ?_, fun c hc => ?_, .inl rfl⟩
    · exact List.append_ne_nil_of_left_ne_nil (List.ne_nil_of_length_pos hpos) _
    · rcases List.mem_append.1 hc with hc | hc
      · exact hdigits c hc
      · rw [List.eq_of_mem_replicate hc]
        rfl
  · split
    · rename_i hplaces
      refine ⟨_, List.ne_nil_of_length_pos ?_, fun c hc => hdigits c (List.mem_of_mem_take hc),
        .inr ⟨_, fun c hc => hdigits c (List.mem_of_mem_drop hc), rfl⟩⟩
      rw [List.length_take]
      omega
    · refine ⟨['0'], List.cons_ne_nil _ _, List.forall_mem_singleton.2 rfl,
        .inr ⟨List.replicate _ '0' ++ Nat.toDigits 10 d.digits, ?_, rfl⟩⟩
      intro c hc
      rcases List.mem_append.1 hc with hc | hc
      · rw [List.eq_of_mem_replicate hc]
        rfl
      · exact hdigits c hc

theorem isNaN_eq_false_iff {x : Float} : x.isNaN = false ↔ x.toModel.unpack ≠ .notANumber := by
  rw [Ne, ← Float.Model.UnpackedFloat.isNaN_iff, Bool.not_eq_true]
  rfl

theorem not_nan_inf_of_isFinite {x : Float} (h : x.isFinite) : x.isNaN = false ∧ x.isInf = false := by
  show x.toModel.unpack.isNaN = false ∧ x.toModel.unpack.isInf = false
  have h : x.toModel.unpack.isFinite = true := h
  cases hu : x.toModel.unpack with
  | notANumber | infinity s => rw [hu] at h; cases h
  | zero s | finite s m e hm => exact ⟨rfl, rfl⟩

theorem isNumeral_text {x : Float} (hx : x.isFinite) (hs : isNegative x = false) : IsNumeral (text x).toList := by
  obtain ⟨hnan, hinf⟩ := not_nan_inf_of_isFinite hx
  unfold text
  rw [hnan, hs, if_neg (by decide), if_neg (by decide), String.toList_ofList]
  unfold magnitudeText
  rw [hinf, if_neg (by decide)]
  split
  · exact ⟨['0'], List.cons_ne_nil _ _, List.forall_mem_singleton.2 rfl, .inl rfl⟩
  · exact isNumeral_positional _

end StrategyScript.Number
