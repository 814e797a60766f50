/-
The recurrences of the averages. Over its first `n` values an exponential average is the simple one, and
each value that follows is mixed into it with the same weight; so a series that goes on is averaged on
from the average so far. The convergence of two averages is their difference, and knows of no signal but
itself.
-/
import StrategyScript.Proofs.Indicator.Window

namespace StrategyScript.Indicator

section

variable {xs : List Float} {n : Nat}

/-! ## Exponential averages -/

theorem ema_of_short (h : n = 0 ∨ xs.length < n) : ema xs n = 0.0 := if_pos h

theorem ema_of_long (hn : 0 < n) (h : n ≤ xs.length) :
    ema xs n = (xs.drop n).foldl (smooth (smoothing n)) (mean (xs.take n) n) :=
  if_neg (by omega)

/-- The average starts as the simple average. -/
theorem ema_eq_sma (h : xs.length = n) : ema xs n = sma xs n := by
  rcases Nat.eq_zero_or_pos n with rfl | hn
  · rw [ema_of_short (.inl rfl), sma_of_short (.inl rfl)]
  · have hwindow : trailing xs n = some xs := trailing_eq_some.2 ⟨hn, h, List.suffix_refl xs⟩
    rw [ema_of_long hn h.ge, sma, hwindow, List.drop_of_length_le h.le, List.take_of_length_le h.le, List.foldl_nil]

/-- A series that goes on is averaged on from the average so far. -/
theorem ema_append (hn : 0 < n) (h : n ≤ xs.length) (ys : List Float) :
    ema (xs ++ ys) n = ys.foldl (smooth (smoothing n)) (ema xs n) := by
  have hlong : n ≤ (xs ++ ys).length := by
    rw [List.length_append]
    omega
  rw [ema_of_long hn hlong, ema_of_long hn h, List.drop_append_of_le_length h, List.take_append_of_le_length h,
    List.foldl_append]

/-! ## Convergence -/

theorem macd_of_short {slow : Nat} (h : xs.length < slow) (fast signal : Nat) :
    macd xs fast slow signal = ⟨0.0, 0.0, 0.0⟩ := if_pos h

theorem macd_of_long {slow : Nat} (h : slow ≤ xs.length) (fast signal : Nat) :
    macd xs fast slow signal = ⟨ema xs fast - ema xs slow, ema xs fast - ema xs slow, 0.0⟩ :=
  if_neg (Nat.not_lt.2 h)

end

/-- An exponential average starts from the simple one, mixes in each value that follows by its weight, and
is zero before. The convergence of two is their difference, with itself for the signal, whatever the
period of the signal. -/
theorem averages_follow_recurrences :
    (∀ (n : Nat) (xs : List Float) (x : Float), 1 ≤ n → n ≤ xs.length →
      let k := 2.0 / (Float.ofNat n + 1.0)
      ema (xs ++ [x]) n = x * k + ema xs n * (1.0 - k)) ∧
      (∀ (n : Nat) (xs : List Float), xs.length = n → ema xs n = sma xs n) ∧
      (∀ (n : Nat) (xs : List Float), n = 0 ∨ xs.length < n → ema xs n = 0.0) ∧
      ∀ (xs : List Float) (fast slow signal : Nat),
        (xs.length < slow → macd xs fast slow signal = ⟨0.0, 0.0, 0.0⟩) ∧
          (slow ≤ xs.length → macd xs fast slow signal =
            let line := ema xs fast - ema xs slow
            ⟨line, line, 0.0⟩) ∧
          ∀ other, macd xs fast slow signal = macd xs fast slow other := by
  refine ⟨fun n xs x hn h => ?_, fun n xs h => ema_eq_sma h, fun n xs h => ema_of_short h,
    fun xs fast slow signal => ⟨fun h => macd_of_short h fast signal, fun h => macd_of_long h fast signal,
      fun other => ?_⟩⟩
  · rw [ema_append hn h [x], List.foldl_cons, List.foldl_nil]
    rfl
  · rcases Nat.lt_or_ge xs.length slow with h | h
    · rw [macd_of_short h, macd_of_short h]
    · rw [macd_of_long h, macd_of_long h]

/-- The average over two of the values one and three is two, and five more weighs as much as all before. -/
theorem average_over_two_goes_on :
    1 ≤ 2 ∧ 2 ≤ [1.0, 3.0].length ∧ ema [1.0, 3.0] 2 = 2.0 ∧
      ema ([1.0, 3.0] ++ [5.0]) 2 = 5.0 * (2.0 / 3.0) + 2.0 * (1.0 - 2.0 / 3.0) ∧
      [1.0, 3.0].length < 3 ∧ ema [1.0, 3.0] 3 = 0.0 ∧
      macd [1.0, 3.0] 1 2 9 = macd [1.0, 3.0] 1 2 0 := by
  obtain ⟨hnext, hseed, hshort, hmacd⟩ := averages_follow_recurrences
  have htwo : ema [1.0, 3.0] 2 = 2.0 := (hseed 2 [1.0, 3.0] rfl).trans (by decide +kernel)
  have hweight : Float.ofNat 2 + 1.0 = 3.0 := by decide +kernel
  refine ⟨by decide, by decide, htwo, ?_, by decide, hshort 3 [1.0, 3.0] (.inr (by decide)),
    (hmacd [1.0, 3.0] 1 2 9).2.2 0⟩
  have hfive := hnext 2 [1.0, 3.0] 5.0 (by decide) (by decide)
  dsimp only at hfive
  rw [hfive, htwo, hweight]

end StrategyScript.Indicator
