/-
What the indicators see of a series. The averages, the deviation and the bands are computed from the
window of the last values, and the strength index from a window that is one value longer, for a change
takes two. So older values change nothing; and where a series is too short for its window, each
indicator has its neutral value.
-/
import StrategyScript.Indicator.Average
import StrategyScript.Indicator.Deviation
import StrategyScript.Indicator.Strength
import Mathlib.Tactic

namespace StrategyScript.Indicator

section

variable {xs w : List Float} {n : Nat}

/-! ## The window -/

/-- The window is the end of the series that has the length asked for. -/
theorem trailing_eq_some : trailing xs n = some w ↔ 0 < n ∧ w.length = n ∧ w <:+ xs := by
  unfold trailing
  by_cases h : n = 0 ∨ xs.length < n
  · rw [if_pos h]
    constructor
    · rintro ⟨⟩
    · rintro ⟨hn, hlength, hend⟩
      have hle := hend.length_le
      omega
  · rw [if_neg h, Option.some.injEq]
    constructor
    · rintro rfl
      refine ⟨by omega, ?_, List.drop_suffix ..⟩
      rw [List.length_drop]
      omega
    · rintro ⟨-, hlength, hend⟩
      rw [List.suffix_iff_eq_drop.1 hend, hlength]

theorem trailing_eq_none : trailing xs n = none ↔ n = 0 ∨ xs.length < n := by
  unfold trailing
  split <;> simp_all

/-- Values in front of a series that is long enough are not in the window. -/
theorem trailing_append (xs : List Float) (h : n ≤ w.length) : trailing (xs ++ w) n = trailing w n := by
  cases hw : trailing w n with
  | none =>
    rcases trailing_eq_none.1 hw with hn | hshort
    · exact trailing_eq_none.2 (.inl hn)
    · omega
  | some u =>
    obtain ⟨hn, hlength, hend⟩ := trailing_eq_some.1 hw
    exact trailing_eq_some.2 ⟨hn, hlength, hend.trans (List.suffix_append xs w)⟩

/-- One more than the greatest 64-bit count is zero when it wraps, and otherwise longer than any series: either
way there is no window. -/
theorem trailing_wrapped (hn : n < 2 ^ 64) (hxs : xs.length < 2 ^ 64) :
    trailing xs ((n + 1) % 2 ^ 64) = trailing xs (n + 1) := by
  by_cases hmax : n + 1 = 2 ^ 64
  · rw [hmax, Nat.mod_self, trailing_eq_none.2 (.inl rfl), trailing_eq_none.2 (.inr hxs)]
  · rw [Nat.mod_eq_of_lt (by omega)]

/-! ## Older values -/

theorem sma_append (xs : List Float) (h : n ≤ w.length) : sma (xs ++ w) n = sma w n := by
  rw [sma, sma, trailing_append xs h]

theorem deviation_append (xs : List Float) (h : n ≤ w.length) : deviation (xs ++ w) n = deviation w n := by
  rw [deviation, deviation, trailing_append xs h]

theorem bands_append (xs : List Float) (h : n ≤ w.length) (multiplier : Float) :
    bands (xs ++ w) n multiplier = bands w n multiplier := by
  rw [bands, bands, deviation_append xs h]

theorem rsi_append (xs : List Float) (h : n + 1 ≤ w.length) : rsi (xs ++ w) n = rsi w n := by
  rw [rsi, rsi, trailing_append xs h]

/-! ## Short series -/

theorem sma_of_short (h : n = 0 ∨ xs.length < n) : sma xs n = 0.0 := by
  rw [sma, trailing_eq_none.2 h]

theorem deviation_of_short (h : n = 0 ∨ xs.length < n) : deviation xs n = none := by
  rw [deviation, trailing_eq_none.2 h, Option.map_none]

theorem bands_of_short (h : n = 0 ∨ xs.length < n) (multiplier : Float) :
    bands xs n multiplier = ⟨0.0, 0.0, 0.0⟩ := by
  rw [bands, deviation_of_short h]

theorem rsi_of_short (h : n = 0 ∨ xs.length < n + 1) : rsi xs n = neutralStrength := by
  unfold rsi
  rcases h with rfl | hshort
  · exact if_pos rfl
  · rw [trailing_eq_none.2 (.inr hshort), ite_self]

/-- The bands lie around the simple average. -/
theorem middle_eq_sma (xs : List Float) (n : Nat) (multiplier : Float) : (bands xs n multiplier).middle = sma xs n := by
  unfold bands deviation sma
  cases trailing xs n <;> rfl

end

/-- The indicators see no value older than their window, each has its neutral value where the series is
too short, and the bands lie around the simple average. -/
theorem window_decides (n : Nat) (multiplier : Float) :
    (∀ xs w : List Float, n ≤ w.length →
      sma (xs ++ w) n = sma w n ∧ deviation (xs ++ w) n = deviation w n ∧
        bands (xs ++ w) n multiplier = bands w n multiplier) ∧
      (∀ xs w : List Float, n + 1 ≤ w.length → rsi (xs ++ w) n = rsi w n) ∧
      (∀ xs : List Float, n = 0 ∨ xs.length < n →
        sma xs n = 0.0 ∧ deviation xs n = none ∧ bands xs n multiplier = ⟨0.0, 0.0, 0.0⟩) ∧
      (∀ xs : List Float, n = 0 ∨ xs.length < n + 1 → rsi xs n = 50.0) ∧
      ∀ xs : List Float, (bands xs n multiplier).middle = sma xs n := by
  refine ⟨fun xs w h => ⟨sma_append xs h, deviation_append xs h, bands_append xs h multiplier⟩,
    fun xs w h => rsi_append xs h, fun xs h => ?_, fun xs h => rsi_of_short h, fun xs => middle_eq_sma xs n multiplier⟩
  exact ⟨sma_of_short h, deviation_of_short h, bands_of_short h multiplier⟩

/-- Windows of two, of three and of four over three values: an older value is not seen by the first, three
values make no three changes, and four are missing one. -/
theorem window_of_two_decides :
    let old : List Float := [7.0]
    let recent : List Float := [1.0, 3.0, 5.0]
    2 ≤ recent.length ∧ sma (old ++ recent) 2 = 4.0 ∧ 2 + 1 ≤ recent.length ∧ rsi (old ++ recent) 2 = 100.0 ∧
      recent.length < 3 + 1 ∧ rsi recent 3 = 50.0 ∧ recent.length < 4 ∧ sma recent 4 = 0.0 := by
  intro old recent
  obtain ⟨hsees, hstrength, -⟩ := window_decides 2 2.0
  obtain ⟨-, -, -, hneutral, -⟩ := window_decides 3 2.0
  obtain ⟨-, -, hshort, -⟩ := window_decides 4 2.0
  have hsma : sma recent 2 = 4.0 := by decide +kernel
  have hrsi : rsi recent 2 = 100.0 := by decide +kernel
  exact ⟨by decide, (hsees old recent (by decide)).1.trans hsma, by decide,
    (hstrength old recent (by decide)).trans hrsi, by decide, hneutral recent (.inr (by decide)), by decide,
    (hshort recent (.inr (by decide))).1⟩

end StrategyScript.Indicator
