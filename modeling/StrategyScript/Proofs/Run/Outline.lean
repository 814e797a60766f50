/-
What built-ins see of their arguments: numbers, texts and truth values, and of everything else its kind,
and how long a list is. On arguments of the same outline they do the same.
-/
import StrategyScript.Run.Builtin
import Mathlib.Tactic

namespace StrategyScript

/-- The values are the same, as far as built-ins can tell. -/
inductive Value.Outline : Value → Value → Prop
  | same (v : Value) : Outline v v
  | function (f g : Function) : Outline (.function f) (.function g)
  | record (fields fields' : Dictionary Value) : Outline (.record fields) (.record fields')
  | list {items items' : List Value} (h : items.length = items'.length) : Outline (.list items) (.list items')

namespace Argument

section

variable {args args' : List Value} (h : List.Forall₂ Value.Outline args args')

include h

theorem classify_outline : classify args = classify args' := by
  have hfold : ∀ order, args.foldlM addTo order = args'.foldlM addTo order := by
    induction h with
    | nil => exact fun _ => rfl
    | @cons v v' vs vs' hv _ ih =>
      intro order
      have hadd : addTo order v = addTo order v' := by cases hv <;> rfl
      rw [List.foldlM_cons, List.foldlM_cons, hadd]
      exact bind_congr ih
  rw [classify, classify, h.length_eq, hfold]

/-- An argument is missing on both sides, or it is of the same outline. -/
theorem given?_outline (i : Nat) : (given? args i = none ∧ given? args' i = none) ∨
    ∃ v v', given? args i = some v ∧ given? args' i = some v' ∧ v.Outline v' := by
  induction h generalizing i with
  | nil => exact .inl ⟨rfl, rfl⟩
  | @cons v v' vs vs' hv _ ih =>
    cases i with
    | succ i => exact ih i
    | zero =>
      cases hv with
      | same =>
        cases v with
        | null => exact .inl ⟨rfl, rfl⟩
        | _ => exact .inr ⟨_, _, rfl, rfl, .same _⟩
      | function f g => exact .inr ⟨_, _, rfl, rfl, .function f g⟩
      | record fields fields' => exact .inr ⟨_, _, rfl, rfl, .record fields fields'⟩
      | list hl => exact .inr ⟨_, _, rfl, rfl, .list hl⟩

theorem number_outline (i : Nat) (name : String) (default : Float) :
    number args i name default = number args' i name default := by
  unfold number
  obtain ⟨hi, hi'⟩ | ⟨v, v', hi, hi', hv⟩ := given?_outline h i <;> rw [hi, hi']
  cases hv <;> rfl

theorem requiredNumber_outline (i : Nat) (name : String) : requiredNumber args i name = requiredNumber args' i name := by
  unfold requiredNumber
  obtain ⟨hi, hi'⟩ | ⟨v, v', hi, hi', hv⟩ := given?_outline h i <;> rw [hi, hi']
  cases hv <;> rfl

theorem period_outline (i : Nat) (name : String) (default : Nat) :
    period args i name default = period args' i name default := by
  rw [period, period, number_outline h]

theorem field_outline (i : Nat) : field args i = field args' i := by
  unfold field
  obtain ⟨hi, hi'⟩ | ⟨v, v', hi, hi', hv⟩ := given?_outline h i <;> rw [hi, hi']
  cases hv <;> rfl

theorem numbers_outline : numbers args = numbers args' := by
  have hempty : args.isEmpty = args'.isEmpty := by cases h <;> rfl
  unfold numbers
  rw [hempty]
  congr 1
  induction h with
  | nil => rfl
  | @cons v v' vs vs' hv hvs ih =>
    have htail : vs.isEmpty = vs'.isEmpty := by cases hvs <;> rfl
    rw [List.mapM_cons, List.mapM_cons, ih htail]
    cases hv <;> rfl

end

end Argument

namespace Builtin

open Argument

section

variable {args args' : List Value} (h : List.Forall₂ Value.Outline args args')

include h

theorem lengthOf_outline : lengthOf args = lengthOf args' := by
  cases h with
  | nil => rfl
  | @cons v _ _ _ hv _ =>
    cases hv with
    | same => cases v <;> rfl
    | function f g | record fields fields' => rfl
    | list hl => rw [lengthOf, lengthOf, hl]

theorem seriesOf_outline (market : Market) : seriesOf market args = seriesOf market args' := by
  unfold seriesOf
  rw [field_outline h, period_outline h]
  obtain ⟨hi, hi'⟩ | ⟨v, v', hi, hi', -⟩ := given?_outline h 1 <;> rw [hi, hi']

theorem apply_outline (b : Builtin) (market : Market) (log : TradeLog) : b.apply market log args = b.apply market log args' := by
  cases b <;> simp only [apply, priceAt, windowed, macdOf, bandsOf, roundOf, rootOf, number_outline h,
    requiredNumber_outline h, period_outline h, field_outline h, numbers_outline h, classify_outline h,
    lengthOf_outline h, seriesOf_outline h]

end

end Builtin

end StrategyScript
