/-
What built-ins give. The value of a call is data: a truth value, a number, a list or a record of
numbers, and never a function. Of the trade log only `position` sees anything, and the log after a
call is the one before it, or that with one trade more.
-/
import StrategyScript.Proofs.Run.Relocate
import StrategyScript.Proofs.Store.Dictionary

namespace StrategyScript

/-! ## Data -/

/-- Values made of numbers and truth values alone. -/
inductive Value.IsData : Value → Prop
  | boolean (b : Bool) : IsData (.boolean b)
  | number (x : Float) : IsData (.number x)
  | list (xs : List Float) : IsData (.list (xs.map .number))
  | record (fields : Dictionary Value) (h : ∀ e ∈ fields, ∃ x, e.2 = .number x) : IsData (.record fields)

theorem Value.isData_ofNumbers (fields : List (String × Float)) : (Value.ofNumbers fields).IsData := by
  refine .record _ fun e he => ?_
  obtain ⟨⟨k, x⟩, -, rfl⟩ := List.mem_map.1 (Dictionary.mem_ofList he)
  exact ⟨x, rfl⟩

theorem Value.relocateFields_eq {ρ : Relocation} {bound : Option String} {fields : Dictionary Value bound}
    (h : ∀ e ∈ fields, e.2.relocate ρ = e.2) : relocateFields ρ fields = fields := by
  induction fields with
  | nil => rfl
  | cons k v hk fields ih =>
    rw [relocateFields, show v.relocate ρ = v from h _ (Dictionary.mem_cons.2 (.inl rfl)),
      ih fun e he => h e (Dictionary.mem_cons.2 (.inr he))]

theorem Value.IsData.relocate_eq {v : Value} (h : v.IsData) (ρ : Relocation) : v.relocate ρ = v := by
  cases h with
  | boolean b => rfl
  | number x => rfl
  | list xs =>
    rw [relocate, relocateItems_eq_map, List.map_map]
    rfl
  | record fields hfields =>
    rw [relocate, relocateFields_eq fun e he => ?_]
    obtain ⟨x, hx⟩ := hfields e he
    rw [hx]
    rfl

namespace Builtin

open Argument

/-- Answers that are data when there are any. -/
def AnswersData (r : Except ArgumentFault Value) : Prop := ∀ v, r = .ok v → v.IsData

theorem answersData_bind {α : Type} {r : Except ArgumentFault α} {f : α → Except ArgumentFault Value}
    (h : ∀ a, AnswersData (f a)) : AnswersData (r >>= f) := by
  intro v hv
  cases r with
  | ok a => exact h a v hv
  | error e => cases hv

theorem answersData_map {α : Type} {r : Except ArgumentFault α} {f : α → Value} (h : ∀ a, (f a).IsData) :
    AnswersData (r.map f) := by
  intro v hv
  cases r with
  | ok a => cases hv; exact h a
  | error e => cases hv

theorem answersData_ok {v : Value} (h : v.IsData) : AnswersData (pure v) := by
  intro w hw
  cases hw
  exact h

theorem priceAt_data (market : Market) (field : PriceField) (args : List Value) :
    AnswersData (priceAt market field args) := by
  refine answersData_bind fun offset => ?_
  split <;> exact answersData_ok (.number _)

theorem windowed_data (indicator : List Float → Nat → Float) (n : Nat) (market : Market) (args : List Value) :
    AnswersData (windowed indicator n market args) :=
  answersData_bind fun _ => answersData_bind fun _ => answersData_ok (.number _)

theorem macdOf_data (market : Market) (args : List Value) : AnswersData (macdOf market args) :=
  answersData_bind fun _ => answersData_bind fun _ => answersData_bind fun _ => answersData_bind fun _ =>
    answersData_ok (Value.isData_ofNumbers _)

theorem bandsOf_data (market : Market) (args : List Value) : AnswersData (bandsOf market args) :=
  answersData_bind fun _ => answersData_bind fun _ => answersData_bind fun _ =>
    answersData_ok (Value.isData_ofNumbers _)

theorem seriesOf_data (market : Market) (args : List Value) : AnswersData (seriesOf market args) := by
  refine answersData_bind fun _ => ?_
  dsimp only
  split
  · exact answersData_bind fun _ => answersData_ok (.list _)
  · exact answersData_bind fun _ => answersData_ok (.list _)

theorem lengthOf_data (args : List Value) : AnswersData (lengthOf args) := by
  intro v hv
  unfold lengthOf at hv
  split at hv <;> cases hv
  · exact .number _
  · exact .number _

theorem roundOf_data (args : List Value) : AnswersData (roundOf args) := by
  refine answersData_bind fun _ => answersData_bind fun _ => ?_
  split
  · exact nofun
  · exact answersData_ok (.number _)

theorem rootOf_data (args : List Value) : AnswersData (rootOf args) := by
  refine answersData_bind fun _ => ?_
  split
  · exact nofun
  · exact answersData_ok (.number _)

/-! ## Calls -/

/-- What a call may do with the log, for every log it may be given. -/
inductive Touches (b : Builtin) (market : Market) (args : List Value) : Prop
  | nothing (r : Except ArgumentFault Value) (hr : AnswersData r)
      (h : ∀ log, b.apply market log args = r.map (·, log))
  | reads (hb : b = .position) (h : ∀ log, b.apply market log args = .ok (positionOf log, log))
  | adds (action : TradeAction) (order : Order)
      (h : ∀ log, b.apply market log args = .ok (.boolean true, log.trade market action order))

theorem touches (b : Builtin) (market : Market) (args : List Value) : b.Touches market args := by
  cases b with
  | price f => exact .nothing _ (priceAt_data market f args) fun _ => rfl
  | sma | ema | rsi => exact .nothing _ (windowed_data _ _ market args) fun _ => rfl
  | macd => exact .nothing _ (macdOf_data market args) fun _ => rfl
  | bollingerBands | bb => exact .nothing _ (bandsOf_data market args) fun _ => rfl
  | trade action =>
    cases hc : classify args with
    | ok order => exact .adds action order fun log => by simp only [apply, hc]
    | error fault =>
      refine .nothing (.error (.trade fault)) ?_ fun log => by simp only [apply, hc]; rfl
      intro v hv
      cases hv
  | position => exact .reads rfl fun _ => rfl
  | series => exact .nothing _ (seriesOf_data market args) fun _ => rfl
  | len => exact .nothing _ (lengthOf_data args) fun _ => rfl
  | abs => exact .nothing _ (answersData_map fun _ => .number _) fun _ => rfl
  | max | min => exact .nothing _ (answersData_map fun _ => .number _) fun _ => rfl
  | round => exact .nothing _ (roundOf_data args) fun _ => rfl
  | sqrt => exact .nothing _ (rootOf_data args) fun _ => rfl

variable {b : Builtin} {market : Market} {log log' : TradeLog} {args : List Value} {v : Value}

theorem apply_data (h : b.apply market log args = .ok (v, log')) : v.IsData := by
  rcases touches b market args with ⟨r, hr, hb⟩ | ⟨rfl, hb⟩ | ⟨action, order, hb⟩
  · rw [hb] at h
    cases r with
    | ok w => cases h; exact hr _ rfl
    | error e => cases h
  · rw [hb] at h
    cases h
    exact Value.isData_ofNumbers _
  · rw [hb] at h
    cases h
    exact .boolean _

/-- A call only ever adds to the log. -/
theorem records_apply (h : b.apply market log args = .ok (v, log')) : log.records <+: log'.records := by
  rcases touches b market args with ⟨r, hr, hb⟩ | ⟨rfl, hb⟩ | ⟨action, order, hb⟩
  · rw [hb] at h
    cases r with
    | ok w => cases h; exact List.prefix_refl _
    | error e => cases h
  · rw [hb] at h
    cases h
    exact List.prefix_refl _
  · rw [hb] at h
    cases h
    exact ⟨_, (TradeLog.records_emit ..).symm⟩

end Builtin

end StrategyScript
