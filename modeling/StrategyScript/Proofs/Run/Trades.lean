/-
The trades of a run. Whatever went before, a run begins with an empty log; every record in it is
numbered by its place and carries the last close of the market of this run, also when the function that
trades comes from an earlier run with another market. What the run hands back, in success or failure,
is the log that it leaves behind, and that has a record for each trade that succeeded and no other.
-/
import StrategyScript.Proofs.Run.History
import StrategyScript.Proofs.Run.Ledger

namespace StrategyScript

open Eval

/-! ## Numbers and prices -/

/-- The last value of the close series, or zero without one. -/
def Market.lastClose (m : Market) : Float := ((m.entries.get? "close").bind (·.getLast?)).getD 0.0

theorem Market.referencePrice_eq (m : Market) : m.referencePrice = m.lastClose := by
  unfold referencePrice lastClose latest? valueAt? series
  congr 1
  cases m.entries.get? "close" with
  | none => rfl
  | some values =>
    show (if 0 < values.length then values[values.length - 1]? else none) = values.getLast?
    rw [List.getLast?_eq_getElem?]
    split
    · rfl
    · rename_i h
      exact (List.getElem?_eq_none (by omega)).symm

/-- The records are numbered by their places, and each refers to the last close. -/
def TradeLog.Faithful (log : TradeLog) (market : Market) : Prop :=
  ∀ (i : Nat) (r : TradeRecord), log.records[i]? = some r → r.sequence = i ∧ r.referencePrice = market.lastClose

theorem TradeLog.Faithful.trade {log : TradeLog} {market : Market} (h : log.Faithful market) (action : TradeAction)
    (order : Argument.Order) : (log.trade market action order).Faithful market := by
  intro i r hr
  have hsize : log.size = log.records.length := Array.length_toList.symm
  rw [TradeLog.trade, records_emit, List.getElem?_append] at hr
  split at hr
  · exact h i r hr
  · rename_i hi
    obtain ⟨hlt, rfl⟩ := List.getElem?_eq_some_iff.1 hr
    rw [List.length_singleton] at hlt
    rw [List.getElem_singleton]
    exact ⟨show log.size = i by omega, market.referencePrice_eq⟩

/-- The log stays faithful to the market of the run. -/
def faithful : Discipline where
  Good s := s.trades.Faithful s.market
  Fits _ _ := True
  Admits _ := True
  admits_part _ _ _ _ := trivial
  fits_grows _ _ := trivial
  fits_new _ _ := trivial
  counted h := h
  numbered h := h
  traded h := h.trade _ _
  assigned _ h _ _ := h
  defined _ h _ _ := h
  entered h := h
  called h _ _ := h
  left _ h _ := h

theorem faithful_lasts (c : Limits) : faithful.Lasts c where
  admits _ := trivial
  new := nofun
  prepare _ := nofun
  fits_prepare _ := trivial

/-! ## One record for each trade -/

section

variable {α β : Type} {s : Session} {action : TradeAction}

/-- Records of a trade: one of its action if the computation succeeds, and none if it fails. -/
def MadeBy (action : TradeAction) (records : List TradeRecord) (o : Outcome α) : Prop :=
  records.map (·.action) = if o.isDone then [action] else []

theorem MadeBy.bind {m : Eval α} {f : α → Eval β} {records : α → Session → List TradeRecord}
    (h : ∀ a t, MadeBy action (records a t) (f a t)) : MadeBy action ((m s).next records) ((m >>= f) s) := by
  cases ho : m s with
  | done a t => rw [bind_done f ho]; exact h a t
  | failed e t => rw [bind_failed f ho]; rfl
  | unfinished t => rw [bind_unfinished f ho]; rfl

theorem madeBy_callBuiltin (args : List Value) (line : Nat) :
    MadeBy action (s.made action args) (callBuiltin (.trade action) args line s) := by
  unfold callBuiltin Session.made
  cases hc : Argument.classify args <;> simp only [Builtin.apply, hc] <;> rfl

/-- A task makes one record for the trade that it asks for if it succeeds, and else none. -/
theorem Task.map_own (n : Nat) (task : Task) (s : Session) :
    (task.own n s).map (·.action) = if task.succeeds (n + 1) s then (task.trade? s).toList else [] := by
  have hnone : ∀ b : Bool, ([] : List TradeAction) = if b then none.toList else [] := fun b => (ite_self _).symm
  cases task with
  | execute stmt =>
    cases stmt with
    | trade action args line =>
      refine MadeBy.bind fun _ t => MadeBy.bind fun vs u => ?_
      unfold Session.made
      cases Argument.classify vs <;> rfl
    | _ => exact hnone _
  | evaluate e =>
    cases e with
    | call callee args p =>
      cases hf : s.scopes.lookup s.current callee with
      | none =>
        rw [own_call_of_none hf, trade?, hf]
        exact hnone _
      | some f =>
        have hcall : StrategyScript.evaluate (n + 1) (.call callee args p) s = _ :=
          bind_done _ ((lookup_eq callee p.line s).trans (by rw [hf]))
        rw [own_call_of_some hf, trade?, hf, succeeds, hcall, Option.bind_some]
        cases htrade : f.trade? with
        | none =>
          rw [Outcome.next_nil]
          exact hnone _
        | some action =>
          obtain rfl := Value.trade?_eq_some htrade
          exact MadeBy.bind fun vs u => madeBy_callBuiltin vs p.line
    | _ => exact hnone _
  | _ => exact hnone _

end

/-! ## Runs -/

/-- What a run hands back when it ends: the trades, with the error if it fails. -/
def Ending.answer (trades : List TradeRecord) : Ending → Option (Except RunError (List TradeRecord))
  | .success => some (.ok trades)
  | .failure e => some (.error ⟨e, trades⟩)
  | .unfinished => none

namespace Session

/-- The answer of a run, from the log as it is when the last statement has ended. -/
def answer (s : Session) (fuel : Nat) (p : Program) (market : Market) : Option (Except RunError (List TradeRecord)) :=
  match executeProgram fuel p (s.prepare market) with
  | .done _ t => some (.ok t.trades.records)
  | .failed e t => some (.error ⟨e, t.trades.records⟩)
  | .unfinished _ => none

theorem answer_eq (s : Session) (fuel : Nat) (p : Program) (market : Market) :
    s.answer fuel p market = (s.run fuel p market).1.answer (s.run fuel p market).2.trades.records := by
  unfold answer run
  cases executeProgram fuel p (s.prepare market) <;> rfl

/-- In every run of one interpreter: the trades that are handed back are those that the session has
afterwards, and they are the ledger of the program. At all times the log is numbered and refers to the
market of the run. And when any computation ends, the log has got what its parts have added and at most
one record more: one of a trade that the computation itself asks for, if it succeeds. -/
theorem trade_log_sound {c : Limits} {past : List Session} {s : Session} (hist : History c past s) (fuel : Nat)
    (p : Program) (market : Market) :
    s.answer fuel p market = (s.run fuel p market).1.answer (s.run fuel p market).2.trades.records ∧
    ((s.run fuel p market).1 ≠ .unfinished → (s.run fuel p market).2.trades.Faithful market ∧
      (s.run fuel p market).2.trades.records = (Task.executeAll p).ledger fuel (s.prepare market)) ∧
    (∀ u ∈ (s.start fuel p market).trace, u.trades.Faithful market) ∧
    ∀ (n : Nat) (task : Task) (t : Session),
      (∀ u, task.ended? (n + 1) t = some u →
        u.trades.records = t.trades.records ++ (Task.ledgers n (task.parts n t) ++ task.own n t)) ∧
      (task.own n t).map (·.action) = if task.succeeds (n + 1) t then (task.trade? t).toList else [] := by
  -- the market of a run is set when it begins and is the same in every session it meets
  have hsound := ((faithful_lasts c).history hist).1 s (by simp)
  have hr := (faithful_lasts c).start hsound fuel p market
  refine ⟨s.answer_eq fuel p market, fun he => ?_, fun u hu => ?_, fun n task t =>
    ⟨fun u hu => balanced (n + 1) task t u hu, task.map_own n t⟩⟩
  · have hended := Discipline.ended?_of_run hr he
    obtain ⟨hlast, hreturns⟩ := hr.ended hended
    refine ⟨?_, balanced fuel _ _ _ hended⟩
    have hgood : (s.run fuel p market).2.trades.Faithful (s.run fuel p market).2.market := hlast.good
    rwa [show (s.run fuel p market).2.market = market from hreturns.market] at hgood
  · have hgood : u.trades.Faithful u.market := (hr.trace u hu).good
    rwa [show u.market = market from (hr.grows u hu).market] at hgood

/-- A function of one run that trades in another, which has a market of its own and fails. -/
theorem trades_of_second_market :
    let p : Program := [.function "f" [] [.ret (some (.call "buy" [] ⟨1, 25⟩)) 1]]
    let q : Program := [.expr (.call "f" [] ⟨1, 1⟩), .trade .sell [.boolean true ⟨2, 6⟩] 2]
    let s := ((new {}).run 4 p ⟨.ofList [("close", [1.0, 2.0])]⟩).2
    let market : Market := ⟨.ofList [("close", [5.0, 7.0])]⟩
    ∃ past e r, History {} past s ∧ s.answer 12 q market = some (.error ⟨e, [r]⟩) ∧
      (s.run 12 q market).2.trades.records = [r] ∧ r.sequence = 0 ∧ r.referencePrice = 7.0 := by
  intro p q s market
  have hist : History {} _ s := History.new.run (by decide +kernel)
  obtain ⟨hanswer, hafter, -⟩ := trade_log_sound hist 12 q market
  obtain ⟨e, he⟩ : ∃ e, (s.run 12 q market).1.error? = some e := Option.isSome_iff_exists.1 (by decide +kernel)
  rw [Ending.error?_eq_some] at he
  obtain ⟨r, hr⟩ : ∃ r, (s.run 12 q market).2.trades.records = [r] :=
    List.length_eq_one_iff.1 (by decide +kernel)
  rw [he, hr] at hanswer
  have hended : (s.run 12 q market).1 ≠ .unfinished := by
    rw [he]
    rintro ⟨⟩
  have hfaithful := (hafter hended).1 0 r (by rw [hr]; rfl)
  exact ⟨_, e, r, hist, hanswer, hr, hfaithful.1, hfaithful.2⟩

end Session

end StrategyScript
