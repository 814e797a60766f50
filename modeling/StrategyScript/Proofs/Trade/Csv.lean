/-
The trade log as a table is read back record by record, whatever the messages hold. Its text tells any two logs
apart, but for a message that is missing and one that is empty.
-/
import StrategyScript.Proofs.Csv.Roundtrip
import StrategyScript.Proofs.Number.Distinct
import StrategyScript.Trade.Csv
import Mathlib.Data.List.Forall2

namespace StrategyScript.TradeRecord

/-- The two records are alike, but one may have an empty message where the other has none. -/
structure Alike (t u : TradeRecord) : Prop where
  sequence : t.sequence = u.sequence
  action : t.action = u.action
  message : t.message.getD "" = u.message.getD ""
  quantity : t.quantity = u.quantity
  referencePrice : t.referencePrice = u.referencePrice

section

variable {t u : TradeRecord}

theorem name_inj {a b : TradeAction} (h : a.name = b.name) : a = b := by
  cases a with
  | buy => cases b with
    | buy => rfl
    | sell => exact absurd h (by decide)
  | sell => cases b with
    | buy => exact absurd h (by decide)
    | sell => rfl

/-- A number is never written as an empty field, so one that is missing is not mistaken for another. -/
theorem quantity_inj {q r : Option Float} (h : (q.map Number.text).getD "" = (r.map Number.text).getD "") : q = r := by
  cases q with
  | none => cases r with
    | none => rfl
    | some y => exact absurd h.symm (Number.text_ne_empty y)
  | some x => cases r with
    | none => exact absurd h (Number.text_ne_empty x)
    | some y => exact congrArg some (Number.text_inj h)

theorem csvFields_eq_iff : csvFields t = csvFields u ↔ Alike t u := by
  unfold csvFields
  constructor
  · intro h
    simp only [List.cons.injEq, and_true] at h
    obtain ⟨hsequence, haction, hmessage, hquantity, hprice⟩ := h
    exact ⟨Nat.repr_inj.1 hsequence, name_inj haction, hmessage, quantity_inj hquantity, Number.text_inj hprice⟩
  · rintro ⟨hsequence, haction, hmessage, hquantity, hprice⟩
    rw [hsequence, haction, hmessage, hquantity, hprice]

theorem map_csvFields_eq_iff {trades others : List TradeRecord} :
    trades.map csvFields = others.map csvFields ↔ List.Forall₂ Alike trades others := by
  rw [← List.forall₂_eq_eq_eq, List.forall₂_map_left_iff, List.forall₂_map_right_iff]
  constructor
  · exact fun h => h.imp fun _ _ => csvFields_eq_iff.1
  · exact fun h => h.imp fun _ _ => csvFields_eq_iff.2

theorem readRecords_writeCsv (trades : List TradeRecord) :
    Csv.readRecords (writeCsv trades) = csvHeader :: trades.map csvFields := by
  refine Csv.readRecords_write fun r hr => ?_
  rcases List.mem_cons.1 hr with rfl | hr
  · exact List.cons_ne_nil _ _
  · obtain ⟨t, -, rfl⟩ := List.mem_map.1 hr
    exact List.cons_ne_nil _ _

end

/-- A log is read back as the header and one record of five fields for each trade, in order. Logs with the same text
have the same trades, but for messages that are missing in one and empty in the other. All NaNs count as one number. -/
theorem log_is_read_back (trades : List TradeRecord) :
    Csv.readRecords (writeCsv trades) =
      ["sequence", "action", "message", "quantity", "reference_price"] :: trades.map (fun t =>
        [toString t.sequence, match t.action with | .buy => "buy" | .sell => "sell",
          match t.message with | some message => message | none => "",
          match t.quantity with | some quantity => Number.text quantity | none => "",
          Number.text t.referencePrice]) ∧
      ∀ others, writeCsv trades = writeCsv others ↔ List.Forall₂ Alike trades others := by
  constructor
  · rw [readRecords_writeCsv]
    refine congrArg (csvHeader :: ·) (List.map_congr_left ?_)
    rintro ⟨action, message, quantity, price, sequence⟩ -
    cases action <;> cases message <;> cases quantity <;> rfl
  · intro others
    rw [← map_csvFields_eq_iff]
    constructor
    · intro h
      have hread := congrArg Csv.readRecords h
      rw [readRecords_writeCsv, readRecords_writeCsv] at hread
      exact List.tail_eq_of_cons_eq hread
    · intro h
      rw [writeCsv, writeCsv, h]

/-- A message that looks like the end of its record and the next one. -/
example : writeCsv [⟨.buy, some "a \"b\",\n1,sell", none, 2.5, 0⟩] =
    "sequence,action,message,quantity,reference_price\n0,buy,\"a \"\"b\"\",\n1,sell\",,2.5\n" := by
  decide +kernel

end StrategyScript.TradeRecord
