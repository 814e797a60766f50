/-
What has been written is read back. A field between quotes ends at the first quote that is not doubled, and a field
without quotes has nothing in it that ends a field, so every record is found again field by field, whatever its
fields hold: commas, quotes and whole lines that look like records.
-/
import StrategyScript.Csv.Reader
import StrategyScript.Csv.Writer
import Mathlib.Tactic

namespace StrategyScript.Csv

/-! ## Reading by the letter -/

/-- The records of a text in which nothing but a line feed outside of quotes ends a record. Fields have commas between
them and may stand between double quotes, with quotes inside doubled. `field` and `fields` hold, in reverse, what has
been read of a record. -/
def readTable (mode : Mode) (field : List Char) (fields : List String) : List Char → List (List String)
  | [] => if mode = .start ∧ fields = [] then [] else [(String.ofList field.reverse :: fields).reverse]
  | c :: cs =>
    if mode = .quoted then
      if c = '\x22' then readTable .closed field fields cs
      else readTable .quoted (c :: field) fields cs
    else if mode = .start ∧ c = '\x22' then readTable .quoted field fields cs
    else if mode = .closed ∧ c = '\x22' then readTable .quoted (c :: field) fields cs
    else if c = ',' then readTable .start [] (String.ofList field.reverse :: fields) cs
    else if c = '\n' then (String.ofList field.reverse :: fields).reverse :: readTable .start [] [] cs
    else readTable .bare (c :: field) fields cs

def readRecords (text : String) : List (List String) := readTable .start [] [] text.toList

/-! ## Fields -/

section

variable {mode : Mode} {field cs rest : List Char} {fields : List String}

/-- Doubled quotes are taken for quotes inside the field. -/
theorem readTable_doubleQuotes (cs field rest : List Char) (fields : List String) :
    readTable .quoted field fields (doubleQuotes cs ++ rest) = readTable .quoted (cs.reverse ++ field) fields rest := by
  induction cs generalizing field with
  | nil => rfl
  | cons c cs ih =>
    have hcons : doubleQuotes (c :: cs) = (if c = '\x22' then ['\x22', '\x22'] else [c]) ++ doubleQuotes cs := rfl
    have hreverse : (c :: cs).reverse ++ field = cs.reverse ++ c :: field := by simp
    rw [hcons, hreverse, ← ih]
    by_cases hc : c = '\x22'
    · subst hc
      rfl
    · simp only [if_neg hc, List.cons_append, List.nil_append, readTable, if_true]

/-- A character that needs no quotes is part of the field. -/
theorem readTable_plain {c : Char} (hc : isSpecial c = false) (hmode : mode ≠ .quoted) :
    readTable mode field fields (c :: cs) = readTable .bare (c :: field) fields cs := by
  simp only [isSpecial, Bool.or_eq_false_iff, decide_eq_false_iff_not] at hc
  obtain ⟨⟨⟨hcomma, hquote⟩, -⟩, hfeed⟩ := hc
  simp [readTable, hmode, hcomma, hquote, hfeed]

theorem readTable_bare (hcs : cs.any isSpecial = false) :
    readTable .bare field fields (cs ++ rest) = readTable .bare (cs.reverse ++ field) fields rest := by
  induction cs generalizing field with
  | nil => rfl
  | cons c cs ih =>
    rw [List.any_cons, Bool.or_eq_false_iff] at hcs
    rw [List.cons_append, readTable_plain hcs.1 (by decide), ih hcs.2, List.reverse_cons, List.append_assoc]
    rfl

/-- The character behind a field ends it, with quotes around it or without. -/
theorem readTable_end {d : Char} (hd : d = ',' ∨ d = '\n') (hmode : mode ≠ .quoted) :
    readTable mode field fields (d :: rest) = readTable .closed field fields (d :: rest) := by
  have hquote : d ≠ '\x22' := by
    rcases hd with rfl | rfl <;> decide
  simp [readTable, hmode, hquote]

theorem readTable_writeField (f : String) (fields : List String) {d : Char} (hd : d = ',' ∨ d = '\n')
    (rest : List Char) :
    readTable .start [] fields (writeField f ++ d :: rest) = readTable .closed f.toList.reverse fields (d :: rest) := by
  unfold writeField
  split
  · have hopen : readTable .start [] fields ('\x22' :: doubleQuotes f.toList ++ ['\x22'] ++ d :: rest) =
        readTable .quoted [] fields (doubleQuotes f.toList ++ '\x22' :: d :: rest) := by
      rw [List.cons_append, List.cons_append, List.append_assoc]
      rfl
    rw [hopen, readTable_doubleQuotes, List.append_nil]
    rfl
  · rename_i hplain
    rw [Bool.not_eq_true] at hplain
    cases hf : f.toList with
    | nil => exact readTable_end hd (by decide)
    | cons c cs =>
      rw [hf, List.any_cons, Bool.or_eq_false_iff] at hplain
      rw [List.cons_append, readTable_plain hplain.1 (by decide), readTable_bare hplain.2,
        readTable_end hd (by decide),
        List.reverse_cons]

/-! ## Records -/

/-- The fields of a record are read one after the other, and the line feed behind them ends it. -/
theorem readTable_writeFields {fs : List String} (hfs : fs ≠ []) (fields : List String) (rest : List Char) :
    readTable .start [] fields (writeFields fs ++ '\n' :: rest) =
      (fields.reverse ++ fs) :: readTable .start [] [] rest := by
  induction fs generalizing fields with
  | nil => exact absurd rfl hfs
  | cons f fs ih =>
    cases fs with
    | nil =>
      rw [writeFields, readTable_writeField f fields (.inr rfl)]
      simp [readTable]
    | cons g gs =>
      have hwrite : writeFields (f :: g :: gs) = writeField f ++ ',' :: writeFields (g :: gs) := rfl
      have hcomma : readTable .closed f.toList.reverse fields (',' :: (writeFields (g :: gs) ++ '\n' :: rest)) =
          readTable .start [] (f :: fields) (writeFields (g :: gs) ++ '\n' :: rest) := by
        simp [readTable]
      rw [hwrite, List.append_assoc, List.cons_append, readTable_writeField f fields (.inl rfl), hcomma,
        ih (List.cons_ne_nil g gs), List.reverse_cons, List.append_assoc, List.singleton_append]

/-- Every table without empty records is read back as it was written. -/
theorem readRecords_write {records : List (List String)} (h : ∀ r ∈ records, r ≠ []) :
    readRecords (write records) = records := by
  unfold readRecords write
  rw [String.toList_ofList]
  induction records with
  | nil => rfl
  | cons r records ih =>
    rw [List.forall_mem_cons] at h
    rw [List.flatMap_cons, List.append_assoc, List.singleton_append, readTable_writeFields h.1, ih h.2]
    rfl

/-- A field that looks like the next record. -/
example : readRecords "buy,\"a \"\"b\"\",\n1,sell\",\n" = [["buy", "a \"b\",\n1,sell", ""]] := by decide

end

end StrategyScript.Csv
