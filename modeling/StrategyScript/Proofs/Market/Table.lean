/-
Bars of a table. They are found exactly if every row can be read, column by column, and then they are the rows from
the oldest, none lost and none added, with the rows of one day in their order. Otherwise there are none, and the
fault is that of the first bad row and in it of the first bad column.
-/
import StrategyScript.Proofs.Command.Run
import Mathlib.Tactic

namespace StrategyScript

/-! ## The order of dates -/

namespace Date

theorem le_iff {a b : Date} :
    a.le b = true ↔ a.year < b.year ∨ a.year = b.year ∧ (a.month < b.month ∨ a.month = b.month ∧ a.day ≤ b.day) := by
  simp [le]

theorem le_trans {a b c : Date} (hab : a.le b = true) (hbc : b.le c = true) : a.le c = true := by
  rw [le_iff] at *
  omega

theorem le_total (a b : Date) : a.le b = true ∨ b.le a = true := by
  rw [le_iff, le_iff]
  omega

theorem le_refl (a : Date) : a.le a = true := (le_total a a).elim id id

end Date

namespace Bar

/-! ## Sorting -/

theorem date_le_trans (a b c : Bar) : a.date.le b.date = true → b.date.le c.date = true → a.date.le c.date = true :=
  Date.le_trans

theorem date_le_total (a b : Bar) : (a.date.le b.date || b.date.le a.date) = true :=
  Bool.or_eq_true_iff.2 (Date.le_total a.date b.date)

section

variable (bars : List Bar)

theorem sortByDate_perm : (sortByDate bars).Perm bars := List.mergeSort_perm _ _

theorem sortByDate_sorted : (sortByDate bars).Pairwise fun a b => a.date.le b.date = true :=
  List.pairwise_mergeSort date_le_trans date_le_total bars

/-- The bars of one day keep their order. -/
theorem sortByDate_stable (d : Date) :
    (sortByDate bars).filter (fun b => b.date = d) = bars.filter fun b => b.date = d := by
  have hday : (bars.filter fun b => b.date = d).Pairwise fun a b => a.date.le b.date = true := by
    refine List.pairwise_of_forall_mem_list fun a ha b hb => ?_
    have ha' : a.date = d := by simpa using (List.mem_filter.1 ha).2
    have hb' : b.date = d := by simpa using (List.mem_filter.1 hb).2
    rw [ha', hb']
    exact Date.le_refl d
  -- A part of the row that is in order already is left as it is, and the bars of one day are such a part.
  have hsublist : (bars.filter fun b => b.date = d).Sublist (sortByDate bars) :=
    List.sublist_mergeSort date_le_trans date_le_total hday List.filter_sublist
  have hkept := hsublist.filter fun b => b.date = d
  rw [List.filter_filter] at hkept
  simp only [Bool.and_self] at hkept
  exact (hkept.eq_of_length (((sortByDate_perm bars).filter _).length_eq).symm).symm

end

/-! ## Columns -/

/-- The columns that are read. -/
inductive Column
  | date
  | figure (field : PriceField)
deriving DecidableEq

namespace Column

/-- The place of a column in a row, from zero. -/
def place : Column → Nat
  | .date => 0
  | .figure .opening => 1
  | .figure .high => 2
  | .figure .low => 3
  | .figure .close => 4
  | .figure .volume => 5

def name : Column → String
  | .date => "date"
  | .figure field => field.name

/-- In the order in which they stand. -/
def all : List Column := .date :: PriceField.all.map .figure

theorem getElem?_all (c : Column) : all[c.place]? = some c := by
  rcases c with _ | f
  · rfl
  · cases f <;> rfl

theorem place_of_getElem? {c : Column} {i : Nat} (h : all[i]? = some c) : c.place = i := by
  have hi : i < 6 := (List.getElem?_eq_some_iff.1 h).1
  interval_cases i <;> cases h <;> rfl

/-- The field of the column, without the blanks around it, stands for what the bar has there. -/
inductive Gives (fields : List String) (b : Bar) : Column → Prop
  | date {field : String} (h : fields[Column.date.place]? = some field)
    (hd : Date.read (Text.trim field) = .ok b.date) : Gives fields b .date
  | figure {f : PriceField} {field : String} (h : fields[(Column.figure f).place]? = some field)
    (hx : Number.readFloat (Text.trim field) = .ok (b.figure f)) : Gives fields b (.figure f)

/-- The column of this row is not there, or does not stand for anything. -/
inductive Fails (fields : List String) (row : Nat) : Column → Fault → Prop
  | missing {c : Column} (h : fields[c.place]? = none) : Fails fields row c (.missing row c.name)
  | badDate {field : String} {cause : Date.Fault} (h : fields[Column.date.place]? = some field)
    (hd : Date.read (Text.trim field) = .error cause) : Fails fields row .date (.badDate row cause)
  | badNumber {f : PriceField} {field : String} {cause : Number.FloatFault}
    (h : fields[(Column.figure f).place]? = some field) (hx : Number.readFloat (Text.trim field) = .error cause) :
    Fails fields row (.figure f) (.badNumber row f.name cause)

/-- Whether the column of a row can be read. -/
def check (fields : List String) (row : Nat) : Column → Except Fault Unit
  | .date => (readDate fields row).map fun _ => ()
  | .figure f => (readFigure fields row (Column.figure f).place f).map fun _ => ()

end Column

section

variable {fields : List String} {row : Nat} {b : Bar}

theorem readDate_cases (fields : List String) (row : Nat) :
    (∃ d, readDate fields row = .ok d ∧
      ∃ field, fields[Column.date.place]? = some field ∧ Date.read (Text.trim field) = .ok d) ∨
      ∃ e, readDate fields row = .error e ∧ Column.Fails fields row .date e := by
  unfold readDate column
  cases h : fields[Column.date.place]? with
  | none =>
    rw [show fields[0]? = none from h]
    exact .inr ⟨_, rfl, .missing h⟩
  | some field =>
    rw [show fields[0]? = some field from h]
    simp only [bind, Except.bind]
    cases hd : Date.read (Text.trim field) with
    | error cause => exact .inr ⟨_, rfl, .badDate h hd⟩
    | ok d => exact .inl ⟨d, rfl, field, rfl, hd⟩

theorem readFigure_cases (fields : List String) (row : Nat) (f : PriceField) :
    (∃ x, readFigure fields row (Column.figure f).place f = .ok x ∧
      ∃ field, fields[(Column.figure f).place]? = some field ∧ Number.readFloat (Text.trim field) = .ok x) ∨
      ∃ e, readFigure fields row (Column.figure f).place f = .error e ∧ Column.Fails fields row (.figure f) e := by
  unfold readFigure column
  cases h : fields[(Column.figure f).place]? with
  | none => exact .inr ⟨_, rfl, .missing h⟩
  | some field =>
    simp only [bind, Except.bind]
    cases hx : Number.readFloat (Text.trim field) with
    | error cause => exact .inr ⟨_, rfl, .badNumber h hx⟩
    | ok x => exact .inl ⟨x, rfl, field, rfl, hx⟩

/-- A column can be read exactly if it gives something, and what is wrong with it is told otherwise. -/
theorem check_cases (fields : List String) (row : Nat) (c : Column) :
    (c.check fields row = .ok () ∧ ∃ b, c.Gives fields b) ∨
      ∃ e, c.check fields row = .error e ∧ c.Fails fields row e := by
  cases c with
  | date =>
    rcases readDate_cases fields row with ⟨d, hread, field, h, hd⟩ | ⟨e, hread, he⟩
    · exact .inl ⟨by rw [Column.check, hread]; rfl, ⟨d, 0.0, 0.0, 0.0, 0.0, 0.0⟩, .date h hd⟩
    · exact .inr ⟨e, by rw [Column.check, hread]; rfl, he⟩
  | figure f =>
    rcases readFigure_cases fields row f with ⟨x, hread, field, h, hx⟩ | ⟨e, hread, he⟩
    · refine .inl ⟨by rw [Column.check, hread]; rfl, ⟨⟨1, 1, 1⟩, x, x, x, x, x⟩, .figure h ?_⟩
      rw [hx]
      cases f <;> rfl
    · exact .inr ⟨e, by rw [Column.check, hread]; rfl, he⟩

theorem not_fails_of_gives {c : Column} {e : Fault} (hg : c.Gives fields b) : ¬ c.Fails fields row e := by
  intro hf
  cases hf with
  | missing h => cases hg with
    | date h' _ => cases h.symm.trans h'
    | figure h' _ => cases h.symm.trans h'
  | badDate h he =>
    obtain ⟨h', hd⟩ := hg
    cases h.symm.trans h'
    cases he.symm.trans hd
  | badNumber h he =>
    obtain _ | ⟨h', hx⟩ := hg
    cases h.symm.trans h'
    cases he.symm.trans hx

/-! ## Rows -/

/-- The bar of a row is there exactly if the columns can be read one after the other. -/
theorem ofFields_check (fields : List String) (row : Nat) :
    (ofFields fields row).map (fun _ => ()) = (Column.all.mapM (Column.check fields row)).map fun _ => () := by
  have hall : Column.all =
      [.date, .figure .opening, .figure .high, .figure .low, .figure .close, .figure .volume] := rfl
  rw [hall]
  simp only [List.mapM_cons, List.mapM_nil, Column.check, ofFields, Column.place]
  cases readDate fields row with
  | error e => rfl
  | ok d => cases readFigure fields row 1 .opening with
    | error e => rfl
    | ok opening => cases readFigure fields row 2 .high with
      | error e => rfl
      | ok high => cases readFigure fields row 3 .low with
        | error e => rfl
        | ok low => cases readFigure fields row 4 .close with
          | error e => rfl
          | ok close => cases readFigure fields row 5 .volume <;> rfl

theorem gives_date (h : readDate fields row = .ok b.date) : Column.Gives fields b .date := by
  rcases readDate_cases fields row with ⟨d, hread, field, hfield, hd⟩ | ⟨e, hread, -⟩
  · cases h.symm.trans hread
    exact .date hfield hd
  · cases h.symm.trans hread

theorem gives_figure {f : PriceField} (h : readFigure fields row (Column.figure f).place f = .ok (b.figure f)) :
    Column.Gives fields b (.figure f) := by
  rcases readFigure_cases fields row f with ⟨x, hread, field, hfield, hx⟩ | ⟨e, hread, -⟩
  · cases h.symm.trans hread
    exact .figure hfield hx
  · cases h.symm.trans hread

theorem gives_of_ofFields (h : ofFields fields row = .ok b) (c : Column) : c.Gives fields b := by
  obtain ⟨d, hd, h⟩ := bind_eq_ok h
  obtain ⟨opening, hopening, h⟩ := bind_eq_ok h
  obtain ⟨high, hhigh, h⟩ := bind_eq_ok h
  obtain ⟨low, hlow, h⟩ := bind_eq_ok h
  obtain ⟨close, hclose, h⟩ := bind_eq_ok h
  obtain ⟨volume, hvolume, h⟩ := bind_eq_ok h
  cases h
  rcases c with _ | f
  · exact gives_date hd
  · cases f
    · exact gives_figure hopening
    · exact gives_figure hhigh
    · exact gives_figure hlow
    · exact gives_figure hclose
    · exact gives_figure hvolume

/-- The first column that fails decides. -/
theorem fails_of_ofFields {e : Fault} (h : ofFields fields row = .error e) :
    ∃ c : Column, c.Fails fields row e ∧ ∀ d : Column, d.place < c.place → ∃ b, d.Gives fields b := by
  have hcheck := ofFields_check fields row
  rw [h] at hcheck
  cases hall : Column.all.mapM (Column.check fields row) with
  | ok _ =>
    rw [hall] at hcheck
    cases hcheck
  | error e' =>
    rw [hall] at hcheck
    cases hcheck
    obtain ⟨i, c, hc, he, hbefore⟩ := mapM_eq_error_iff.1 hall
    refine ⟨c, ?_, fun d hd => ?_⟩
    · rcases check_cases fields row c with ⟨hok, -⟩ | ⟨e', he', hfails⟩
      · cases he.symm.trans hok
      · cases he.symm.trans he'
        exact hfails
    · rw [Column.place_of_getElem? hc] at hd
      obtain ⟨y, hy⟩ := hbefore d.place hd d (Column.getElem?_all d)
      rcases check_cases fields row d with ⟨-, hgives⟩ | ⟨e', he', -⟩
      · exact hgives
      · cases hy.symm.trans he'

end

/-- All columns of the row can be read and are those of the bar. -/
inductive RowGives : Except Csv.Uneven (List String) → Bar → Prop
  | mk {fields : List String} {b : Bar} (h : ∀ c : Column, c.Gives fields b) : RowGives (.ok fields) b

/-- What is wrong with a row: it is uneven, or it is in the first of its columns that cannot be read. -/
inductive RowFails (row : Nat) : Except Csv.Uneven (List String) → Fault → Prop
  | uneven (cause : Csv.Uneven) : RowFails row (.error cause) (.uneven cause)
  | column {fields : List String} {c : Column} {e : Fault} (h : c.Fails fields row e)
    (hbefore : ∀ d : Column, d.place < c.place → ∃ b, d.Gives fields b) : RowFails row (.ok fields) e

section

variable {r : Except Csv.Uneven (List String)} {row : Nat}

theorem rowGives_of_ofRow {b : Bar} (h : ofRow r row = .ok b) : RowGives r b := by
  cases r with
  | error cause => cases h
  | ok fields => exact .mk (gives_of_ofFields h)

theorem rowFails_of_ofRow {e : Fault} (h : ofRow r row = .error e) : RowFails row r e := by
  cases r with
  | error cause =>
    cases h
    exact .uneven cause
  | ok fields =>
    obtain ⟨c, hfails, hbefore⟩ := fails_of_ofFields h
    exact .column hfails hbefore

theorem not_rowFails_of_rowGives {b : Bar} {e : Fault} (hg : RowGives r b) : ¬ RowFails row r e := by
  obtain ⟨hg⟩ := hg
  rintro (_ | ⟨hfails, -⟩)
  exact not_fails_of_gives (hg _) hfails

/-- Whether a row gives a bar does not depend on where it stands. -/
theorem ofRow_ok_iff : (∃ b, ofRow r row = .ok b) ↔ ∃ b, RowGives r b := by
  constructor
  · rintro ⟨b, h⟩
    exact ⟨b, rowGives_of_ofRow h⟩
  · rintro ⟨b, hg⟩
    cases h : ofRow r row with
    | ok b' => exact ⟨b', rfl⟩
    | error e => exact absurd (rowFails_of_ofRow h) (not_rowFails_of_rowGives hg)

end

/-! ## Tables -/

section

variable {rows : List (Except Csv.Uneven (List String))}

theorem readRows_ok {bars : List Bar} (h : readRows rows = .ok bars) : List.Forall₂ RowGives rows bars := by
  have hrows := mapM_eq_ok_iff.1 h
  rw [← List.zipIdx_map_fst 0 rows, List.forall₂_map_left_iff]
  exact hrows.imp fun _ _ => rowGives_of_ofRow

theorem readRows_error {e : Fault} (h : readRows rows = .error e) :
    ∃ i r, rows[i]? = some r ∧ RowFails (i + 2) r e ∧ ∀ j < i, ∀ w, rows[j]? = some w → ∃ b, RowGives w b := by
  obtain ⟨i, ⟨r, k⟩, hrow, he, hbefore⟩ := mapM_eq_error_iff.1 h
  rw [List.getElem?_zipIdx, Nat.zero_add] at hrow
  obtain ⟨_, hr, heq⟩ := Option.map_eq_some_iff.1 hrow
  cases heq
  refine ⟨i, r, hr, rowFails_of_ofRow he, fun j hj w hw => ?_⟩
  refine ofRow_ok_iff.1 (hbefore j hj (w, j) ?_)
  rw [List.getElem?_zipIdx, hw, Nat.zero_add]
  rfl

/-- What comes of the rows of a table: the bars from the oldest, or the first fault. -/
structure Loads (rows : List (Except Csv.Uneven (List String))) (r : Except Fault (List Bar)) : Prop where
  found : (∃ bars, r = .ok bars) ↔ ∀ row ∈ rows, ∃ b, RowGives row b
  sorted : ∀ bars, r = .ok bars → ∃ read, List.Forall₂ RowGives rows read ∧ bars.Perm read ∧
    bars.Pairwise (fun a b => a.date.le b.date = true) ∧
    ∀ d, bars.filter (fun b => b.date = d) = read.filter fun b => b.date = d
  blamed : ∀ e, r = .error e → ∃ i row, rows[i]? = some row ∧ RowFails (i + 2) row e ∧
    ∀ j < i, ∀ w, rows[j]? = some w → ∃ b, RowGives w b

theorem loads_readRows (rows : List (Except Csv.Uneven (List String))) :
    Loads rows ((readRows rows).map sortByDate) := by
  cases h : readRows rows with
  | ok read =>
    have hread := readRows_ok h
    refine ⟨⟨fun _ row hrow => ?_, fun _ => ⟨_, rfl⟩⟩, ?_, nofun⟩
    · obtain ⟨i, hi, rfl⟩ := List.mem_iff_getElem.1 hrow
      exact ⟨_, hread.get hi (hread.length_eq ▸ hi)⟩
    · rintro _ ⟨⟩
      exact ⟨read, hread, sortByDate_perm read, sortByDate_sorted read, sortByDate_stable read⟩
  | error e =>
    obtain ⟨i, row, hrow, hfails, hbefore⟩ := readRows_error h
    refine ⟨⟨nofun, fun hall => ?_⟩, nofun, ?_⟩
    · obtain ⟨b, hb⟩ := hall row (List.mem_of_getElem? hrow)
      exact absurd hfails (not_rowFails_of_rowGives hb)
    · rintro _ ⟨⟩
      exact ⟨i, row, hrow, hfails, hbefore⟩

end

/-- The bars of a symbol, for any tree of files. Nothing is written. If the file can be read, its rows become the bars
from the oldest, or the first fault of its rows is told. -/
theorem fetchBars_loads (files : FileTree) (dir symbol : String) :
    ∃ r, Command.Acts (Command.fetchBars World.host dir symbol) files r files ∧
      match files.readText (Command.barsPath dir symbol) with
      | .error cause => r = .error (.data (s!"failed to read {Command.barsPath dir symbol}: " ++ cause.message))
      | .ok text => ∃ read, Loads (Csv.rows text) read ∧ r = read.mapError (.data ·.message) := by
  cases ht : files.readText (Command.barsPath dir symbol) with
  | error cause =>
    have hread := Command.acts_readText files (Command.barsPath dir symbol)
    rw [ht] at hread
    exact ⟨_, hread.bind (Command.acts_pure _), rfl⟩
  | ok text => exact ⟨_, Command.acts_fetchBars ht, _, loads_readRows (Csv.rows text), rfl⟩

end Bar

end StrategyScript
