/-
Three ways to the figures of bars. Bars are kept from the oldest to the latest, an accessor counts back
from the latest one, and the list that a script gets of a series has the latest value first. Place by
place the three have the same figures; they differ only beyond the oldest bar, where an accessor has zero
and the list has nothing.
-/
import StrategyScript.Proofs.Number.Count
import StrategyScript.Proofs.Run.Builtin

namespace StrategyScript

open Number

/-! ## Market data of bars -/

theorem PriceField.lowercase_name (f : PriceField) : Text.lowercase f.name = f.name := by
  cases f <;> decide +kernel

theorem PriceField.name_inj {f g : PriceField} : f.name = g.name ↔ f = g := by
  cases f <;> cases g <;> decide

namespace Market

variable {m : Market} {bars : List Bar} {f : PriceField}

theorem series_insert (m : Market) (field : String) (values : List Float) (name : String) :
    (m.insert field values).series name = if name = Text.lowercase field then values else m.series name := by
  rw [series, insert, Dictionary.get?_insert]
  split <;> rfl

/-- Inserted one after the other, the series of fields are found under their names. -/
theorem series_foldl (bars : List Bar) (f : PriceField) (fs : List PriceField) (m : Market) :
    (fs.foldl (fun m g => m.insert g.name (bars.map (·.figure g))) m).series f.name =
      if f ∈ fs then bars.map (·.figure f) else m.series f.name := by
  induction fs generalizing m with
  | nil => rfl
  | cons g fs ih =>
    rw [List.foldl_cons, ih, series_insert, g.lowercase_name]
    by_cases hfs : f ∈ fs
    · rw [if_pos hfs, if_pos (List.mem_cons_of_mem g hfs)]
    · by_cases hfg : f = g
      · subst hfg
        rw [if_neg hfs, if_pos rfl, if_pos List.mem_cons_self]
      · have hnot : f ∉ g :: fs := fun h => (List.mem_cons.1 h).elim hfg hfs
        rw [if_neg hfs, if_neg fun h => hfg (PriceField.name_inj.1 h), if_neg hnot]

theorem series_ofBars (bars : List Bar) (f : PriceField) :
    (ofBars bars).series f.name = bars.map (·.figure f) := by
  rw [ofBars, series_foldl, if_pos f.mem_all]

theorem valueAt?_eq_reverse (m : Market) (field : String) (k : Nat) :
    m.valueAt? field k = (m.series field).reverse[k]? := by
  unfold valueAt?
  dsimp only
  split
  · rename_i h
    exact (List.getElem?_reverse h).symm
  · rename_i h
    exact (List.getElem?_eq_none (by simpa using h)).symm

/-- Counted from the end in 64 bits the place is the same: where the sum wraps, what it points to is behind the
last value, and the offset is beyond the first. -/
theorem valueAt?_wrapped (field : String) {offset : Nat} (hoffset : offset < 2 ^ 64)
    (hlength : (m.series field).length < 2 ^ 64) :
    m.valueAt? field offset =
      let values := m.series field
      let back := (offset + 1) % 2 ^ 64
      if back ≤ values.length then values[values.length - back]? else none := by
  unfold valueAt?
  dsimp only
  by_cases hmax : offset + 1 = 2 ^ 64
  · rw [hmax, Nat.mod_self, if_neg (by omega), if_pos (Nat.zero_le _), Nat.sub_zero, List.getElem?_eq_none le_rfl]
  · rw [Nat.mod_eq_of_lt (by omega), Nat.sub_sub, Nat.add_comm 1 offset]
    rfl

/-- The figures of one field, that of the latest bar first. -/
def latestFirst (bars : List Bar) (f : PriceField) : List Float :=
  (bars.map (·.figure f)).reverse

@[simp] theorem length_latestFirst (bars : List Bar) (f : PriceField) : (latestFirst bars f).length = bars.length := by
  rw [latestFirst, List.length_reverse, List.length_map]

theorem reverse_series_ofBars (bars : List Bar) (f : PriceField) :
    ((ofBars bars).series f.name).reverse = latestFirst bars f := by
  rw [series_ofBars, latestFirst]

/-- Counted from the latest bar, a place inside of the bars is one counted from the oldest. -/
theorem getElem?_latestFirst {k : Nat} (h : k < bars.length) :
    (latestFirst bars f)[k]? = some (bars[bars.length - 1 - k].figure f) := by
  have hmap : k < (bars.map (·.figure f)).length := by rwa [List.length_map]
  rw [latestFirst, List.getElem?_reverse hmap, List.length_map, List.getElem?_map, List.getElem?_eq_getElem]
  rfl

/-! ## Validity -/

theorem foldl_max_length {n : Nat} (all : List (List Float)) (a : Nat) (h : ∀ values ∈ all, values.length = n) :
    all.foldl (fun k values => max k values.length) a = if all = [] then a else max a n := by
  induction all generalizing a with
  | nil => rfl
  | cons values all ih =>
    rw [List.foldl_cons, ih _ fun d hd => h d (List.mem_cons_of_mem values hd), h values List.mem_cons_self,
      if_neg (List.cons_ne_nil values all)]
    split
    · rfl
    · rw [max_assoc, max_self]

/-- There are as many bars as every series has values. -/
theorem size_of_even {n : Nat} (heven : ∀ e ∈ m.entries, e.2.length = n) (hseries : (m.series f.name).length = n) :
    m.size = n := by
  refine (foldl_max_length m.entries.values 0 (List.forall_mem_map.2 heven)).trans ?_
  split
  · rename_i hnil
    rw [← hseries, series, Dictionary.eq_nil_of_values hnil]
    rfl
  · exact Nat.zero_max n

theorem validate_eq_ok : m.validate = .ok () ↔ 0 < m.size ∧ ∀ e ∈ m.entries, e.2.length = m.size := by
  unfold validate isEmpty
  by_cases hsize : m.size = 0
  · simp [hsize]
  · have hpos : 0 < m.size := Nat.pos_of_ne_zero hsize
    rw [if_neg (by simpa using hsize)]
    split
    · rename_i field values hfind
      refine ⟨nofun, fun h => ?_⟩
      have hodd : values.length ≠ m.size := by simpa using List.find?_some hfind
      exact absurd (h.2 _ (List.mem_of_find?_eq_some hfind)) hodd
    · rename_i hfind
      refine ⟨fun _ => ⟨hpos, fun e he => ?_⟩, fun _ => rfl⟩
      simpa using List.find?_eq_none.1 hfind e he

theorem entries_foldl (bars : List Bar) (fs : List PriceField) (m : Market)
    (h : ∀ e ∈ m.entries, e.2.length = bars.length) :
    ∀ e ∈ (fs.foldl (fun m g => m.insert g.name (bars.map (·.figure g))) m).entries, e.2.length = bars.length := by
  induction fs generalizing m with
  | nil => exact h
  | cons g fs ih =>
    refine ih _ fun e he => ?_
    rcases Dictionary.mem_insert he with rfl | he
    · exact List.length_map _
    · exact h e he

/-- Bars make series that are all as long as there are bars. -/
theorem length_of_mem_ofBars {e : String × List Float} (h : e ∈ (ofBars bars).entries) : e.2.length = bars.length :=
  entries_foldl bars PriceField.all empty (fun _ he => absurd he Dictionary.not_mem_nil) e h

theorem size_ofBars (bars : List Bar) : (ofBars bars).size = bars.length := by
  refine size_of_even (f := .close) (fun e he => length_of_mem_ofBars he) ?_
  rw [series_ofBars, List.length_map]

theorem validate_ofBars (bars : List Bar) : (ofBars bars).validate = .ok () ↔ 0 < bars.length := by
  rw [validate_eq_ok, size_ofBars]
  exact and_iff_left fun e he => length_of_mem_ofBars he

end Market

/-! ## Built-ins and indexing -/

variable {x : Float} {c k : Nat}

/-- The item that a count points to. -/
theorem itemAt?_ofNat (items : List Value) (hk : k < 2 ^ 53) : itemAt? items (Float.ofNat k) = items[k]? := by
  have hcount := isCount_ofNat hk
  unfold itemAt?
  dsimp only
  rw [toCount_ofNat hk, hcount.beq_self, decide_eq_true hcount.zero_le]
  rfl

theorem Value.at_ofNat (items : List Value) (hk : k < 2 ^ 53) (line : Nat) :
    (Value.list items).at (.number (Float.ofNat k)) line =
      match items[k]? with
      | some v => .ok v
      | none => .error (.fault (.indexOutOfBounds (Float.ofNat k) items.length) line) := by
  rw [← itemAt?_ofNat items hk]
  rfl

/-- A 64-bit count takes as much of a list as the number itself, unless neither number nor list fits. -/
theorem take_of_fits {α : Type} (items : List α) (h : c < 2 ^ 64 ∨ items.length < 2 ^ 64) :
    items.take (min c (2 ^ 64 - 1)) = items.take c := by
  rw [List.take_eq_take_iff]
  omega

/-- Nothing is wrong with a count as an offset or a period. -/
theorem Number.IsCount.accepted (h : IsCount x c) : (!x.isFinite || decide (x < 0.0)) = false := by
  rw [h.isFinite, decide_eq_false h.not_lt_zero]
  rfl

theorem Argument.period_of_isCount {args : List Value} {i : Nat} (name : String) (default : Nat)
    (hgiven : given? args i = some (.number x)) (h : IsCount x c) :
    period args i name default = .ok (min c (2 ^ 64 - 1)) := by
  unfold period number
  rw [hgiven]
  show (if (!x.isFinite || decide (x < 0.0)) = true then _ else _) = _
  rw [h.accepted, h.toCount_eq]
  rfl

namespace Builtin

open Argument

/-- The accessor of a field has what the field's series has at the same place, or zero. -/
theorem priceAt_of_isCount (market : Market) (f : PriceField) (h : IsCount x k) (hk : k < 2 ^ 64) :
    priceAt market f [.number x] = .ok (.number (((market.series f.name).reverse[k]?).getD 0.0)) := by
  have hcount : toCount x = k := h.toCount_eq.trans (min_eq_left (by omega))
  show (if (!x.isFinite || decide (x < 0.0)) = true then _ else _) = _
  rw [h.accepted, hcount, Market.valueAt?_eq_reverse]
  rfl

theorem seriesOf_name (market : Market) (f : PriceField) :
    seriesOf market [.string f.name] = .ok (.list ((market.series f.name).reverse.map .number)) := by
  have hall : (market.series f.name).reverse.take (market.series f.name).length = (market.series f.name).reverse :=
    List.take_of_length_le List.length_reverse.le
  show Except.ok (Value.list (((market.series (Text.lowercase f.name)).reverse.take
    (market.series (Text.lowercase f.name)).length).map .number)) = _
  rw [f.lowercase_name, hall]

theorem seriesOf_count (market : Market) (f : PriceField) (h : IsCount x c)
    (hfits : c < 2 ^ 64 ∨ (market.series f.name).length < 2 ^ 64) :
    seriesOf market [.string f.name, .number x] =
      .ok (.list (((market.series f.name).reverse.take c).map .number)) := by
  have hperiod : period [.string f.name, .number x] 1 "count" 0 = .ok (Nat.min c (2 ^ 64 - 1)) :=
    period_of_isCount "count" 0 rfl h
  have htake := take_of_fits (market.series f.name).reverse (hfits.imp_right List.length_reverse.trans_lt)
  show (period [.string f.name, .number x] 1 "count" 0 >>= fun n =>
    Except.ok (Value.list (((market.series (Text.lowercase f.name)).reverse.take n).map .number))) = _
  rw [hperiod, f.lowercase_name, ← htake]
  rfl

end Builtin

namespace Market

theorem price_ofBars (bars : List Bar) (f : PriceField) (log : TradeLog) (hk : k < 2 ^ 53) :
    (Builtin.price f).apply (ofBars bars) log [.number (Float.ofNat k)] =
      .ok (.number (((latestFirst bars f)[k]?).getD 0.0), log) := by
  have hprice := Builtin.priceAt_of_isCount (ofBars bars) f (isCount_ofNat hk) (by omega)
  rw [reverse_series_ofBars] at hprice
  exact congrArg (Except.map (·, log)) hprice

theorem series_apply_ofBars (bars : List Bar) (f : PriceField) (log : TradeLog) :
    Builtin.series.apply (ofBars bars) log [.string f.name] = .ok (.list ((latestFirst bars f).map .number), log) := by
  have hseries := Builtin.seriesOf_name (ofBars bars) f
  rw [reverse_series_ofBars] at hseries
  exact congrArg (Except.map (·, log)) hseries

theorem counted_series_ofBars (bars : List Bar) (f : PriceField) (log : TradeLog) (h : IsCount x c)
    (hfits : min c bars.length < 2 ^ 64) :
    Builtin.series.apply (ofBars bars) log [.string f.name, .number x] =
      .ok (.list (((latestFirst bars f).map .number).take (min c bars.length)), log) := by
  have hshort : c < 2 ^ 64 ∨ ((ofBars bars).series f.name).length < 2 ^ 64 := by
    rw [series_ofBars, List.length_map]
    exact min_lt_iff.1 hfits
  have htake : ((latestFirst bars f).take c).map Value.number =
      ((latestFirst bars f).map .number).take (min c bars.length) := by
    rw [List.map_take, List.take_eq_take_iff, List.length_map, length_latestFirst]
    omega
  have hseries := Builtin.seriesOf_count (ofBars bars) f h hshort
  rw [reverse_series_ofBars, htake] at hseries
  exact congrArg (Except.map (·, log)) hseries

/-- What a script reads of one figure of bars: `items` is the list it gets of the figure's series. Any
number that is a count may be asked for; no list in memory is so long that 64 bits are too few. -/
structure ReadAlike (bars : List Bar) (f : PriceField) (items : List Value) : Prop where
  series : ∀ log, Builtin.series.apply (ofBars bars) log [.string f.name] = .ok (.list items, log)
  inside : ∀ log line k (h : k < bars.length), k < 2 ^ 53 →
    (Builtin.price f).apply (ofBars bars) log [.number (Float.ofNat k)] =
        .ok (.number (bars[bars.length - 1 - k].figure f), log) ∧
      (Value.list items).at (.number (Float.ofNat k)) line = .ok (.number (bars[bars.length - 1 - k].figure f))
  beyond : ∀ log line k, bars.length ≤ k → k < 2 ^ 53 →
    (Builtin.price f).apply (ofBars bars) log [.number (Float.ofNat k)] = .ok (.number 0.0, log) ∧
      (Value.list items).at (.number (Float.ofNat k)) line =
        .error (.fault (.indexOutOfBounds (Float.ofNat k) bars.length) line)
  length : ∀ log, Builtin.len.apply (ofBars bars) log [.list items] = .ok (.number (Float.ofNat bars.length), log)
  counted : ∀ log x c, IsCount x c → min c bars.length < 2 ^ 64 →
    Builtin.series.apply (ofBars bars) log [.string f.name, .number x] =
      .ok (.list (items.take (min c bars.length)), log)

theorem readAlike_latestFirst (bars : List Bar) (f : PriceField) :
    ReadAlike bars f ((latestFirst bars f).map .number) := by
  have hlength : ((latestFirst bars f).map Value.number).length = bars.length := by
    rw [List.length_map, length_latestFirst]
  constructor
  case series => exact series_apply_ofBars bars f
  case inside =>
    intro log line k hinside hk
    have hitem := getElem?_latestFirst (f := f) hinside
    refine ⟨by rw [price_ofBars bars f log hk, hitem]; rfl, ?_⟩
    rw [Value.at_ofNat _ hk, List.getElem?_map, hitem]
    rfl
  case beyond =>
    intro log line k hbeyond hk
    have hitem : (latestFirst bars f)[k]? = none := List.getElem?_eq_none (by rwa [length_latestFirst])
    refine ⟨by rw [price_ofBars bars f log hk, hitem]; rfl, ?_⟩
    rw [Value.at_ofNat _ hk, List.getElem?_map, hitem, hlength]
    rfl
  case length =>
    intro log
    rw [← hlength]
    rfl
  case counted => exact fun log x c hx hfits => counted_series_ofBars bars f log hx hfits

/-- Accessors, series, indexing and length agree on bars, and bars are valid market data unless there are
none. -/
theorem bars_read_alike (bars : List Bar) (f : PriceField) :
    (∃ items, ReadAlike bars f items) ∧ (∀ k < 2 ^ 53, IsCount (Float.ofNat k) k) ∧
      ((ofBars bars).validate = .ok () ↔ 0 < bars.length) :=
  ⟨⟨_, readAlike_latestFirst bars f⟩, fun _ hk => isCount_ofNat hk, validate_ofBars bars⟩

/-- Two bars: the close of today, of two days ago, which there is none of, and the latest one of the series. -/
theorem two_closes_read_alike :
    let bars : List Bar := [⟨⟨2024, 1, 2⟩, 1.0, 3.0, 0.5, 2.0, 100.0⟩, ⟨⟨2024, 1, 3⟩, 2.0, 4.0, 1.5, 3.0, 200.0⟩]
    let market := ofBars bars
    let log := TradeLog.empty
    (0 < bars.length ∧ 0 < 2 ^ 53 ∧
      (Builtin.price .close).apply market log [.number (Float.ofNat 0)] = .ok (.number 3.0, log)) ∧
    (bars.length ≤ 2 ∧ 2 < 2 ^ 53 ∧
      (Builtin.price .close).apply market log [.number (Float.ofNat 2)] = .ok (.number 0.0, log)) ∧
    (∃ items, Builtin.series.apply market log [.string "close"] = .ok (.list items, log) ∧
      (Value.list items).at (.number (Float.ofNat 2)) 1 = .error (.fault (.indexOutOfBounds (Float.ofNat 2) 2) 1) ∧
      IsCount (Float.ofNat 1) 1 ∧ min 1 bars.length < 2 ^ 64 ∧
      Builtin.series.apply market log [.string "close", .number (Float.ofNat 1)] = .ok (.list (items.take 1), log)) ∧
    market.validate = .ok () := by
  intro bars market log
  have hbig : (2 : Nat) < 2 ^ 53 := by norm_num
  obtain ⟨⟨items, hread⟩, hcount, hvalid⟩ := bars_read_alike bars .close
  have hone := hcount 1 (by norm_num)
  have htoday := hread.inside log 1 0 (by decide) (by norm_num)
  have hbefore := hread.beyond log 1 2 le_rfl hbig
  have hfits : min 1 bars.length < 2 ^ 64 := by norm_num
  exact ⟨⟨by decide, by norm_num, htoday.1⟩, ⟨le_rfl, hbig, hbefore.1⟩,
    ⟨items, hread.series log, hbefore.2, hone, hfits, hread.counted log _ 1 hone hfits⟩, hvalid.2 (by decide)⟩

end Market

end StrategyScript
