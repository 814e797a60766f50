/-
Laws of dictionaries. The order of the keys is part of the type, so it asks for nothing: what look-up
finds are the entries, each key is bound once, and dictionaries with the same keys have them in the same
places.
-/
import StrategyScript.Store.Dictionary
import Mathlib.Data.List.Sort

namespace StrategyScript

namespace Dictionary

variable {α : Type} {bound : Option String} {d : Dictionary α bound} {e : String × α} {key k x : String} {value v : α}

/-! ## Entries -/

@[simp]
theorem not_mem_nil : e ∉ (nil : Dictionary α bound) := List.not_mem_nil

@[simp]
theorem mem_cons {above : ∀ k ∈ bound, k < key} {d : Dictionary α (some key)} :
    e ∈ cons key value above d ↔ e = (key, value) ∨ e ∈ d := List.mem_cons

theorem keys_cons {above : ∀ k ∈ bound, k < key} {d : Dictionary α (some key)} :
    (cons key value above d).keys = key :: d.keys := rfl

theorem values_cons {above : ∀ k ∈ bound, k < key} {d : Dictionary α (some key)} :
    (cons key value above d).values = value :: d.values := rfl

theorem forall_mem_cons {above : ∀ k ∈ bound, k < key} {d : Dictionary α (some key)} {p : String × α → Prop} :
    (∀ e ∈ cons key value above d, p e) ↔ p (key, value) ∧ ∀ e ∈ d, p e := List.forall_mem_cons

theorem lt_of_mem (h : e ∈ d) : ∀ k ∈ bound, k < e.1 := by
  induction d with
  | nil => exact absurd h not_mem_nil
  | cons j w hj d ih =>
    rcases mem_cons.1 h with rfl | h
    · exact hj
    · exact fun k hk => String.lt_trans (hj k hk) (ih h j rfl)

theorem length_values : d.values.length = d.keys.length := by
  rw [values, keys, map, map, List.length_map, List.length_map]

theorem getElem?_keys (i : Nat) : d.keys[i]? = d.toList[i]?.map (·.1) := List.getElem?_map ..

theorem getElem?_values (i : Nat) : d.values[i]? = d.toList[i]?.map (·.2) := List.getElem?_map ..

theorem keys_ascend (d : Dictionary α bound) : d.keys.Pairwise (· < ·) := by
  induction d with
  | nil => exact .nil
  | cons j w hj d ih => exact List.pairwise_cons.2 ⟨List.forall_mem_map.2 fun _ he => lt_of_mem he j rfl, ih⟩

theorem eq_nil_of_values (h : d.values = []) : d = .nil := by
  cases d with
  | nil => rfl
  | cons j w hj d => cases h

/-- The entries are what look-up finds. -/
theorem mem_iff : (key, value) ∈ d ↔ d.get? key = some value := by
  induction d with
  | nil => exact iff_of_false not_mem_nil nofun
  | cons j w hj d ih =>
    rw [mem_cons, get?]
    split
    · rename_i h
      subst h
      refine ⟨?_, fun h => .inl (by cases h; rfl)⟩
      rintro (h | h)
      · cases h
        rfl
      · exact absurd (lt_of_mem h key rfl) (String.lt_irrefl key)
    · rename_i h
      rw [← ih, or_iff_right fun heq => h (congrArg Prod.fst heq)]

alias ⟨get?_of_mem, mem_of_get?⟩ := mem_iff

theorem mem_values_of_get? (h : d.get? key = some value) : value ∈ d.values :=
  List.mem_map.2 ⟨(key, value), mem_of_get? h, rfl⟩

theorem contains_iff : d.contains key = true ↔ key ∈ d.keys := by
  rw [contains, Option.isSome_iff_exists]
  constructor
  · rintro ⟨v, hv⟩
    exact List.mem_map.2 ⟨(key, v), mem_of_get? hv, rfl⟩
  · intro h
    obtain ⟨⟨k, v⟩, he, rfl⟩ := List.mem_map.1 h
    exact ⟨v, get?_of_mem he⟩

/-- Dictionaries with the same keys have them in the same places. -/
theorem keys_eq {bound' : Option String} {d' : Dictionary α bound'}
    (h : ∀ key, d.contains key = d'.contains key) : d.keys = d'.keys := by
  have hirrefl : Std.Irrefl (α := String) (· < ·) := ⟨String.lt_irrefl⟩
  have hantisymm : Std.Antisymm (α := String) (· < ·) :=
    ⟨fun j k hjk hkj => absurd (String.lt_trans hjk hkj) (String.lt_irrefl j)⟩
  refine List.Pairwise.eq_of_mem_iff d.keys_ascend d'.keys_ascend fun key => ?_
  exact contains_iff.symm.trans ((Bool.eq_iff_iff.1 (h key)).trans contains_iff)

/-! ## Insertion -/

theorem get?_insertAbove (d : Dictionary α bound) (key : String) (value : α) (above : ∀ k ∈ bound, k < key)
    (x : String) : (d.insertAbove key value above).get? x = if x = key then some value else d.get? x := by
  induction d with
  | nil => rfl
  | cons j w hj d ih =>
    rw [insertAbove]
    split
    · rename_i h
      subst h
      simp only [get?]
      split <;> rfl
    · split
      · simp only [get?]
      · rename_i h _
        simp only [get?, ih]
        split_ifs with hx hxk
        · exact absurd (hxk.symm.trans hx) h
        · rfl
        · rfl
        · rfl

theorem get?_insert (d : Dictionary α) (key : String) (value : α) (x : String) :
    (d.insert key value).get? x = if x = key then some value else d.get? x :=
  get?_insertAbove d key value (above_none key) x

theorem get?_of_insert {d : Dictionary α} (h : (d.insert key value).get? x = some v) :
    x = key ∧ v = value ∨ d.get? x = some v := by
  rw [get?_insert] at h
  split at h
  · rename_i hx
    cases h
    exact .inl ⟨hx, rfl⟩
  · exact .inr h

theorem contains_insert (d : Dictionary α) (key : String) (value : α) (x : String) :
    (d.insert key value).contains x = true ↔ x = key ∨ d.contains x = true := by
  unfold contains
  rw [get?_insert]
  split <;> simp [*]

theorem mem_insert {d : Dictionary α} (h : e ∈ d.insert key value) : e = (key, value) ∨ e ∈ d := by
  obtain ⟨k, v⟩ := e
  refine (get?_of_insert (get?_of_mem h)).imp ?_ mem_of_get?
  rintro ⟨rfl, rfl⟩
  rfl

theorem mem_ofList {entries : List (String × α)} (h : e ∈ ofList entries) : e ∈ entries := by
  have hfold : ∀ (entries : List (String × α)) (d : Dictionary α),
      e ∈ entries.foldl (fun d f => d.insert f.1 f.2) d → e ∈ d ∨ e ∈ entries := by
    intro entries
    induction entries with
    | nil => exact fun d h => .inl h
    | cons f entries ih =>
      intro d h
      rcases ih _ h with h | h
      · rcases mem_insert h with rfl | h
        · exact .inr List.mem_cons_self
        · exact .inl h
      · exact .inr (List.mem_cons_of_mem _ h)
  exact (hfold entries [] h).resolve_left not_mem_nil

/-! ## Selection -/

theorem toList_lower {above : ∀ k ∈ bound, k < key} (d : Dictionary α (some key)) :
    (d.lower above).toList = d.toList := by
  cases d <;> rfl

theorem toList_filter (p : String × α → Bool) (d : Dictionary α bound) :
    (d.filter p).toList = d.toList.filter p := by
  induction d with
  | nil => rfl
  | cons j w hj d ih =>
    rw [filter, toList, List.filter_cons]
    split
    · rw [toList, ih]
    · rw [toList_lower, ih]

theorem mem_filter {p : String × α → Bool} : e ∈ d.filter p ↔ e ∈ d ∧ p e = true := by
  show e ∈ (d.filter p).toList ↔ _
  rw [toList_filter]
  exact List.mem_filter

end Dictionary

end StrategyScript
