/-
Equality of values. It can be turned round and chained, and a value equals itself unless there is a NaN in it,
however deep. Equal values are of one kind and count alike as true or false. Lists are equal item by item, and
records key by key.
-/
import StrategyScript.Number.Read
import StrategyScript.Proofs.Store.Dictionary
import StrategyScript.Value.Basic
import Mathlib

namespace StrategyScript

namespace Value

/-! ## Containers -/

theorem sizeOf_lt_of_mem {bound : Option String} {fields : Dictionary Value bound} {e : String × Value}
    (h : e ∈ fields) : sizeOf e.2 < sizeOf fields := by
  induction fields with
  | nil => exact absurd h Dictionary.not_mem_nil
  | cons k v hk fields ih =>
    rw [Dictionary.cons.sizeOf_spec]
    rcases Dictionary.mem_cons.1 h with rfl | h
    · dsimp only
      omega
    · have hrest := ih h
      omega

/-- What holds of each single value, and of a record or a list once it holds of all that is in it, holds of all
values. -/
@[elab_as_elim]
theorem inductionOn {motive : Value → Prop} (v : Value)
    (single : ∀ v, v.kind ≠ .record → v.kind ≠ .list → motive v)
    (record : ∀ fields : Dictionary Value, (∀ v ∈ fields.values, motive v) → motive (.record fields))
    (list : ∀ items, (∀ v ∈ items, motive v) → motive (.list items)) : motive v :=
  match v with
  | .record fields => record fields <| List.forall_mem_map.2 fun e he =>
      have hsize : sizeOf e.2 < sizeOf (Value.record fields) := by
        have hfield := sizeOf_lt_of_mem he
        simp only [Value.record.sizeOf_spec]
        omega
      inductionOn e.2 single record list
  | .list items => list items fun v hv =>
      have hsize : sizeOf v < sizeOf (Value.list items) := by
        have hitem := List.sizeOf_lt_of_mem hv
        simp only [Value.list.sizeOf_spec]
        omega
      inductionOn v single record list
  | .null | .boolean _ | .number _ | .string _ | .function _ | .builtin _ => single _ nofun nofun
termination_by sizeOf v
decreasing_by all_goals exact hsize

theorem equalItems_iff {xs ys : List Value} :
    equalItems xs ys = true ↔
      xs.length = ys.length ∧
        ∀ (i : Nat) (v w : Value), xs[i]? = some v → ys[i]? = some w → v.equal w = true := by
  induction xs generalizing ys with
  | nil => cases ys <;> simp [equalItems]
  | cons x xs ih =>
    cases ys with
    | nil => simp [equalItems]
    | cons y ys =>
      simp only [equalItems, Bool.and_eq_true, ih, List.length_cons, Nat.add_right_cancel_iff]
      constructor
      · rintro ⟨hxy, hlength, hrest⟩
        refine ⟨hlength, fun i v w hv hw => ?_⟩
        cases i with
        | zero =>
          cases hv
          cases hw
          exact hxy
        | succ i => exact hrest i v w hv hw
      · rintro ⟨hlength, hall⟩
        exact ⟨hall 0 x y rfl rfl, hlength, fun i => hall (i + 1)⟩

/-- The fields of records are compared as their keys and the items of their values. -/
theorem equalFields_eq {bound bound' : Option String} (fs : Dictionary Value bound) (gs : Dictionary Value bound') :
    equalFields fs gs = (fs.keys == gs.keys && equalItems fs.values gs.values) := by
  induction fs generalizing bound' with
  | nil => cases gs <;> rfl
  | cons j x hj fs ih =>
    cases gs with
    | nil => rfl
    | cons k y hk gs =>
      rw [equalFields, ih, Dictionary.keys_cons, Dictionary.keys_cons, Dictionary.values_cons, Dictionary.values_cons,
        List.cons_beq_cons, equalItems]
      cases j == k <;> cases x.equal y <;> simp

/-! ## The laws, item by item -/

section

variable {xs ys zs : List Value}

theorem equalItems_comm (h : ∀ v ∈ xs, ∀ w, v.equal w = w.equal v) : equalItems xs ys = equalItems ys xs := by
  rw [Bool.eq_iff_iff, equalItems_iff, equalItems_iff]
  constructor
  · rintro ⟨hlength, hall⟩
    refine ⟨hlength.symm, fun i v w hv hw => ?_⟩
    rw [← h w (List.mem_of_getElem? hw)]
    exact hall i w v hw hv
  · rintro ⟨hlength, hall⟩
    refine ⟨hlength.symm, fun i v w hv hw => ?_⟩
    rw [h v (List.mem_of_getElem? hv)]
    exact hall i w v hw hv

theorem equalItems_trans (h : ∀ u ∈ xs, ∀ v w, u.equal v = true → v.equal w = true → u.equal w = true)
    (hxy : equalItems xs ys = true) (hyz : equalItems ys zs = true) : equalItems xs zs = true := by
  rw [equalItems_iff] at *
  obtain ⟨hlength, hall⟩ := hxy
  obtain ⟨hlength', hall'⟩ := hyz
  refine ⟨hlength.trans hlength', fun i u w hu hw => ?_⟩
  obtain ⟨hi, -⟩ := List.getElem?_eq_some_iff.1 hu
  obtain ⟨v, hv⟩ : ∃ v, ys[i]? = some v := ⟨ys[i], List.getElem?_eq_getElem (hlength ▸ hi)⟩
  exact h u (List.mem_of_getElem? hu) v w (hall i u v hu hv) (hall' i v w hv hw)

theorem equalItems_self : equalItems xs xs = true ↔ ∀ v ∈ xs, v.equal v = true := by
  rw [equalItems_iff]
  constructor
  · rintro ⟨-, hall⟩ v hv
    obtain ⟨i, hi⟩ := List.getElem?_of_mem hv
    exact hall i v v hi hi
  · intro hall
    refine ⟨rfl, fun i v w hv hw => ?_⟩
    obtain rfl : v = w := Option.some.inj (hv.symm.trans hw)
    exact hall v (List.mem_of_getElem? hv)

end

/-! ## The laws -/

theorem equal_comm (v w : Value) : v.equal w = w.equal v := by
  induction v using inductionOn generalizing w with
  | single v hrecord hlist =>
    cases v with
    | record fields => exact absurd rfl hrecord
    | list items => exact absurd rfl hlist
    | _ => cases w <;> simp only [equal, BEq.comm]
  | record fields ih =>
    cases w with
    | record gs =>
      simp only [equal, equalFields_eq, equalItems_comm ih, BEq.comm]
    | _ => rfl
  | list items ih =>
    cases w with
    | list ys => exact equalItems_comm ih
    | _ => rfl

theorem equal_trans {u v w : Value} (huv : u.equal v = true) (hvw : v.equal w = true) : u.equal w = true := by
  induction u using inductionOn generalizing v w with
  | single u hrecord hlist =>
    cases u with
    | record fields => exact absurd rfl hrecord
    | list items => exact absurd rfl hlist
    | null =>
      cases v <;> try contradiction
      exact hvw
    | _ =>
      cases v <;> try contradiction
      cases w <;> try contradiction
      exact BEq.trans huv hvw
  | record fields ih =>
    cases v <;> try contradiction
    cases w <;> try contradiction
    simp only [equal, equalFields_eq, Bool.and_eq_true] at *
    exact ⟨BEq.trans huv.1 hvw.1, equalItems_trans (fun u hu v w => ih u hu) huv.2 hvw.2⟩
  | list items ih =>
    cases v <;> try contradiction
    cases w <;> try contradiction
    exact equalItems_trans (fun u hu v w => ih u hu) huv hvw

/-- There is a NaN in the value, itself or somewhere inside. -/
inductive HoldsNaN : Value → Prop
  | number {x : Float} (h : x.isNaN = true) : HoldsNaN (.number x)
  | field {fields : Dictionary Value} {v : Value} (hv : v ∈ fields.values) (h : HoldsNaN v) :
    HoldsNaN (.record fields)
  | item {items : List Value} {v : Value} (hv : v ∈ items) (h : HoldsNaN v) : HoldsNaN (.list items)

theorem holdsNaN_record {fields : Dictionary Value} :
    HoldsNaN (.record fields) ↔ ∃ v ∈ fields.values, HoldsNaN v := by
  constructor
  · rintro (_ | ⟨hv, h⟩ | _)
    exact ⟨_, hv, h⟩
  · rintro ⟨v, hv, h⟩
    exact .field hv h

theorem holdsNaN_list {items : List Value} : HoldsNaN (.list items) ↔ ∃ v ∈ items, HoldsNaN v := by
  constructor
  · rintro (_ | _ | ⟨hv, h⟩)
    exact ⟨_, hv, h⟩
  · rintro ⟨v, hv, h⟩
    exact .item hv h

theorem holdsNaN_number {x : Float} : HoldsNaN (.number x) ↔ x.isNaN = true := by
  constructor
  · rintro ⟨h⟩
    exact h
  · exact .number

theorem equal_self_iff (v : Value) : v.equal v = true ↔ ¬ v.HoldsNaN := by
  induction v using inductionOn with
  | single v hrecord hlist =>
    cases v with
    | record fields => exact absurd rfl hrecord
    | list items => exact absurd rfl hlist
    | number x => simp [equal, holdsNaN_number]
    | _ => exact iff_of_true (by simp [equal]) nofun
  | record fields ih =>
    simp only [equal, equalFields_eq, equalItems_self, holdsNaN_record, BEq.rfl, Bool.true_and]
    push Not
    exact forall₂_congr ih
  | list items ih =>
    simp only [equal, equalItems_self, holdsNaN_list]
    push Not
    exact forall₂_congr ih

theorem kind_of_equal {v w : Value} (h : v.equal w = true) : v.kind = w.kind := by
  cases v <;> cases w <;> try contradiction
  all_goals rfl

theorem isTruthy_of_equal {v w : Value} (h : v.equal w = true) : v.isTruthy = w.isTruthy := by
  have hkind := kind_of_equal h
  cases v <;> cases w <;> try contradiction
  case boolean.boolean a b => exact eq_of_beq h
  case number.number x y =>
    show (!(x == 0.0)) = !(y == 0.0)
    rw [BEq.congr_left h]
  case string.string s t =>
    rw [eq_of_beq (show (s == t) = true from h)]
  all_goals rfl

/-! ## Records -/

theorem equalFields_iff {fs gs : Dictionary Value} :
    equalFields fs gs = true ↔
      (∀ key, fs.contains key = gs.contains key) ∧
        ∀ key v w, fs.get? key = some v → gs.get? key = some w → v.equal w = true := by
  rw [equalFields_eq, Bool.and_eq_true, beq_iff_eq]
  constructor
  · rintro ⟨hkeys, hitems⟩
    refine ⟨fun key => ?_, fun key v w hv hw => ?_⟩
    · rw [Bool.eq_iff_iff, Dictionary.contains_iff, Dictionary.contains_iff]
      exact iff_of_eq (congrArg (key ∈ ·) hkeys)
    · -- the place of the key is the same in both
      obtain ⟨i, hi⟩ := List.getElem?_of_mem (Dictionary.mem_of_get? hv)
      have hkey : gs.keys[i]? = some key := by
        rw [← hkeys, Dictionary.getElem?_keys, hi]
        rfl
      rw [Dictionary.getElem?_keys, Option.map_eq_some_iff] at hkey
      obtain ⟨⟨_, u⟩, hu, rfl⟩ := hkey
      obtain rfl : u = w := Option.some.inj ((Dictionary.get?_of_mem (List.mem_of_getElem? hu)).symm.trans hw)
      refine (equalItems_iff.1 hitems).2 i v u ?_ ?_
      · rw [Dictionary.getElem?_values, hi]
        rfl
      · rw [Dictionary.getElem?_values, hu]
        rfl
  · rintro ⟨hcontains, hvalues⟩
    have hkeys : fs.keys = gs.keys := Dictionary.keys_eq hcontains
    refine ⟨hkeys, equalItems_iff.2 ⟨?_, fun i v w hv hw => ?_⟩⟩
    · rw [Dictionary.length_values, Dictionary.length_values, hkeys]
    · rw [Dictionary.getElem?_values, Option.map_eq_some_iff] at hv hw
      obtain ⟨⟨j, _⟩, hj, rfl⟩ := hv
      obtain ⟨⟨k, _⟩, hk, rfl⟩ := hw
      have hkey := congrArg (·[i]?) hkeys
      simp only [Dictionary.getElem?_keys, hj, hk, Option.map_some, Option.some.injEq] at hkey
      subst hkey
      exact hvalues j _ _ (Dictionary.get?_of_mem (List.mem_of_getElem? hj))
        (Dictionary.get?_of_mem (List.mem_of_getElem? hk))

/-! ## Main statement -/

/-- Equality goes both ways and can be chained; a value equals itself exactly if no NaN is in it. Equal values are of
one kind and count alike. Lists are equal if they are equally long and their items are equal place by place, and
records if they have the same keys and equal values under them. -/
theorem equality_of_values :
    (∀ v w : Value, (v == w) = (w == v)) ∧
    (∀ u v w : Value, (u == v) = true → (v == w) = true → (u == w) = true) ∧
    (∀ v : Value, (v == v) = true ↔ ¬ v.HoldsNaN) ∧
    (∀ v w : Value, (v == w) = true → v.kind = w.kind ∧ v.isTruthy = w.isTruthy) ∧
    (∀ xs ys : List Value, (Value.list xs == Value.list ys) = true ↔ xs.length = ys.length ∧
      ∀ (i : Nat) (v w : Value), xs[i]? = some v → ys[i]? = some w → (v == w) = true) ∧
    (∀ fs gs : Dictionary Value, (Value.record fs == Value.record gs) = true ↔
      (∀ key, fs.contains key = gs.contains key) ∧
        ∀ (key : String) (v w : Value), fs.get? key = some v → gs.get? key = some w → (v == w) = true) :=
  ⟨equal_comm, fun _ _ _ => equal_trans, equal_self_iff, fun _ _ h => ⟨kind_of_equal h, isTruthy_of_equal h⟩,
    fun _ _ => equalItems_iff, fun _ _ => equalFields_iff⟩

/-- Two zeros are equal inside a list and inside a record, and a NaN inside a list inside a record is not. -/
theorem zeros_equal_nan_not :
    let v := Value.list [.number 0.0, .string "x"]
    let w := Value.list [.number (-0.0), .string "x"]
    let n := Value.record (.ofList [("line", .list [.number Number.notANumber])])
    (v == w) = true ∧ (w == v) = true ∧ (v == v) = true ∧ v.kind = w.kind ∧ (n == n) = false ∧
      (Value.record (.ofList [("lower", v), ("upper", w)]) == .record (.ofList [("lower", w), ("upper", v)])) = true := by
  intro v w n
  obtain ⟨hcomm, htrans, hself, hkind, -, hrecord⟩ := equality_of_values
  have hvw : (v == w) = true := by decide
  have hwv : (w == v) = true := (hcomm w v).trans hvw
  have hn : n.HoldsNaN := .field (List.mem_singleton.2 rfl) (.item (List.mem_singleton.2 rfl) (.number (by decide)))
  have hget : ∀ (a b : Value) (key : String), (Dictionary.ofList [("lower", a), ("upper", b)]).get? key =
      if key = "upper" then some b else if key = "lower" then some a else none := by
    intro a b key
    simp only [Dictionary.ofList, List.foldl_cons, List.foldl_nil, Dictionary.get?_insert]
    rfl
  refine ⟨hvw, hwv, htrans v w v hvw hwv, (hkind v w hvw).1, ?_, ?_⟩
  · rw [← Bool.not_eq_true, hself n]
    exact not_not.2 hn
  · refine (hrecord _ _).2 ⟨fun key => ?_, fun key a b ha hb => ?_⟩
    · rw [Dictionary.contains, Dictionary.contains, hget, hget]
      split_ifs <;> rfl
    · rw [hget] at ha hb
      split_ifs at ha hb <;> cases ha <;> cases hb
      · exact hwv
      · exact hvw

end Value

end StrategyScript
