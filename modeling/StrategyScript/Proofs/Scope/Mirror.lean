/-
Two forests that bind the same. A pairing tells which scopes of two forests belong together; the forests
mirror each other if scopes that belong together bind the same names to the same values. Either forest
may have scopes that the other one lacks. These bind nothing, so look-up passes them by; and functions
that are otherwise the same may be closed over scopes that differ in them only.
-/
import StrategyScript.Proofs.Scope.Growth
import StrategyScript.Proofs.Scope.Holding

namespace StrategyScript

/-! ## Pairings -/

structure Pairing where
  /-- The scopes before this one are older than the pairing. -/
  base : Nat
  /-- These scopes belong together. -/
  mates : ScopeId → ScopeId → Prop
  /-- From these scopes look-up goes the same way. -/
  views : ScopeId → ScopeId → Prop
  /-- These scopes are on the left alone. -/
  left : ScopeId → Prop
  /-- These scopes are on the right alone. -/
  right : ScopeId → Prop

namespace Pairing

/-- Every scope belongs to itself. -/
def self (size : Nat) : Pairing where
  base := size
  mates i j := i = j ∧ i < size
  views i j := i = j ∧ i < size
  left _ := False
  right _ := False

def swap (w : Pairing) : Pairing := ⟨w.base, fun i j => w.mates j i, fun i j => w.views j i, w.right, w.left⟩

/-- Two new scopes belong together. -/
def pair (w : Pairing) (i j : ScopeId) : Pairing where
  base := w.base
  mates k l := w.mates k l ∨ k = i ∧ l = j
  views k l := w.views k l ∨ k = i ∧ l = j
  left := w.left
  right := w.right

/-- A new scope on the right, where on the left there is none. -/
def pass (w : Pairing) (i j : ScopeId) : Pairing where
  base := w.base
  mates := w.mates
  views k l := w.views k l ∨ k = i ∧ l = j
  left := w.left
  right l := w.right l ∨ l = j

/-- The second pairing tells all that the first one tells. -/
structure Grows (w w' : Pairing) : Prop where
  base : w'.base = w.base
  mates : ∀ {i j}, w.mates i j → w'.mates i j
  views : ∀ {i j}, w.views i j → w'.views i j
  left : ∀ {i}, w.left i → w'.left i
  right : ∀ {j}, w.right j → w'.right j

theorem Grows.refl (w : Pairing) : w.Grows w := ⟨rfl, id, id, id, id⟩

theorem Grows.trans {u v w : Pairing} (h : u.Grows v) (h' : v.Grows w) : u.Grows w where
  base := h'.base.trans h.base
  mates := h'.mates ∘ h.mates
  views := h'.views ∘ h.views
  left := h'.left ∘ h.left
  right := h'.right ∘ h.right

theorem grows_pair (w : Pairing) (i j : ScopeId) : w.Grows (w.pair i j) := ⟨rfl, .inl, .inl, id, id⟩

theorem grows_pass (w : Pairing) (i j : ScopeId) : w.Grows (w.pass i j) := ⟨rfl, id, .inl, id, .inl⟩

theorem Grows.swap {w w' : Pairing} (h : w.Grows w') : w.swap.Grows w'.swap := ⟨h.base, h.mates, h.views, h.right, h.left⟩

/-- The pairing is about so many scopes on each side. Scopes older than it look like themselves only. -/
structure Spans (w : Pairing) (m n : Nat) : Prop where
  base : w.base ≤ m ∧ w.base ≤ n
  old : ∀ {i j}, w.views i j → i < w.base ∨ j < w.base → i = j
  views_lt : ∀ {i j}, w.views i j → i < m ∧ j < n
  mates_views : ∀ {i j}, w.mates i j → w.views i j
  unique : ∀ {i j k l}, w.mates i j → w.mates k l → (k = i ↔ l = j)
  left : ∀ {i}, w.left i → i < m ∧ ∀ j, ¬ w.mates i j
  right : ∀ {j}, w.right j → j < n ∧ ∀ i, ¬ w.mates i j

theorem spans_self (n : Nat) : (self n).Spans n n where
  base := ⟨le_rfl, le_rfl⟩
  old h _ := h.1
  views_lt h := ⟨h.2, h.1 ▸ h.2⟩
  mates_views h := h
  unique h h' := by rw [← h.1, ← h'.1]
  left := False.elim
  right := False.elim

section

variable {w : Pairing} {m n : Nat}

theorem Spans.swap (h : w.Spans m n) : w.swap.Spans n m where
  base := h.base.symm
  old hv hold := (h.old hv hold.symm).symm
  views_lt hv := (h.views_lt hv).symm
  mates_views hm := h.mates_views hm
  unique hm hm' := (h.unique hm hm').symm
  left := h.right
  right := h.left

theorem Spans.pair (h : w.Spans m n) : (w.pair m n).Spans (m + 1) (n + 1) where
  base := ⟨h.base.1.trans (Nat.le_succ m), h.base.2.trans (Nat.le_succ n)⟩
  old hv hold := by
    rcases hv with hv | ⟨rfl, rfl⟩
    · exact h.old hv hold
    · have := h.base
      change _ < w.base ∨ _ < w.base at hold
      omega
  views_lt hv := by
    rcases hv with hv | ⟨rfl, rfl⟩
    · exact (h.views_lt hv).imp Nat.lt_succ_of_lt Nat.lt_succ_of_lt
    · exact ⟨Nat.lt_succ_self _, Nat.lt_succ_self _⟩
  mates_views hm := hm.imp_left h.mates_views
  unique hm hm' := by
    -- what belongs together so far is older than what is new
    rcases hm with hm | ⟨rfl, rfl⟩ <;> rcases hm' with hm' | ⟨rfl, rfl⟩
    · exact h.unique hm hm'
    · obtain ⟨hi, hj⟩ := h.views_lt (h.mates_views hm)
      exact iff_of_false hi.ne' hj.ne'
    · obtain ⟨hk, hl⟩ := h.views_lt (h.mates_views hm')
      exact iff_of_false hk.ne hl.ne
    · exact iff_of_true rfl rfl
  left hl := by
    obtain ⟨hlt, hm⟩ := h.left hl
    refine ⟨Nat.lt_succ_of_lt hlt, fun j hj => ?_⟩
    rcases hj with hj | ⟨rfl, -⟩
    · exact hm j hj
    · exact Nat.lt_irrefl _ hlt
  right hr := by
    obtain ⟨hlt, hm⟩ := h.right hr
    refine ⟨Nat.lt_succ_of_lt hlt, fun i hi => ?_⟩
    rcases hi with hi | ⟨-, rfl⟩
    · exact hm i hi
    · exact Nat.lt_irrefl _ hlt

theorem Spans.pass (h : w.Spans m n) {i : ScopeId} (hi : i < m) (hbase : w.base ≤ i) : (w.pass i n).Spans m (n + 1) where
  base := ⟨h.base.1, h.base.2.trans (Nat.le_succ n)⟩
  old hv hold := by
    rcases hv with hv | ⟨rfl, rfl⟩
    · exact h.old hv hold
    · have := h.base
      change _ < w.base ∨ _ < w.base at hold
      omega
  views_lt hv := by
    rcases hv with hv | ⟨rfl, rfl⟩
    · exact (h.views_lt hv).imp_right Nat.lt_succ_of_lt
    · exact ⟨hi, Nat.lt_succ_self _⟩
  mates_views hm := .inl (h.mates_views hm)
  unique := h.unique
  left := h.left
  right hr := by
    rcases hr with hr | rfl
    · exact (h.right hr).imp_left Nat.lt_succ_of_lt
    · exact ⟨Nat.lt_succ_self _, fun i hm => Nat.lt_irrefl _ (h.views_lt (h.mates_views hm)).2⟩

end

/-! ## The way that look-up goes -/

/-- The scopes on two ways outwards belong together, one by one, apart from those on one side alone. -/
inductive Along (w : Pairing) : List ScopeId → List ScopeId → Prop
  | nil : Along w [] []
  | mates {i j : ScopeId} {is js : List ScopeId} (h : w.mates i j) (hs : Along w is js) : Along w (i :: is) (j :: js)
  | left {i : ScopeId} {is js : List ScopeId} (h : w.left i) (hs : Along w is js) : Along w (i :: is) js
  | right {j : ScopeId} {is js : List ScopeId} (h : w.right j) (hs : Along w is js) : Along w is (j :: js)

theorem Along.mono {w w' : Pairing} {is js : List ScopeId} (h : w.Along is js) (hw : w.Grows w') : w'.Along is js := by
  induction h with
  | nil => exact .nil
  | mates h _ ih => exact .mates (hw.mates h) ih
  | left h _ ih => exact .left (hw.left h) ih
  | right h _ ih => exact .right (hw.right h) ih

theorem Along.swap {w : Pairing} {is js : List ScopeId} (h : w.Along is js) : w.swap.Along js is := by
  induction h with
  | nil => exact .nil
  | mates h _ ih => exact .mates h ih
  | left h _ ih => exact .right h ih
  | right h _ ih => exact .left h ih

end Pairing

/-! ## Values -/

/-- The same value, but for where a function looks its names up. -/
inductive Value.Alike (w : Pairing) : Value → Value → Prop
  | function (id : Nat) (decl : FunctionDecl) {i j : ScopeId} (h : w.views i j) :
      Alike w (.function ⟨id, decl, i⟩) (.function ⟨id, decl, j⟩)
  | data {v : Value} (h : v.Fits fun _ => False) : Alike w v v

/-- The same names, for values that are alike. -/
def Dictionary.Alike (w : Pairing) (d d' : Dictionary Value) : Prop :=
  ∀ x, Option.Rel (Value.Alike w) (d.get? x) (d'.get? x)

theorem optionRel_mono {α β : Type} {R T : α → β → Prop} {o : Option α} {o' : Option β} (h : Option.Rel R o o')
    (hRT : ∀ a b, R a b → T a b) : Option.Rel T o o' := by
  cases h with
  | some h => exact .some (hRT _ _ h)
  | none => exact .none

theorem optionRel_swap {α β : Type} {R : α → β → Prop} {T : β → α → Prop} {o : Option α} {o' : Option β}
    (h : Option.Rel R o o') (hRT : ∀ a b, R a b → T b a) : Option.Rel T o' o := by
  cases h with
  | some h => exact .some (hRT _ _ h)
  | none => exact .none

section

variable {w w' : Pairing} {v v' : Value} {d d' : Dictionary Value}

theorem Value.alike_plain (h : v.kind = .null ∨ v.kind = .boolean ∨ v.kind = .number ∨ v.kind = .string) :
    v.Alike w v := .data (fits_plain h)

/-- A value is like itself if its function, should it be one, looks like itself. -/
theorem Value.Fits.alike {F : Function → Prop} (h : v.Fits F) (hF : ∀ f, F f → w.views f.closure f.closure) :
    v.Alike w v := by
  obtain ⟨hsimple, hfunction⟩ := h
  cases v with
  | function f => exact .function f.id f.decl (hF f (hfunction f rfl))
  | null | boolean _ | number _ | string _ | builtin _ | record _ | list _ => exact .data ⟨hsimple, nofun⟩

theorem Value.Alike.mono (h : v.Alike w v') (hw : w.Grows w') : v.Alike w' v' := by
  cases h with
  | function id decl h => exact .function id decl (hw.views h)
  | data h => exact .data h

theorem Value.Alike.swap (h : v.Alike w v') : v'.Alike w.swap v := by
  cases h with
  | function id decl h => exact .function id decl h
  | data h => exact .data h

namespace Dictionary

theorem alike_nil : Dictionary.Alike w .nil .nil := fun _ => .none

theorem Alike.mono (h : d.Alike w d') (hw : w.Grows w') : d.Alike w' d' := fun x =>
  optionRel_mono (h x) fun _ _ ha => ha.mono hw

theorem Alike.swap (h : d.Alike w d') : d'.Alike w.swap d := fun x => optionRel_swap (h x) fun _ _ ha => ha.swap

theorem Alike.contains (h : d.Alike w d') (x : String) : d.contains x = d'.contains x := by
  unfold Dictionary.contains
  have hx := h x
  generalize d.get? x = o at hx
  generalize d'.get? x = o' at hx
  cases hx <;> rfl

theorem Alike.insert (h : d.Alike w d') (key : String) (hv : v.Alike w v') :
    Dictionary.Alike w (d.insert key v) (d'.insert key v') := by
  intro x
  rw [get?_insert, get?_insert]
  split
  · exact .some hv
  · exact h x

theorem Alike.bindParameters {args args' : List Value} (h : d.Alike w d') (ps : List String)
    (hargs : List.Forall₂ (Value.Alike w) args args') :
    Dictionary.Alike w (bindParameters ps args d) (bindParameters ps args' d') := by
  induction ps generalizing args args' d d' with
  | nil => exact h
  | cons p ps ih =>
    cases hargs with
    | nil => exact ih (h.insert p (.data (Value.fits_plain (.inl rfl)))) .nil
    | cons hv hvs => exact ih (h.insert p hv) hvs

end Dictionary

end

/-! ## Forests -/

namespace Forest

structure Mirrors (w : Pairing) (f g : Forest) : Prop where
  spans : w.Spans f.size g.size
  left : ∀ i, w.left i → f.bindings i = .nil
  right : ∀ j, w.right j → g.bindings j = .nil
  bindings : ∀ i j, w.mates i j → (f.bindings i).Alike w (g.bindings j)
  chains : ∀ i j, w.views i j → w.Along (f.chain i) (g.chain j)

section

variable {w : Pairing} {f g : Forest} {i j : ScopeId}

theorem Mirrors.swap (h : f.Mirrors w g) : g.Mirrors w.swap f where
  spans := h.spans.swap
  left := h.right
  right := h.left
  bindings i j hm := (h.bindings j i hm).swap
  chains i j hv := (h.chains j i hv).swap

/-! ### Look-up -/

/-- Look-up comes to scopes that belong together, or to none on both sides. -/
theorem Mirrors.find (h : f.Mirrors w g) {is js : List ScopeId} (hs : w.Along is js) (x : String) :
    Option.Rel w.mates (is.find? fun i => (f.bindings i).contains x) (js.find? fun j => (g.bindings j).contains x) := by
  induction hs with
  | nil => exact .none
  | @mates i j is js hm _ ih =>
    rw [List.find?_cons, List.find?_cons, (h.bindings i j hm).contains]
    cases (g.bindings j).contains x with
    | true => exact .some hm
    | false => exact ih
  | @left i is js hl _ ih =>
    rw [List.find?_cons, h.left i hl]
    exact ih
  | @right j is js hr _ ih =>
    rw [List.find?_cons, h.right j hr]
    exact ih

theorem Mirrors.resolve (h : f.Mirrors w g) (hv : w.views i j) (x : String) :
    Option.Rel w.mates (f.resolve i x) (g.resolve j x) := h.find (h.chains i j hv) x

theorem Mirrors.lookup (h : f.Mirrors w g) (hv : w.views i j) (x : String) :
    Option.Rel (Value.Alike w) (f.lookup i x) (g.lookup j x) := by
  unfold Forest.lookup
  have hr := h.resolve hv x
  generalize f.resolve i x = o at hr
  generalize g.resolve j x = o' at hr
  cases hr with
  | none => exact .none
  | some hm => exact h.bindings _ _ hm x

/-! ### Changes -/

theorem Mirrors.define (h : f.Mirrors w g) (hm : w.mates i j) (x : String) {v v' : Value} (hv : v.Alike w v') :
    (f.define i x v).Mirrors w (g.define j x v') where
  spans := by
    rw [size_define, size_define]
    exact h.spans
  left k hk := by
    have hki : k ≠ i := fun hki => (h.spans.left hk).2 j (hki ▸ hm)
    rw [bindings_define, if_neg fun hi => hki hi.1]
    exact h.left k hk
  right l hl := by
    have hlj : l ≠ j := fun hlj => (h.spans.right hl).2 i (hlj ▸ hm)
    rw [bindings_define, if_neg fun hj => hlj hj.1]
    exact h.right l hl
  bindings k l hkl := by
    have hsame : k = i ↔ l = j := h.spans.unique hm hkl
    obtain ⟨hk, hl⟩ := h.spans.views_lt (h.spans.mates_views hkl)
    rw [bindings_define, bindings_define]
    by_cases hki : k = i
    · rw [if_pos ⟨hki, hk⟩, if_pos ⟨hsame.1 hki, hl⟩]
      exact (h.bindings k l hkl).insert x hv
    · rw [if_neg fun hi => hki hi.1, if_neg fun hj => hki (hsame.2 hj.1)]
      exact h.bindings k l hkl
  chains k l hkl := by
    rw [chain_define, chain_define]
    exact h.chains k l hkl

/-- A new scope on each side. -/
theorem Mirrors.addChild (h : f.Mirrors w g) (hv : w.views i j) {d d' : Dictionary Value} (hd : d.Alike w d') :
    (f.addChild i d).Mirrors (w.pair f.size g.size) (g.addChild j d') where
  spans := by
    rw [size_addChild, size_addChild]
    exact h.spans.pair
  left k hk := by
    rw [bindings_addChild, if_neg (h.spans.left hk).1.ne]
    exact h.left k hk
  right l hl := by
    rw [bindings_addChild, if_neg (h.spans.right hl).1.ne]
    exact h.right l hl
  bindings k l hkl := by
    rw [bindings_addChild, bindings_addChild]
    rcases hkl with hkl | ⟨rfl, rfl⟩
    · obtain ⟨hk, hl⟩ := h.spans.views_lt (h.spans.mates_views hkl)
      rw [if_neg hk.ne, if_neg hl.ne]
      exact (h.bindings k l hkl).mono (w.grows_pair ..)
    · rw [if_pos rfl, if_pos rfl]
      exact hd.mono (w.grows_pair ..)
  chains k l hkl := by
    rw [chain_addChild, chain_addChild]
    rcases hkl with hkl | ⟨rfl, rfl⟩
    · obtain ⟨hk, hl⟩ := h.spans.views_lt hkl
      rw [if_neg hk.ne, if_neg hl.ne]
      exact (h.chains k l hkl).mono (w.grows_pair ..)
    · rw [if_pos rfl, if_pos rfl]
      exact .mates (.inr ⟨rfl, rfl⟩) ((h.chains i j hv).mono (w.grows_pair ..))

/-- A new empty scope on the right. -/
theorem Mirrors.addRight (h : f.Mirrors w g) (hv : w.views i j) (hi : w.base ≤ i) :
    f.Mirrors (w.pass i g.size) (g.addChild j []) where
  spans := by
    rw [size_addChild]
    exact h.spans.pass (h.spans.views_lt hv).1 hi
  left := h.left
  right l hl := by
    rw [bindings_addChild]
    rcases hl with hl | rfl
    · rw [if_neg (h.spans.right hl).1.ne]
      exact h.right l hl
    · rw [if_pos rfl]
  bindings k l hkl := by
    rw [bindings_addChild, if_neg (h.spans.views_lt (h.spans.mates_views hkl)).2.ne]
    exact (h.bindings k l hkl).mono (w.grows_pass ..)
  chains k l hkl := by
    rw [chain_addChild]
    rcases hkl with hkl | ⟨rfl, rfl⟩
    · rw [if_neg (h.spans.views_lt hkl).2.ne]
      exact (h.chains k l hkl).mono (w.grows_pass ..)
    · rw [if_pos rfl]
      exact .right (.inr rfl) ((h.chains _ j hv).mono (w.grows_pass ..))

end

/-- A forest whose scopes stand in scopes that exist, and whose functions are closed over such, mirrors
itself. -/
theorem mirrors_self {f : Forest} (hchain : ∀ i, i < f.size → ∀ j ∈ f.chain i, j < f.size)
    (hholds : f.Holds fun g => g.closure < f.size) : f.Mirrors (.self f.size) f where
  spans := Pairing.spans_self f.size
  left _ := False.elim
  right _ := False.elim
  bindings i j hm x := by
    obtain ⟨rfl, -⟩ := hm
    cases hv : (f.bindings i).get? x with
    | none => exact .none
    | some v => exact .some ((hholds i x v hv).alike fun g hg => ⟨rfl, hg⟩)
  chains i j hv := by
    obtain ⟨rfl, hi⟩ := hv
    have hall := hchain i hi
    generalize f.chain i = is at hall
    induction is with
    | nil => exact .nil
    | cons k is ih =>
      have hk := hall k List.mem_cons_self
      exact .mates ⟨rfl, hk⟩ (ih fun j hj => hall j (List.mem_cons_of_mem _ hj))

end Forest

end StrategyScript
