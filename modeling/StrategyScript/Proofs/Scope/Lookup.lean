/-
What a write to a scope does to the meanings of names. A name means what the nearest scope says that
binds it, on the way outwards from parent to parent. Giving it a new value rewrites that one binding, so
the name has the new value in just those scopes that came to the same binding before; a definition
rewrites a binding of the scope itself or adds one, and the name has the new value in just those scopes
from which this scope is now the nearest.
-/
import StrategyScript.Proofs.Scope.Rooted

namespace StrategyScript

namespace Forest

/-! ## Forests and their chains -/

/-- The forests that one gets by making scopes and writing to them. -/
inductive Built : Forest → Prop
  | empty : Built .empty
  | addGlobal {f : Forest} (h : Built f) : Built f.addGlobal
  | addChild {f : Forest} {parent : ScopeId} (h : Built f) (hp : parent < f.size) (bindings : Dictionary Value) :
    Built (f.addChild parent bindings)
  | define {f : Forest} {i : ScopeId} (h : Built f) (hi : i < f.size) (x : String) (v : Value) :
    Built (f.define i x v)
  | set {f g : Forest} {i : ScopeId} {x : String} {v : Value} (h : Built f) (hg : f.set i x v = .ok g) : Built g

/-- Every scope stands alone or directly inside an older one. -/
def Layered (f : Forest) : Prop := ∀ i < f.size, f.chain i = [i] ∨ ∃ j < i, f.chain i = i :: f.chain j

/-- From a scope outwards, parent by parent, this is the first scope that binds the name. -/
inductive Nearest (f : Forest) (x : String) : ScopeId → ScopeId → Prop
  | here {i : ScopeId} (h : f.Binds i x) : f.Nearest x i i
  | outward {i p j : ScopeId} (h : ¬ f.Binds i x) (hp : f.parent? i = some p) (hj : f.Nearest x p j) :
    f.Nearest x i j

section

variable {f g : Forest} {i j s t : ScopeId} {x y : String} {v w : Value}

theorem head?_chain (hi : i < f.size) : (f.chain i).head? = some i := by
  unfold chain scope?
  rw [Array.getElem?_eq_getElem hi]
  rfl

theorem parent?_define (f : Forest) (i : ScopeId) (x : String) (v : Value) (j : ScopeId) :
    (f.define i x v).parent? j = f.parent? j := by
  unfold parent? define scope?
  rw [Array.getElem?_modify]
  split
  · cases f.scopes[j]? <;> rfl
  · rfl

theorem set_eq_ok : f.set i x v = .ok g ↔ ∃ j, f.resolve i x = some j ∧ g = f.define j x v := by
  unfold set
  cases f.resolve i x with
  | none => simp
  | some j => simp [eq_comm]

/-! ## What keeps a forest layered -/

theorem Layered.define (h : f.Layered) (i : ScopeId) (x : String) (v : Value) : (f.define i x v).Layered := by
  intro j hj
  rw [size_define] at hj
  simpa only [chain_define] using h j hj

/-- One scope more, alone or inside one that was there. -/
theorem Layered.push (h : f.Layered) (hsize : g.size = f.size + 1) (hold : ∀ j < f.size, g.chain j = f.chain j)
    (hnew : g.chain f.size = [f.size] ∨ ∃ j < f.size, g.chain f.size = f.size :: f.chain j) : g.Layered := by
  intro i hi
  rw [hsize] at hi
  rcases Nat.lt_succ_iff_lt_or_eq.1 hi with hi | rfl
  · rcases h i hi with halone | ⟨j, hj, hinside⟩
    · exact .inl ((hold i hi).trans halone)
    · exact .inr ⟨j, hj, by rw [hold i hi, hold j (hj.trans hi), hinside]⟩
  · rcases hnew with halone | ⟨j, hj, hinside⟩
    · exact .inl halone
    · exact .inr ⟨j, hj, by rw [hinside, hold j hj]⟩

theorem Layered.addGlobal (h : f.Layered) : f.addGlobal.Layered := by
  refine h.push (size_addGlobal f) (fun j hj => ?_) (.inl ?_)
  · rw [chain_addGlobal, if_neg hj.ne]
  · rw [chain_addGlobal, if_pos rfl]

theorem Layered.addChild (h : f.Layered) {parent : ScopeId} (hp : parent < f.size) (bindings : Dictionary Value) :
    (f.addChild parent bindings).Layered := by
  refine h.push (size_addChild ..) (extends_addChild ..).chain (.inr ⟨parent, hp, ?_⟩)
  rw [chain_addChild, if_pos rfl]

theorem Built.layered (h : f.Built) : f.Layered := by
  induction h with
  | empty => exact fun i hi => absurd hi (Nat.not_lt_zero i)
  | addGlobal _ ih => exact ih.addGlobal
  | addChild _ hp bindings ih => exact ih.addChild hp bindings
  | define _ _ x v ih => exact ih.define _ x v
  | set _ hg ih =>
    obtain ⟨j, -, rfl⟩ := set_eq_ok.1 hg
    exact ih.define _ _ _

/-! ## Look-up goes from parent to parent -/

/-- Look-up is a recursion: the scope itself, or else what its parent finds. -/
theorem Layered.resolve_eq (h : f.Layered) (i : ScopeId) (x : String) :
    f.resolve i x = if (f.bindings i).contains x then some i else (f.parent? i).bind (f.resolve · x) := by
  by_cases hi : i < f.size
  · rcases h i hi with halone | ⟨j, hj, hinside⟩
    · have hparent : f.parent? i = none := parent?_of_chain halone
      rw [resolve, halone, hparent, List.find?_cons]
      cases (f.bindings i).contains x <;> rfl
    · have hparent : f.parent? i = some j := (parent?_of_chain hinside).trans (head?_chain (hj.trans hi))
      rw [resolve, hinside, hparent, List.find?_cons]
      cases (f.bindings i).contains x <;> rfl
  · have hnone : f.scope? i = none := Array.getElem?_eq_none (Nat.not_lt.1 hi)
    rw [resolve, chain_of_size_le (Nat.not_lt.1 hi), bindings_of_size_le (Nat.not_lt.1 hi), parent?, hnone]
    rfl

theorem Layered.parent?_lt (h : f.Layered) (hp : f.parent? i = some j) : j < i := by
  have hi : i < f.size := by
    by_contra hi
    rw [parent?, scope?, Array.getElem?_eq_none (Nat.not_lt.1 hi)] at hp
    cases hp
  rcases h i hi with halone | ⟨k, hk, hinside⟩
  · rw [parent?_of_chain halone] at hp
    cases hp
  · rw [parent?_of_chain hinside, head?_chain (hk.trans hi)] at hp
    cases hp
    exact hk

theorem Layered.resolve_eq_some (h : f.Layered) : f.resolve i x = some j ↔ f.Nearest x i j := by
  refine ⟨fun hr => ?_, fun hn => ?_⟩
  · -- a parent is older, so the way outwards is as long as the number of the scope at most
    induction i using Nat.strong_induction_on with
    | _ i ih =>
      rw [h.resolve_eq] at hr
      split at hr
      · rename_i hb
        cases hr
        exact .here hb
      · rename_i hb
        obtain ⟨p, hp, hr⟩ := Option.bind_eq_some_iff.1 hr
        exact .outward hb hp (ih p (h.parent?_lt hp) hr)
  · induction hn with
    | @here i hb => exact (h.resolve_eq i x).trans (if_pos hb)
    | @outward i p j hb hp _ ih =>
      calc
        f.resolve i x = (f.parent? i).bind (f.resolve · x) := (h.resolve_eq i x).trans (if_neg hb)
        _ = f.resolve p x := by rw [hp, Option.bind_some]
        _ = some j := ih

theorem get_congr (h : g.lookup t x = f.lookup t x) : g.get t x = f.get t x := by
  unfold get
  rw [h]

/-! ## One write -/

/-- The second forest is the first one with a new value behind one name of one scope. -/
structure Writes (f g : Forest) (i : ScopeId) (x : String) (v : Value) : Prop where
  size : g.size = f.size
  parent : ∀ j, g.parent? j = f.parent? j
  here : (g.bindings i).get? x = some v
  elsewhere : ∀ j y, ¬ (j = i ∧ y = x) → (g.bindings j).get? y = (f.bindings j).get? y

/-- In these scopes the name has the value, and whatever else is looked up anywhere means the same in
both forests. -/
structure Shows (f g : Forest) (scopes : ScopeId → Prop) (x : String) (v : Value) : Prop where
  seen : ∀ t, scopes t → g.get t x = .ok v
  unseen : ∀ t y, ¬ (y = x ∧ scopes t) → g.get t y = f.get t y

theorem writes_define (hi : i < f.size) (x : String) (v : Value) : f.Writes (f.define i x v) i x v where
  size := size_define f i x v
  parent := parent?_define f i x v
  here := by rw [bindings_define, if_pos ⟨rfl, hi⟩, Dictionary.get?_insert, if_pos rfl]
  elsewhere j y hne := by
    rw [bindings_define]
    split
    · rename_i hj
      rw [Dictionary.get?_insert, if_neg fun hy => hne ⟨hj.1, hy⟩]
    · rfl

/-- The first of a row with a property is the same for two properties, if they differ at most on an
element that is not the first with the one. -/
theorem find?_eq_of_ne {α : Type} {p q : α → Bool} {a : α} (l : List α) (hpq : ∀ b, b ≠ a → p b = q b)
    (hq : q a = true) (hne : l.find? q ≠ some a) : l.find? q = l.find? p := by
  induction l with
  | nil => rfl
  | cons b l ih =>
    by_cases hb : b = a
    · subst hb
      exact absurd (List.find?_cons_of_pos hq) hne
    · rw [List.find?_cons, List.find?_cons, hpq b hb]
      rw [List.find?_cons] at hne
      cases hqb : q b with
      | true => rfl
      | false =>
        rw [hqb] at hne
        exact ih hne

/-- A definition moves a name only to its own scope. -/
theorem resolve_define (hi : i < f.size) (hy : ¬ (y = x ∧ (f.define i x v).resolve t x = some i)) :
    (f.define i x v).resolve t y = f.resolve t y := by
  have hwrite := writes_define hi x v
  have hsame : ∀ j, ¬ (j = i ∧ y = x) → ((f.define i x v).bindings j).contains y = (f.bindings j).contains y :=
    fun j hj => congrArg Option.isSome (hwrite.elsewhere j y hj)
  unfold resolve
  rw [chain_define]
  by_cases hyx : y = x
  · subst hyx
    refine find?_eq_of_ne _ (fun j hj => (hsame j fun h => hj h.1).symm) ?_ fun hr => hy ⟨rfl, ?_⟩
    · exact congrArg Option.isSome hwrite.here
    · rwa [resolve, chain_define]
  · exact List.find?_congr fun j _ => hsame j fun h => hyx h.2

theorem lookup_define (hi : i < f.size) (hy : ¬ (y = x ∧ (f.define i x v).resolve t x = some i)) :
    (f.define i x v).lookup t y = f.lookup t y := by
  have hresolve := resolve_define hi hy
  unfold lookup
  rw [hresolve]
  cases hr : f.resolve t y with
  | none => rfl
  | some j =>
    refine (writes_define hi x v).elsewhere j y fun h => hy ⟨h.2, ?_⟩
    calc
      (f.define i x v).resolve t x = (f.define i x v).resolve t y := by rw [h.2]
      _ = some j := hresolve.trans hr
      _ = some i := congrArg some h.1

/-- A definition is seen from where its scope is now the nearest one that binds the name. -/
theorem Layered.shows_define (h : f.Layered) (hi : i < f.size) (x : String) (v : Value) :
    f.Shows (f.define i x v) ((f.define i x v).Nearest x · i) x v where
  seen t ht := by
    have hr := (h.define i x v).resolve_eq_some.2 ht
    rw [get, lookup, hr, Option.bind_some, (writes_define hi x v).here]
  unseen t y hy := get_congr (lookup_define hi fun hr => hy ⟨hr.1, (h.define i x v).resolve_eq_some.1 hr.2⟩)

/-- Where a name is bound already, a definition of it moves no name. -/
theorem nearest_define (hb : f.Binds i x) : (f.define i x v).Nearest y t j ↔ f.Nearest y t j := by
  have hbinds : ∀ k z, (f.define i x v).Binds k z ↔ f.Binds k z := by
    intro k z
    rw [binds_define]
    refine or_iff_right_of_imp ?_
    rintro ⟨rfl, -, rfl⟩
    exact hb
  constructor
  · intro hn
    induction hn with
    | here hk => exact .here ((hbinds ..).1 hk)
    | outward hk hp _ ih => exact .outward (fun h => hk ((hbinds ..).2 h)) ((parent?_define ..).symm.trans hp) ih
  · intro hn
    induction hn with
    | here hk => exact .here ((hbinds ..).2 hk)
    | outward hk hp _ ih => exact .outward (fun h => hk ((hbinds ..).1 h)) ((parent?_define ..).trans hp) ih

theorem Layered.set_spec (h : f.Layered) (hg : f.set s x v = .ok g) :
    ∃ j, f.Nearest x s j ∧ f.Writes g j x v ∧ f.Shows g (f.Nearest x · j) x v := by
  obtain ⟨j, hr, rfl⟩ := set_eq_ok.1 hg
  have hb := binds_of_resolve hr
  refine ⟨j, h.resolve_eq_some.1 hr, writes_define hb.lt_size x v, ?_⟩
  have hshows := h.shows_define hb.lt_size x v
  simpa only [nearest_define hb] using hshows

theorem exists_set_iff : (∃ g, f.set i x v = .ok g) ↔ ∃ w, f.get i x = .ok w := by
  unfold set get
  cases hr : f.resolve i x with
  | none => simp [lookup, hr]
  | some j =>
    obtain ⟨w, hw⟩ := Option.isSome_iff_exists.1 (binds_of_resolve hr)
    simp [lookup, hr, hw]

end

/-- Setting a name succeeds where it can be read. Then it rewrites the nearest binding of the name, which
is seen from where this binding was read, and otherwise changes nothing. A definition writes to the scope
itself, and is seen from where this scope is then the nearest one. -/
theorem writes_obey_scopes {f : Forest} (hf : f.Built) {s : ScopeId} (hs : s < f.size) (n : String) (v : Value) :
    ((∃ g, f.set s n v = .ok g) ↔ ∃ w, f.get s n = .ok w) ∧
      (∀ e, f.set s n v = .error e → ∀ (σ : Session) (line : Nat), σ.scopes = f → σ.current = s →
        Eval.assign n v line σ = .failed (e.atLine line) σ) ∧
      (∀ g, f.set s n v = .ok g →
        ∃ j, f.Nearest n s j ∧ f.Writes g j n v ∧ f.Shows g (f.Nearest n · j) n v) ∧
      f.Writes (f.define s n v) s n v ∧ f.Shows (f.define s n v) ((f.define s n v).Nearest n · s) n v := by
  have h := hf.layered
  refine ⟨exists_set_iff, fun e he σ line hscopes hcurrent => ?_, fun g hg => h.set_spec hg,
    writes_define hs n v, h.shows_define hs n v⟩
  rw [Eval.assign_eq, hscopes, hcurrent, he]

/-- Two scopes inside the global one, the second of which binds the name itself: what is set from the first
is seen from the global scope too, and not from the second. -/
theorem shadowed_binding_is_not_written :
    let f := (((empty.addGlobal.define 0 "x" (.boolean true)).addChild 0 []).addChild 0 []).define 2 "x"
      (.boolean false)
    f.Built ∧ 1 < f.size ∧ ∃ g, f.set 1 "x" .null = .ok g ∧ f.Writes g 0 "x" .null ∧
      g.get 0 "x" = .ok .null ∧ g.get 1 "x" = .ok .null ∧ g.get 2 "x" = .ok (.boolean false) := by
  intro f
  have hbuilt : f.Built :=
    .define (.addChild (.addChild (.define (.addGlobal .empty) (by decide) ..) (by decide) _) (by decide) _)
      (by decide) ..
  have hnearest : ∀ i j, f.resolve i "x" = some j ↔ f.Nearest "x" i j := fun i j => hbuilt.layered.resolve_eq_some
  obtain ⟨hsucceeds, -, hset, -⟩ := writes_obey_scopes hbuilt (s := 1) (by decide) "x" .null
  obtain ⟨g, hg⟩ := hsucceeds.2 ⟨.boolean true, rfl⟩
  obtain ⟨j, hj, hwrites, hshows⟩ := hset g hg
  have hzero : some 0 = some j := (hnearest 1 j).2 hj
  cases hzero
  refine ⟨hbuilt, by decide, g, hg, hwrites, hshows.seen 0 ((hnearest 0 0).1 rfl),
    hshows.seen 1 ((hnearest 1 0).1 rfl), (hshows.unseen 2 "x" fun hseen => ?_).trans rfl⟩
  have hown : some 2 = some 0 := (hnearest 2 0).2 hseen.2
  cases hown

end Forest

end StrategyScript
