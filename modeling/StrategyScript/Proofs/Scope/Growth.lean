/-
How a forest of scopes grows. Scopes are only ever added, each keeps its place inside the others, and a
scope that binds a name goes on binding it; what can change is the value behind a name, and the names
of the one scope that a definition is made in.
-/
import StrategyScript.Proofs.Scope.Forest

namespace StrategyScript

namespace Dictionary

theorem contains_bindParameters (ps : List String) (args : List Value) (d : Dictionary Value) (x : String) :
    (bindParameters ps args d).contains x = true ↔ x ∈ ps ∨ d.contains x = true := by
  induction ps generalizing args d with
  | nil => simp [bindParameters]
  | cons p ps ih =>
    cases args with
    | nil => rw [bindParameters, ih, contains_insert, List.mem_cons]; tauto
    | cons a args => rw [bindParameters, ih, contains_insert, List.mem_cons]; tauto

end Dictionary

namespace Forest

/-- The scope itself binds the name. -/
def Binds (f : Forest) (i : ScopeId) (x : String) : Prop := (f.bindings i).contains x = true

/-! ## Single changes -/

theorem size_define (f : Forest) (i : ScopeId) (x : String) (v : Value) : (f.define i x v).size = f.size :=
  Array.size_modify

/-- A scope stays in its place whatever is done to the bindings of one. -/
theorem chain_modify (f : Forest) (i : ScopeId) (change : Dictionary Value → Dictionary Value) (j : ScopeId) :
    (Forest.mk (f.scopes.modify i fun s => { s with bindings := change s.bindings })).chain j = f.chain j := by
  unfold chain scope?
  rw [Array.getElem?_modify]
  by_cases h : i = j
  · rw [if_pos h]
    cases f.scopes[j]? <;> rfl
  · rw [if_neg h]

theorem chain_define (f : Forest) (i : ScopeId) (x : String) (v : Value) (j : ScopeId) :
    (f.define i x v).chain j = f.chain j := chain_modify f i (·.insert x v) j

theorem chain_clear (f : Forest) (i j : ScopeId) : (f.clear i).chain j = f.chain j := chain_modify f i (fun _ => []) j

theorem size_addChild (f : Forest) (parent : ScopeId) (bindings : Dictionary Value) :
    (f.addChild parent bindings).size = f.size + 1 := Array.size_push ..

theorem chain_push (scopes : Array Scope) (new : Scope) (j : ScopeId) :
    (Forest.mk (scopes.push new)).chain j = if j = scopes.size then scopes.size :: new.outer else chain ⟨scopes⟩ j := by
  unfold chain scope?
  rw [Array.getElem?_push]
  by_cases h : j = scopes.size
  · rw [if_pos h, if_pos h, h]
  · rw [if_neg h, if_neg h]

/-- A new scope stands inside its parent, and every other one where it stood. -/
theorem chain_addChild (f : Forest) (parent : ScopeId) (bindings : Dictionary Value) (j : ScopeId) :
    (f.addChild parent bindings).chain j = if j = f.size then f.size :: f.chain parent else f.chain j :=
  chain_push f.scopes ⟨bindings, f.chain parent⟩ j

theorem size_addGlobal (f : Forest) : f.addGlobal.size = f.size + 1 := Array.size_push ..

/-- A new global scope stands alone. -/
theorem chain_addGlobal (f : Forest) (j : ScopeId) :
    f.addGlobal.chain j = if j = f.size then [f.size] else f.chain j := chain_push f.scopes ⟨[], []⟩ j

theorem chain_of_size_le {f : Forest} {i : ScopeId} (h : f.size ≤ i) : f.chain i = [] := by
  unfold chain scope?
  rw [Array.getElem?_eq_none h]

theorem bindings_of_size_le {f : Forest} {i : ScopeId} (h : f.size ≤ i) : f.bindings i = .nil := by
  unfold bindings scope?
  rw [Array.getElem?_eq_none h]
  rfl

theorem Binds.lt_size {f : Forest} {i : ScopeId} {x : String} (h : f.Binds i x) : i < f.size := by
  by_contra hi
  rw [Binds, bindings_of_size_le (Nat.not_lt.1 hi)] at h
  cases h

theorem binds_define (f : Forest) (i : ScopeId) (x : String) (v : Value) (j : ScopeId) (y : String) :
    (f.define i x v).Binds j y ↔ (j = i ∧ j < f.size ∧ y = x) ∨ f.Binds j y := by
  unfold Binds
  rw [bindings_define]
  split
  · rename_i h
    rw [Dictionary.contains_insert]
    tauto
  · rename_i h
    tauto

theorem get?_define_of_ne (f : Forest) (i : ScopeId) {x y : String} (v : Value) (h : y ≠ x) (j : ScopeId) :
    ((f.define i x v).bindings j).get? y = (f.bindings j).get? y := by
  rw [bindings_define]
  split
  · rw [Dictionary.get?_insert, if_neg h]
  · rfl

theorem binds_addChild {f : Forest} {parent : ScopeId} {bindings : Dictionary Value} {j : ScopeId} {x : String} :
    (f.addChild parent bindings).Binds j x ↔ (j = f.size ∧ bindings.contains x = true) ∨ f.Binds j x := by
  unfold Binds
  rw [bindings_addChild]
  split
  · rename_i h
    rw [h, bindings_of_size_le le_rfl]
    exact ⟨fun hx => .inl ⟨rfl, hx⟩, fun hx => hx.elim And.right nofun⟩
  · rename_i h
    tauto

/-- What a name means is bound where it is looked up. -/
theorem binds_of_resolve {f : Forest} {i j : ScopeId} {x : String} (h : f.resolve i x = some j) : f.Binds j x :=
  List.find?_some (p := fun j => (f.bindings j).contains x) h

theorem resolve_of_lookup {f : Forest} {i : ScopeId} {x : String} (h : f.lookup i x = none) : f.resolve i x = none := by
  cases hr : f.resolve i x with
  | none => rfl
  | some j =>
    have hj : (f.bindings j).get? x = none := by rwa [lookup, hr] at h
    have hb := binds_of_resolve hr
    rw [Binds, Dictionary.contains, hj] at hb
    cases hb

/-! ## Growth -/

/-- Scopes may have been added and names bound, but none is lost and none has moved. -/
structure Extends (f g : Forest) : Prop where
  size : f.size ≤ g.size
  chain : ∀ i, i < f.size → g.chain i = f.chain i
  binds : ∀ i x, f.Binds i x → g.Binds i x

theorem Extends.refl (f : Forest) : f.Extends f := ⟨le_rfl, fun _ _ => rfl, fun _ _ h => h⟩

theorem Extends.trans {f g h : Forest} (hfg : f.Extends g) (hgh : g.Extends h) : f.Extends h where
  size := hfg.size.trans hgh.size
  chain i hi := (hgh.chain i (hi.trans_le hfg.size)).trans (hfg.chain i hi)
  binds i x hx := hgh.binds i x (hfg.binds i x hx)

theorem extends_define (f : Forest) (i : ScopeId) (x : String) (v : Value) : f.Extends (f.define i x v) where
  size := (size_define f i x v).ge
  chain j _ := chain_define f i x v j
  binds j y h := (binds_define f i x v j y).2 (.inr h)

theorem extends_addChild (f : Forest) (parent : ScopeId) (bindings : Dictionary Value) :
    f.Extends (f.addChild parent bindings) where
  size := by rw [size_addChild]; exact Nat.le_succ _
  chain j hj := by rw [chain_addChild, if_neg hj.ne]
  binds _ _ h := binds_addChild.2 (.inr h)

end Forest

end StrategyScript
