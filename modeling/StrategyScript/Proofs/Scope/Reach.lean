/-
Which scopes can be come to. From a scope one gets to the scopes around it and to the closures of the
functions that are bound in it. A set of scopes that is closed under both holds all that one comes to from
inside; so what a change does not add to such a set is out of reach for good.
-/
import StrategyScript.Proofs.Scope.Rooted
import StrategyScript.Proofs.Scope.Holding

namespace StrategyScript

namespace Forest

/-- The scopes that one comes to from these. -/
inductive Reaches (f : Forest) (roots : List ScopeId) : ScopeId → Prop
  | root {i : ScopeId} (h : i ∈ roots) : f.Reaches roots i
  | outer {i j : ScopeId} (h : f.Reaches roots i) (hj : j ∈ f.chain i) : f.Reaches roots j
  | closure {i : ScopeId} {x : String} {g : Function} (h : f.Reaches roots i)
      (hg : (f.bindings i).get? x = some (.function g)) : f.Reaches roots g.closure

/-- From the scopes of a set one comes to no others. -/
structure Closed (f : Forest) (P : ScopeId → Prop) : Prop where
  chain : ∀ i, P i → ∀ j ∈ f.chain i, P j
  closure : ∀ i x g, P i → (f.bindings i).get? x = some (.function g) → P g.closure

section

variable {f : Forest} {roots : List ScopeId} {P : ScopeId → Prop} {i : ScopeId} {x : String} {v : Value}

theorem Reaches.of_closed (h : f.Reaches roots i) (hP : f.Closed P) (hroots : ∀ i ∈ roots, P i) : P i := by
  induction h with
  | root h => exact hroots _ h
  | outer _ hj ih => exact hP.chain _ ih _ hj
  | closure _ hg ih => exact hP.closure _ _ _ ih hg

theorem closed_reaches (f : Forest) (roots : List ScopeId) : f.Closed (f.Reaches roots) :=
  ⟨fun _ hi _ hj => .outer hi hj, fun _ _ _ hi hg => .closure hi hg⟩

/-- The scopes that are not there yet know no others. -/
theorem Closed.or_new (hP : f.Closed P) : f.Closed fun i => P i ∨ f.size ≤ i where
  chain i hi j hj := by
    rcases hi with hi | hi
    · exact .inl (hP.chain i hi j hj)
    · rw [chain_of_size_le hi] at hj
      cases hj
  closure i x g hi hg := by
    rcases hi with hi | hi
    · exact .inl (hP.closure i x g hi hg)
    · rw [bindings_of_size_le hi] at hg
      cases hg

theorem Closed.define (hP : f.Closed P) (hv : ∀ g, v = .function g → P g.closure) : (f.define i x v).Closed P where
  chain j hj := by
    rw [chain_define]
    exact hP.chain j hj
  closure j y g hj hg := by
    rcases get?_define hg with ⟨-, heq⟩ | hg
    · exact hv g heq.symm
    · exact hP.closure j y g hj hg

theorem Closed.addChild {parent : ScopeId} {bindings : Dictionary Value} (hP : f.Closed P) (hp : P parent)
    (hnew : P f.size) (hb : ∀ x g, bindings.get? x = some (.function g) → P g.closure) :
    (f.addChild parent bindings).Closed P where
  chain j hj k hk := by
    rw [chain_addChild] at hk
    split at hk
    · rcases List.mem_cons.1 hk with rfl | hk
      · exact hnew
      · exact hP.chain parent hp k hk
    · exact hP.chain j hj k hk
  closure j y g hj hg := by
    rw [bindings_addChild] at hg
    split at hg
    · exact hb y g hg
    · exact hP.closure j y g hj hg

/-! ## Dropped bindings -/

theorem size_clear (f : Forest) (i : ScopeId) : (f.clear i).size = f.size := Array.size_modify

theorem bindings_clear (f : Forest) (i j : ScopeId) : (f.clear i).bindings j = if j = i then .nil else f.bindings j := by
  unfold bindings scope? clear
  rw [Array.getElem?_modify]
  by_cases h : i = j
  · rw [if_pos h, if_pos h.symm]
    cases f.scopes[j]? <;> rfl
  · rw [if_neg h, if_neg (Ne.symm h)]

theorem get?_clear {j : ScopeId} (h : ((f.clear i).bindings j).get? x = some v) : (f.bindings j).get? x = some v := by
  rw [bindings_clear] at h
  split at h
  · cases h
  · exact h

theorem Closed.clear (hP : f.Closed P) (i : ScopeId) : (f.clear i).Closed P where
  chain j hj := by
    rw [chain_clear]
    exact hP.chain j hj
  closure j y g hj hg := hP.closure j y g hj (get?_clear hg)

theorem Rooted.clear (h : f.Rooted) (i : ScopeId) : (f.clear i).Rooted where
  global := (chain_clear ..).trans h.global
  inside j hpos hj := by
    rw [size_clear] at hj
    simp only [chain_clear]
    exact h.inside j hpos hj

theorem Holds.clear {F : Function → Prop} (h : f.Holds F) (i : ScopeId) : (f.clear i).Holds F :=
  fun j y w hw => h j y w (get?_clear hw)

/-! ## Forests with the same scopes -/

/-- The scopes are the same and stand in the same places, and those in the set bind the same. -/
structure AgreesOn (f : Forest) (P : ScopeId → Prop) (g : Forest) : Prop where
  size : g.size = f.size
  chain : ∀ i, g.chain i = f.chain i
  bindings : ∀ i, P i → g.bindings i = f.bindings i

variable {g : Forest} {Q : ScopeId → Prop}

theorem AgreesOn.refl (f : Forest) (P : ScopeId → Prop) : f.AgreesOn P f := ⟨rfl, fun _ => rfl, fun _ _ => rfl⟩

/-- In scopes that do not exist nothing is bound. -/
theorem AgreesOn.mono (h : f.AgreesOn P g) (hPQ : ∀ i, Q i → P i ∨ g.size ≤ i) : f.AgreesOn Q g where
  size := h.size
  chain := h.chain
  bindings i hi := by
    rcases hPQ i hi with hi | hi
    · exact h.bindings i hi
    · rw [bindings_of_size_le hi, bindings_of_size_le (h.size ▸ hi)]

theorem AgreesOn.define (h : f.AgreesOn P g) (i : ScopeId) (x : String) (v : Value) :
    (f.define i x v).AgreesOn P (g.define i x v) where
  size := by rw [size_define, size_define, h.size]
  chain j := by rw [chain_define, chain_define, h.chain]
  bindings j hj := by rw [bindings_define, bindings_define, h.size, h.bindings j hj]

theorem AgreesOn.addChild (h : f.AgreesOn P g) (parent : ScopeId) (bindings : Dictionary Value) :
    (f.addChild parent bindings).AgreesOn P (g.addChild parent bindings) where
  size := by rw [size_addChild, size_addChild, h.size]
  chain j := by rw [chain_addChild, chain_addChild, h.size, h.chain, h.chain]
  bindings j hj := by rw [bindings_addChild, bindings_addChild, h.size, h.bindings j hj]

theorem AgreesOn.clear (h : f.AgreesOn P g) (hi : ¬ P i) : f.AgreesOn P (g.clear i) where
  size := (size_clear g i).trans h.size
  chain j := (chain_clear g i j).trans (h.chain j)
  bindings j hj := by
    have hji : j ≠ i := by
      rintro rfl
      exact hi hj
    rw [bindings_clear, if_neg hji, h.bindings j hj]

theorem Closed.resolve (hP : f.Closed P) (hi : P i) {j : ScopeId} (hj : f.resolve i x = some j) : P j :=
  hP.chain i hi j (List.mem_of_find?_eq_some hj)

/-- Names mean the same from a scope on from which one comes to none but scopes of the set. -/
theorem AgreesOn.resolve (h : f.AgreesOn P g) (hP : g.Closed P) (hi : P i) : g.resolve i x = f.resolve i x := by
  unfold Forest.resolve
  rw [← h.chain]
  refine List.find?_congr fun j hj => ?_
  rw [h.bindings j (hP.chain i hi j hj)]

theorem AgreesOn.lookup (h : f.AgreesOn P g) (hP : g.Closed P) (hi : P i) : g.lookup i x = f.lookup i x := by
  have hsame := h.resolve hP hi (x := x)
  unfold Forest.lookup
  rw [← hsame]
  cases hj : g.resolve i x with
  | none => rfl
  | some j => exact congrArg (Dictionary.get? · x) (h.bindings j (hP.resolve hi hj))

end

end Forest

end StrategyScript
