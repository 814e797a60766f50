/-
Rooted forests. The first scope is the global one and has nothing around it, and every other scope
stands directly inside an older one. So the way from a scope outwards goes to ever older scopes, meets
none of them twice, and comes to an end in the global scope; and the list of scopes that look-up goes
through is this way.
-/
import StrategyScript.Proofs.Scope.Growth

namespace StrategyScript

namespace Forest

open Session (globalScope)

/-- From the scope outwards, parent by parent, to the global scope. -/
inductive Climbs (f : Forest) : ScopeId → List ScopeId → Prop
  | global (h : f.parent? globalScope = none) : f.Climbs globalScope [globalScope]
  | up {i j : ScopeId} {path : List ScopeId} (h : f.parent? i = some j) (hj : f.Climbs j path) : f.Climbs i (i :: path)

structure Rooted (f : Forest) : Prop where
  global : f.chain globalScope = [globalScope]
  inside : ∀ i, globalScope < i → i < f.size → ∃ j < i, f.chain i = i :: f.chain j

section

variable {f : Forest} {i : ScopeId}

/-! ## The way to the global scope -/

theorem Rooted.size_pos (h : f.Rooted) : globalScope < f.size := by
  by_contra hsize
  have hchain := h.global
  rw [chain_of_size_le (Nat.not_lt.1 hsize)] at hchain
  cases hchain

theorem parent?_of_chain {outer : List ScopeId} (h : f.chain i = i :: outer) : f.parent? i = outer.head? := by
  unfold chain at h
  unfold parent?
  cases hs : f.scope? i with
  | none => rw [hs] at h; cases h
  | some s =>
    rw [hs] at h
    exact congrArg List.head? (List.cons.inj h).2

/-- The chain of a scope begins with the scope itself and goes on with older ones, up to the first. -/
theorem Rooted.chain_spec (h : f.Rooted) (hi : i < f.size) :
    f.Climbs i (f.chain i) ∧ (f.chain i).head? = some i ∧ (f.chain i).Pairwise (· > ·) := by
  induction i using Nat.strong_induction_on with
  | _ i ih =>
    rcases Nat.eq_zero_or_pos i with rfl | hpos
    · rw [show f.chain 0 = [0] from h.global]
      exact ⟨.global (parent?_of_chain h.global), rfl, List.pairwise_singleton _ _⟩
    · obtain ⟨j, hj, hchain⟩ := h.inside i hpos hi
      obtain ⟨hclimbs, hhead, hsorted⟩ := ih j hj (hj.trans hi)
      have hparent : f.parent? i = some j := (parent?_of_chain hchain).trans hhead
      rw [hchain]
      refine ⟨.up hparent hclimbs, rfl, List.pairwise_cons.2 ⟨fun k hk => ?_, hsorted⟩⟩
      -- what comes behind `j` is older than `j`
      obtain ⟨rest, hrest⟩ := List.head?_eq_some_iff.1 hhead
      rw [hrest] at hk hsorted
      rcases List.mem_cons.1 hk with rfl | hk
      · exact hj
      · exact ((List.pairwise_cons.1 hsorted).1 k hk).trans hj

theorem Rooted.climbs (h : f.Rooted) (hi : i < f.size) : f.Climbs i (f.chain i) := (h.chain_spec hi).1

theorem Rooted.chain_nodup (h : f.Rooted) (hi : i < f.size) : (f.chain i).Nodup :=
  (h.chain_spec hi).2.2.imp Nat.ne_of_gt

/-- Around a scope that exists there are only scopes that exist. -/
theorem Rooted.lt_size_of_mem_chain (h : f.Rooted) {k : ScopeId} (hi : i < f.size) (hk : k ∈ f.chain i) : k < f.size := by
  obtain ⟨-, hhead, hsorted⟩ := h.chain_spec hi
  obtain ⟨rest, hrest⟩ := List.head?_eq_some_iff.1 hhead
  rw [hrest] at hk hsorted
  rcases List.mem_cons.1 hk with rfl | hk
  · exact hi
  · exact ((List.pairwise_cons.1 hsorted).1 k hk).trans hi

theorem Climbs.global_mem {path : List ScopeId} (h : f.Climbs i path) : globalScope ∈ path := by
  induction h with
  | global _ => exact List.mem_singleton_self _
  | up _ _ ih => exact List.mem_cons_of_mem _ ih

/-- What the global scope binds has a meaning everywhere. -/
theorem Rooted.resolve_of_global (h : f.Rooted) (hi : i < f.size) {x : String} (hx : f.Binds globalScope x) :
    f.resolve i x ≠ none := by
  intro hnone
  exact List.find?_eq_none.1 hnone globalScope (h.climbs hi).global_mem hx

/-! ## What keeps a forest rooted -/

theorem rooted_global : (empty.addGlobal).Rooted where
  global := rfl
  inside _ hpos hi := absurd hpos (Nat.not_lt.2 (Nat.le_of_lt_succ hi))

theorem Rooted.define (h : f.Rooted) (i : ScopeId) (x : String) (v : Value) : (f.define i x v).Rooted where
  global := (chain_define ..).trans h.global
  inside j hpos hj := by
    rw [size_define] at hj
    simp only [chain_define]
    exact h.inside j hpos hj

theorem Rooted.addChild (h : f.Rooted) {parent : ScopeId} (hp : parent < f.size) (bindings : Dictionary Value) :
    (f.addChild parent bindings).Rooted := by
  have hold : ∀ j, j < f.size → (f.addChild parent bindings).chain j = f.chain j := (extends_addChild ..).chain
  refine ⟨(hold _ h.size_pos).trans h.global, fun i hpos hi => ?_⟩
  rw [size_addChild] at hi
  rcases (Nat.lt_succ_iff_lt_or_eq.1 hi) with hi | rfl
  · obtain ⟨j, hj, hchain⟩ := h.inside i hpos hi
    exact ⟨j, hj, by rw [hold i hi, hold j (hj.trans hi), hchain]⟩
  · exact ⟨parent, hp, by rw [hold parent hp, chain_addChild, if_pos rfl]⟩

/-! ## The built-ins -/

theorem rooted_defineBuiltins (h : f.Rooted) (i : ScopeId) : (f.defineBuiltins i).Rooted := by
  unfold defineBuiltins
  generalize Builtin.all = bs
  induction bs generalizing f with
  | nil => exact h
  | cons b bs ih => exact ih (h.define i b.name (.builtin b))

theorem binds_defineBuiltins (hi : i < f.size) (b : Builtin) : (f.defineBuiltins i).Binds i b.name := by
  have hb := Builtin.mem_all b
  unfold defineBuiltins
  revert hb
  generalize Builtin.all = bs
  intro hb
  -- a name that is bound stays so while the others are
  have hstays : ∀ (bs : List Builtin) (g : Forest), g.Binds i b.name →
      (bs.foldl (fun f b => f.define i b.name (.builtin b)) g).Binds i b.name := by
    intro bs
    induction bs with
    | nil => exact fun g hg => hg
    | cons c bs ih => exact fun g hg => ih _ ((extends_define ..).binds i b.name hg)
  induction bs generalizing f with
  | nil => cases hb
  | cons c bs ih =>
    rcases List.mem_cons.1 hb with rfl | hb
    · exact hstays bs _ ((binds_define ..).2 (.inl ⟨rfl, hi, rfl⟩))
    · exact ih (by rw [size_define]; exact hi) hb

end

end Forest

end StrategyScript
