/-
What strong counts tell. A scope to which somebody comes from outside is held by one more than itself and
its own functions: by those who start there, by a scope inside it, or by a function that has escaped. So a
scope that passes the test for release is out of reach, though the counts do not look further than one
step. Circles of scopes that only hold each other are never gone, but this does no harm.
-/
import StrategyScript.Scope.Count
import StrategyScript.Proofs.Scope.Reach

namespace StrategyScript

/-! ## Different functions -/

theorem nodup_eraseDups {α : Type} [BEq α] [LawfulBEq α] (l : List α) : l.eraseDups.Nodup := by
  induction h : l.length using Nat.strong_induction_on generalizing l with
  | _ n ih =>
    cases l with
    | nil => exact List.nodup_nil
    | cons a l =>
      rw [List.eraseDups_cons, List.nodup_cons]
      have hlt : (l.filter fun b => !b == a).length < n := by
        rw [← h]
        exact Nat.lt_succ_of_le (List.length_filter_le _ l)
      exact ⟨by simp, ih _ hlt _ rfl⟩

namespace Function

variable {own all : List Function}

theorem ids_subset (h : own ⊆ all) : (own.map (·.id)).eraseDups ⊆ (all.map (·.id)).eraseDups := fun _ hn =>
  List.mem_eraseDups.2 (List.map_subset _ h (List.mem_eraseDups.1 hn))

theorem distinct_mono (h : own ⊆ all) : distinct own ≤ distinct all :=
  (List.subperm_of_subset (nodup_eraseDups _) (ids_subset h)).length_le

/-- When the functions of a part are as many as all of them, each is in the part. -/
theorem exists_same_of_distinct_le (h : own ⊆ all) (hle : distinct all ≤ distinct own) {g : Function} (hg : g ∈ all) :
    ∃ g' ∈ own, g'.id = g.id := by
  have hsub := List.subperm_of_subset (nodup_eraseDups _) (ids_subset h)
  have hperm := hsub.perm_of_length_le hle
  have hid : g.id ∈ (own.map (·.id)).eraseDups :=
    hperm.mem_iff.2 (List.mem_eraseDups.2 (List.mem_map_of_mem hg))
  exact List.mem_map.1 (List.mem_eraseDups.1 hid)

end Function

namespace Forest

variable {f : Forest} {h : Holders} {i j : ScopeId} {g : Function}

/-! ## What is there -/

theorem mem_dropping {gone : List ScopeId} :
    i ∈ f.dropping h gone ↔ i < f.size ∧ i ∉ h.roots ∧ ∀ j < f.size, j ∈ gone ∨ i ∉ f.holds j := by
  simp [dropping]

theorem goneAfter_subset (f : Forest) (h : Holders) (n : Nat) : f.goneAfter h n ⊆ f.goneAfter h (n + 1) := by
  induction n with
  | zero => exact List.nil_subset _
  | succ n ih =>
    intro i hi
    obtain ⟨hsize, hroots, hheld⟩ := mem_dropping.1 hi
    exact mem_dropping.2 ⟨hsize, hroots, fun j hj => (hheld j hj).imp_left (ih ·)⟩

theorem mem_present : i ∈ f.present h ↔ i < f.size ∧ i ∉ f.goneAfter h f.size := by
  simp [present]

theorem present_of_root (hi : i ∈ h.roots) (hsize : i < f.size) : i ∈ f.present h := by
  refine mem_present.2 ⟨hsize, fun hgone => ?_⟩
  cases hn : f.size with
  | zero => exact absurd (hn ▸ hsize) (Nat.not_lt_zero i)
  | succ n =>
    rw [hn] at hgone
    exact (mem_dropping.1 hgone).2.1 hi

/-- What is held by a scope that is there is there. -/
theorem present_of_holds (hj : j ∈ f.present h) (hi : i ∈ f.holds j) (hsize : i < f.size) : i ∈ f.present h := by
  obtain ⟨hjsize, hjgone⟩ := mem_present.1 hj
  refine mem_present.2 ⟨hsize, fun hgone => ?_⟩
  cases hn : f.size with
  | zero => exact absurd (hn ▸ hsize) (Nat.not_lt_zero i)
  | succ n =>
    rw [hn] at hgone hjgone
    rcases (mem_dropping.1 hgone).2.2 j hjsize with hjn | hnot
    · exact hjgone (goneAfter_subset f h n hjn)
    · exact hnot hi

theorem mem_functions {x : String} (hg : (f.bindings i).get? x = some (.function g)) : g ∈ f.functions i :=
  List.mem_flatMap.2 ⟨_, Dictionary.mem_values_of_get? hg, List.mem_singleton_self g⟩

theorem holds_of_parent (hi : f.parent? i = some j) : j ∈ f.holds i := by
  unfold holds
  rw [hi]
  exact List.mem_append_left _ (List.mem_singleton_self j)

theorem holds_of_function (hg : g ∈ f.functions i) : g.closure ∈ f.holds i :=
  List.mem_append_right _ (List.mem_map_of_mem hg)

/-- Each scope on the way outwards is there, and all but the first are held by another one on it. -/
theorem Rooted.present_chain (hf : f.Rooted) (hi : i ∈ f.present h) :
    ∀ j ∈ f.chain i, j ∈ f.present h ∧ (j ≠ i → ∃ k ∈ f.present h, f.parent? k = some j) := by
  induction i using Nat.strong_induction_on with
  | _ i ih =>
    intro j hj
    rcases Nat.eq_zero_or_pos i with rfl | hpos
    · rw [show f.chain 0 = [0] from hf.global] at hj
      rw [List.mem_singleton.1 hj]
      exact ⟨hi, fun hne => absurd rfl hne⟩
    · obtain ⟨p, hp, hchain⟩ := hf.inside i hpos (mem_present.1 hi).1
      have hpsize : p < f.size := hp.trans (mem_present.1 hi).1
      have hparent : f.parent? i = some p := (parent?_of_chain hchain).trans (hf.chain_spec hpsize).2.1
      have hpresent := present_of_holds hi (holds_of_parent hparent) hpsize
      rw [hchain] at hj
      rcases List.mem_cons.1 hj with rfl | hj
      · exact ⟨hi, fun hne => absurd rfl hne⟩
      · obtain ⟨hjpresent, hjheld⟩ := ih p hp hpresent j hj
        refine ⟨hjpresent, fun _ => ?_⟩
        by_cases hjp : j = p
        · exact ⟨i, hi, hjp ▸ hparent⟩
        · exact hjheld hjp

/-- Whatever one comes to is there, if it exists. -/
theorem Reaches.present (hf : f.Rooted) (hr : f.Reaches h.roots i) (hi : i < f.size) : i ∈ f.present h := by
  have hclosed : f.Closed fun i => i < f.size → i ∈ f.present h := by
    refine ⟨fun i hi j hj hjsize => ?_, fun i x g hi hg hgsize => ?_⟩
    · have hisize : i < f.size := by
        by_contra hsize
        rw [chain_of_size_le (Nat.not_lt.1 hsize)] at hj
        cases hj
      exact (hf.present_chain (hi hisize) j hj).1
    · have hisize : i < f.size := by
        by_contra hsize
        rw [bindings_of_size_le (Nat.not_lt.1 hsize)] at hg
        cases hg
      exact present_of_holds (hi hisize) (holds_of_function (mem_functions hg)) hgsize
  exact hr.of_closed hclosed (fun i hi hsize => present_of_root hi hsize) hi

/-! ## What counts tell -/

theorem add_le_sum_map {α : Type} (n : α → Nat) {l : List α} {a b : α} (ha : a ∈ l) (hb : b ∈ l) (hab : a ≠ b) :
    n a + n b ≤ (l.map n).sum := by
  obtain ⟨s, t, rfl⟩ := List.append_of_mem ha
  have hb' : b ∈ s ++ t := by
    rcases List.mem_append.1 hb with hb | hb
    · exact List.mem_append_left _ hb
    · exact List.mem_append_right _ ((List.mem_cons.1 hb).resolve_left hab.symm)
  have hle : n b ≤ ((s ++ t).map n).sum := List.single_le_sum (by simp) _ (List.mem_map_of_mem hb')
  simp only [List.map_append, List.map_cons, List.sum_append, List.sum_cons] at hle ⊢
  omega

/-- A function is held from outside and in the scopes that are there. -/
theorem functionCount_eq (f : Forest) (h : Holders) (g : Function) :
    f.functionCount h g = h.functions.countP (·.id == g.id) +
      ((f.present h).map fun k => (f.functions k).countP (·.id == g.id)).sum := by
  unfold functionCount heldFunctions
  rw [List.countP_append, List.countP_flatMap]
  rfl

/-- A scope that is in hand and may be released is not held from elsewhere. -/
structure Alone (f : Forest) (h : Holders) (i : ScopeId) : Prop where
  scopes : i ∉ h.scopes
  values : ∀ g ∈ h.functions, g.closure ≠ i
  inside : ∀ k ∈ f.present { h with scopes := i :: h.scopes }, f.parent? k ≠ some i
  functions : ∀ k ∈ f.present { h with scopes := i :: h.scopes }, k ≠ i → ∀ g ∈ f.functions k, g.closure ≠ i

theorem closures_sublist (f : Forest) (i : ScopeId) : (f.closures i).Sublist (f.functions i) := by
  unfold closures functions
  induction (f.bindings i).values with
  | nil => exact .slnil
  | cons v vs ih =>
    rw [List.flatMap_cons, List.filterMap_cons]
    cases v with
    | function g =>
      by_cases hg : g.closure = i
      · simp only [hg, beq_self_eq_true, ↓reduceIte]
        exact ih.cons_cons g
      · simp only [beq_eq_false_iff_ne.2 hg, Bool.false_eq_true, ↓reduceIte]
        exact ih.cons g
    | _ => exact ih.trans (List.sublist_append_right ..)

theorem closure_of_mem_closures (hg : g ∈ f.closures i) : g.closure = i := by
  obtain ⟨v, -, hv⟩ := List.mem_filterMap.1 hg
  cases v with
  | function g' =>
    simp only [Option.ite_none_right_eq_some, beq_iff_eq, Option.some.injEq] at hv
    exact hv.2 ▸ hv.1
  | _ => cases hv

theorem alone_of_isUnreachable (hi : i < f.size) (hu : f.isUnreachable { h with scopes := i :: h.scopes } i = true) :
    f.Alone h i := by
  let H : Holders := { h with scopes := i :: h.scopes }
  have hpresent : i ∈ f.present H := present_of_root (List.mem_append_left _ List.mem_cons_self) hi
  have hown : f.closures i ⊆ (f.heldFunctions H).filter (·.closure == i) := fun g hg =>
    List.mem_filter.2 ⟨List.mem_append_right _ (List.mem_flatMap.2 ⟨i, hpresent, (f.closures_sublist i).subset hg⟩),
      beq_iff_eq.2 (closure_of_mem_closures hg)⟩
  simp only [isUnreachable, Bool.and_eq_true, List.all_eq_true, beq_iff_eq] at hu
  obtain ⟨hfunctions, hscope⟩ := hu
  -- the scope itself and its functions make up the whole count, so nothing is left for others
  have hmono := Function.distinct_mono hown
  have hcount : H.scopes.count i = h.scopes.count i + 1 := List.count_cons_self
  have hscope' : H.scopes.count i + (f.present H).countP (f.parent? · == some i) +
      Function.distinct ((f.heldFunctions H).filter (·.closure == i)) = 1 + Function.distinct (f.closures i) := hscope
  have hscopes : h.scopes.count i = 0 := by omega
  have hparents : (f.present H).countP (f.parent? · == some i) = 0 := by omega
  have hdistinct : Function.distinct ((f.heldFunctions H).filter (·.closure == i)) ≤ Function.distinct (f.closures i) := by
    omega
  -- a function closed over the scope is one of its own, and these are held by names in it alone
  have hsame : ∀ g ∈ f.heldFunctions H, g.closure = i → ∃ g' ∈ f.closures i, g'.id = g.id := fun g hg hgi =>
    Function.exists_same_of_distinct_le hown hdistinct (List.mem_filter.2 ⟨hg, beq_iff_eq.2 hgi⟩)
  have hbound : ∀ g : Function, (f.closures i).countP (·.id == g.id) ≤ (f.functions i).countP (·.id == g.id) :=
    fun g => (f.closures_sublist i).countP_le
  refine ⟨List.count_eq_zero.1 hscopes, fun g hg hgi => ?_, fun k hk hkp => ?_, fun k hk hki g hg hgi => ?_⟩
  · obtain ⟨g', hg', hid⟩ := hsame g (List.mem_append_left _ hg) hgi
    have hone : 0 < H.functions.countP (·.id == g'.id) := List.countP_pos_iff.2 ⟨g, hg, beq_iff_eq.2 hid.symm⟩
    have hall := List.single_le_sum (by simp) _
      (List.mem_map_of_mem (f := fun k => (f.functions k).countP (·.id == g'.id)) hpresent)
    have heq := (functionCount_eq f H g').symm.trans (hfunctions g' hg')
    have := hbound g'
    omega
  · exact absurd (List.countP_eq_zero.1 hparents k hk) (by simp [hkp])
  · have hheld : g ∈ f.heldFunctions H := List.mem_append_right _ (List.mem_flatMap.2 ⟨k, hk, hg⟩)
    obtain ⟨g', hg', hid⟩ := hsame g hheld hgi
    have hone : 0 < (f.functions k).countP (·.id == g'.id) := List.countP_pos_iff.2 ⟨g, hg, beq_iff_eq.2 hid.symm⟩
    have hall := add_le_sum_map (fun k => (f.functions k).countP (·.id == g'.id)) hpresent hk hki.symm
    have heq := (functionCount_eq f H g').symm.trans (hfunctions g' hg')
    have := hbound g'
    omega

/-- A scope that is released loses its bindings, and no other one changes anything. -/
theorem release_cases (f : Forest) (h : Holders) (i : ScopeId) :
    f.release h i = (.noClosures, f) ∨ f.release h i = (.retained, f) ∨
      f.release h i = (.released, f.clear i) ∧ f.isUnreachable h i = true := by
  unfold release
  split
  · exact .inl rfl
  · split
    · rename_i hu
      exact .inr (.inr ⟨rfl, hu⟩)
    · exact .inr (.inl rfl)

/-- Nobody comes to a scope that is held by none but itself. -/
theorem Alone.not_reaches (ha : f.Alone h i) (hf : f.Rooted) : ¬ f.Reaches h.roots i := by
  let H : Holders := { h with scopes := i :: h.scopes }
  have hroots : ∀ k ∈ h.roots, k ∈ H.roots := fun k hk => List.mem_cons_of_mem i hk
  have hpresent : ∀ k, f.Reaches h.roots k → k < f.size → k ∈ f.present H := fun k hk hsize =>
    (hk.of_closed (closed_reaches f H.roots) fun j hj => .root (hroots j hj)).present hf hsize
  have hne : ∀ k, f.Reaches h.roots k → k ≠ i := by
    intro k hk
    induction hk with
    | root hk =>
      rintro rfl
      rcases List.mem_append.1 hk with hk | hk
      · exact ha.scopes hk
      · obtain ⟨g, hg, hgi⟩ := List.mem_map.1 hk
        exact ha.values g hg hgi
    | @outer k j hk hj ih =>
      rintro rfl
      have hsize : k < f.size := by
        by_contra hsize
        rw [chain_of_size_le (Nat.not_lt.1 hsize)] at hj
        cases hj
      obtain ⟨m, hm, hparent⟩ := (hf.present_chain (hpresent k hk hsize) _ hj).2 ih.symm
      exact ha.inside m hm hparent
    | @closure k x g hk hg ih =>
      have hsize : k < f.size := by
        by_contra hsize
        rw [bindings_of_size_le (Nat.not_lt.1 hsize)] at hg
        cases hg
      exact ha.functions k (hpresent k hk hsize) ih g (mem_functions hg)
  exact fun hr => hne i hr rfl

end Forest

end StrategyScript
