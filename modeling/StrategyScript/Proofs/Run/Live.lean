/-
An interpreter that releases scopes, step by step. At each moment there is a session, and there is what
the computations under way hold; from both together one sees which scopes somebody can still come to. No
step leads back to a scope that was out of reach before, and none takes a name from a scope that is in
reach after it; so it is with any number of steps, also with those of several runs.
-/
import StrategyScript.Run.Script
import StrategyScript.Proofs.Run.Growth
import StrategyScript.Proofs.Scope.Count

namespace StrategyScript

open Session (globalScope)

/-! ## Functions in values -/

namespace Value

theorem functionsOfItems_eq_nil {vs : List Value} (h : ∀ v ∈ vs, v.functions = []) : functionsOfItems vs = [] := by
  induction vs with
  | nil => rfl
  | cons v vs ih =>
    rw [functionsOfItems, h v List.mem_cons_self, ih fun w hw => h w (List.mem_cons_of_mem v hw), List.append_nil]

theorem functionsOfFields_eq_nil {bound : Option String} {fields : Dictionary Value bound}
    (h : ∀ e ∈ fields, e.2.functions = []) : functionsOfFields fields = [] := by
  induction fields with
  | nil => rfl
  | cons k v hk fields ih =>
    obtain ⟨hv, hfields⟩ := Dictionary.forall_mem_cons.1 h
    rw [functionsOfFields, hv, ih hfields, List.append_nil]

theorem IsData.functions {v : Value} (h : v.IsData) : v.functions = [] := by
  cases h with
  | boolean b | number x => rfl
  | list xs =>
    refine functionsOfItems_eq_nil fun v hv => ?_
    obtain ⟨x, -, rfl⟩ := List.mem_map.1 hv
    rfl
  | record fields hfields =>
    refine functionsOfFields_eq_nil fun e he => ?_
    obtain ⟨x, hx⟩ := hfields e he
    rw [hx]
    rfl

theorem Simple.eq_of_mem_functions {v : Value} {g : Function} (h : v.Simple) (hg : g ∈ v.functions) :
    v = .function g := by
  cases h with
  | plain _ hk => cases v <;> first | cases hg; done | simp [Value.kind] at hk
  | data _ hd => rw [hd.functions] at hg; cases hg
  | builtin b => cases hg
  | function f => rw [List.mem_singleton.1 hg]

theorem Fits.mem_functions {F : Function → Prop} {v : Value} {g : Function} (h : v.Fits F) (hg : g ∈ v.functions) : F g :=
  h.function g (h.simple.eq_of_mem_functions hg)

end Value

/-! ## Letting a scope go -/

/-- A scope that is let go keeps its bindings, or it has passed the test for release. -/
theorem Session.letGo_cases (s : Session) (h : Held) (i : ScopeId) :
    (∃ retained, s.letGo h i = { s with retained }) ∨
      s.letGo h i = { s with scopes := s.scopes.clear i } ∧
        s.scopes.isUnreachable { s.holders h with scopes := i :: (s.holders h).scopes } i = true := by
  unfold letGo
  rcases s.scopes.release_cases { s.holders h with scopes := i :: (s.holders h).scopes } i with heq | heq | ⟨heq, hu⟩
  · simp only [heq]
    exact .inl ⟨s.retained, rfl⟩
  · simp only [heq]
    exact .inl ⟨s.retained ++ [i], rfl⟩
  · simp only [heq]
    exact .inr ⟨trivial, hu⟩

/-! ## Steps -/

/-- An interpreter at work: its session, and what the computations under way hold. -/
structure Live where
  session : Session
  held : Held

namespace Live

def holders (l : Live) : Holders := l.session.holders l.held

/-- Somebody can still come to the scope. -/
def Reaches (l : Live) : ScopeId → Prop := l.session.scopes.Reaches l.holders.roots

/-- The value is no function, or one whose scope can be come to. -/
def Knows (l : Live) (v : Value) : Prop := v.Fits fun f => l.Reaches f.closure

/-- What happens in the course of evaluation, and between two runs. -/
inductive Step : Live → Live → Prop
  /-- Counting, logging and numbering do not concern the scopes. A run begins and ends in the global one. -/
  | other {s t : Session} {h : Held} (hs : t.scopes = s.scopes) (hc : t.current = s.current ∨ t.current = globalScope) :
      Step ⟨s, h⟩ ⟨t, h⟩
  | hold {s : Session} {h : Held} {v : Value} (hv : Knows ⟨s, h⟩ v) : Step ⟨s, h⟩ ⟨s, h.hold [v]⟩
  | drop {s : Session} {h : Held} {vs : List Value} (hvs : vs ⊆ h.values) : Step ⟨s, h⟩ ⟨s, { h with values := vs }⟩
  | bind {s : Session} {h : Held} {i : ScopeId} (x : String) {v : Value} (hi : Reaches ⟨s, h⟩ i) (hv : v ∈ h.values) :
      Step ⟨s, h⟩ ⟨s.binding i x v, h⟩
  | enter {s : Session} {h : Held} {parent : ScopeId} {bindings : Dictionary Value} (depth : Nat)
      (hp : Reaches ⟨s, h⟩ parent) (hb : ∀ x v, bindings.get? x = some v → v = .null ∨ v ∈ h.values) :
      Step ⟨s, h⟩ ⟨s.enter parent bindings depth, h.enter s.current⟩
  | back (s : Session) (h : Held) (i : ScopeId) (depth : Nat) : Step ⟨s, h.enter i⟩ ⟨{ s with current := i, depth }, h⟩
  | letGo {s : Session} (h : Held) {i : ScopeId} (hi : i < s.scopes.size) : Step ⟨s, h⟩ ⟨s.letGo h i, h⟩

def Steps : Live → Live → Prop := Relation.ReflTransGen Step

/-- What an interpreter can come to. -/
def Reachable (l : Live) : Prop := ∃ c, Steps ⟨.new c, .none⟩ l

/-! ## Scopes in reach exist -/

/-- Whatever is referred to exists. -/
structure Sound (l : Live) : Prop where
  rooted : l.session.scopes.Rooted
  current : l.session.current < l.session.scopes.size
  frames : ∀ i ∈ l.held.frames, i < l.session.scopes.size
  values : ∀ v ∈ l.held.values, v.Fits fun f => f.closure < l.session.scopes.size
  holds : l.session.scopes.Holds fun f => f.closure < l.session.scopes.size

section

variable {l l' l'' : Live} {i : ScopeId} {x : String} {v : Value} {f : Function}

/-- What is to hold of all roots has to hold of these. -/
theorem forall_roots {P : ScopeId → Prop} (hc : P l.session.current) (hg : P globalScope)
    (hf : ∀ i ∈ l.held.frames, P i) (hv : ∀ v ∈ l.held.values, ∀ f ∈ v.functions, P f.closure) :
    ∀ i ∈ l.holders.roots, P i := by
  intro i hi
  rcases List.mem_append.1 hi with hi | hi
  · rcases List.mem_cons.1 hi with rfl | hi
    · exact hc
    · rcases List.mem_cons.1 hi with rfl | hi
      · exact hg
      · exact hf i hi
  · obtain ⟨f, hf, rfl⟩ := List.mem_map.1 hi
    obtain ⟨v, hmem, hfv⟩ := List.mem_flatMap.1 hf
    exact hv v hmem f hfv

theorem reaches_current (l : Live) : l.Reaches l.session.current := .root List.mem_cons_self

theorem reaches_global (l : Live) : l.Reaches globalScope := .root (List.mem_cons_of_mem _ List.mem_cons_self)

theorem reaches_frame (h : i ∈ l.held.frames) : l.Reaches i :=
  .root (List.mem_append_left _ (List.mem_cons_of_mem _ (List.mem_cons_of_mem _ h)))

theorem reaches_held (hv : v ∈ l.held.values) (hf : f ∈ v.functions) : l.Reaches f.closure :=
  .root (List.mem_append_right _ (List.mem_map_of_mem (List.mem_flatMap.2 ⟨v, hv, hf⟩)))

/-- What one can come to from all that is held. -/
theorem reaches_of_closed {P : ScopeId → Prop} (hr : l.Reaches i) (hP : l.session.scopes.Closed P)
    (hroots : ∀ i ∈ l.holders.roots, P i) : P i := hr.of_closed hP hroots

theorem Sound.closed (hl : l.Sound) : l.session.scopes.Closed (· < l.session.scopes.size) where
  chain _ hi _ hj := hl.rooted.lt_size_of_mem_chain hi hj
  closure i x g _ hg := (hl.holds i x _ hg).function g rfl

theorem Sound.lt_size (hl : l.Sound) (hr : l.Reaches i) : i < l.session.scopes.size :=
  reaches_of_closed (P := (· < l.session.scopes.size)) hr hl.closed (forall_roots hl.current hl.rooted.size_pos hl.frames fun v hv _ hf =>
    (hl.values v hv).mem_functions hf)

theorem Sound.knows_held (hl : l.Sound) (hv : v ∈ l.held.values) : l.Knows v :=
  ⟨(hl.values v hv).simple, fun f hf => reaches_held hv (hf ▸ List.mem_singleton_self f)⟩

theorem Sound.knows_bound (hl : l.Sound) (hi : l.Reaches i) (hv : (l.session.scopes.bindings i).get? x = some v) :
    l.Knows v := ⟨(hl.holds i x v hv).simple, fun _ hf => .closure hi (hf ▸ hv)⟩

theorem Knows.fits (h : l.Knows v) (hl : l.Sound) : v.Fits fun f => f.closure < l.session.scopes.size :=
  h.mono fun _ => hl.lt_size

theorem sound_new (c : Limits) : Sound ⟨.new c, .none⟩ where
  rooted := Forest.rooted_defineBuiltins Forest.rooted_global _
  current := (Forest.rooted_defineBuiltins Forest.rooted_global _).size_pos
  frames := nofun
  values := nofun
  holds := Forest.holds_builtins _ _

/-! ## What one step does -/

theorem Step.size_le (h : Step l l') : l.session.scopes.size ≤ l'.session.scopes.size := by
  cases h with
  | other hs _ => exact hs ▸ le_rfl
  | hold _ | drop _ | back _ _ _ _ => exact le_rfl
  | bind x _ _ => exact (Forest.size_define ..).ge
  | enter depth _ _ => exact (Forest.extends_addChild ..).size
  | @letGo s h i _ =>
    rcases s.letGo_cases h i with ⟨retained, heq⟩ | ⟨heq, -⟩
    · rw [heq]
    · rw [heq]
      exact (Forest.size_clear ..).ge

/-- One comes to no scope again that was out of reach, but new ones may come into reach. -/
theorem Step.reaches (h : Step l l') (hr : l'.Reaches i) : l.Reaches i ∨ l.session.scopes.size ≤ i := by
  have hold : l.session.scopes.Closed fun i => l.Reaches i ∨ l.session.scopes.size ≤ i :=
    (Forest.closed_reaches l.session.scopes l.holders.roots).or_new
  have hroots : ∀ i ∈ l.holders.roots, l.Reaches i ∨ l.session.scopes.size ≤ i := fun _ hi => .inl (.root hi)
  have hglobal : l.Reaches globalScope ∨ l.session.scopes.size ≤ globalScope := .inl l.reaches_global
  have hframes : ∀ i ∈ l.held.frames, l.Reaches i ∨ l.session.scopes.size ≤ i := fun _ hi => .inl (reaches_frame hi)
  have hvalues : ∀ v ∈ l.held.values, ∀ f ∈ v.functions,
      l.Reaches f.closure ∨ l.session.scopes.size ≤ f.closure := fun v hv f hf => .inl (reaches_held hv hf)
  cases h with
  | other hs hc =>
    refine reaches_of_closed hr (hs ▸ hold) (forall_roots ?_ hglobal hframes hvalues)
    rcases hc with hc | hc
    · exact hc ▸ .inl (reaches_current _)
    · exact hc ▸ hglobal
  | hold hv =>
    refine reaches_of_closed hr hold (forall_roots (.inl (reaches_current _)) hglobal hframes fun w hw f hf => ?_)
    rcases List.mem_cons.1 hw with rfl | hw
    · exact .inl (hv.mem_functions hf)
    · exact hvalues w hw f hf
  | drop hvs =>
    exact reaches_of_closed hr hold (forall_roots (.inl (reaches_current _)) hglobal hframes fun w hw => hvalues w (hvs hw))
  | bind x hi hv =>
    exact reaches_of_closed hr (hold.define fun g hg => hvalues _ hv g (hg ▸ List.mem_singleton_self g)) hroots
  | enter depth hp hb =>
    refine reaches_of_closed hr (hold.addChild (.inl hp) (.inr le_rfl) fun y g hg => ?_)
      (forall_roots (.inr le_rfl) hglobal (List.forall_mem_cons.2 ⟨.inl (reaches_current _), hframes⟩) hvalues)
    rcases hb y _ hg with hnull | hv
    · cases hnull
    · exact hvalues _ hv g (List.mem_singleton_self g)
  | back s h j depth =>
    exact reaches_of_closed hr hold (forall_roots (hframes j List.mem_cons_self) hglobal
      (fun k hk => hframes k (List.mem_cons_of_mem j hk)) hvalues)
  | @letGo s h j _ =>
    rcases s.letGo_cases h j with ⟨retained, heq⟩ | ⟨heq, -⟩
    · rw [heq] at hr
      exact .inl hr
    · rw [heq] at hr
      exact reaches_of_closed hr (hold.clear j) hroots

theorem Step.sound (h : Step l l') (hl : l.Sound) : l'.Sound := by
  have hsize := h.size_le
  have hgrown : ∀ f : Function, f.closure < l.session.scopes.size → f.closure < l'.session.scopes.size :=
    fun _ hf => hf.trans_le hsize
  have hframes : ∀ i ∈ l.held.frames, i < l'.session.scopes.size := fun i hi => (hl.frames i hi).trans_le hsize
  have hvalues : ∀ v ∈ l.held.values, v.Fits fun f => f.closure < l'.session.scopes.size :=
    fun v hv => (hl.values v hv).mono hgrown
  cases h with
  | @other s t h hs hc =>
    refine ⟨hs ▸ hl.rooted, ?_, hframes, hvalues, hs ▸ hl.holds⟩
    rcases hc with hc | hc
    · exact hc ▸ hl.current.trans_le hsize
    · exact hc ▸ hl.rooted.size_pos.trans_le hsize
  | hold hv => exact ⟨hl.rooted, hl.current, hl.frames, List.forall_mem_cons.2 ⟨hv.fits hl, hl.values⟩, hl.holds⟩
  | drop hvs => exact ⟨hl.rooted, hl.current, hl.frames, fun v hv => hl.values v (hvs hv), hl.holds⟩
  | bind x hi hv =>
    exact ⟨hl.rooted.define .., hl.current.trans_le hsize, hframes, hvalues, (hl.holds.mono hgrown).define (hvalues _ hv)⟩
  | enter depth hp hb =>
    refine ⟨hl.rooted.addChild (hl.lt_size hp) _, (Nat.lt_succ_self _).trans_eq (Forest.size_addChild ..).symm,
      List.forall_mem_cons.2 ⟨hl.current.trans_le hsize, hframes⟩, hvalues,
      (hl.holds.mono hgrown).addChild (fun y v hv => ?_) _⟩
    rcases hb y v hv with rfl | hv
    · exact Value.fits_plain (.inl rfl)
    · exact hvalues v hv
  | back s h i depth =>
    exact ⟨hl.rooted, hl.frames i List.mem_cons_self, fun j hj => hl.frames j (List.mem_cons_of_mem i hj), hl.values,
      hl.holds⟩
  | @letGo s h i _ =>
    rcases s.letGo_cases h i with ⟨retained, heq⟩ | ⟨heq, -⟩
    · rw [heq]
      exact ⟨hl.rooted, hl.current, hl.frames, hl.values, hl.holds⟩
    · rw [heq] at hsize hframes hvalues hgrown ⊢
      exact ⟨hl.rooted.clear i, hl.current.trans_le hsize, hframes, hvalues, (hl.holds.mono hgrown).clear i⟩

/-- A scope that is released is out of reach. -/
theorem Sound.letGo (hl : l.Sound) (hi : i < l.session.scopes.size) :
    (∃ retained, l.session.letGo l.held i = { l.session with retained }) ∨
      l.session.letGo l.held i = { l.session with scopes := l.session.scopes.clear i } ∧ ¬ l.Reaches i :=
  (l.session.letGo_cases l.held i).imp_right fun ⟨heq, hu⟩ =>
    ⟨heq, (Forest.alone_of_isUnreachable hi hu).not_reaches hl.rooted⟩

/-- A scope that is in reach after a step has all the names that it had before. -/
theorem Step.keeps (h : Step l l') (hl : l.Sound) (hr : l'.Reaches i) (hx : l.session.scopes.Binds i x) :
    l'.session.scopes.Binds i x := by
  have hreached := h.reaches hr
  cases h with
  | other hs _ => exact hs ▸ hx
  | hold _ | drop _ | back _ _ _ _ => exact hx
  | bind y _ _ => exact (Forest.extends_define ..).binds i x hx
  | enter depth _ _ => exact (Forest.extends_addChild ..).binds i x hx
  | @letGo s h j hj =>
    rcases hl.letGo hj with ⟨retained, heq⟩ | ⟨heq, hnot⟩
    · exact heq ▸ hx
    · have hij : i ≠ j := by
        rintro rfl
        exact hreached.elim hnot (Nat.not_le.2 hj)
      show (s.letGo h j).scopes.Binds i x
      rw [show s.letGo h j = _ from heq]
      unfold Forest.Binds
      rw [Forest.bindings_clear, if_neg hij]
      exact hx

/-! ## What many steps do -/

theorem Steps.trans (h : Steps l l') (h' : Steps l' l'') : Steps l l'' := Relation.ReflTransGen.trans h h'

theorem Step.steps (h : Step l l') : Steps l l' := .single h

theorem Steps.size_le (h : Steps l l') : l.session.scopes.size ≤ l'.session.scopes.size := by
  induction h with
  | refl => exact le_rfl
  | tail _ h ih => exact ih.trans h.size_le

theorem Steps.sound (h : Steps l l') (hl : l.Sound) : l'.Sound := by
  induction h with
  | refl => exact hl
  | tail _ h ih => exact h.sound ih

theorem Steps.reaches (h : Steps l l') (hi : i < l.session.scopes.size) (hr : l'.Reaches i) : l.Reaches i := by
  induction h with
  | refl => exact hr
  | tail hs h ih => exact ih ((h.reaches hr).resolve_right (Nat.not_le.2 (hi.trans_le (Steps.size_le hs))))

/-- No name is ever removed from a scope as long as somebody can come to it. -/
theorem Steps.keeps (h : Steps l l') (hl : l.Sound) (hr : l'.Reaches i) (hx : l.session.scopes.Binds i x) :
    l'.session.scopes.Binds i x := by
  induction h with
  | refl => exact hx
  | tail hs h ih =>
    have hsize := hx.lt_size.trans_le (Steps.size_le hs)
    exact h.keeps (Steps.sound hs hl) hr (ih ((h.reaches hr).resolve_right (Nat.not_le.2 hsize)))

theorem Reachable.sound (h : l.Reachable) : l.Sound := by
  obtain ⟨c, h⟩ := h
  exact h.sound (sound_new c)

theorem Reachable.steps (h : l.Reachable) (h' : Steps l l') : l'.Reachable := by
  obtain ⟨c, h⟩ := h
  exact ⟨c, h.trans h'⟩

end

end Live

end StrategyScript
