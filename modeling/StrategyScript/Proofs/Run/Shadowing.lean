/-
The check for hidden built-ins misses nothing. The names that a program declares are gathered from its
text; the names that are bound while it runs in a new session are among them, or are the built-ins' own
in the global scope. So if no declared name is that of a built-in, each built-in has its one binding
everywhere, and nothing but an assignment can put another value there.

What a task declares is gathered in the same way, and the parts of a task declare no more than it
does. A call is the exception: it declares what its function does, and that the functions in a session
declare no more than the program is what the discipline keeps up.
-/
import StrategyScript.Proofs.Run.Rooted

namespace StrategyScript

open Session (globalScope)

/-! ## What tasks declare -/

def Task.declared : Task → List String
  | .execute stmt => stmt.declared
  | .executeAll stmts => Stmt.declaredAll stmts
  | .loop _ _ body => body.declared
  | .call f _ _ => Stmt.declaredAll f.decl.body
  | .evaluate _ | .evaluateAll _ => []

/-- A call may declare something of its own. -/
def Task.DeclaresWithin (task : Task) (names : List String) : Prop :=
  task.declared ⊆ names ∨ ∃ f args line, task = .call f args line

/-- All of these parts declare no more than these names, but for calls. -/
def DeclareWithin (names : List String) (parts : List (Task × Session)) : Prop :=
  ∀ p ∈ parts, p.1.DeclaresWithin names

theorem LoopStart.declared_toStmt (start : LoopStart) : start.toStmt.declared = start.declared := by
  cases start <;> rfl

section

variable {n : Nat} {names : List String} {s : Session}

theorem declares_evaluate (e : Expr) : (Task.evaluate e).DeclaresWithin names := .inl (List.nil_subset _)

theorem declares_evaluateAll (es : List Expr) : (Task.evaluateAll es).DeclaresWithin names := .inl (List.nil_subset _)

theorem declares_call (f : Function) (args : List Value) (line : Nat) : (Task.call f args line).DeclaresWithin names :=
  .inr ⟨f, args, line, rfl⟩

namespace DeclareWithin

theorem nil : DeclareWithin names [] := nofun

theorem cons {task : Task} {parts : List (Task × Session)} (h : task.DeclaresWithin names)
    (hparts : DeclareWithin names parts) : DeclareWithin names ((task, s) :: parts) :=
  List.forall_mem_cons.2 ⟨h, hparts⟩

theorem single {task : Task} (h : task.DeclaresWithin names) : DeclareWithin names [(task, s)] := cons h nil

theorem next {α : Type} {o : Outcome α} {follows : α → Session → List (Task × Session)}
    (h : ∀ a t, DeclareWithin names (follows a t)) : DeclareWithin names (o.next follows) := by
  intro p hp
  obtain ⟨a, t, -, hp⟩ := Outcome.mem_next hp
  exact h a t p hp

end DeclareWithin

open DeclareWithin

/-- Expressions are made of expressions and calls. -/
theorem Expr.parts_declareWithin (e : Expr) : DeclareWithin names (e.parts n s) := by
  cases e with
  | number _ _ | string _ _ | boolean _ _ | identifier _ _ => exact nil
  | assign x value p | unary op operand p => exact single (declares_evaluate _)
  | binary op left right p =>
    refine cons (declares_evaluate _) (next fun l t => ?_)
    split
    · exact single (declares_evaluate _)
    · exact nil
  | call callee args p =>
    refine next fun f t => cons (declares_evaluateAll _) (next fun vs u => ?_)
    split
    · exact single (declares_call ..)
    · exact nil
  | index target i p => exact cons (declares_evaluate _) (next fun v t => single (declares_evaluate _))

theorem Stmt.parts_declareWithin (stmt : Stmt) : DeclareWithin stmt.declared (stmt.parts n s) := by
  cases stmt with
  | function name params body => exact nil
  | var name value | ret value line =>
    cases value with
    | none => exact nil
    | some e => exact single (declares_evaluate _)
  | expr value => exact single (declares_evaluate _)
  | branch c thenBranch elseBranch =>
    refine cons (declares_evaluate _) (next fun v t => ?_)
    cases elseBranch with
    | none =>
      split
      · exact single (.inl (List.Subset.refl _))
      · exact nil
    | some e =>
      rw [Stmt.declared]
      split
      · exact single (.inl (List.subset_append_left _ _))
      · exact single (.inl (List.subset_append_right _ _))
  | whileLoop c body => exact single (.inl (List.Subset.refl _))
  | forLoop start c increment body =>
    cases start with
    | none => exact single (.inl (List.Subset.refl _))
    | some start =>
      rw [Stmt.declared]
      refine cons (.inl ?_) (next fun v t => single (.inl (List.subset_append_right _ _)))
      rw [Task.declared, start.declared_toStmt]
      exact List.subset_append_left _ _
  | trade action args line => exact single (declares_evaluateAll _)
  | block body => exact single (.inl (List.Subset.refl _))

theorem Stmt.roundParts_declareWithin (c increment : Option Expr) (body : Stmt) :
    DeclareWithin body.declared (Stmt.roundParts n c increment body s) := by
  have hloop : (Task.loop c increment body).DeclaresWithin body.declared := .inl (List.Subset.refl _)
  refine next fun _ t => cons (.inl (List.Subset.refl _)) (next fun flow u => ?_)
  cases flow with
  | returned v line => exact nil
  | normal =>
    cases increment with
    | none => exact single hloop
    | some i => exact cons (declares_evaluate _) (next fun v w => single hloop)

theorem Task.parts_declareWithin (task : Task) : DeclareWithin task.declared (task.parts n s) := by
  cases task with
  | evaluate e => exact e.parts_declareWithin
  | evaluateAll es =>
    cases es with
    | nil => exact nil
    | cons e es => exact cons (declares_evaluate _) (next fun v t => single (declares_evaluateAll _))
  | call f args line => exact next fun _ t => single (.inl (List.Subset.refl _))
  | execute stmt => exact next fun _ t => stmt.parts_declareWithin
  | executeAll stmts =>
    cases stmts with
    | nil => exact nil
    | cons stmt stmts =>
      rw [Task.declared, Stmt.declaredAll]
      refine cons (.inl (List.subset_append_left _ _)) (next fun flow t => ?_)
      cases flow with
      | returned v line => exact nil
      | normal => exact single (.inl (List.subset_append_right _ _))
  | loop c increment body =>
    cases c with
    | none => exact Stmt.roundParts_declareWithin none increment body
    | some c =>
      refine cons (declares_evaluate _) (next fun v t => ?_)
      split
      · exact Stmt.roundParts_declareWithin (some c) increment body
      · exact nil

end

/-! ## What is bound -/

/-- The function declares no more than these names. -/
def Function.DeclaresWithin (f : Function) (names : List String) : Prop :=
  f.decl.params ⊆ names ∧ Stmt.declaredAll f.decl.body ⊆ names

theorem Function.declaresWithin_of_declared {name : String} {params : List String} {body : List Stmt}
    {names : List String} (h : (Stmt.function name params body).declared ⊆ names) (id : Nat) (closure : ScopeId) :
    Function.DeclaresWithin ⟨id, ⟨name, params, body⟩, closure⟩ names :=
  List.append_subset.1 (List.cons_subset.1 h).2

/-- A declared name, or that of a built-in in the global scope. -/
def Program.MayBind (p : Program) (i : ScopeId) (x : String) : Prop :=
  x ∈ p.declared ∨ i = globalScope ∧ ∃ b : Builtin, x = b.name

theorem Task.declared_subset_of_part {n : Nat} {task task' : Task} {s s' : Session} {names : List String}
    (hm : task.declared ⊆ names) (h : (task', s') ∈ task.parts n s)
    (hsuits : task'.Suits fun f => f.DeclaresWithin names) : task'.declared ⊆ names := by
  rcases task.parts_declareWithin _ h with hsub | ⟨f, args, line, rfl⟩
  · exact List.Subset.trans hsub hm
  · exact hsuits.1.2

/-- Whatever is bound is declared in the program or built in. -/
def declaring (p : Program) : Discipline where
  Good s := ∀ i x, s.scopes.Binds i x → p.MayBind i x
  Fits _ f := f.DeclaresWithin p.declared
  Admits m := m.task.declared ⊆ p.declared
  admits_part hm h _ hsuits := Task.declared_subset_of_part hm h hsuits
  fits_grows _ hf := hf
  fits_new hm _ := Function.declaresWithin_of_declared hm ..
  counted h := h
  numbered h := h
  traded h := h
  assigned _ h hr _ := by
    intro i x hx
    rcases (Forest.binds_define ..).1 hx with ⟨rfl, -, rfl⟩ | hx
    · exact h _ _ (Forest.binds_of_resolve hr)
    · exact h i x hx
  defined {n stmt s₀ s x v} hm h hx _ := by
    intro i y hy
    rcases (Forest.binds_define ..).1 hy with ⟨-, -, rfl⟩ | hy
    · exact .inl (hm (stmt.declaredHere_subset hx))
    · exact h i y hy
  entered h i x hx := by
    rcases Forest.binds_addChild.1 hx with ⟨-, hx⟩ | hx
    · cases hx
    · exact h i x hx
  called h hf _ i x hx := by
    rcases Forest.binds_addChild.1 hx with ⟨-, hx⟩ | hx
    · rcases (Dictionary.contains_bindParameters ..).1 hx with hx | hx
      · exact .inl (hf.1 hx)
      · cases hx
    · exact h i x hx
  left _ ht _ := ht

theorem Forest.size_defineBuiltins (f : Forest) (i : ScopeId) : (f.defineBuiltins i).size = f.size := by
  unfold defineBuiltins
  generalize Builtin.all = bs
  induction bs generalizing f with
  | nil => rfl
  | cons b bs ih => exact (ih _).trans (size_define ..)

/-- In a new session there is one scope, with the built-ins. -/
theorem Session.mayBind_new (c : Limits) (p : Program) {i : ScopeId} {x : String} (h : (new c).scopes.Binds i x) :
    p.MayBind i x := by
  have hi : i < 1 := h.lt_size.trans_eq (Forest.size_defineBuiltins ..)
  obtain ⟨v, hv⟩ := Option.isSome_iff_exists.1 h
  rcases Forest.get?_defineBuiltins hv with ⟨b, hb, -⟩ | hv
  · exact .inr ⟨Nat.lt_one_iff.1 hi, b, hb⟩
  · obtain rfl := Nat.lt_one_iff.1 hi
    cases hv

section

variable (c : Limits) (p : Program) (fuel : Nat) (market : Market)

theorem declaring_start : (declaring p).Right ((Session.new c).start fuel p market) :=
  ⟨List.Subset.refl _, ⟨fun _ _ => Session.mayBind_new c p, Forest.holds_builtins _ _⟩, trivial⟩

end

/-! ## What is assigned -/

section

variable {p : Program} {b : Builtin}

theorem Program.not_declared_of_shadowedBuiltins (h : p.shadowedBuiltins = []) (b : Builtin) : b.name ∉ p.declared := by
  intro hb
  have hmem : b.name ∈ p.shadowedBuiltins := List.mem_mergeSort.2
    (List.mem_filter.2 ⟨List.mem_map.2 ⟨b, b.mem_all, rfl⟩, List.contains_iff_mem.2 hb⟩)
  rw [h] at hmem
  cases hmem

/-- Among these moments none assigns to the name. -/
def Unassigned (ms : List Moment) (x : String) : Prop := ∀ m ∈ ms, ∀ e pos, m.task ≠ .evaluate (.assign x e pos)

/-- What the global scope binds to the name. -/
structure Session.GlobalIs (x : String) (value : Option Value) (s : Session) : Prop where
  size : globalScope < s.scopes.size
  value : (s.scopes.bindings globalScope).get? x = value

theorem Session.GlobalIs.binding {s : Session} {x y : String} {value : Option Value} (h : s.GlobalIs x value)
    (hne : x ≠ y) (i : ScopeId) (v : Value) : (s.binding i y v).GlobalIs x value where
  size := h.size.trans_eq (Forest.size_define ..).symm
  value := (Forest.get?_define_of_ne _ _ v hne _).trans h.value

theorem Session.GlobalIs.enter {s : Session} {x : String} {value : Option Value} (h : s.GlobalIs x value)
    (parent : ScopeId) (bindings : Dictionary Value) (depth : Nat) :
    (s.enter parent bindings depth).GlobalIs x value where
  size := h.size.trans_le (Forest.extends_addChild ..).size
  value := by
    rw [Session.enter, Forest.bindings_addChild, if_neg h.size.ne]
    exact h.value

/-- The built-in's name keeps its global value as long as it is neither declared nor assigned to. -/
def unchanging (hp : b.name ∉ p.declared) (m₀ : Moment) (hm₀ : Unassigned m₀.moments b.name) (value : Option Value) :
    Discipline where
  Good := Session.GlobalIs b.name value
  Fits _ f := f.DeclaresWithin p.declared
  Admits m := m.task.declared ⊆ p.declared ∧ m ∈ m₀.moments
  admits_part hm h _ hsuits := ⟨Task.declared_subset_of_part hm.1 h hsuits, Task.mem_moments_part hm.2 h⟩
  fits_grows _ hf := hf
  fits_new hm _ := Function.declaresWithin_of_declared hm.1 ..
  counted h := ⟨h.size, h.value⟩
  numbered h := ⟨h.size, h.value⟩
  traded h := ⟨h.size, h.value⟩
  assigned {n x e pos s₀ s owner v} hm h _ _ := by
    refine h.binding ?_ owner v
    rintro rfl
    exact hm₀ _ hm.2 e pos rfl
  defined {n stmt s₀ s x v} hm h hx _ := by
    refine h.binding ?_ s.current v
    rintro rfl
    exact hp (hm.1 (stmt.declaredHere_subset hx))
  entered h := h.enter ..
  called h _ _ := h.enter ..
  left _ ht _ := ⟨ht.size, ht.value⟩

/-- Where the global value of a built-in's name has changed, the name has been assigned to. -/
theorem assigned_of_changed (hb : b.name ∉ p.declared) {m : Moment} (hm : (declaring p).Right m)
    (hsize : globalScope < m.session.scopes.size) {u : Session} (hu : u ∈ m.trace) :
    (u.scopes.bindings globalScope).get? b.name = (m.session.scopes.bindings globalScope).get? b.name ∨
      ∃ m' ∈ m.moments, ∃ e pos, m'.task = .evaluate (.assign b.name e pos) := by
  by_cases hm₀ : Unassigned m.moments b.name
  · have hright : (unchanging hb m hm₀ ((m.session.scopes.bindings globalScope).get? b.name)).Right m :=
      ⟨⟨hm.admits, Task.mem_moments_self ..⟩, ⟨⟨hsize, rfl⟩, hm.sound.holds⟩, hm.suits⟩
    exact .inl (hright.trace u hu).good.value
  · unfold Unassigned at hm₀
    push Not at hm₀
    exact .inr hm₀

end

namespace Session

/-- In the course of the run of a program in a new session only declared names and built-ins are bound.
If none of the declared names is that of a built-in, the built-ins' names mean their global bindings in
every scope, and whenever the value there has changed, the name has been assigned to. -/
theorem shadowing_check_complete (c : Limits) (p : Program) (fuel : Nat) (market : Market) :
    (∀ u ∈ new c :: ((new c).start fuel p market).trace,
      (∀ i x, i ≠ globalScope → u.scopes.Binds i x → x ∈ p.declared) ∧
        ∀ x, u.scopes.Binds globalScope x → x ∈ p.declared ∨ ∃ b : Builtin, x = b.name) ∧
    (p.shadowedBuiltins = [] → ∀ b : Builtin,
      (∀ u ∈ new c :: ((new c).start fuel p market).trace, ∀ i, i < u.scopes.size →
        u.scopes.resolve i b.name = some globalScope) ∧
      ∀ m ∈ ((new c).start fuel p market).moments, ∀ u ∈ m.trace,
        (u.scopes.bindings globalScope).get? b.name = (m.session.scopes.bindings globalScope).get? b.name ∨
          ∃ m' ∈ m.moments, ∃ e pos, m'.task = .evaluate (.assign b.name e pos)) := by
  have hdeclaring := declaring_start c p fuel market
  have hbinds : ∀ u ∈ new c :: ((new c).start fuel p market).trace, ∀ i x, u.scopes.Binds i x → p.MayBind i x := by
    intro u hu
    rcases List.mem_cons.1 hu with rfl | hu
    · exact fun i x => mayBind_new c p
    · exact (hdeclaring.trace u hu).good
  have hrooted := (rooted_lasts c).start (rooted_lasts c).sound_new fuel p market
  refine ⟨fun u hu => ⟨fun i x hi hx => ?_, fun x hx => ?_⟩, fun hshadowed b => ⟨fun u hu i hi => ?_,
    fun m hm u hu => ?_⟩⟩
  · exact (hbinds u hu i x hx).resolve_right fun h => hi h.1
  · exact (hbinds u hu _ x hx).imp_right And.right
  · have hsound := ((rooted_lasts c).course (.mk .new fuel p market)).1 u hu
    cases hresolve : u.scopes.resolve i b.name with
    | none => exact absurd hresolve (hsound.good.scopes.resolve_of_global hi (hsound.good.builtins b))
    | some j =>
      rcases hbinds u hu j b.name (Forest.binds_of_resolve hresolve) with hdeclared | ⟨rfl, -⟩
      · exact absurd hdeclared (Program.not_declared_of_shadowedBuiltins hshadowed b)
      · rfl
  · have hsize := (hrooted.moments m hm).sound.good.scopes.size_pos
    exact assigned_of_changed (Program.not_declared_of_shadowedBuiltins hshadowed b) (hdeclaring.moments m hm) hsize hu

/-- A function that assigns its parameter to `abs`: nothing is hidden, and the assignment is found among
the moments of the run. -/
theorem assigned_builtin_is_found :
    let p : Program := [.function "f" ["x"] [.expr (.assign "abs" (.identifier "x" ⟨2, 9⟩) ⟨2, 5⟩)],
      .expr (.call "f" [.boolean true ⟨4, 3⟩] ⟨4, 1⟩)]
    let run := (new {}).start 12 p .empty
    p.shadowedBuiltins = [] ∧ run.trace.any (fun u => 1 < u.scopes.size &&
        ((u.scopes.bindings globalScope).get? "abs").map (·.kind) == some .boolean) = true ∧
      (∀ u ∈ new {} :: run.trace, ∀ i, i < u.scopes.size → u.scopes.resolve i "abs" = some globalScope) ∧
      ∃ m ∈ run.moments, ∃ e pos, m.task = .evaluate (.assign "abs" e pos) := by
  intro p run
  have hshadowed : p.shadowedBuiltins = [] := by decide +kernel
  have hchanged : run.trace.any (fun u => 1 < u.scopes.size &&
      ((u.scopes.bindings globalScope).get? "abs").map (·.kind) == some .boolean) = true := by decide +kernel
  have hbuiltin : ((run.session.scopes.bindings globalScope).get? "abs").map (·.kind) = some .builtin := by
    decide +kernel
  obtain ⟨hresolve, hfound⟩ := (shadowing_check_complete {} p 12 .empty).2 hshadowed .abs
  refine ⟨hshadowed, hchanged, hresolve, ?_⟩
  obtain ⟨u, hu, hkind⟩ := List.any_eq_true.1 hchanged
  refine (hfound run (Task.mem_moments_self ..) u hu).resolve_left fun hsame => ?_
  have hboolean := eq_of_beq (Bool.and_eq_true_iff.1 hkind).2
  exact nomatch hboolean.symm.trans ((congrArg (Option.map (·.kind)) hsame).trans hbuiltin)

end Session

end StrategyScript
