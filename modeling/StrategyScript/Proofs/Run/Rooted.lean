/-
The scope graph is always well formed. Functions and their scopes refer to each other in circles, but
the scopes themselves stand inside each other without any: at all times each one leads out to the
global scope, also those that only an escaped function still knows. So look-up ends, and it ends with
a meaning for every name that is bound globally, the built-ins above all.
-/
import StrategyScript.Proofs.Run.History
import StrategyScript.Proofs.Scope.Rooted

namespace StrategyScript

open Session (globalScope)

/-- The scope that a function is closed over. -/
def Value.closure? : Value → Option ScopeId
  | .function f => some f.closure
  | _ => none

theorem Value.closure?_eq_some {v : Value} {i : ScopeId} (h : v.closure? = some i) :
    ∃ f, v = .function f ∧ f.closure = i := by
  cases v <;> cases h
  exact ⟨_, rfl, rfl⟩

/-- The scopes stand inside each other, the current one among them, and the global scope binds the
built-ins. -/
structure Session.Nested (s : Session) : Prop where
  scopes : s.scopes.Rooted
  current : s.current < s.scopes.size
  builtins : ∀ b : Builtin, s.scopes.Binds globalScope b.name

section

variable {s : Session}

theorem Session.Nested.binding (h : s.Nested) (i : ScopeId) (x : String) (v : Value) : (s.binding i x v).Nested where
  scopes := h.scopes.define i x v
  current := h.current.trans_eq (Forest.size_define ..).symm
  builtins b := (Forest.extends_define ..).binds _ _ (h.builtins b)

theorem Session.Nested.enter (h : s.Nested) {parent : ScopeId} (hp : parent < s.scopes.size)
    (bindings : Dictionary Value) (depth : Nat) : (s.enter parent bindings depth).Nested where
  scopes := h.scopes.addChild hp bindings
  current := (Nat.lt_succ_self _).trans_eq (Forest.size_addChild ..).symm
  builtins b := (Forest.extends_addChild ..).binds _ _ (h.builtins b)

theorem Session.nested_new (c : Limits) : (new c).Nested where
  scopes := Forest.rooted_defineBuiltins Forest.rooted_global _
  current := (Forest.rooted_defineBuiltins Forest.rooted_global _).size_pos
  builtins := Forest.binds_defineBuiltins Nat.one_pos

end

/-- Functions, too, are closed over scopes that exist. -/
def rooted : Discipline where
  Good := Session.Nested
  Fits s f := f.closure < s.scopes.size
  Admits _ := True
  admits_part _ _ _ _ := trivial
  fits_grows hg hf := hf.trans_le hg.scopes.size
  fits_new _ h := h.current
  counted h := ⟨h.scopes, h.current, h.builtins⟩
  numbered h := ⟨h.scopes, h.current, h.builtins⟩
  traded h := ⟨h.scopes, h.current, h.builtins⟩
  assigned _ h _ _ := h.binding ..
  defined _ h _ _ := h.binding ..
  entered h := h.enter h.current ..
  called h hf _ := h.enter hf ..
  left hs ht hr := ⟨ht.scopes, hs.current.trans_le hr.scopes.size, ht.builtins⟩

theorem rooted_lasts (c : Limits) : rooted.Lasts c where
  admits _ := trivial
  new := Session.nested_new c
  prepare h := ⟨h.scopes, h.scopes.size_pos, h.builtins⟩
  fits_prepare h := h

namespace Session

/-- The parents of the scope lead to the global scope, which has none, and none of them comes twice.
Look-up from the scope goes the same way. -/
def LeadsOut (s : Session) (i : ScopeId) : Prop :=
  ∃ path, s.scopes.Climbs i path ∧ path.Nodup ∧ s.scopes.chain i = path

theorem Nested.leadsOut {s : Session} (h : s.Nested) {i : ScopeId} (hi : i < s.scopes.size) : s.LeadsOut i :=
  ⟨_, h.scopes.climbs hi, h.scopes.chain_nodup hi, rfl⟩

/-- In the course of any runs of one interpreter, the current scope and the closures of all functions
that are bound anywhere lead out, global names stay bound, and no run misses a built-in. -/
theorem scopes_lead_out {c : Limits} {past : List Session} {s : Session} (hist : History c past s) (fuel : Nat)
    (p : Program) (market : Market) :
    (∀ u ∈ past ++ s :: (s.start fuel p market).trace, u.LeadsOut u.current ∧
      ∀ i x v f, (u.scopes.bindings i).get? x = some v → v.Has f → u.LeadsOut f.closure) ∧
    (past ++ s :: (s.start fuel p market).trace).Pairwise
      (fun u v => ∀ x, u.scopes.Binds globalScope x → v.scopes.Binds globalScope x) ∧
    ∀ (b : Builtin) (line : Nat), (s.run fuel p market).1 ≠ .failure (.fault (.undefinedVariable b.name) line) := by
  obtain ⟨hsound, hordered⟩ := (rooted_lasts c).course (.mk hist fuel p market)
  refine ⟨fun u hu => ?_, hordered.imp fun h => h.binds globalScope, fun b line hrun => ?_⟩
  · obtain ⟨hnested, hholds⟩ := hsound u hu
    refine ⟨hnested.leadsOut hnested.current, fun i x v f hv hf => ?_⟩
    exact hnested.leadsOut ((hholds i x v hv).has hf)
  · have hr := (rooted_lasts c).start (hsound s (by simp)) fuel p market
    obtain ⟨u, hu, hnone⟩ := Discipline.unresolved_of_run hr hrun
    exact hu.good.scopes.resolve_of_global hu.good.current (hu.good.builtins b) hnone

/-- A function that has escaped from the scope it was declared in, and a second run that fails: the
scope of the function still leads out. -/
theorem escaped_closure_leads_out :
    let p : Program := [.function "make" [] [.function "f" [] [], .ret (some (.identifier "f" ⟨1, 30⟩)) 1],
      .var "g" (some (.call "make" [] ⟨2, 9⟩))]
    let q : Program := [.expr (.identifier "h" ⟨1, 1⟩)]
    let s := ((new {}).run 12 p .empty).2
    let t := (s.run 4 q .empty).2
    ∃ past, History {} past t ∧ ∃ f, (t.scopes.bindings globalScope).get? "g" = some (.function f) ∧
      f.closure = 1 ∧ t.LeadsOut f.closure := by
  intro p q s t
  have hfirst : ((new {}).run 12 p .empty).1 ≠ .unfinished := by decide +kernel
  have hsecond : (s.run 4 q .empty).1 ≠ .unfinished := by decide +kernel
  have hist := (History.new.run hfirst).run hsecond
  have hclosure : ((t.scopes.bindings globalScope).get? "g").bind Value.closure? = some 1 := by decide +kernel
  obtain ⟨v, hv, hescaped⟩ := Option.bind_eq_some_iff.1 hclosure
  obtain ⟨f, rfl, hf⟩ := Value.closure?_eq_some hescaped
  have hleads := (scopes_lead_out hist 0 [] .empty).1 t (List.mem_append_right _ List.mem_cons_self)
  exact ⟨_, hist, f, hv, hf, hleads.2 globalScope "g" _ f hv .self⟩

end Session

end StrategyScript
