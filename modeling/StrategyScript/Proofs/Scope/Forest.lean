/-
What a forest of scopes binds after one change. A scope's bindings tell all that look-up needs, so
each operation is read through them: a new scope has its own and leaves the others alone, and a
definition touches one name of one scope.
-/
import StrategyScript.Proofs.Store.Dictionary
import StrategyScript.Run.Evaluate
import Mathlib.Tactic

namespace StrategyScript

namespace Forest

theorem bindings_push (scopes : Array Scope) (new : Scope) (i : ScopeId) :
    (Forest.mk (scopes.push new)).bindings i = if i = scopes.size then new.bindings else bindings ⟨scopes⟩ i := by
  unfold bindings scope?
  rw [Array.getElem?_push]
  by_cases h : i = scopes.size
  · rw [if_pos h, if_pos h]
    rfl
  · rw [if_neg h, if_neg h]

theorem bindings_addChild (f : Forest) (parent : ScopeId) (bindings : Dictionary Value) (i : ScopeId) :
    (f.addChild parent bindings).bindings i = if i = f.size then bindings else f.bindings i :=
  bindings_push f.scopes ⟨bindings, f.chain parent⟩ i

/-- A definition binds one name of one scope, if the scope exists. -/
theorem bindings_define (f : Forest) (i : ScopeId) (name : String) (value : Value) (j : ScopeId) :
    (f.define i name value).bindings j =
      if j = i ∧ j < f.size then (f.bindings j).insert name value else f.bindings j := by
  unfold define bindings scope? size
  rw [Array.getElem?_modify]
  by_cases hi : i = j
  · subst hi
    rw [if_pos rfl]
    by_cases hs : i < f.scopes.size
    · rw [if_pos ⟨rfl, hs⟩, Array.getElem?_eq_getElem hs]
      rfl
    · rw [if_neg fun h => hs h.2, Array.getElem?_eq_none (Nat.not_lt.1 hs)]
      rfl
  · rw [if_neg hi, if_neg fun h => hi h.1.symm]

theorem get?_define {f : Forest} {i : ScopeId} {name : String} {value : Value} {j : ScopeId} {x : String} {v : Value}
    (h : ((f.define i name value).bindings j).get? x = some v) :
    (x = name ∧ v = value) ∨ (f.bindings j).get? x = some v := by
  rw [bindings_define] at h
  split at h
  · exact Dictionary.get?_of_insert h
  · exact .inr h

/-- What a name means is what some scope binds it to. -/
theorem get?_of_lookup {f : Forest} {i : ScopeId} {x : String} {v : Value} (h : f.lookup i x = some v) :
    ∃ j, (f.bindings j).get? x = some v := by
  obtain ⟨j, -, hj⟩ := Option.bind_eq_some_iff.1 h
  exact ⟨j, hj⟩

/-- A global scope starts with the built-ins and nothing else. -/
theorem get?_defineBuiltins {f : Forest} {i j : ScopeId} {x : String} {v : Value}
    (h : ((f.defineBuiltins i).bindings j).get? x = some v) :
    (∃ b : Builtin, x = b.name ∧ v = .builtin b) ∨ (f.bindings j).get? x = some v := by
  unfold defineBuiltins at h
  generalize Builtin.all = bs at h
  induction bs generalizing f with
  | nil => exact .inr h
  | cons b bs ih =>
    rcases ih h with hb | hf
    · exact .inl hb
    · rcases get?_define hf with ⟨hx, hv⟩ | hf
      · exact .inl ⟨b, hx, hv⟩
      · exact .inr hf

end Forest

/-- A parameter is bound to an argument or to null. -/
theorem get?_bindParameters {ps : List String} {args : List Value} {d : Dictionary Value} {x : String} {v : Value}
    (h : (bindParameters ps args d).get? x = some v) : v = .null ∨ v ∈ args ∨ d.get? x = some v := by
  induction ps generalizing args d with
  | nil => exact .inr (.inr h)
  | cons p ps ih =>
    cases args with
    | nil =>
      rcases ih h with hv | hv | hd
      · exact .inl hv
      · exact absurd hv List.not_mem_nil
      · exact (Dictionary.get?_of_insert hd).imp And.right .inr
    | cons a args =>
      rcases ih h with hv | hv | hd
      · exact .inl hv
      · exact .inr (.inl (List.mem_cons_of_mem _ hv))
      · rcases Dictionary.get?_of_insert hd with ⟨-, rfl⟩ | hd
        · exact .inr (.inl List.mem_cons_self)
        · exact .inr (.inr hd)

end StrategyScript
