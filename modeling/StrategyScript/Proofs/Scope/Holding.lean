/-
What the scopes of a forest hold. Lists and records are made of numbers, so a function is in a scope
only when a name is bound to it; a property of all functions in the scopes is then a property of the
values of their names, and each operation on the forest keeps it if the new values have it.
-/
import StrategyScript.Proofs.Scope.Forest
import StrategyScript.Proofs.Run.Builtin

namespace StrategyScript

namespace Value

/-- Values without a function inside. -/
inductive Simple : Value → Prop
  | plain (v : Value) (h : v.kind = .null ∨ v.kind = .boolean ∨ v.kind = .number ∨ v.kind = .string) : Simple v
  | data (v : Value) (h : v.IsData) : Simple v
  | builtin (b : Builtin) : Simple (.builtin b)
  | function (f : Function) : Simple (.function f)

/-- An item or a field of data is a number. -/
theorem IsData.at {t i v : Value} {line : Nat} (ht : t.IsData) (h : t.at i line = .ok v) :
    ∃ x, v = .number x := by
  cases ht with
  | boolean b => cases h
  | number x => cases h
  | list xs =>
    cases i with
    | number x =>
      simp only [Value.at, itemAt?] at h
      split at h
      · rename_i w hw
        cases h
        split at hw
        · obtain ⟨y, -, rfl⟩ := List.mem_map.1 (List.mem_of_getElem? hw)
          exact ⟨y, rfl⟩
        · cases hw
      · cases h
    | _ => cases h
  | record fields hfields =>
    cases i with
    | string key =>
      simp only [Value.at] at h
      split at h
      · rename_i w hw
        cases h
        exact hfields (key, _) (Dictionary.mem_of_get? hw)
      · cases h
    | _ => cases h

theorem Simple.at {t i v : Value} {line : Nat} (ht : t.Simple) (h : t.at i line = .ok v) : ∃ x, v = .number x := by
  cases ht with
  | plain _ hk => cases t <;> first | cases h | simp [Value.kind] at hk
  | data _ hd => exact hd.at h
  | builtin b => cases h
  | function f => cases h

/-- The function is the value or somewhere inside it. -/
inductive Has (f : Function) : Value → Prop
  | self : Has f (.function f)
  | item {items : List Value} {v : Value} (hv : v ∈ items) (h : Has f v) : Has f (.list items)
  | field {fields : Dictionary Value} {e : String × Value} (he : e ∈ fields) (h : Has f e.2) :
    Has f (.record fields)

theorem IsData.not_has {v : Value} {f : Function} (h : v.IsData) : ¬ v.Has f := by
  intro hf
  cases hf with
  | self => cases h
  | item hv hf =>
    cases h with
    | list xs =>
      obtain ⟨x, -, rfl⟩ := List.mem_map.1 hv
      cases hf
  | field he hf =>
    cases h with
    | record _ hfields =>
      obtain ⟨x, hx⟩ := hfields _ he
      rw [hx] at hf
      cases hf

theorem Simple.eq_of_has {v : Value} {f : Function} (h : v.Simple) (hf : v.Has f) : v = .function f := by
  cases h with
  | plain _ hk => cases hf <;> first | rfl | simp [Value.kind] at hk
  | data _ hd => exact absurd hf hd.not_has
  | builtin b => cases hf
  | function g => cases hf; rfl

/-- A simple value, and if it is a function, one of these. -/
structure Fits (F : Function → Prop) (v : Value) : Prop where
  simple : v.Simple
  function : ∀ f, v = .function f → F f

section

variable {F G : Function → Prop} {v : Value}

theorem fits_plain (h : v.kind = .null ∨ v.kind = .boolean ∨ v.kind = .number ∨ v.kind = .string) : v.Fits F := by
  refine ⟨.plain v h, fun f hf => ?_⟩
  rw [hf] at h
  simp [Value.kind] at h

theorem fits_data (h : v.IsData) : v.Fits F :=
  ⟨.data v h, fun _ hf => absurd (hf ▸ Has.self) h.not_has⟩

theorem fits_function {f : Function} (h : F f) : (Value.function f).Fits F := by
  refine ⟨.function f, fun g hg => ?_⟩
  cases hg
  exact h

theorem Fits.mono (h : v.Fits F) (hFG : ∀ f, F f → G f) : v.Fits G := ⟨h.simple, fun f hf => hFG f (h.function f hf)⟩

theorem Fits.at {t i : Value} {line : Nat} (ht : t.Fits F) (h : t.at i line = .ok v) : v.Fits G := by
  obtain ⟨x, rfl⟩ := ht.simple.at h
  exact fits_plain (.inr (.inr (.inl rfl)))

theorem Fits.has {f : Function} (h : v.Fits F) (hf : v.Has f) : F f := h.function f (h.simple.eq_of_has hf)

end

end Value

namespace Forest

/-- Every value of a name is simple, and every function among them one of these. -/
def Holds (F : Function → Prop) (f : Forest) : Prop := ∀ i x v, (f.bindings i).get? x = some v → v.Fits F

section

variable {F G : Function → Prop} {f : Forest} {i : ScopeId} {x : String} {v : Value}

theorem Holds.mono (h : f.Holds F) (hFG : ∀ g, F g → G g) : f.Holds G := fun i x v hv => (h i x v hv).mono hFG

theorem Holds.lookup (h : f.Holds F) (hv : f.lookup i x = some v) : v.Fits F := by
  obtain ⟨j, hj⟩ := get?_of_lookup hv
  exact h j x v hj

theorem Holds.define (h : f.Holds F) (hv : v.Fits F) : (f.define i x v).Holds F := by
  intro j y w hw
  rcases get?_define hw with ⟨-, rfl⟩ | hw
  · exact hv
  · exact h j y w hw

theorem Holds.addChild (h : f.Holds F) {bindings : Dictionary Value}
    (hb : ∀ x v, bindings.get? x = some v → v.Fits F) (parent : ScopeId) : (f.addChild parent bindings).Holds F := by
  intro j y w hw
  rw [bindings_addChild] at hw
  split at hw
  · exact hb y w hw
  · exact h j y w hw

/-- In a new scope there are built-ins and nothing else. -/
theorem holds_builtins (F : Function → Prop) (i : ScopeId) : ((empty.addGlobal).defineBuiltins i).Holds F := by
  intro j x v hv
  rcases get?_defineBuiltins hv with ⟨b, -, rfl⟩ | hv
  · exact ⟨.builtin b, nofun⟩
  · unfold addGlobal at hv
    rw [bindings_push] at hv
    split at hv <;> cases hv

end

/-- The parameters of a call are bound to its arguments, and to null where these end. -/
theorem fits_bindParameters {F : Function → Prop} {ps : List String} {args : List Value} {x : String} {v : Value}
    (hargs : ∀ v ∈ args, v.Fits F) (h : (bindParameters ps args []).get? x = some v) : v.Fits F := by
  rcases get?_bindParameters h with rfl | hv | hv
  · exact Value.fits_plain (.inl rfl)
  · exact hargs v hv
  · cases hv

end Forest

end StrategyScript
