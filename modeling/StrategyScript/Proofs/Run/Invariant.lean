/-
Invariants of evaluation. An invariant is a property of computations, with what it promises of their
results, that every single step has and that composition keeps; then the runs of all expressions and
statements have it. It is a simulation whose right side is not looked at.
-/
import StrategyScript.Proofs.Run.Simulation

namespace StrategyScript

open Eval

/-- What a statement's end carries out of a function. -/
def Flow.Carries (P : Value → Prop) : Flow → Prop
  | .normal => True
  | .returned v _ => P v

/-- A property of computations, and why each step of evaluation has it. -/
structure Invariant where
  /-- The names that the tree may use. -/
  allows : String → Prop
  /-- What holds of every value that is met. -/
  fits : Value → Prop
  /-- The property, for computations whose results satisfy the argument. -/
  Holds : ∀ {α : Type}, (α → Prop) → Eval α → Prop
  fits_plain : ∀ v, v.kind = .null ∨ v.kind = .boolean ∨ v.kind = .number ∨ v.kind = .string → fits v
  fits_at : ∀ {t i v line}, fits t → t.at i line = .ok v → fits v
  allows_decl : ∀ {f}, fits (.function f) → ∀ x ∈ f.decl.names, allows x
  pure : ∀ {α : Type} {P : α → Prop} {a}, P a → Holds P (Pure.pure a)
  bind : ∀ {α β : Type} {P : α → Prop} {Q : β → Prop} {m} {f : α → Eval β},
    Holds P m → (∀ a, P a → Holds Q (f a)) → Holds Q (m >>= f)
  outOfFuel : ∀ {α : Type} {P : α → Prop}, Holds P Eval.outOfFuel
  fault : ∀ {α : Type} {P : α → Prop} {cause line}, Holds P (fail (.fault cause line))
  tick : Holds (fun _ => True) tick
  lookup : ∀ {x line}, allows x → Holds fits (lookup x line)
  assign : ∀ {x v line}, allows x → fits v → Holds (fun _ => True) (assign x v line)
  define : ∀ {x v}, allows x → fits v → Holds (fun _ => True) (define x v)
  newFunction : ∀ decl, (∀ x ∈ decl.names, allows x) → Holds (fun f => fits (.function f)) (newFunction decl)
  inBlock : ∀ {α : Type} {P : α → Prop} {m}, Holds P m → Holds P (inBlock m)
  inCall : ∀ {α : Type} {P : α → Prop} {m f args} (line), fits (.function f) → (∀ v ∈ args, fits v) →
    Holds P m → Holds P (do checkDepth line; inCall f.closure (bindParameters f.decl.params args []) m)
  trade : ∀ {action order}, Holds (fun _ => True) (trade action order)
  callBuiltin : ∀ {b args line}, fits (.builtin b) → (∀ v ∈ args, fits v) →
    Holds fits (callBuiltin b args line)

namespace Invariant

variable (I : Invariant)

theorem mono {α : Type} {P Q : α → Prop} {m : Eval α} (h : I.Holds P m) (hPQ : ∀ a, P a → Q a) :
    I.Holds Q m := by
  rw [← Eval.bind_pure m]
  exact I.bind h fun a ha => I.pure (hPQ a ha)

/-- The same tree on both sides, and only the left one looked at. -/
def toSimulation : Simulation where
  moves := .stay
  slack := 0
  allows := I.allows
  fits := I.fits
  Rel R m _ := I.Holds (fun a => ∃ b, R a b) m
  fits_plain := I.fits_plain
  fits_at := I.fits_at
  allows_decl := I.allows_decl
  pure h := I.pure ⟨_, h⟩
  bind h hf := I.bind h fun a ⟨b, hab⟩ => hf a b hab
  outOfFuel _ := I.outOfFuel
  fault := I.fault
  tick := I.mono I.tick fun a _ => ⟨a, rfl⟩
  lookup hx := I.mono (I.lookup hx) fun _ hv => ⟨_, hv, rfl⟩
  assign hx hv := I.mono (I.assign hx hv) fun a _ => ⟨a, rfl⟩
  define hx hv := I.mono (I.define hx hv) fun a _ => ⟨a, rfl⟩
  newFunction decl hd := I.mono (I.newFunction decl hd) fun _ hf => ⟨_, hf, rfl⟩
  inBlock := I.inBlock
  inCall := I.inCall
  trade := I.mono I.trade fun a _ => ⟨a, rfl⟩
  callBuiltin hb hv := I.mono (I.callBuiltin hb hv) fun _ hw => ⟨_, hw, rfl⟩

/-! ## Whole expressions, statements and programs -/

theorem evaluate (fuel : Nat) (e : Expr) (hn : ∀ x ∈ e.names, I.allows x) :
    I.Holds I.fits (evaluate fuel e) :=
  I.mono ((I.toSimulation.keeps fuel).evaluate e hn) fun _ ⟨_, h⟩ => h.1

theorem evaluateAll (fuel : Nat) (es : List Expr) (hn : ∀ x ∈ Expr.namesAll es, I.allows x) :
    I.Holds (fun vs => ∀ v ∈ vs, I.fits v) (evaluateAll fuel es) :=
  I.mono ((I.toSimulation.keeps fuel).evaluateAll es hn) fun _ ⟨_, h⟩ => h.1

theorem execute (fuel : Nat) (s : Stmt) (hn : ∀ x ∈ s.names, I.allows x) :
    I.Holds (Flow.Carries I.fits) (execute fuel s) := by
  refine I.mono ((I.toSimulation.keeps fuel).execute s hn) fun f ⟨_, h⟩ => ?_
  cases f with
  | normal => trivial
  | returned v line => exact h.1

theorem program (fuel : Nat) (p : Program) (hn : ∀ x ∈ Stmt.namesAll p, I.allows x) :
    I.Holds (fun _ => True) (executeProgram fuel p) :=
  I.mono (I.toSimulation.keeps_program fuel p hn) fun _ _ => trivial

end Invariant

end StrategyScript
