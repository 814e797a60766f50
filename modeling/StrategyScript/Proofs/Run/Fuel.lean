/-
More fuel never changes a run that has ended: it is the same ending with the same session behind it.
So a run either ends in one way, whatever the fuel, or with no fuel at all; `Session.Ends` says how,
and the fuel is gone from all that follows.
-/
import StrategyScript.Proofs.Run.Simulation

namespace StrategyScript

open Eval

/-! ## More fuel -/

/-- The first computation has run out of fuel, or the second ends in the same way. -/
def Outcome.Forces {α β : Type} (R : α → β → Prop) : Outcome α → Outcome β → Prop
  | .done a s, o => ∃ b, o = .done b s ∧ R a b
  | .failed e s, o => o = .failed e s
  | .unfinished _, _ => True

theorem Outcome.forces_refl {α : Type} {R : α → α → Prop} (hR : ∀ a, R a a) (o : Outcome α) : o.Forces R o := by
  cases o with
  | done a s => exact ⟨a, rfl, hR a⟩
  | failed e s => rfl
  | unfinished s => trivial

theorem Outcome.forces_restoring {α β : Type} {R : α → β → Prop} {o : Outcome α} {o' : Outcome β}
    (h : o.Forces R o') (current : ScopeId) (adjust : Nat → Nat) :
    (restoring current adjust o).Forces R (restoring current adjust o') := by
  cases o with
  | done a s => obtain ⟨b, rfl, hab⟩ := h; exact ⟨b, rfl, hab⟩
  | failed e s => rw [show o' = .failed e s from h]; rfl
  | unfinished s => trivial

/-- The same tree with more fuel. -/
def moreFuel (slack : Nat) : Simulation where
  moves := .stay
  slack := slack
  allows _ := True
  fits _ := True
  Rel R m n := ∀ s, (m s).Forces R (n s)
  fits_plain _ _ := trivial
  fits_at _ _ := trivial
  allows_decl _ _ _ := trivial
  pure h _ := ⟨_, rfl, h⟩
  bind {α β γ δ R T m n f g} h hf s := by
    show Outcome.Forces T (Eval.bind m f s) (Eval.bind n g s)
    have h := h s
    unfold Eval.bind
    cases hm : m s with
    | done a t =>
      rw [hm] at h
      obtain ⟨b, hn, hab⟩ := h
      rw [hn]
      exact hf a b hab t
    | failed e t =>
      rw [hm] at h
      rw [show n s = .failed e t from h]
      rfl
    | unfinished t => trivial
  outOfFuel _ _ := trivial
  fault _ := rfl
  tick _ := Outcome.forces_refl (fun _ => rfl) _
  lookup _ _ := Outcome.forces_refl (by simp) _
  assign _ _ _ := by simpa using Outcome.forces_refl (fun _ => rfl) _
  define _ _ _ := by simpa using Outcome.forces_refl (fun _ => rfl) _
  newFunction _ _ _ := by
    simp only [FunctionDecl.relocate_stay]
    exact Outcome.forces_refl (by simp) _
  inBlock h s := Outcome.forces_restoring (h _) _ _
  inCall {α β R m n f args} line _ _ h s := by
    simp only [Value.map_relocate_stay, Relocation.stay_line]
    -- the check of the depth takes no fuel and comes first on both sides
    show Outcome.Forces R (Eval.bind (checkDepth line) _ s) (Eval.bind (checkDepth line) _ s)
    unfold Eval.bind checkDepth
    split
    · rename_i a t ht
      exact Outcome.forces_restoring (h _) t.current (· - 1)
    · rfl
    · trivial
  trade _ := Outcome.forces_refl (fun _ => rfl) _
  callBuiltin _ _ _ := by
    simp only [Value.map_relocate_stay, Relocation.stay_line, Value.relocate_stay]
    exact Outcome.forces_refl (by simp) _

theorem forces_execute (slack n : Nat) (stmt : Stmt) (s : Session) :
    (execute n stmt s).Forces Eq (execute (n + slack) stmt s) := by
  have h := ((moreFuel slack).keeps n).execute stmt (fun _ _ => trivial) s
  rw [show (moreFuel slack).moves = .stay from rfl, Stmt.relocate_stay] at h
  cases ho : execute n stmt s with
  | failed e t | unfinished t =>
    rw [ho] at h
    exact h
  | done flow t =>
    rw [ho] at h
    obtain ⟨flow', hdone, hflow⟩ := h
    refine ⟨flow', hdone, ?_⟩
    cases flow with
    | normal => exact hflow.symm
    | returned v line => rw [hflow.2, show (moreFuel slack).moves = .stay from rfl, Value.relocate_stay]; rfl

/-! ## Runs -/

/-- The error that a run has failed with, if it has. -/
def Ending.error? : Ending → Option RuntimeError
  | .failure e => some e
  | .success | .unfinished => none

theorem Ending.error?_eq_some {ending : Ending} {e : RuntimeError} : ending.error? = some e ↔ ending = .failure e := by
  cases ending <;> simp [error?]

namespace Session

theorem run_eq (s : Session) (fuel : Nat) (p : Program) (market : Market) :
    s.run fuel p market = conclude (executeProgram fuel p (s.prepare market)) := rfl

theorem conclude_session (o : Outcome Unit) :
    (conclude o).2.trades = o.session.trades ∧ (conclude o).2.steps = o.session.steps := by
  cases o <;> exact ⟨rfl, rfl⟩

theorem run_add_fuel {s t : Session} {fuel : Nat} {p : Program} {market : Market} {e : Ending}
    (h : s.run fuel p market = (e, t)) (he : e ≠ .unfinished) (k : Nat) :
    s.run (fuel + k) p market = (e, t) := by
  have hp := (moreFuel k).keeps_program fuel p (fun _ _ => trivial) (s.prepare market)
  rw [show (moreFuel k).moves = .stay from rfl, Stmt.relocateAll_stay] at hp
  unfold run at h ⊢
  cases ho : executeProgram fuel p (s.prepare market) with
  | done a u =>
    rw [ho] at hp h
    obtain ⟨b, hb, -⟩ := hp
    rw [show executeProgram (fuel + k) p (s.prepare market) = .done b u from hb]
    exact h
  | failed f u =>
    rw [ho] at hp h
    rw [show executeProgram (fuel + k) p (s.prepare market) = .failed f u from hp]
    exact h
  | unfinished u =>
    rw [ho] at h
    cases h
    exact absurd rfl he

/-- With enough fuel a run of the program comes to this ending and leaves that session behind. -/
def Ends (s : Session) (p : Program) (market : Market) (e : Ending) (t : Session) : Prop :=
  e ≠ .unfinished ∧ ∃ fuel, s.run fuel p market = (e, t)

theorem Ends.unique {s t u : Session} {p : Program} {market : Market} {d e : Ending}
    (h : s.Ends p market d t) (h' : s.Ends p market e u) : d = e ∧ t = u := by
  obtain ⟨hd, m, hm⟩ := h
  obtain ⟨he, n, hn⟩ := h'
  have h1 := run_add_fuel hm hd n
  have h2 := run_add_fuel hn he m
  rw [Nat.add_comm n m, h1] at h2
  exact Prod.mk.inj h2

end Session

end StrategyScript
