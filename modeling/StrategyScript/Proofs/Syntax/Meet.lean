/-
Trees that meet. Two trees become one when the positions of each are moved, every position to its own place; trees
that are the same but for positions are those that meet where all positions are forgotten.
-/
import StrategyScript.Proofs.Syntax.Relocate
import StrategyScript.Parse.Stmt
import Mathlib.Tactic

namespace StrategyScript

/-- The same but for positions. -/
def Expr.Alike (e f : Expr) : Prop := e.relocate .erase = f.relocate .erase

def Stmt.Alike (s t : Stmt) : Prop := s.relocate .erase = t.relocate .erase

def LoopStart.Alike (s t : LoopStart) : Prop := s.relocate .erase = t.relocate .erase

section

variable (ρ σ : Relocation)

/-- The trees become one when the positions of each are moved. -/
def Expr.Meet (e f : Expr) : Prop := e.relocate ρ = f.relocate σ

def Stmt.Meet (s t : Stmt) : Prop := s.relocate ρ = t.relocate σ

def LoopStart.Meet (s t : LoopStart) : Prop := s.relocate ρ = t.relocate σ

end

variable {ρ σ : Relocation}

/-! ## Positions that meet -/

theorem Expr.relocate_position (ρ : Relocation) (e : Expr) : (e.relocate ρ).position = ρ.position e.position := by
  cases e <;> rfl

/-- An index stands where its target does, so positions that are copied meet as well. -/
theorem Expr.Meet.position {e f : Expr} (h : e.Meet ρ σ f) : ρ.position e.position = σ.position f.position := by
  rw [← relocate_position ρ e, ← relocate_position σ f, show e.relocate ρ = f.relocate σ from h]

theorem Relocation.line_eq {p q : Position} (h : ρ.position p = σ.position q) : ρ.line p.line = σ.line q.line := by
  rw [← ρ.line_position, ← σ.line_position, h]

/-! ## Parts that meet -/

theorem Expr.relocateAll_of_meet {es fs : List Expr} (h : List.Forall₂ (Expr.Meet ρ σ) es fs) :
    Expr.relocateAll ρ es = Expr.relocateAll σ fs := by
  induction h with
  | nil => rfl
  | cons he _ ih => rw [Expr.relocateAll, Expr.relocateAll, show _ = _ from he, ih]

theorem Stmt.relocateAll_of_meet {ss ts : List Stmt} (h : List.Forall₂ (Stmt.Meet ρ σ) ss ts) :
    Stmt.relocateAll ρ ss = Stmt.relocateAll σ ts := by
  induction h with
  | nil => rfl
  | cons hs _ ih => rw [Stmt.relocateAll, Stmt.relocateAll, show _ = _ from hs, ih]

theorem Expr.relocateAll_of_alike {es fs : List Expr} (h : List.Forall₂ Expr.Alike es fs) :
    Expr.relocateAll .erase es = Expr.relocateAll .erase fs := Expr.relocateAll_of_meet h

theorem Stmt.relocateAll_of_alike {ss ts : List Stmt} (h : List.Forall₂ Stmt.Alike ss ts) :
    Stmt.relocateAll .erase ss = Stmt.relocateAll .erase ts := Stmt.relocateAll_of_meet h

theorem map_of_rel {α β γ : Type} {R : α → β → Prop} {f : α → γ} {g : β → γ} {a : Option α} {b : Option β}
    (h : Option.Rel R a b) (hR : ∀ x y, R x y → f x = g y) : a.map f = b.map g := by
  cases h with
  | none => rfl
  | some h => exact congrArg some (hR _ _ h)

theorem rel_imp {α β : Type} {R S : α → β → Prop} {a : Option α} {b : Option β} (h : Option.Rel R a b)
    (hR : ∀ x y, R x y → S x y) : Option.Rel S a b := by
  cases h with
  | none => exact .none
  | some h => exact .some (hR _ _ h)

/-! ## What is left when positions are forgotten -/

mutual

/-- It does not matter that they have been moved before. -/
theorem Expr.relocate_erase (ρ : Relocation) : ∀ e : Expr, (e.relocate ρ).relocate .erase = e.relocate .erase
  | .number _ _ | .string _ _ | .boolean _ _ | .identifier _ _ => rfl
  | .assign name value _ => congrArg (Expr.assign name · _) (relocate_erase ρ value)
  | .binary op left right _ => congrArg₂ (Expr.binary op · · _) (relocate_erase ρ left) (relocate_erase ρ right)
  | .unary op operand _ => congrArg (Expr.unary op · _) (relocate_erase ρ operand)
  | .call callee args _ => congrArg (Expr.call callee · _) (relocateAll_erase ρ args)
  | .index target i _ => congrArg₂ (Expr.index · · _) (relocate_erase ρ target) (relocate_erase ρ i)

theorem Expr.relocateAll_erase (ρ : Relocation) :
    ∀ es : List Expr, Expr.relocateAll .erase (Expr.relocateAll ρ es) = Expr.relocateAll .erase es
  | [] => rfl
  | e :: es => congrArg₂ List.cons (relocate_erase ρ e) (relocateAll_erase ρ es)

end

theorem Expr.Meet.alike {e f : Expr} (h : e.Meet ρ σ f) : e.Alike f := by
  have herase := congrArg (Expr.relocate .erase) h
  rwa [relocate_erase, relocate_erase] at herase

/-- Only a name is like a name. -/
theorem Expr.Alike.identifier_or {e f : Expr} (h : e.Alike f) :
    (∃ x p q, e = .identifier x p ∧ f = .identifier x q) ∨
      (∀ x p, e ≠ .identifier x p) ∧ ∀ x p, f ≠ .identifier x p := by
  cases e with
  | identifier x p => cases f with
    | identifier y q =>
      obtain ⟨rfl, -⟩ := Expr.identifier.inj h
      exact .inl ⟨x, p, q, rfl, rfl⟩
    | _ => cases h
  | _ => cases f with
    | identifier y q => cases h
    | _ => exact .inr ⟨nofun, nofun⟩

namespace Parse

/-- Only the kinds of the arguments of a trade are looked at. -/
theorem tradeArgumentComplaint_relocate (ρ : Relocation) (es : List Expr) :
    tradeArgumentComplaint? (es.map (Expr.relocate ρ)) = tradeArgumentComplaint? es := by
  have hcount : ∀ p : Expr → Bool, (∀ e, p (e.relocate ρ) = p e) →
      (es.map (Expr.relocate ρ)).countP p = es.countP p ∧ (es.map (Expr.relocate ρ)).any p = es.any p := by
    intro p hp
    rw [List.countP_map, List.any_map]
    simp only [Function.comp_def, hp, and_self]
  unfold tradeArgumentComplaint?
  simp only [List.length_map]
  rw [(hcount _ fun e => by cases e <;> rfl).1, (hcount _ fun e => by cases e <;> rfl).1,
    (hcount _ fun e => by cases e <;> rfl).2]

theorem tradeArgumentComplaint_alike {es fs : List Expr} (h : List.Forall₂ Expr.Alike es fs) :
    tradeArgumentComplaint? es = tradeArgumentComplaint? fs := by
  rw [← tradeArgumentComplaint_relocate .erase es, ← tradeArgumentComplaint_relocate .erase fs,
    ← Expr.relocateAll_eq_map, ← Expr.relocateAll_eq_map, Expr.relocateAll_of_alike h]

end Parse

end StrategyScript
