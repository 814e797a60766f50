/-
Scopes are hygienic. What is evaluated or executed may bind names in scopes of its own; of the scopes
that were there before, it can add names to the current one alone, and only those that a statement
declares outside of all blocks, loops and functions in it. So a closure may write to the scopes that it
has captured, but not declare anything in them. Names are lost only where a scope is released, and no
scope is released to which somebody can still come.
-/
import StrategyScript.Proofs.Run.History
import StrategyScript.Proofs.Run.Release

namespace StrategyScript

/-- Blocks and `for` loops, which have a scope of their own, and statements that declare nothing. -/
def Stmt.Contained : Stmt → Prop
  | .block _ | .forLoop _ _ _ _ | .trade _ _ _ | .ret _ _ | .expr _ => True
  | .function _ _ _ | .var _ _ | .branch _ _ _ | .whileLoop _ _ => False

theorem Stmt.Contained.declaredHere {stmt : Stmt} (h : stmt.Contained) : stmt.declaredHere = [] := by
  cases stmt <;> first | rfl | cases h

namespace Session

/-- Each scope of the first session binds the same names in the second. -/
def SameNames (s t : Session) : Prop := ∀ i, i < s.scopes.size → ∀ x, t.scopes.Binds i x ↔ s.scopes.Binds i x

theorem Returns.sameNames {s t : Session} (h : s.Returns [] t) : s.SameNames t := by
  refine fun i hi x => ⟨fun hx => ?_, h.scopes.binds i x⟩
  exact (h.binds i x hi hx).resolve_right fun hnew => List.not_mem_nil hnew.2

end Session

section

variable {α : Type} {l : Live} {names : List String} {values : α → List Value} {o o' : Outcome α}

theorem Outcome.Agrees.returns {t : Session} (h : o.Agrees l l.held names values o') (ht : o'.ended? = some t) :
    l.session.Returns names t := by
  cases h with
  | done _ _ hr | failed _ _ hr => cases ht; exact hr
  | unfinished _ _ => cases ht

end

namespace Live

theorem Reachable.run {s : Session} {fuel : Nat} {p : Program} {market : Market} (h : Reachable ⟨s, .none⟩)
    (he : (s.runReleasing fuel p market).1 ≠ .unfinished) : Reachable ⟨(s.runReleasing fuel p market).2, .none⟩ := by
  obtain ⟨-, held, -, hl, hnone⟩ := (Session.FollowedBy.refl h.sound).run fuel p market
  exact h.steps (hnone he ▸ hl)

end Live

end StrategyScript
