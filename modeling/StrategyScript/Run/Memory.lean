/-
Leaving scopes. A session can keep whatever was bound in the scopes that are left, or it can release them
as their strong counts say. For that it has to be known what a computation that is still under way holds:
the scopes that it goes back to, and the values that it is not done with.
-/
import StrategyScript.Run.Session
import StrategyScript.Scope.Count

namespace StrategyScript

/-- What computations under way hold: scopes to go back to, the nearest first, and values. -/
structure Held where
  frames : List ScopeId
  values : List Value

namespace Held

def none : Held := ⟨[], []⟩

def hold (h : Held) (vs : List Value) : Held := { h with values := vs ++ h.values }

def enter (h : Held) (i : ScopeId) : Held := { h with frames := i :: h.frames }

end Held

namespace Session

/-- Who holds scopes and values beside the scopes themselves: the interpreter, and the computations. -/
def holders (s : Session) (h : Held) : Holders := ⟨s.current :: globalScope :: h.frames, h.values⟩

/-- Lets a scope go: releases it, or notes it if it is retained. -/
def letGo (s : Session) (h : Held) (i : ScopeId) : Session :=
  let holders := s.holders h
  match s.scopes.release { holders with scopes := i :: holders.scopes } i with
  | (.retained, scopes) => { s with scopes, retained := s.retained ++ [i] }
  | (.released, scopes) | (.noClosures, scopes) => { s with scopes }

/-- Lets the scopes go that were retained, one after another, as far as they are still there. -/
def sweep (s : Session) : Session :=
  s.retained.foldl (fun t i => if (t.scopes.present (t.holders .none)).contains i then t.letGo .none i else t)
    { s with retained := [] }

end Session

/-- What becomes of the scopes that a computation leaves: they are kept as they are, or let go, which
depends on what is held meanwhile. -/
inductive Memory
  | kept
  | counted (held : Held)

namespace Memory

/-- The memory for a part of a computation, during which these values are held. -/
def hold (μ : Memory) (vs : List Value) : Memory :=
  match μ with
  | .kept => .kept
  | .counted h => .counted (h.hold vs)

/-- Lets the scope go that has been left, while the result is held. -/
def leaving {α : Type} (h : Held) (values : α → List Value) (i : ScopeId) : Outcome α → Outcome α
  | .done a s => .done a (s.letGo (h.hold (values a)) i)
  | .failed e s => .failed e (s.letGo h i)
  | .unfinished s => .unfinished s

/-- Computes in a new scope inside the current one. -/
def inBlock {α : Type} (μ : Memory) (values : α → List Value) (m : Memory → Eval α) : Eval α :=
  match μ with
  | .kept => Eval.inBlock (m .kept)
  | .counted h => fun s =>
    leaving h values s.scopes.size (Eval.inBlock (m (.counted (h.enter s.current))) s)

/-- Computes in a new scope inside `parent` that starts with `bindings`, one call deeper. -/
def inCall {α : Type} (μ : Memory) (values : α → List Value) (parent : ScopeId) (bindings : Dictionary Value)
    (m : Memory → Eval α) : Eval α :=
  match μ with
  | .kept => Eval.inCall parent bindings (m .kept)
  | .counted h => fun s =>
    leaving h values s.scopes.size (Eval.inCall parent bindings (m (.counted (h.enter s.current))) s)

end Memory

end StrategyScript
