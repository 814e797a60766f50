/-
What single steps do to a session. A computation is read through these equations and no further: a
step that looks a name up, calls or counts ends in one of two ways, and each way is said here.
-/
import StrategyScript.Proofs.Run.Builtin

namespace StrategyScript

namespace Outcome

/-- The session in which a computation ends. -/
def session {α : Type} : Outcome α → Session
  | .done _ s | .failed _ s | .unfinished s => s

/-- If there is a result, it satisfies `P`. -/
def Gives {α : Type} (o : Outcome α) (P : α → Prop) : Prop := ∀ a s, o = .done a s → P a

end Outcome

namespace Limits

/-- The budget is enough for so many steps. -/
def Affords (c : Limits) (steps : Nat) : Prop := ∀ limit, c.maxSteps = some limit → steps ≤ limit

theorem not_affords {c : Limits} {n : Nat} (h : ¬ c.Affords n) : ∃ limit, c.maxSteps = some limit ∧ limit < n := by
  unfold Affords at h
  push Not at h
  exact h

end Limits

namespace Eval

/-! ## Composition -/

theorem bind_pure {α : Type} (m : Eval α) : (m >>= fun a => pure a) = m := by
  funext s
  show Eval.bind m (fun a => Eval.pure a) s = m s
  unfold Eval.bind Eval.pure
  cases m s <;> rfl

theorem bind_assoc {α β γ : Type} (m : Eval α) (f : α → Eval β) (g : β → Eval γ) :
    (m >>= f) >>= g = m >>= fun a => f a >>= g := by
  funext s
  show Eval.bind (Eval.bind m f) g s = Eval.bind m (fun a => Eval.bind (f a) g) s
  unfold Eval.bind
  cases m s <;> rfl

section

variable {α β : Type} {m : Eval α} {s t : Session}

theorem bind_done {a : α} (f : α → Eval β) (h : m s = .done a t) : (m >>= f) s = f a t := by
  show Eval.bind m f s = f a t
  simp only [Eval.bind, h]

theorem bind_failed {e : RuntimeError} (f : α → Eval β) (h : m s = .failed e t) :
    (m >>= f) s = .failed e t := by
  show Eval.bind m f s = .failed e t
  simp only [Eval.bind, h]

theorem bind_unfinished (f : α → Eval β) (h : m s = .unfinished t) : (m >>= f) s = .unfinished t := by
  show Eval.bind m f s = .unfinished t
  simp only [Eval.bind, h]

/-! ## Leaving a scope -/

theorem restoring_failed {o : Outcome α} {e : RuntimeError} {current : ScopeId} {adjust : Nat → Nat}
    (h : restoring current adjust o = .failed e t) :
    ∃ u, o = .failed e u ∧ t = { u with current, depth := adjust u.depth } := by
  cases o <;> cases h
  exact ⟨_, rfl, rfl⟩

theorem restoring_done {o : Outcome α} {a : α} {current : ScopeId} {adjust : Nat → Nat}
    (h : restoring current adjust o = .done a t) :
    ∃ u, o = .done a u ∧ t = { u with current, depth := adjust u.depth } := by
  cases o <;> cases h
  exact ⟨_, rfl, rfl⟩

theorem session_restoring (o : Outcome α) (current : ScopeId) (adjust : Nat → Nat) :
    (restoring current adjust o).session.limits = o.session.limits ∧
      (restoring current adjust o).session.trades = o.session.trades ∧
      (restoring current adjust o).session.steps = o.session.steps := by
  cases o <;> exact ⟨rfl, rfl, rfl⟩

end

/-! ## Counting -/

theorem tick_within {s : Session} (h : s.limits.Affords (s.steps + 1)) :
    tick s = .done () { s with steps := s.steps + 1 } := by
  simp only [tick]
  split
  · rename_i limit hlimit
    exact if_neg (Nat.not_lt.2 (h limit hlimit))
  · rfl

theorem tick_beyond {s : Session} {limit : Nat} (hl : s.limits.maxSteps = some limit)
    (h : limit < s.steps + 1) :
    tick s = .failed (.stepLimitExceeded limit) { s with steps := s.steps + 1 } := by
  simp only [tick, hl, if_pos h]

theorem session_tick (s : Session) : (tick s).session = { s with steps := s.steps + 1 } := by
  simp only [tick]
  split
  · split <;> rfl
  · rfl

theorem tick_failed {s t : Session} {limit : Nat} (h : tick s = .failed (.stepLimitExceeded limit) t) :
    s.limits.maxSteps = some limit := by
  simp only [tick] at h
  split at h
  · rename_i limit' hlimit
    split at h
    · cases h; exact hlimit
    · cases h
  · cases h

/-! ## Names -/

theorem lookup_eq (x : String) (line : Nat) (s : Session) :
    lookup x line s =
      match s.scopes.lookup s.current x with
      | some v => .done v s
      | none => .failed (.fault (.undefinedVariable x) line) s := by
  unfold lookup Forest.get
  cases s.scopes.lookup s.current x <;> rfl

/-! ## Calls -/

theorem call_eq {α : Type} (parent : ScopeId) (bindings : Dictionary Value) (line : Nat) (m : Eval α) (s : Session) :
    (do checkDepth line; inCall parent bindings m : Eval α) s =
      if s.limits.maxCallDepth ≤ s.depth then
        .failed (.fault (.callDepthExceeded s.limits.maxCallDepth) line) s
      else inCall parent bindings m s := by
  by_cases h : s.limits.maxCallDepth ≤ s.depth
  · rw [if_pos h]
    exact bind_failed _ (if_pos h)
  · rw [if_neg h]
    exact bind_done _ (if_neg h)

end Eval

end StrategyScript
