/-
How a session changes in the course of a run. From any moment to any later one it grows: nothing that
was logged, counted or bound is lost. A computation that has ended moreover returns: the session is
where it was, one scope apart, and no scope but the current one has learned a name.
-/
import StrategyScript.Proofs.Run.Course
import StrategyScript.Proofs.Scope.Growth

namespace StrategyScript

namespace Session

/-- The second session comes later in the same run. -/
structure Grows (s t : Session) : Prop where
  market : t.market = s.market
  limits : t.limits = s.limits
  steps : s.steps ≤ t.steps
  trades : s.trades.records <+: t.trades.records
  scopes : s.scopes.Extends t.scopes

/-- The second session is what a computation makes of the first. Names that are new to the current
scope are among the given ones, and the other scopes have none that are new. -/
structure Returns (names : List String) (s t : Session) : Prop extends Grows s t where
  current : t.current = s.current
  depth : t.depth = s.depth
  binds : ∀ i x, i < s.scopes.size → t.scopes.Binds i x → s.scopes.Binds i x ∨ i = s.current ∧ x ∈ names

theorem Grows.refl (s : Session) : s.Grows s :=
  ⟨rfl, rfl, le_rfl, List.prefix_refl _, .refl _⟩

theorem Grows.trans {s t u : Session} (h : s.Grows t) (h' : t.Grows u) : s.Grows u where
  market := h'.market.trans h.market
  limits := h'.limits.trans h.limits
  steps := h.steps.trans h'.steps
  trades := h.trades.trans h'.trades
  scopes := h.scopes.trans h'.scopes

section

variable {names names' : List String} {s t u : Session}

theorem Returns.refl (names : List String) (s : Session) : s.Returns names s :=
  ⟨.refl s, rfl, rfl, fun _ _ _ h => .inl h⟩

theorem Returns.mono (h : s.Returns names t) (hsub : names ⊆ names') : s.Returns names' t :=
  { h with binds := fun i x hi hx => (h.binds i x hi hx).imp_right (And.imp_right (hsub ·)) }

theorem Returns.trans (h : s.Returns names t) (h' : t.Returns names u) : s.Returns names u where
  toGrows := h.toGrows.trans h'.toGrows
  current := h'.current.trans h.current
  depth := h'.depth.trans h.depth
  binds i x hi hx := by
    rcases h'.binds i x (hi.trans_le h.scopes.size) hx with hx | ⟨rfl, hnew⟩
    · exact h.binds i x hi hx
    · exact .inr ⟨h.current, hnew⟩

/-- A change that concerns no scope. -/
theorem returns_of_scopes (hs : t.scopes = s.scopes) (hc : t.current = s.current) (hd : t.depth = s.depth)
    (hm : t.market = s.market) (hl : t.limits = s.limits) (hn : s.steps ≤ t.steps)
    (ht : s.trades.records <+: t.trades.records) : s.Returns [] t :=
  ⟨⟨hm, hl, hn, ht, hs ▸ .refl _⟩, hc, hd, fun _ _ _ hx => .inl (hs ▸ hx)⟩

end

/-! ## Single steps -/

variable (s : Session)

def counted : Session := { s with steps := s.steps + 1 }

def numbered : Session := { s with nextFunction := s.nextFunction + 1 }

def binding (i : ScopeId) (x : String) (v : Value) : Session := { s with scopes := s.scopes.define i x v }

def logged (log : TradeLog) : Session := { s with trades := log }

/-- Back in the scope of the first session. -/
def leave (t : Session) (adjust : Nat → Nat) : Session := { t with current := s.current, depth := adjust t.depth }

theorem returns_counted : s.Returns [] s.counted :=
  returns_of_scopes rfl rfl rfl rfl rfl (Nat.le_succ _) (List.prefix_refl _)

theorem returns_numbered : s.Returns [] s.numbered :=
  returns_of_scopes rfl rfl rfl rfl rfl le_rfl (List.prefix_refl _)

variable {s}

theorem returns_logged {log : TradeLog} (h : s.trades.records <+: log.records) : s.Returns [] (s.logged log) :=
  returns_of_scopes rfl rfl rfl rfl rfl le_rfl h

theorem grows_binding (s : Session) (i : ScopeId) (x : String) (v : Value) : s.Grows (s.binding i x v) :=
  ⟨rfl, rfl, le_rfl, List.prefix_refl _, Forest.extends_define ..⟩

theorem returns_define (s : Session) (x : String) (v : Value) : s.Returns [x] (s.binding s.current x v) where
  toGrows := grows_binding s s.current x v
  current := rfl
  depth := rfl
  binds i y _ hy := by
    rcases (Forest.binds_define ..).1 hy with ⟨rfl, -, rfl⟩ | hy
    · exact .inr ⟨rfl, List.mem_singleton_self _⟩
    · exact .inl hy

/-- An assignment changes a binding and makes none. -/
theorem returns_assign {x : String} {owner : ScopeId} (h : s.scopes.resolve s.current x = some owner) (v : Value) :
    s.Returns [] (s.binding owner x v) where
  toGrows := grows_binding s owner x v
  current := rfl
  depth := rfl
  binds i y _ hy := by
    rcases (Forest.binds_define ..).1 hy with ⟨rfl, -, rfl⟩ | hy
    · exact .inl (Forest.binds_of_resolve h)
    · exact .inl hy

theorem grows_enter (s : Session) (parent : ScopeId) (bindings : Dictionary Value) (depth : Nat) :
    s.Grows (s.enter parent bindings depth) :=
  ⟨rfl, rfl, le_rfl, List.prefix_refl _, Forest.extends_addChild ..⟩

theorem grows_leave (s t : Session) (adjust : Nat → Nat) : t.Grows (s.leave t adjust) :=
  ⟨rfl, rfl, le_rfl, List.prefix_refl _, .refl _⟩

/-- What happens in a new scope is over with it: of the scopes that were there before, none has
learned a name. -/
theorem Returns.leave {parent : ScopeId} {bindings : Dictionary Value} {depth : Nat} {names : List String}
    {t : Session} {adjust : Nat → Nat} (h : (s.enter parent bindings depth).Returns names t)
    (hdepth : adjust depth = s.depth) : s.Returns [] (s.leave t adjust) where
  market := h.market
  limits := h.limits
  steps := h.steps
  trades := h.trades
  scopes := (Forest.extends_addChild ..).trans h.scopes
  current := rfl
  depth := (congrArg adjust h.depth).trans hdepth
  binds i x hi hx := by
    have hlt : i < (s.enter parent bindings depth).scopes.size :=
      hi.trans_le (Forest.extends_addChild ..).size
    rcases h.binds i x hlt hx with hx | ⟨rfl, -⟩
    · rcases Forest.binds_addChild.1 hx with ⟨rfl, -⟩ | hx
      · exact absurd hi (lt_irrefl _)
      · exact .inl hx
    · exact absurd hi (lt_irrefl _)

end Session

end StrategyScript
