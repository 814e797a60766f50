/-
Every step of execution cleans up after itself. Scopes are entered by blocks, loops and calls, and may
be left early, by an error or by a return; whichever way they are left, the session is back in the
scope it was in, as deep in calls as it was, and has only counted on and added to its log. In between
the calls are never nested more deeply than the limits allow.
-/
import StrategyScript.Proofs.Run.History

namespace StrategyScript

/-- The calls of every session are nested no more deeply than they may be. -/
def callDepth : Discipline where
  Good s := s.depth ≤ s.limits.maxCallDepth
  Fits _ _ := True
  Admits _ := True
  admits_part _ _ _ _ := trivial
  fits_grows _ _ := trivial
  fits_new _ _ := trivial
  counted h := h
  numbered h := h
  traded h := h
  assigned _ h _ _ := h
  defined _ h _ _ := h
  entered h := h
  called _ _ h := h
  -- back where the first session was, the depth is that of the first session again
  left h _ hr := by rw [hr.depth, hr.limits]; exact h

theorem callDepth_lasts (c : Limits) : callDepth.Lasts c where
  admits _ := trivial
  new := Nat.zero_le _
  prepare _ := Nat.zero_le _
  fits_prepare _ := trivial

namespace Session

/-- The second session is the first one again, but for what has been counted, logged and bound. -/
structure Restored (s t : Session) : Prop where
  current : t.current = s.current
  depth : t.depth = s.depth
  market : t.market = s.market
  limits : t.limits = s.limits
  steps : s.steps ≤ t.steps
  trades : s.trades.records <+: t.trades.records

theorem Returns.restored {names : List String} {s t : Session} (h : s.Returns names t) : s.Restored t :=
  ⟨h.current, h.depth, h.market, h.limits, h.steps, h.trades⟩

/-- From a reachable session on, what is evaluated or executed restores the session when it ends, with
whatever outcome, and does not go too deep before. -/
theorem step_restores {s : Session} (hs : s.Reachable) (fuel : Nat) :
    (∀ e t, (evaluate fuel e s).ended? = some t → s.Restored t) ∧
      (∀ stmt t, (execute fuel stmt s).ended? = some t → s.Restored t) ∧
      (∀ e, ∀ u ∈ (Task.evaluate e).trace fuel s, u.depth ≤ s.limits.maxCallDepth) ∧
      ∀ stmt, ∀ u ∈ (Task.execute stmt).trace fuel s, u.depth ≤ s.limits.maxCallDepth := by
  have hevaluate := Discipline.right_evaluate callDepth_lasts hs fuel
  have hexecute := Discipline.right_execute callDepth_lasts hs fuel
  have hdepth : ∀ {m : Moment}, callDepth.Right m → ∀ u ∈ m.trace, u.depth ≤ m.session.limits.maxCallDepth := by
    intro m hm u hu
    rw [← (hm.grows u hu).limits]
    exact (hm.trace u hu).good
  exact ⟨fun e t ht => ((hevaluate e).ended ht).2.restored, fun stmt t ht => ((hexecute stmt).ended ht).2.restored,
    fun e => hdepth (hevaluate e), fun stmt => hdepth (hexecute stmt)⟩

/-- A function that trades and then calls itself, called from a block: the second call is refused, and
the block is left with the trade made and nothing else out of place. -/
theorem refused_call_restores :
    let f : Program := [.function "f" [] [.trade .buy [] 1, .expr (.call "f" [] ⟨2, 1⟩)]]
    let s := ((new ⟨none, 1⟩).run 4 f .empty).2
    let call : Stmt := .block [.expr (.call "f" [] ⟨3, 1⟩)]
    s.Reachable ∧ ∃ t, (execute 12 call s).ended? = some t ∧ s.Restored t ∧ t.trades.size = 1 ∧
      ∃ u ∈ (Task.execute call).trace 12 s, u.depth = 1 := by
  intro f s call
  have hs : s.Reachable := (History.new.run (by decide +kernel)).reachable
  obtain ⟨t, ht, hsize⟩ : ∃ t, (execute 12 call s).ended? = some t ∧ t.trades.size = 1 := by
    have hmap : (execute 12 call s).ended?.map (·.trades.size) = some 1 := by decide +kernel
    exact Option.map_eq_some_iff.1 hmap
  have hdeep : ((Task.execute call).trace 12 s).any (·.depth == 1) = true := by decide +kernel
  obtain ⟨u, hu, hdepth⟩ := List.any_eq_true.1 hdeep
  exact ⟨hs, t, ht, (step_restores hs 12).2.1 call t ht, hsize, u, hu, eq_of_beq hdepth⟩

end Session

end StrategyScript
