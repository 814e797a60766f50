/-
Limits are transparent: a run under tighter limits is the run under wider ones, stopped early or not
at all. Of two limits the tighter one decides nothing but the place where the run is cut short, and
there the error names the limit, and the trades made so far are the first of those that the wider
limits allow. A run stays whole exactly when it takes no more steps than the tighter budget has.

Both runs execute one tree, so each computation is followed from a session and from the same session
with its limits replaced; the invariant is that the second outcome is the first one, or cut short.
-/
import StrategyScript.Proofs.Run.Fuel
import StrategyScript.Proofs.Run.Invariant

namespace StrategyScript

open Eval

/-! ## Limits -/

namespace Limits

/-- Every run that stays within `c` stays within `c'`. A missing step limit is infinite. -/
structure Tighter (c c' : Limits) : Prop where
  steps : ∀ limit', c'.maxSteps = some limit' → ∃ limit, c.maxSteps = some limit ∧ limit ≤ limit'
  depth : c.maxCallDepth ≤ c'.maxCallDepth

theorem Tighter.affords {c c' : Limits} (h : c.Tighter c') {n : Nat} (hn : c.Affords n) : c'.Affords n := by
  intro limit' h'
  obtain ⟨limit, hl, hle⟩ := h.steps limit' h'
  exact (hn limit hl).trans hle

end Limits

/-- The same session under other limits. -/
def Session.under (s : Session) (c : Limits) : Session := { s with limits := c }

namespace Outcome

def under {α : Type} (o : Outcome α) (c : Limits) : Outcome α :=
  match o with
  | .done a s => .done a (s.under c)
  | .failed e s => .failed e (s.under c)
  | .unfinished s => .unfinished (s.under c)

theorem restoring_under {α : Type} (o : Outcome α) (c : Limits) (current : ScopeId) (adjust : Nat → Nat) :
    restoring current adjust (o.under c) = (restoring current adjust o).under c := by
  cases o <;> rfl

end Outcome

/-! ## Following a run under wider limits -/

/-- What is sure of every computation from `s`: it counts up, adds to the log, and can exceed no
budget but its own. -/
structure Advances {α : Type} (P : α → Prop) (s : Session) (o : Outcome α) : Prop where
  gives : o.Gives P
  limits : o.session.limits = s.limits
  trades : s.trades.records <+: o.session.trades.records
  steps : s.steps ≤ o.session.steps
  budget : ∀ limit t, o = .failed (.stepLimitExceeded limit) t → s.limits.maxSteps = some limit

section

variable {α β : Type} {P : α → Prop} {Q : β → Prop} {s : Session} {o : Outcome α} {p : Outcome β}

theorem Advances.trans (h : Advances P s o) (h' : Advances Q o.session p) : Advances Q s p where
  gives := h'.gives
  limits := h'.limits.trans h.limits
  trades := h.trades.trans h'.trades
  steps := h.steps.trans h'.steps
  budget limit t ho := h.limits ▸ h'.budget limit t ho

/-- Another outcome in a session that is no different for the limits. -/
theorem Advances.congr (h : Advances P s o) (hP : p.Gives Q) (hl : p.session.limits = o.session.limits)
    (ht : p.session.trades = o.session.trades) (hn : p.session.steps = o.session.steps)
    (hf : ∀ e t, p = .failed e t → ∃ u, o = .failed e u) : Advances Q s p where
  gives := hP
  limits := hl.trans h.limits
  trades := ht ▸ h.trades
  steps := hn ▸ h.steps
  budget limit t ho := by
    obtain ⟨u, hu⟩ := hf _ t ho
    exact h.budget limit u hu

end

/-- The tighter run ends before the wider one does, at one of its own limits. -/
def CutShort {α : Type} (c c' : Limits) (o o' : Outcome α) : Prop :=
  ∃ e u, o' = .failed e u ∧ u.trades.records <+: o.session.trades.records ∧
    ((∃ limit, c.maxSteps = some limit ∧ e = .stepLimitExceeded limit ∧ limit < o.session.steps) ∨
      ∃ line, e = .fault (.callDepthExceeded c.maxCallDepth) line ∧ c.maxCallDepth < c'.maxCallDepth)

/-- The wider run comes to `o` and the tighter one to `o'`: the same, within the budget, or less. -/
def Meets {α : Type} (c c' : Limits) (o o' : Outcome α) : Prop :=
  (o' = o.under c ∧ c.Affords o.session.steps) ∨ CutShort c c' o o'

/-- From every session with the limits `c'` on, the computation meets itself under the limits `c`. -/
def Transparent {α : Type} (c c' : Limits) (P : α → Prop) (m : Eval α) : Prop :=
  ∀ s, s.limits = c' → Advances P s (m s) ∧ (c.Affords s.steps → Meets c c' (m s) (m (s.under c)))

section

variable {α β : Type} {c c' : Limits} {P : α → Prop} {Q : β → Prop}

/-- How a step ends that neither counts nor looks at the limits. -/
inductive Blind {α : Type} (c : Limits) (P : α → Prop) (m : Eval α) (s : Session) : Prop
  | done (a : α) (t : Session) (ha : P a) (h : m s = .done a t) (hc : m (s.under c) = .done a (t.under c))
      (hl : t.limits = s.limits) (hn : t.steps = s.steps) (ht : s.trades.records <+: t.trades.records)
  | failed (cause : RuntimeFault) (line : Nat) (h : m s = .failed (.fault cause line) s)
      (hc : m (s.under c) = .failed (.fault cause line) (s.under c))

theorem transparent_of_blind {m : Eval α} (h : ∀ s, Blind c P m s) : Transparent c c' P m := by
  intro s _
  rcases h s with ⟨a, t, ha, h, hc, hl, hn, ht⟩ | ⟨cause, line, h, hc⟩
  · rw [h, hc]
    refine ⟨⟨fun b u hb => ?_, hl, ht, hn.ge, nofun⟩, fun hs => .inl ⟨rfl, ?_⟩⟩
    · cases hb; exact ha
    · exact hn ▸ hs
  · rw [h, hc]
    exact ⟨⟨nofun, rfl, List.prefix_refl _, le_rfl, nofun⟩,
      fun hs => .inl ⟨rfl, hs⟩⟩

theorem CutShort.bind {m : Eval α} {f : α → Eval β} {s : Session} {a : α} {t : Session}
    (h : CutShort c c' (m s) (m (s.under c))) (hm : m s = .done a t) (hf : Advances Q t (f a t)) :
    CutShort c c' (f a t) ((m >>= f) (s.under c)) := by
  obtain ⟨e, u, hu, htr, hwhy⟩ := h
  rw [hm] at htr hwhy
  refine ⟨e, u, bind_failed f hu, htr.trans hf.trades, ?_⟩
  rcases hwhy with ⟨limit, hl, he, hlt⟩ | hdepth
  · exact .inl ⟨limit, hl, he, hlt.trans_le hf.steps⟩
  · exact .inr hdepth

theorem Meets.congr {o o' : Outcome α} {p p' : Outcome β} (h : Meets c c' o o')
    (ht : p.session.trades = o.session.trades) (hn : p.session.steps = o.session.steps)
    (hsame : o' = o.under c → p' = p.under c)
    (hf : ∀ e u, o' = .failed e u → ∃ v, p' = .failed e v ∧ v.trades = u.trades) : Meets c c' p p' := by
  rcases h with ⟨ho, ha⟩ | ⟨e, u, hu, htr, hwhy⟩
  · exact .inl ⟨hsame ho, by rw [hn]; exact ha⟩
  · obtain ⟨v, hv, hvu⟩ := hf e u hu
    exact .inr ⟨e, v, hv, by rw [hvu, ht]; exact htr, by rw [hn]; exact hwhy⟩

theorem Transparent.bind {m : Eval α} {f : α → Eval β} (h : Transparent c c' P m)
    (hf : ∀ a, P a → Transparent c c' Q (f a)) : Transparent c c' Q (m >>= f) := by
  intro s hs
  obtain ⟨hadv, hmeet⟩ := h s hs
  have hfail : ∀ e u, m (s.under c) = .failed e u → ∃ v, (m >>= f) (s.under c) = .failed e v ∧ v.trades = u.trades :=
    fun e u hu => ⟨u, bind_failed f hu, rfl⟩
  cases hm : m s with
  | done a t =>
    rw [hm] at hadv
    obtain ⟨hadv', hmeet'⟩ := hf a (hadv.gives a t rfl) t (hadv.limits.trans hs)
    rw [bind_done f hm]
    refine ⟨hadv.trans hadv', fun ha => ?_⟩
    rcases hmeet ha with ⟨hsame, hb⟩ | hcut
    · -- both sides are through with `m`, and `f` goes on from the same session
      rw [hm] at hsame hb
      rw [bind_done f hsame]
      exact hmeet' hb
    · -- cut short within `m`: what `f` adds on the wide side only comes later
      exact .inr (hcut.bind hm hadv')
  | failed e t =>
    rw [hm] at hadv hmeet
    rw [bind_failed f hm]
    refine ⟨hadv.congr nofun rfl rfl rfl fun e' u h => ?_, fun ha => ?_⟩
    · cases h; exact ⟨t, rfl⟩
    · exact (hmeet ha).congr rfl rfl (fun ho => bind_failed f ho) hfail
  | unfinished t =>
    rw [hm] at hadv hmeet
    rw [bind_unfinished f hm]
    refine ⟨hadv.congr nofun rfl rfl rfl nofun, fun ha => ?_⟩
    exact (hmeet ha).congr rfl rfl (fun ho => bind_unfinished f ho) hfail

/-- The step that counts: one side may refuse it while the other goes on. -/
theorem Transparent.tick (hc : c.Tighter c') : Transparent c c' (fun _ => True) tick := by
  intro s hs
  have hsteps : (Eval.tick s).session = { s with steps := s.steps + 1 } := session_tick s
  refine ⟨⟨fun _ _ _ => trivial, by rw [hsteps], by rw [hsteps], by rw [hsteps]; exact Nat.le_succ _,
    fun limit t h => tick_failed h⟩, fun _ => ?_⟩
  by_cases hb : c.Affords (s.steps + 1)
  · -- both sides go on
    have hwide := tick_within (s := s) (by rw [hs]; exact hc.affords hb)
    refine .inl ⟨?_, by rw [hsteps]; exact hb⟩
    rw [hwide, tick_within (s := s.under c) hb]
    rfl
  · -- the tighter side stops here
    obtain ⟨limit, hl, hlt⟩ := Limits.not_affords hb
    refine .inr ⟨_, _, tick_beyond (s := s.under c) hl hlt, ?_, .inl ⟨limit, hl, rfl, by rw [hsteps]; exact hlt⟩⟩
    rw [hsteps]
    exact List.prefix_refl _

/-- Entering a scope and leaving it again changes nothing that limits are about. -/
theorem Transparent.restoring {m : Eval α} (h : Transparent c c' P m) {s : Session} (hs : s.limits = c')
    {u : Session} (hl : u.limits = s.limits) (ht : u.trades = s.trades) (hn : u.steps = s.steps) (adjust : Nat → Nat) :
    Advances P s (restoring s.current adjust (m u)) ∧ (c.Affords s.steps →
      Meets c c' (restoring s.current adjust (m u)) (restoring s.current adjust (m (u.under c)))) := by
  obtain ⟨hadv, hmeet⟩ := h u (hl.trans hs)
  obtain ⟨rl, rt, rn⟩ := session_restoring (m u) s.current adjust
  refine ⟨⟨fun a t ho => ?_, by rw [rl, hadv.limits, hl], by rw [rt, ← ht]; exact hadv.trades,
    by rw [rn, ← hn]; exact hadv.steps, fun limit t ho => ?_⟩, fun ha => ?_⟩
  · obtain ⟨v, hv, -⟩ := restoring_done ho
    exact hadv.gives a v hv
  · obtain ⟨v, hv, -⟩ := restoring_failed ho
    exact hl ▸ hadv.budget limit v hv
  · refine (hmeet (by rw [hn]; exact ha)).congr rt rn (fun ho => ?_) fun e v ho => ?_
    · rw [ho, Outcome.restoring_under]
    · exact ⟨{ v with current := s.current, depth := adjust v.depth }, by rw [ho]; rfl, rfl⟩

theorem Transparent.inBlock {m : Eval α} (h : Transparent c c' P m) : Transparent c c' P (inBlock m) :=
  fun s hs => h.restoring hs (u := { s with scopes := s.scopes.addChild s.current [], current := s.scopes.size })
    rfl rfl rfl id

/-- Calls may be refused on both sides, with one error if the depths agree, or on the tighter one. -/
theorem Transparent.inCall (hc : c.Tighter c') {m : Eval α} {parent : ScopeId} {bindings : Dictionary Value}
    {line : Nat} (h : Transparent c c' P m) :
    Transparent c c' P (do checkDepth line; Eval.inCall parent bindings m) := by
  intro s hs
  obtain ⟨hadv, hmeet⟩ := h.restoring hs (u := { s with
    scopes := s.scopes.addChild parent bindings, current := s.scopes.size, depth := s.depth + 1 }) rfl rfl rfl (· - 1)
  have hwide := call_eq parent bindings line m s
  have htight := call_eq parent bindings line m (s.under c)
  have hrefused : ∀ o, c.maxCallDepth ≤ s.depth → c.maxCallDepth < c'.maxCallDepth →
      s.trades.records <+: o.session.trades.records →
      CutShort c c' o ((do checkDepth line; Eval.inCall parent bindings m : Eval α) (s.under c)) :=
    fun o hd hlt htr =>
      ⟨_, s.under c, htight.trans (if_pos hd), htr, .inr ⟨line, rfl, hlt⟩⟩
  by_cases hd' : c'.maxCallDepth ≤ s.depth
  · rw [if_pos (hs ▸ hd')] at hwide
    rw [hwide]
    refine ⟨⟨nofun, rfl, List.prefix_refl _, le_rfl, nofun⟩, fun ha => ?_⟩
    rcases hc.depth.eq_or_lt with heq | hlt
    · refine .inl ⟨(htight.trans (if_pos ?_)).trans ?_, ha⟩
      · rw [← heq] at hd'
        exact hd'
      · rw [hs, ← heq]
        rfl
    · exact .inr (hrefused _ (hlt.le.trans hd') hlt (List.prefix_refl _))
  · rw [if_neg (hs ▸ hd')] at hwide
    rw [hwide]
    refine ⟨hadv, fun ha => ?_⟩
    by_cases hd : c.maxCallDepth ≤ s.depth
    · exact .inr (hrefused _ hd (hd.trans_lt (Nat.not_le.1 hd')) hadv.trades)
    · rw [htight.trans (if_neg hd)]
      exact hmeet ha

/-! ## Every run -/

/-- Running under tighter limits, as an invariant of computations. -/
def transparent (hc : c.Tighter c') : Invariant where
  allows _ := True
  fits _ := True
  Holds := Transparent c c'
  fits_plain _ _ := trivial
  fits_at _ _ := trivial
  allows_decl _ _ _ := trivial
  pure ha := transparent_of_blind fun s => .done _ s ha rfl rfl rfl rfl (List.prefix_refl _)
  bind h hf := h.bind hf
  outOfFuel s _ := ⟨⟨nofun, rfl, List.prefix_refl _, le_rfl, nofun⟩,
    fun ha => .inl ⟨rfl, ha⟩⟩
  fault := transparent_of_blind fun _ => .failed _ _ rfl rfl
  tick := .tick hc
  lookup {x line} _ := transparent_of_blind fun s => by
    cases h : s.scopes.lookup s.current x with
    | some v =>
      exact .done v s trivial (by rw [lookup_eq, h]) (by rw [lookup_eq, Session.under, h]) rfl rfl (List.prefix_refl _)
    | none => exact .failed _ _ (by rw [lookup_eq, h]) (by rw [lookup_eq, Session.under, h])
  assign {x v line} _ _ := transparent_of_blind fun s => by
    cases h : s.scopes.resolve s.current x with
    | some owner =>
      exact .done () { s with scopes := s.scopes.define owner x v } trivial (by rw [assign, h])
        (by rw [assign, Session.under, h]; rfl) rfl rfl (List.prefix_refl _)
    | none => exact .failed _ _ (by rw [assign, h]) (by rw [assign, Session.under, h])
  define _ _ := transparent_of_blind fun _ => .done _ _ trivial rfl rfl rfl rfl (List.prefix_refl _)
  newFunction _ _ := transparent_of_blind fun _ => .done _ _ trivial rfl rfl rfl rfl (List.prefix_refl _)
  inBlock h := h.inBlock
  inCall _ _ _ h := h.inCall hc
  trade := transparent_of_blind fun _ => .done _ _ trivial rfl rfl rfl rfl ⟨_, (TradeLog.records_emit ..).symm⟩
  callBuiltin {b args line} _ _ := transparent_of_blind fun s => by
    cases h : b.apply s.market s.trades args with
    | ok r =>
      obtain ⟨v, log⟩ := r
      exact .done v { s with trades := log } trivial (by rw [callBuiltin, h])
        (by rw [callBuiltin, Session.under, h]; rfl) rfl rfl (Builtin.records_apply h)
    | error fault => exact .failed _ _ (by rw [callBuiltin, h]) (by rw [callBuiltin, Session.under, h])

end

namespace Ending

/-- The run failed at one of these limits. -/
def AtLimit (c : Limits) (e : Ending) : Prop :=
  (∃ limit, c.maxSteps = some limit ∧ e = .failure (.stepLimitExceeded limit)) ∨
    ∃ line, e = .failure (.fault (.callDepthExceeded c.maxCallDepth) line)

end Ending

namespace Session

/-- Nobody can tell the two runs apart: the ending, the trades and the globals are the same. -/
structure SameResult (e : Ending) (t : Session) (e' : Ending) (t' : Session) : Prop where
  ending : e = e'
  trades : t.trades.records = t'.trades.records
  globals : t.scopes.bindings globalScope = t'.scopes.bindings globalScope

theorem conclude_under (o : Outcome Unit) (c : Limits) :
    conclude (o.under c) = ((conclude o).1, (conclude o).2.under c) := by
  cases o <;> rfl

/-- A run that ends under wider limits ends under tighter ones: with the same result, or at one of
the tighter limits with the first of the trades. Where only the budgets differ, the result is the
same exactly when the tighter one is enough. -/
theorem ends_under_tighter_limits {s t' : Session} {p : Program} {market : Market} {c c' : Limits} {e' : Ending}
    (hc : c.Tighter c') (h : (s.under c').Ends p market e' t') :
    ∃ e t, (s.under c).Ends p market e t ∧
      (SameResult e t e' t' ∨ e.AtLimit c ∧ t.trades.records <+: t'.trades.records) ∧
      (c.maxCallDepth = c'.maxCallDepth → c.maxSteps ≠ c'.maxSteps →
        (SameResult e t e' t' ↔ c.Affords t'.steps)) := by
  obtain ⟨he', fuel, hrun⟩ := h
  obtain ⟨hadv, hmeet⟩ := (transparent hc).program fuel p (fun _ _ => trivial) ((s.under c').prepare market) rfl
  have hmeet := hmeet fun _ _ => Nat.zero_le _
  rw [run_eq] at hrun
  generalize executeProgram fuel p ((s.under c').prepare market) = o at hadv hmeet hrun
  obtain ⟨htrades, hsteps⟩ := conclude_session o
  rw [hrun] at htrades hsteps
  have hends : ∀ {e t}, e ≠ .unfinished →
      conclude (executeProgram fuel p (((s.under c').prepare market).under c)) = (e, t) →
      (s.under c).Ends p market e t := fun he h => ⟨he, fuel, h⟩
  rcases hmeet with ⟨hsame, hb⟩ | ⟨e, u, hu, htr, hwhy⟩
  · have hagree : SameResult e' (t'.under c) e' t' := ⟨rfl, rfl, rfl⟩
    refine ⟨e', t'.under c, hends he' ?_, .inl hagree, fun _ _ => ⟨fun _ => hsteps ▸ hb, fun _ => hagree⟩⟩
    rw [hsame, conclude_under, hrun]
  · refine ⟨.failure e, { u with current := globalScope }, hends nofun (by rw [hu]; rfl),
      .inr ⟨?_, htrades ▸ htr⟩, fun hdepth hne => ?_⟩
    · rcases hwhy with ⟨limit, hl, rfl, -⟩ | ⟨line, rfl, -⟩
      · exact .inl ⟨limit, hl, rfl⟩
      · exact .inr ⟨line, rfl⟩
    · rcases hwhy with ⟨limit, hl, rfl, hlt⟩ | ⟨line, rfl, hlt⟩
      · refine ⟨fun hsame => ?_, fun ha => absurd (hsteps ▸ ha limit hl) (Nat.not_le.2 hlt)⟩
        -- the wider run cannot have failed at a budget that is not its own
        cases o with
        | failed f v =>
          cases hrun
          obtain rfl : .stepLimitExceeded limit = f := Ending.failure.inj hsame.ending
          exact absurd (hl.trans (hadv.budget limit v rfl).symm) hne
        | done _ _ => cases hrun; exact absurd hsame.ending nofun
        | unfinished _ => cases hrun; exact absurd hsame.ending nofun
      · exact absurd hdepth hlt.ne

/-- Two trades with a budget of one step: the second one is missing. -/
theorem ends_at_budget_of_one :
    let p : Program := [.trade .buy [] 1, .trade .sell [] 2]
    let s := Session.new {}
    ∃ t', (s.under ⟨none, 64⟩).Ends p .empty .success t' ∧ t'.steps = 2 ∧
      ∃ e t, (s.under ⟨some 1, 64⟩).Ends p .empty e t ∧ e.AtLimit ⟨some 1, 64⟩ ∧
        t.trades.records <+: t'.trades.records := by
  intro p s
  have hends : (s.under ⟨none, 64⟩).Ends p .empty .success ((s.under ⟨none, 64⟩).run 5 p .empty).2 :=
    ⟨nofun, 5, rfl⟩
  have htighter : Limits.Tighter ⟨some 1, 64⟩ ⟨none, 64⟩ := ⟨nofun, le_rfl⟩
  obtain ⟨e, t, hrun, hor, hiff⟩ := ends_under_tighter_limits htighter hends
  refine ⟨_, hends, rfl, e, t, hrun, hor.resolve_left fun hsame => ?_⟩
  exact absurd ((hiff rfl nofun).1 hsame 1 rfl) (by decide)

end Session

end StrategyScript
