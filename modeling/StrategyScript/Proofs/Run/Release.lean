/-
An interpreter that releases scopes beside one that keeps them all. Both do the same in the same order,
and what they have bound in scopes that can still be come to is the same at all times; so nobody can tell
them apart. All that the releasing one does is made of steps, and it goes back to where it was, one scope
apart, as the keeping one does.

The proof is one induction on the fuel. At each point the second session and what is held there make up an
interpreter at work, which is known to be sound; from the first session nothing but its bindings is asked.
-/
import StrategyScript.Proofs.Run.Live
import StrategyScript.Proofs.Run.Limits
import StrategyScript.Proofs.Syntax.Declared

namespace StrategyScript

open Eval
open Session (globalScope)

/-! ## What is held -/

/-- The same frames, and no values but the other's. -/
structure Held.Part (h h' : Held) : Prop where
  frames : h.frames = h'.frames
  values : h.values ⊆ h'.values

section

variable {h h' : Held}

theorem Held.Part.refl (h : Held) : h.Part h := ⟨rfl, List.Subset.refl _⟩

theorem Held.Part.trans {h'' : Held} (hp : h.Part h') (hp' : h'.Part h'') : h.Part h'' :=
  ⟨hp.frames.trans hp'.frames, List.Subset.trans hp.values hp'.values⟩

theorem Held.part_hold (h : Held) (vs : List Value) : h.Part (h.hold vs) := ⟨rfl, List.subset_append_right _ _⟩

theorem Held.Part.hold (hp : h.Part h') (vs : List Value) : (h.hold vs).Part (h'.hold vs) :=
  ⟨hp.frames, List.append_subset.2 ⟨List.subset_append_left _ _, List.subset_append_of_subset_right _ hp.values⟩⟩

theorem Live.Step.part {s : Session} (hp : h.Part h') : Live.Step ⟨s, h'⟩ ⟨s, h⟩ := by
  obtain ⟨frames, values⟩ := h
  obtain ⟨frames', values'⟩ := h'
  obtain ⟨rfl, hvalues⟩ := hp
  exact .drop hvalues

end

/-! ## Two interpreters -/

/-- The interpreter has come as far as the session, but its scopes may bind less where nobody comes. -/
structure Session.FollowedBy (s : Session) (l : Live) : Prop where
  sound : l.Sound
  same : ∃ scopes retained, l.session = { s with scopes, retained }
  scopes : s.scopes.AgreesOn l.Reaches l.session.scopes

namespace Session.FollowedBy

variable {s t : Session} {l l' : Live} {h h' : Held}

theorem refl (hl : l.Sound) : l.session.FollowedBy l := ⟨hl, ⟨_, _, rfl⟩, .refl _ _⟩

theorem step (hs : s.FollowedBy l) (h : Live.Step l l') (hsame : ∃ scopes retained, l'.session = { t with scopes, retained })
    (hscopes : s.scopes.AgreesOn l'.Reaches l.session.scopes → t.scopes.AgreesOn l'.Reaches l'.session.scopes) :
    t.FollowedBy l' := ⟨h.sound hs.sound, hsame, hscopes (hs.scopes.mono fun _ => h.reaches)⟩

theorem part {t : Session} (hs : s.FollowedBy ⟨t, h'⟩) (hp : h.Part h') : s.FollowedBy ⟨t, h⟩ :=
  hs.step (.part hp) hs.same id

/-- A scope that is let go may lose its bindings if nobody comes to it. -/
theorem letGo {t : Session} (hs : s.FollowedBy ⟨t, h⟩) {i : ScopeId} (hi : i < t.scopes.size) :
    s.FollowedBy ⟨t.letGo h i, h⟩ := by
  have hstep : Live.Step ⟨t, h⟩ ⟨t.letGo h i, h⟩ := .letGo h hi
  have hcases : (∃ retained, t.letGo h i = { t with retained }) ∨
      t.letGo h i = { t with scopes := t.scopes.clear i } ∧ ¬ Live.Reaches ⟨t, h⟩ i := hs.sound.letGo hi
  obtain ⟨scopes, retained, hsame⟩ := hs.same
  dsimp only at hsame
  generalize t.letGo h i = t₁ at hstep hcases ⊢
  rcases hcases with ⟨retained', rfl⟩ | ⟨rfl, hnot⟩
  · exact hs.step hstep ⟨scopes, retained', by rw [hsame]⟩ id
  · refine hs.step hstep ⟨scopes.clear i, retained, by rw [hsame]⟩ fun hagrees => ?_
    exact hagrees.clear fun hr => (hstep.reaches hr).elim hnot (Nat.not_le.2 hi)

theorem lookup (hs : s.FollowedBy l) (x : String) :
    l.session.scopes.lookup l.session.current x = s.scopes.lookup l.session.current x :=
  hs.scopes.lookup (Forest.closed_reaches ..) l.reaches_current

theorem resolve (hs : s.FollowedBy l) (x : String) :
    l.session.scopes.resolve l.session.current x = s.scopes.resolve l.session.current x :=
  hs.scopes.resolve (Forest.closed_reaches ..) l.reaches_current

end Session.FollowedBy

/-- The same ending in both sessions, where the second one begins in `l` and ends with `h` and the values
of its result held; names that are new to its current scope are among the given ones. -/
inductive Outcome.Agrees {α : Type} (l : Live) (h : Held) (names : List String) (values : α → List Value) :
    Outcome α → Outcome α → Prop
  | done {a : α} {s t : Session} (hs : s.FollowedBy ⟨t, h.hold (values a)⟩) (hl : l.Steps ⟨t, h.hold (values a)⟩)
      (hr : l.session.Returns names t) : Agrees l h names values (.done a s) (.done a t)
  | failed {e : RuntimeError} {s t : Session} (hs : s.FollowedBy ⟨t, h⟩) (hl : l.Steps ⟨t, h⟩)
      (hr : l.session.Returns names t) : Agrees l h names values (.failed e s) (.failed e t)
  | unfinished {s t : Session} {h' : Held} (hs : s.FollowedBy ⟨t, h'⟩) (hl : l.Steps ⟨t, h'⟩) :
      Agrees l h names values (.unfinished s) (.unfinished t)

section

variable {α β : Type} {l l' : Live} {h h' : Held} {names names' : List String} {values : α → List Value}
  {values' : β → List Value} {o o' : Outcome α} {s t : Session} {v : Value}

/-! ## Composition -/

namespace Outcome.Agrees

theorem mono (ho : o.Agrees l h names values o') (hsub : names ⊆ names') : o.Agrees l h names' values o' := by
  cases ho with
  | done hs hl hr => exact .done hs hl (hr.mono hsub)
  | failed hs hl hr => exact .failed hs hl (hr.mono hsub)
  | unfinished hs hl => exact .unfinished hs hl

/-- In the end something that was held beside is held no longer. -/
theorem lower (ho : o.Agrees l h' names values o') (hp : h.Part h') : o.Agrees l h names values o' := by
  cases ho with
  | @done a s t hs hl hr => exact .done (hs.part (hp.hold _)) (hl.trans (Live.Step.part (hp.hold _)).steps) hr
  | failed hs hl hr => exact .failed (hs.part hp) (hl.trans (Live.Step.part hp).steps) hr
  | unfinished hs hl => exact .unfinished hs hl

/-- Steps that come before, and return. -/
theorem after (ho : o.Agrees l' h names values o') (hl : l.Steps l') (hr : l.session.Returns names l'.session) :
    o.Agrees l h names values o' := by
  cases ho with
  | done hs hl' hr' => exact .done hs (hl.trans hl') (hr.trans hr')
  | failed hs hl' hr' => exact .failed hs (hl.trans hl') (hr.trans hr')
  | unfinished hs hl' => exact .unfinished hs (hl.trans hl')

/-- From the beginning something that is held is not needed. -/
theorem part (ho : o.Agrees ⟨t, h'⟩ h names values o') (hp : h'.Part l.held) (ht : l.session = t) :
    o.Agrees l h names values o' := by
  subst ht
  exact ho.after (Live.Step.part hp).steps (.refl _ _)

/-- One computation after another, with what the first one holds and its result held in between. -/
theorem bind {m m' : Eval α} {f f' : α → Eval β} (ho : (m s).Agrees l h' names values (m' t)) (hp : h.Part h')
    (hf : ∀ a u v, u.FollowedBy ⟨v, h'.hold (values a)⟩ →
      (f a u).Agrees ⟨v, h'.hold (values a)⟩ h names values' (f' a v)) :
    ((m >>= f) s).Agrees l h names values' ((m' >>= f') t) := by
  generalize hm : m s = o at ho
  generalize hm' : m' t = o' at ho
  cases ho with
  | done hs hl hr =>
    rw [bind_done f hm, bind_done f' hm']
    exact (hf _ _ _ hs).after hl hr
  | failed hs hl hr =>
    rw [bind_failed f hm, bind_failed f' hm']
    exact .failed (hs.part hp) (hl.trans (Live.Step.part hp).steps) hr
  | unfinished hs hl =>
    rw [bind_unfinished f hm, bind_unfinished f' hm']
    exact .unfinished hs hl

end Outcome.Agrees

/-! ## Results -/

theorem Live.Knows.hold (hv : l.Knows v) (vs : List Value) : Live.Knows ⟨l.session, l.held.hold vs⟩ v := by
  refine hv.mono fun f hf => hf.of_closed (Forest.closed_reaches ..) fun i hi => .root ?_
  rcases List.mem_append.1 hi with hi | hi
  · exact List.mem_append_left _ hi
  · refine List.mem_append_right _ (List.map_subset _ ?_ hi)
    exact fun g hg => (List.mem_flatMap.1 hg).elim fun w hw =>
      List.mem_flatMap.2 ⟨w, List.mem_append_right _ hw.1, hw.2⟩

theorem Live.steps_hold {vs : List Value} (hvs : ∀ v ∈ vs, l.Knows v) : l.Steps ⟨l.session, l.held.hold vs⟩ := by
  induction vs with
  | nil => exact .refl
  | cons v vs ih =>
    obtain ⟨hv, hvs⟩ := List.forall_mem_cons.1 hvs
    exact (ih hvs).trans (Step.hold (hv.hold vs)).steps

theorem Session.FollowedBy.steps (hs : s.FollowedBy l) (hl : l.Steps ⟨l.session, h⟩) : s.FollowedBy ⟨l.session, h⟩ :=
  ⟨hl.sound hs.sound, hs.same, hs.scopes.mono fun i hi => by
    rcases Nat.lt_or_ge i l.session.scopes.size with hlt | hge
    · exact .inl (hl.reaches hlt hi)
    · exact .inr hge⟩

/-- A result that refers to nothing new. -/
theorem agrees_done {a : α} (hs : s.FollowedBy l) (hp : h.Part l.held) (ha : ∀ v ∈ values a, l.Knows v) :
    Outcome.Agrees l h names values (.done a s) (.done a l.session) := by
  have hl : l.Steps ⟨l.session, h.hold (values a)⟩ := (Live.steps_hold ha).trans (Live.Step.part (hp.hold _)).steps
  exact .done (hs.steps hl) hl (.refl _ _)

theorem agrees_value (hs : s.FollowedBy l) (hp : h.Part l.held) (hv : l.Knows v) :
    Outcome.Agrees l h names (fun v => [v]) (.done v s) (.done v l.session) :=
  agrees_done hs hp (List.forall_mem_singleton.2 hv)

theorem agrees_failed (hs : s.FollowedBy l) (hp : h.Part l.held) (e : RuntimeError) :
    Outcome.Agrees l h names values (.failed e s) (.failed e l.session) := by
  have hl : l.Steps ⟨l.session, h⟩ := (Live.Step.part hp).steps
  exact .failed (hs.steps hl) hl (.refl _ _)

theorem agrees_ofExcept {r : Except RuntimeError Value} (hs : s.FollowedBy l) (hp : h.Part l.held)
    (hr : ∀ v, r = .ok v → l.Knows v) :
    (ofExcept r s).Agrees l h names (fun v => [v]) (ofExcept r l.session) := by
  cases r with
  | ok v => exact agrees_value hs hp (hr v rfl)
  | error e => exact agrees_failed hs hp e

/-! ## Single steps -/

/-- A step that concerns no scope and has no result to be held. -/
theorem Session.FollowedBy.other {s₁ t₁ : Session} (hs : s.FollowedBy l)
    (hsame : ∃ scopes retained, t₁ = { s₁ with scopes, retained }) (hscopes : s₁.scopes = s.scopes)
    (ht : t₁.scopes = l.session.scopes) (hc : t₁.current = l.session.current) : s₁.FollowedBy ⟨t₁, l.held⟩ :=
  hs.step (.other ht (.inl hc)) hsame fun h => by rw [hscopes, ht]; exact h

theorem agrees_tick (hs : s.FollowedBy l) :
    (tick s).Agrees l l.held names (fun _ => []) (tick l.session) := by
  obtain ⟨scopes, retained, hsame⟩ := hs.same
  have hcounted : s.counted.FollowedBy ⟨l.session.counted, l.held⟩ :=
    hs.other ⟨scopes, retained, by rw [hsame]; rfl⟩ rfl rfl rfl
  have hstep : Live.Step l ⟨l.session.counted, l.held⟩ := .other rfl (.inl rfl)
  have hr : l.session.Returns names l.session.counted := l.session.returns_counted.mono (List.nil_subset _)
  have hlimits : l.session.limits = s.limits := by rw [hsame]
  have hsteps : l.session.steps = s.steps := by rw [hsame]
  by_cases hb : s.limits.Affords (s.steps + 1)
  · rw [tick_within hb, tick_within (s := l.session) (by rwa [hlimits, hsteps])]
    exact .done hcounted hstep.steps hr
  · obtain ⟨limit, hmax, hlt⟩ := Limits.not_affords hb
    rw [tick_beyond hmax hlt, tick_beyond (s := l.session) (hlimits ▸ hmax) (hsteps ▸ hlt)]
    exact .failed hcounted hstep.steps hr

theorem agrees_lookup (hs : s.FollowedBy l) (x : String) (line : Nat) :
    (lookup x line s).Agrees l l.held names (fun v => [v]) (lookup x line l.session) := by
  obtain ⟨scopes, retained, hsame⟩ := hs.same
  have hcurrent : l.session.current = s.current := by rw [hsame]
  rw [lookup_eq, lookup_eq, hs.lookup, hcurrent]
  cases hv : s.scopes.lookup s.current x with
  | none => exact agrees_failed hs (.refl _) _
  | some v =>
    have hlookup := (hs.lookup x).trans ((congrArg (s.scopes.lookup · x) hcurrent).trans hv)
    obtain ⟨i, hi, hbound⟩ := Option.bind_eq_some_iff.1 hlookup
    have hreached : l.Reaches i := (Forest.closed_reaches ..).resolve l.reaches_current hi
    exact agrees_value hs (.refl _) (hs.sound.knows_bound hreached hbound)

theorem agrees_assign (hs : s.FollowedBy l) (hv : v ∈ l.held.values) (x : String) (line : Nat) :
    (assign x v line s).Agrees l l.held names (fun _ => []) (assign x v line l.session) := by
  obtain ⟨scopes, retained, hsame⟩ := hs.same
  have hcurrent : l.session.current = s.current := by rw [hsame]
  have hresolve := (hs.resolve x).trans (congrArg (s.scopes.resolve · x) hcurrent)
  unfold assign
  rw [hresolve]
  cases ho : s.scopes.resolve s.current x with
  | none => exact agrees_failed hs (.refl _) _
  | some owner =>
    have hreached : l.Reaches owner := (Forest.closed_reaches ..).resolve l.reaches_current (hresolve.trans ho)
    have hstep : Live.Step l ⟨l.session.binding owner x v, l.held⟩ := .bind x hreached hv
    exact .done (hs.step hstep ⟨_, retained, by rw [hsame]⟩ (·.define owner x v)) hstep.steps
      ((Session.returns_assign (hresolve.trans ho) v).mono (List.nil_subset _))

theorem agrees_define (hs : s.FollowedBy l) (hv : v ∈ l.held.values) (x : String) :
    (define x v s).Agrees l l.held [x] (fun _ => []) (define x v l.session) := by
  obtain ⟨scopes, retained, hsame⟩ := hs.same
  have hcurrent : s.current = l.session.current := by rw [hsame]
  have hstep : Live.Step l ⟨l.session.binding l.session.current x v, l.held⟩ := .bind x l.reaches_current hv
  refine .done (hs.step hstep ⟨_, retained, by rw [hsame]⟩ ?_) hstep.steps (l.session.returns_define x v)
  show _ → (s.scopes.define s.current x v).AgreesOn _ _
  rw [hcurrent]
  exact (·.define _ x v)

theorem agrees_newFunction (hs : s.FollowedBy l) (decl : FunctionDecl) :
    (newFunction decl s).Agrees l l.held names (fun f => [.function f]) (newFunction decl l.session) := by
  obtain ⟨scopes, retained, hsame⟩ := hs.same
  let f : Function := ⟨l.session.nextFunction, decl, l.session.current⟩
  have hnumbered : s.numbered.FollowedBy ⟨l.session.numbered, l.held⟩ :=
    hs.other ⟨scopes, retained, by rw [hsame]; rfl⟩ rfl rfl rfl
  have hstep : Live.Step l ⟨l.session.numbered, l.held⟩ := .other rfl (.inl rfl)
  have hknown : Live.Knows ⟨l.session.numbered, l.held⟩ (.function f) := Value.fits_function (Live.reaches_current _)
  have hnew : newFunction decl s = .done f s.numbered := by
    have hf : f = ⟨s.nextFunction, decl, s.current⟩ := by simp only [f, hsame]
    rw [hf]
    rfl
  have hdone : Outcome.Agrees ⟨l.session.numbered, l.held⟩ l.held names (fun f => [.function f]) (.done f s.numbered)
      (.done f l.session.numbered) := agrees_done hnumbered (.refl _) (List.forall_mem_singleton.2 hknown)
  rw [hnew]
  exact hdone.after hstep.steps (l.session.returns_numbered.mono (List.nil_subset _))

theorem agrees_trade (hs : s.FollowedBy l) (action : TradeAction) (order : Argument.Order) :
    (trade action order s).Agrees l l.held names (fun _ => []) (trade action order l.session) := by
  obtain ⟨scopes, retained, hsame⟩ := hs.same
  have hlogged : (s.logged (s.trades.trade s.market action order)).FollowedBy
      ⟨l.session.logged (l.session.trades.trade l.session.market action order), l.held⟩ :=
    hs.other ⟨scopes, retained, by rw [hsame]; rfl⟩ rfl rfl rfl
  have hstep : Live.Step l ⟨l.session.logged (l.session.trades.trade l.session.market action order), l.held⟩ :=
    .other rfl (.inl rfl)
  exact .done hlogged hstep.steps
    ((Session.returns_logged ⟨_, (TradeLog.records_emit ..).symm⟩).mono (List.nil_subset _))

theorem agrees_callBuiltin (hs : s.FollowedBy l) (b : Builtin) (args : List Value) (line : Nat) (hp : h.Part l.held) :
    (callBuiltin b args line s).Agrees l h names (fun v => [v]) (callBuiltin b args line l.session) := by
  obtain ⟨scopes, retained, hsame⟩ := hs.same
  have happly : b.apply s.market s.trades args = b.apply l.session.market l.session.trades args := by rw [hsame]
  unfold callBuiltin
  rw [happly]
  cases hb : b.apply l.session.market l.session.trades args with
  | error fault => exact agrees_failed hs hp _
  | ok r =>
    obtain ⟨v, log⟩ := r
    have hlogged : (s.logged log).FollowedBy ⟨l.session.logged log, l.held⟩ :=
      hs.other ⟨scopes, retained, by rw [hsame]; rfl⟩ rfl rfl rfl
    have hstep : Live.Step l ⟨l.session.logged log, l.held⟩ := .other rfl (.inl rfl)
    have hdata : Live.Knows ⟨l.session.logged log, l.held⟩ v := Value.fits_data (Builtin.apply_data hb)
    exact (agrees_value hlogged hp hdata).after hstep.steps
      ((Session.returns_logged (Builtin.records_apply hb)).mono (List.nil_subset _))

theorem agrees_checkDepth (hs : s.FollowedBy l) (line : Nat) :
    (checkDepth line s).Agrees l l.held names (fun _ => []) (checkDepth line l.session) := by
  obtain ⟨scopes, retained, hsame⟩ := hs.same
  have hlimit : l.session.limits.maxCallDepth = s.limits.maxCallDepth := by rw [hsame]
  have hdepth : l.session.depth = s.depth := by rw [hsame]
  unfold checkDepth
  rw [hlimit, hdepth]
  split
  · exact agrees_failed hs (.refl _) _
  · exact agrees_done hs (.refl _) nofun

/-! ## New scopes -/

theorem Session.Returns.letGo {s t : Session} (hr : s.Returns names t) (h : Held) {i : ScopeId}
    (hi : s.scopes.size ≤ i) : s.Returns names (t.letGo h i) := by
  rcases t.letGo_cases h i with ⟨retained, heq⟩ | ⟨heq, -⟩
  · rw [heq]
    exact ⟨⟨hr.market, hr.limits, hr.steps, hr.trades, hr.scopes⟩, hr.current, hr.depth, hr.binds⟩
  · rw [heq]
    have hsame : ∀ j x, j < s.scopes.size → ((t.scopes.clear i).Binds j x ↔ t.scopes.Binds j x) := fun j x hj => by
      unfold Forest.Binds
      rw [Forest.bindings_clear, if_neg (hj.trans_le hi).ne]
    refine ⟨⟨hr.market, hr.limits, hr.steps, hr.trades, ?_⟩, hr.current, hr.depth, fun j x hj hx => ?_⟩
    · exact ⟨hr.scopes.size.trans_eq (Forest.size_clear ..).symm, fun j hj => (Forest.chain_clear ..).trans (hr.scopes.chain j hj),
        fun j x hx => (hsame j x hx.lt_size).2 (hr.scopes.binds j x hx)⟩
    · exact hr.binds j x hj ((hsame j x hj).1 hx)

/-- A new scope inside one that can be come to, for a computation that goes back to this one. -/
theorem Session.FollowedBy.enter {t : Session} (hs : s.FollowedBy ⟨t, h'⟩) (hp : h.Part h') {parent : ScopeId}
    {bindings : Dictionary Value} (hparent : Live.Reaches ⟨t, h'⟩ parent)
    (hb : ∀ x v, bindings.get? x = some v → v = .null ∨ v ∈ h'.values) (depth : Nat) :
    (s.enter parent bindings depth).FollowedBy ⟨t.enter parent bindings depth, h.enter t.current⟩ ∧
      Live.Steps ⟨t, h'⟩ ⟨t.enter parent bindings depth, h.enter t.current⟩ := by
  have henter : Live.Step ⟨t, h'⟩ ⟨t.enter parent bindings depth, h'.enter t.current⟩ := .enter depth hparent hb
  have hpart : (h.enter t.current).Part (h'.enter t.current) := ⟨congrArg (t.current :: ·) hp.frames, hp.values⟩
  refine ⟨Session.FollowedBy.part ?_ hpart, henter.steps.trans (Live.Step.part hpart).steps⟩
  refine hs.step henter ?_ (·.addChild parent bindings)
  obtain ⟨scopes, retained, rfl⟩ := hs.same
  exact ⟨scopes.addChild parent bindings, retained, congrArg (fun n => { s with
    scopes := scopes.addChild parent bindings, current := n, depth, retained }) hs.scopes.size⟩

/-- A computation in a new scope, which is let go in the end. -/
theorem Outcome.Agrees.within {t : Session} {parent : ScopeId} {bindings : Dictionary Value} {depth : Nat}
    (adjust : Nat → Nat) (hs : s.FollowedBy ⟨t, h'⟩) (hp : h.Part h') (hparent : Live.Reaches ⟨t, h'⟩ parent)
    (hb : ∀ x v, bindings.get? x = some v → v = .null ∨ v ∈ h'.values) (hdepth : adjust depth = t.depth)
    (ho : o.Agrees ⟨t.enter parent bindings depth, h.enter t.current⟩ (h.enter t.current) names values o') :
    (restoring s.current adjust o).Agrees ⟨t, h'⟩ h [] values
      (Memory.leaving h values t.scopes.size (restoring t.current adjust o')) := by
  have hcurrent : s.current = t.current := by
    obtain ⟨scopes, retained, rfl⟩ := hs.same
    rfl
  have hsteps := (hs.enter hp hparent hb depth).2
  -- back in the old scope, with the values of the result held, the new one is let go
  have hleft : ∀ vs u u', u.FollowedBy ⟨u', (h.enter t.current).hold vs⟩ →
      Live.Steps ⟨t.enter parent bindings depth, h.enter t.current⟩ ⟨u', (h.enter t.current).hold vs⟩ →
      (t.enter parent bindings depth).Returns names u' →
      let t₁ := (t.leave u' adjust).letGo (h.hold vs) t.scopes.size
      (s.leave u adjust).FollowedBy ⟨t₁, h.hold vs⟩ ∧ Live.Steps ⟨t, h'⟩ ⟨t₁, h.hold vs⟩ ∧ t.Returns [] t₁ := by
    intro vs u u' hu hl hr t₁
    have hback : Live.Step ⟨u', (h.enter t.current).hold vs⟩ ⟨t.leave u' adjust, h.hold vs⟩ := .back u' (h.hold vs) _ _
    have hleave : (s.leave u adjust).FollowedBy ⟨t.leave u' adjust, h.hold vs⟩ := by
      refine hu.step hback ?_ id
      obtain ⟨scopes, retained, rfl⟩ := hu.same
      exact ⟨scopes, retained, by rw [Session.leave, Session.leave, hcurrent]⟩
    have hreturns : t.Returns [] (t.leave u' adjust) := hr.leave hdepth
    have hsize : t.scopes.size < (t.leave u' adjust).scopes.size :=
      (Nat.lt_succ_self _).trans_le ((Forest.size_addChild ..).symm.trans_le hr.scopes.size)
    have hstep : Live.Step ⟨t.leave u' adjust, h.hold vs⟩ ⟨t₁, h.hold vs⟩ := .letGo _ hsize
    refine ⟨hleave.letGo hsize, ((hsteps.trans hl).trans hback.steps).trans hstep.steps, hreturns.letGo _ le_rfl⟩
  cases ho with
  | done hu hl hr =>
    obtain ⟨hs', hl', hr'⟩ := hleft _ _ _ hu hl hr
    exact .done hs' hl' hr'
  | failed hu hl hr =>
    obtain ⟨hs', hl', hr'⟩ := hleft [] _ _ hu hl hr
    exact .failed hs' hl' hr'
  | unfinished hu hl => exact .unfinished hu (hsteps.trans hl)

section

variable {m : Eval α} {m' : Memory → Eval α}

theorem Outcome.Agrees.inBlock (inner : List String) (hs : s.FollowedBy ⟨t, h⟩)
    (ho : ∀ {u v}, u.FollowedBy ⟨v, h.enter t.current⟩ →
      (m u).Agrees ⟨v, h.enter t.current⟩ (h.enter t.current) inner values (m' (.counted (h.enter t.current)) v)) :
    (Eval.inBlock m s).Agrees ⟨t, h⟩ h names values ((Memory.counted h).inBlock values m' t) := by
  obtain ⟨scopes, retained, hsame⟩ := hs.same
  have henter : s.enterBlock = s.enter t.current [] t.depth := by rw [show t = _ from hsame]; rfl
  have hparent : Live.Reaches ⟨t, h⟩ t.current := Live.reaches_current _
  have hnone : ∀ x v, ([] : Dictionary Value).get? x = some v → v = .null ∨ v ∈ h.values := fun _ _ hv => by cases hv
  have hinner := ho (hs.enter (.refl h) hparent hnone t.depth).1
  have hwithin := (hinner.within id hs (.refl h) hparent hnone rfl).mono (List.nil_subset names)
  rw [← henter] at hwithin
  exact hwithin

theorem Outcome.Agrees.inCall {parent : ScopeId} {bindings : Dictionary Value} (hs : s.FollowedBy ⟨t, h'⟩)
    (hp : h.Part h') (hparent : Live.Reaches ⟨t, h'⟩ parent)
    (hb : ∀ x v, bindings.get? x = some v → v = .null ∨ v ∈ h'.values)
    (ho : ∀ {u v}, u.FollowedBy ⟨v, h.enter t.current⟩ →
      (m u).Agrees ⟨v, h.enter t.current⟩ (h.enter t.current) names values (m' (.counted (h.enter t.current)) v)) :
    (Eval.inCall parent bindings m s).Agrees ⟨t, h'⟩ h [] values ((Memory.counted h).inCall values parent bindings m' t) := by
  obtain ⟨scopes, retained, hsame⟩ := hs.same
  have henter : s.enter parent bindings (s.depth + 1) = s.enter parent bindings (t.depth + 1) := by
    rw [show t = _ from hsame]
  have hinner := ho (hs.enter hp hparent hb (t.depth + 1)).1
  have hwithin := hinner.within (· - 1) hs hp hparent hb rfl
  rw [← henter] at hwithin
  exact hwithin

end

/-! ## Tasks -/

/-- The two evaluators agree, whatever task has so much fuel. -/
structure Releases (n : Nat) : Prop where
  evaluate : ∀ e {s l}, s.FollowedBy l →
    (evaluate n e s).Agrees l l.held [] (fun v => [v]) ((Memory.counted l.held).evaluate n e l.session)
  evaluateAll : ∀ es {s l}, s.FollowedBy l →
    (evaluateAll n es s).Agrees l l.held [] id ((Memory.counted l.held).evaluateAll n es l.session)
  /-- The arguments are held until they are bound. -/
  call : ∀ f args line {s t h}, s.FollowedBy ⟨t, Held.hold h args⟩ → .function f ∈ h.values →
    (callFunction n f args line s).Agrees ⟨t, h.hold args⟩ h [] (fun v => [v])
      ((Memory.counted h).callFunction n f args line t)
  execute : ∀ stmt {s l}, s.FollowedBy l →
    (execute n stmt s).Agrees l l.held stmt.declaredHere Flow.values ((Memory.counted l.held).execute n stmt l.session)
  executeAll : ∀ stmts {s l}, s.FollowedBy l →
    (executeAll n stmts s).Agrees l l.held (stmts.flatMap Stmt.declaredHere) Flow.values
      ((Memory.counted l.held).executeAll n stmts l.session)
  loop : ∀ condition increment body {s l}, s.FollowedBy l →
    (loop n condition increment body s).Agrees l l.held body.declaredHere Flow.values
      ((Memory.counted l.held).loop n condition increment body l.session)

namespace Releases

variable {n : Nat} {t : Session}

theorem zero : Releases 0 where
  evaluate _ _ _ hs := .unfinished hs .refl
  evaluateAll _ _ _ hs := .unfinished hs .refl
  call _ _ _ _ _ _ hs _ := .unfinished hs .refl
  execute _ _ _ hs := .unfinished hs .refl
  executeAll _ _ _ hs := .unfinished hs .refl
  loop _ _ _ _ _ hs := .unfinished hs .refl

/-- A value without functions as the result, with nothing else held any longer. -/
theorem plain (hs : s.FollowedBy l) (hp : h.Part l.held) (v : Value)
    (hv : v.kind = .null ∨ v.kind = .boolean ∨ v.kind = .number ∨ v.kind = .string) :
    Outcome.Agrees l h names (fun v => [v]) (.done v s) (.done v l.session) :=
  agrees_value hs hp (Value.fits_plain hv)

/-- A value that is held as the result. -/
theorem held (hs : s.FollowedBy l) (hp : h.Part l.held) (hv : v ∈ l.held.values) :
    Outcome.Agrees l h names (fun v => [v]) (.done v s) (.done v l.session) :=
  agrees_value hs hp (hs.sound.knows_held hv)

theorem normal (hs : s.FollowedBy l) (hp : h.Part l.held) :
    Outcome.Agrees l h names Flow.values (.done .normal s) (.done .normal l.session) := agrees_done hs hp nofun

theorem returned (hs : s.FollowedBy l) (hp : h.Part l.held) (hv : v ∈ l.held.values) (line : Nat) :
    Outcome.Agrees l h names Flow.values (.done (.returned v line) s) (.done (.returned v line) l.session) :=
  agrees_done hs hp (List.forall_mem_singleton.2 (hs.sound.knows_held hv))

variable (ih : Releases n) (hs : s.FollowedBy ⟨t, h⟩)
include ih hs

theorem binary (op : BinaryOp) (left right : Expr) (p : Position) :
    (StrategyScript.evaluate (n + 1) (.binary op left right p) s).Agrees ⟨t, h⟩ h [] (fun v => [v])
      ((Memory.counted h).evaluate (n + 1) (.binary op left right p) t) := by
  refine (ih.evaluate left hs).bind (.refl h) fun a u v hu => ?_
  have hdone : ∀ (b : Bool) {u v}, u.FollowedBy ⟨v, h.hold [a]⟩ →
      Outcome.Agrees ⟨v, h.hold [a]⟩ h [] (fun v => [v]) (.done (.boolean b) u) (.done (.boolean b) v) :=
    fun b {u v} hu => plain hu (h.part_hold [a]) (.boolean b) (.inr (.inl rfl))
  -- the left side is not held while the right one is evaluated only for its truth
  have htruth : ((do return .boolean (← StrategyScript.evaluate n right).isTruthy : Eval Value) u).Agrees
      ⟨v, h.hold [a]⟩ h [] (fun v => [v])
      ((do return .boolean (← (Memory.counted h).evaluate n right).isTruthy : Eval Value) v) := by
    refine Outcome.Agrees.part ?_ (h.part_hold [a]) rfl
    refine (ih.evaluate right (hu.part (h.part_hold [a]))).bind (.refl h) fun b w x hw => ?_
    exact plain hw (h.part_hold [b]) _ (.inr (.inl rfl))
  have hop : ∀ op : BinaryOp, ((do ofExcept (op.apply a (← StrategyScript.evaluate n right) p.line) : Eval Value) u).Agrees
      ⟨v, h.hold [a]⟩ h [] (fun v => [v])
      ((do ofExcept (op.apply a (← (Memory.counted (h.hold [a])).evaluate n right) p.line) : Eval Value) v) := by
    refine fun op => (ih.evaluate right hu).bind (h.part_hold [a]) fun b w x hw => ?_
    refine agrees_ofExcept hw ((h.part_hold [a]).trans (Held.part_hold _ [b])) fun c hc => ?_
    refine Value.fits_plain ?_
    rcases BinaryOp.apply_ok hc with hk | hk | hk <;> simp [hk]
  cases op
  case and =>
    cases a.isTruthy with
    | true => exact htruth
    | false => exact hdone false hu
  case or =>
    cases a.isTruthy with
    | true => exact hdone true hu
    | false => exact htruth
  all_goals exact hop _

theorem evaluate_succ (e : Expr) :
    (StrategyScript.evaluate (n + 1) e s).Agrees ⟨t, h⟩ h [] (fun v => [v])
      ((Memory.counted h).evaluate (n + 1) e t) := by
  cases e with
  | number x p | string x p | boolean b p => exact plain hs (.refl h) _ (by simp [Value.kind])
  | identifier x p => exact agrees_lookup hs x p.line
  | assign x value p =>
    refine (ih.evaluate value hs).bind (.refl h) fun a u v hu => ?_
    refine (agrees_assign hu List.mem_cons_self x p.line).bind (h.part_hold [a]) fun _ w y hw => ?_
    exact held hw (h.part_hold [a]) List.mem_cons_self
  | binary op left right p => exact ih.binary hs op left right p
  | unary op operand p =>
    refine (ih.evaluate operand hs).bind (.refl h) fun a u v hu => ?_
    refine agrees_ofExcept hu (h.part_hold [a]) fun b hb => Value.fits_plain ?_
    rcases UnaryOp.apply_ok hb with hk | hk <;> simp [hk]
  | call callee args p =>
    refine (agrees_lookup hs callee p.line).bind (.refl h) fun f u v hu => ?_
    refine (ih.evaluateAll args hu).bind (h.part_hold [f]) fun vs w x hw => ?_
    have hp : h.Part ((h.hold [f]).hold vs) := (h.part_hold [f]).trans (Held.part_hold _ vs)
    cases f with
    | function f => exact (ih.call f vs p.line hw List.mem_cons_self).lower (h.part_hold _)
    | builtin b => exact agrees_callBuiltin hw b vs p.line hp
    | null | boolean _ | number _ | string _ | record _ | list _ => exact agrees_failed hw hp _
  | index target i p =>
    refine (ih.evaluate target hs).bind (.refl h) fun a u v hu => ?_
    refine (ih.evaluate i hu).bind (h.part_hold [a]) fun b w x hw => ?_
    refine agrees_ofExcept hw ((h.part_hold [a]).trans (Held.part_hold _ [b])) fun c hc => ?_
    exact (hw.sound.values a (List.mem_cons_of_mem b List.mem_cons_self)).at hc

theorem evaluateAll_succ (es : List Expr) :
    (StrategyScript.evaluateAll (n + 1) es s).Agrees ⟨t, h⟩ h [] id ((Memory.counted h).evaluateAll (n + 1) es t) := by
  cases es with
  | nil => exact agrees_done hs (.refl h) nofun
  | cons e es =>
    refine (ih.evaluate e hs).bind (.refl h) fun a u v hu => ?_
    refine (ih.evaluateAll es hu).bind (h.part_hold [a]) fun vs w x hw => ?_
    refine agrees_done hw ((h.part_hold [a]).trans (Held.part_hold _ vs)) fun b hb => hw.sound.knows_held ?_
    rcases List.mem_cons.1 hb with rfl | hb
    · exact List.mem_append_right _ List.mem_cons_self
    · exact List.mem_append_left _ hb

omit hs in
theorem call_succ (f : Function) (args : List Value) (line : Nat) (hs : s.FollowedBy ⟨t, h.hold args⟩)
    (hf : .function f ∈ h.values) :
    (callFunction (n + 1) f args line s).Agrees ⟨t, h.hold args⟩ h [] (fun v => [v])
      ((Memory.counted h).callFunction (n + 1) f args line t) := by
  have hp := h.part_hold args
  refine (agrees_checkDepth hs line).bind hp fun _ u v hu => ?_
  have hparent : Live.Reaches ⟨v, h.hold args⟩ f.closure :=
    Live.reaches_held (hp.values hf) (List.mem_singleton_self f)
  have hb : ∀ x w, (bindParameters f.decl.params args []).get? x = some w → w = .null ∨ w ∈ (h.hold args).values := by
    intro x w hw
    rcases get?_bindParameters hw with hnull | hw | hw
    · exact .inl hnull
    · exact .inr (List.mem_append_left _ hw)
    · cases hw
  refine (Outcome.Agrees.inCall hu hp hparent hb fun hw => ih.executeAll f.decl.body hw).bind (.refl h) ?_
  intro flow w x hw
  cases flow with
  | normal => exact plain hw (.refl h) .null (.inl rfl)
  | returned a line => exact held hw (h.part_hold [a]) List.mem_cons_self

theorem execute_succ (stmt : Stmt) :
    (StrategyScript.execute (n + 1) stmt s).Agrees ⟨t, h⟩ h stmt.declaredHere Flow.values
      ((Memory.counted h).execute (n + 1) stmt t) := by
  refine (agrees_tick hs).bind (.refl h) fun _ u v hu => ?_
  have hnames : ∀ {α : Type} {values : α → List Value} {l : Live} {h : Held} {names} {o o' : Outcome α},
      o.Agrees l h [] values o' → o.Agrees l h names values o' := fun ho => ho.mono (List.nil_subset _)
  have hdefine : ∀ {x a w y}, w.FollowedBy ⟨y, h.hold [a]⟩ →
      ((do define x a; return .normal : Eval Flow) w).Agrees ⟨y, h.hold [a]⟩ h [x] Flow.values
        ((do define x a; return .normal : Eval Flow) y) := fun {x a w y} hw =>
    (agrees_define hw List.mem_cons_self x).bind (h.part_hold [a]) fun _ _ _ hz => normal hz (h.part_hold [a])
  cases stmt with
  | function name params body =>
    exact (agrees_newFunction hu ⟨name, params, body⟩).bind (.refl h) fun f w y hw => hdefine hw
  | var name value =>
    cases value with
    | none =>
      have hnull := Live.Step.hold (s := v) (h := h) (v := .null) (Value.fits_plain (.inl rfl))
      have hw : u.FollowedBy ⟨v, h.hold [.null]⟩ := hu.step hnull hu.same id
      exact (hdefine hw).after hnull.steps (.refl _ _)
    | some e => exact (hnames (ih.evaluate e hu)).bind (.refl h) fun a w y hw => hdefine hw
  | branch c thenBranch elseBranch =>
    refine (hnames (ih.evaluate c hu)).bind (.refl h) fun a w y hw => ?_
    refine Outcome.Agrees.part ?_ (h.part_hold [a]) rfl
    have hw' : w.FollowedBy ⟨y, h⟩ := hw.part (h.part_hold [a])
    cases a.isTruthy with
    | true =>
      refine (ih.execute thenBranch hw').mono ?_
      cases elseBranch with
      | none => exact List.Subset.refl _
      | some e => exact List.subset_append_left _ _
    | false =>
      cases elseBranch with
      | none => exact normal hw' (.refl h)
      | some e => exact (ih.execute e hw').mono (List.subset_append_right _ _)
  | whileLoop c body => exact ih.loop (some c) none body hu
  | forLoop start c increment body =>
    cases start with
    | none => exact Outcome.Agrees.inBlock _ hu fun hw => ih.loop c increment body hw
    | some start =>
      refine Outcome.Agrees.inBlock (start.toStmt.declaredHere ++ body.declaredHere) hu fun hw => ?_
      refine ((ih.execute start.toStmt hw).mono (List.subset_append_left _ _)).bind (.refl _) fun flow y z hy => ?_
      exact (((ih.loop c increment body (hy.part (Held.part_hold _ _))).mono (List.subset_append_right _ _)).part
        (Held.part_hold _ _) rfl)
  | ret value line =>
    cases value with
    | none => exact agrees_done hu (.refl h) (List.forall_mem_singleton.2 (Value.fits_plain (.inl rfl)))
    | some e => exact (ih.evaluate e hu).bind (.refl h) fun a w y hw => returned hw (h.part_hold [a]) List.mem_cons_self line
  | trade action args line =>
    refine (ih.evaluateAll args hu).bind (.refl h) fun vs w y hw => ?_
    have hp : h.Part (h.hold vs) := h.part_hold vs
    cases Argument.classify vs with
    | ok order => exact (agrees_trade hw action order).bind hp fun _ _ _ hz => normal hz hp
    | error fault => exact agrees_failed hw hp _
  | block body => exact Outcome.Agrees.inBlock _ hu fun hw => ih.executeAll body hw
  | expr value => exact (ih.evaluate value hu).bind (.refl h) fun a w y hw => normal hw (h.part_hold [a])

theorem executeAll_succ (stmts : List Stmt) :
    (StrategyScript.executeAll (n + 1) stmts s).Agrees ⟨t, h⟩ h (stmts.flatMap Stmt.declaredHere) Flow.values
      ((Memory.counted h).executeAll (n + 1) stmts t) := by
  cases stmts with
  | nil => exact normal hs (.refl h)
  | cons stmt stmts =>
    refine ((ih.execute stmt hs).mono (List.subset_append_left _ _)).bind (.refl h) fun flow u v hu => ?_
    cases flow with
    | normal => exact (ih.executeAll stmts hu).mono (List.subset_append_right _ _)
    | returned a line => exact returned hu (h.part_hold [a]) List.mem_cons_self line

theorem round (condition increment : Option Expr) (body : Stmt) :
    (loopRound n condition increment body s).Agrees ⟨t, h⟩ h body.declaredHere Flow.values
      ((Memory.counted h).loopRound n condition increment body t) := by
  refine (agrees_tick hs).bind (.refl h) fun _ u v hu => ?_
  refine (ih.execute body hu).bind (.refl h) fun flow w x hw => ?_
  cases flow with
  | returned a line => exact returned hw (h.part_hold [a]) List.mem_cons_self line
  | normal =>
    cases increment with
    | none => exact ih.loop condition none body hw
    | some i =>
      refine ((ih.evaluate i hw).mono (List.nil_subset _)).bind (.refl h) fun a y z hy => ?_
      exact (ih.loop condition (some i) body (hy.part (h.part_hold [a]))).part (h.part_hold [a]) rfl

theorem loop_succ (condition increment : Option Expr) (body : Stmt) :
    (StrategyScript.loop (n + 1) condition increment body s).Agrees ⟨t, h⟩ h body.declaredHere Flow.values
      ((Memory.counted h).loop (n + 1) condition increment body t) := by
  cases condition with
  | none => exact ih.round hs none increment body
  | some c =>
    refine ((ih.evaluate c hs).mono (List.nil_subset _)).bind (.refl h) fun a u v hu => ?_
    refine Outcome.Agrees.part ?_ (h.part_hold [a]) rfl
    have hu' : u.FollowedBy ⟨v, h⟩ := hu.part (h.part_hold [a])
    cases a.isTruthy with
    | true => exact ih.round hu' (some c) increment body
    | false => exact normal hu' (.refl h)

omit ih hs in
/-- The two evaluators agree on everything. -/
theorem all (n : Nat) : Releases n := by
  induction n with
  | zero => exact zero
  | succ n ih =>
    exact
      { evaluate := fun e _ _ hs => ih.evaluate_succ hs e
        evaluateAll := fun es _ _ hs => ih.evaluateAll_succ hs es
        call := fun f args line _ _ _ hs hf => ih.call_succ f args line hs hf
        execute := fun stmt _ _ hs => ih.execute_succ hs stmt
        executeAll := fun stmts _ _ hs => ih.executeAll_succ hs stmts
        loop := fun c i body _ _ hs => ih.loop_succ hs c i body }

end Releases

end

/-! ## Runs -/

namespace Session

variable {s t : Session}

theorem FollowedBy.prepare (hs : s.FollowedBy ⟨t, .none⟩) (market : Market) :
    (s.prepare market).FollowedBy ⟨t.prepare market, .none⟩ := by
  refine hs.step (.other rfl (.inr rfl)) ?_ id
  obtain ⟨scopes, retained, rfl⟩ := hs.same
  exact ⟨scopes, retained, rfl⟩

/-- What is retained is let go in steps, and a session that is followed does not see it. -/
theorem FollowedBy.sweep (hs : s.FollowedBy ⟨t, .none⟩) :
    s.FollowedBy ⟨t.sweep, .none⟩ ∧ Live.Steps ⟨t, .none⟩ ⟨t.sweep, .none⟩ := by
  have hfold : ∀ (retained : List ScopeId) (u : Session), s.FollowedBy ⟨u, .none⟩ → Live.Steps ⟨t, .none⟩ ⟨u, .none⟩ →
      let v := retained.foldl (fun t i =>
        if (t.scopes.present (t.holders .none)).contains i then t.letGo .none i else t) u
      s.FollowedBy ⟨v, .none⟩ ∧ Live.Steps ⟨t, .none⟩ ⟨v, .none⟩ := by
    intro retained
    induction retained with
    | nil => exact fun u hu hl => ⟨hu, hl⟩
    | cons i retained ih =>
      intro u hu hl
      by_cases hi : (u.scopes.present (u.holders .none)).contains i
      · have hsize := (Forest.mem_present.1 (List.contains_iff_mem.1 hi)).1
        simp only [List.foldl_cons, if_pos hi]
        exact ih _ (hu.letGo hsize) (hl.trans (Live.Step.letGo .none hsize).steps)
      · simp only [List.foldl_cons, if_neg hi]
        exact ih _ hu hl
  have hstep : Live.Step ⟨t, .none⟩ ⟨{ t with retained := [] }, .none⟩ := .other rfl (.inl rfl)
  refine hfold t.retained _ (hs.step hstep ?_ id) hstep.steps
  obtain ⟨scopes, retained, rfl⟩ := hs.same
  exact ⟨scopes, [], rfl⟩

/-- Two runs of one program end in the same way, and the one that releases scopes goes in steps. -/
theorem FollowedBy.run (hs : s.FollowedBy ⟨t, .none⟩) (fuel : Nat) (p : Program) (market : Market) :
    (s.run fuel p market).1 = (t.runReleasing fuel p market).1 ∧
      ∃ h, (s.run fuel p market).2.FollowedBy ⟨(t.runReleasing fuel p market).2, h⟩ ∧
        Live.Steps ⟨t, .none⟩ ⟨(t.runReleasing fuel p market).2, h⟩ ∧
        ((t.runReleasing fuel p market).1 ≠ .unfinished → h = .none) := by
  have hprepare : Live.Step ⟨t, .none⟩ ⟨t.prepare market, .none⟩ := .other rfl (.inr rfl)
  obtain ⟨hswept, hsweep⟩ := (hs.prepare market).sweep
  have hprogram : (executeProgram fuel p (s.prepare market)).Agrees ⟨(t.prepare market).sweep, .none⟩ .none
      (p.flatMap Stmt.declaredHere) (fun _ => [])
      ((Memory.counted .none).executeProgram fuel p (t.prepare market).sweep) := by
    refine ((Releases.all fuel).executeAll p hswept).bind (.refl _) fun flow u v hu => ?_
    cases flow with
    | normal => exact agrees_done hu (.refl _) nofun
    | returned a line => exact agrees_failed hu (Held.part_hold _ [a]) _
  have hbefore := hprepare.steps.trans hsweep
  unfold Session.run runReleasing
  generalize executeProgram fuel p (s.prepare market) = o at hprogram
  generalize (Memory.counted .none).executeProgram fuel p (t.prepare market).sweep = o' at hprogram
  cases hprogram with
  | done hu hl _ => exact ⟨rfl, .none, hu, hbefore.trans hl, fun _ => rfl⟩
  | @failed e u v hu hl _ =>
    have hback : Live.Step ⟨v, .none⟩ ⟨{ v with current := globalScope }, .none⟩ := .other rfl (.inr rfl)
    refine ⟨rfl, .none, hu.step hback ?_ id, (hbefore.trans hl).trans hback.steps, fun _ => rfl⟩
    obtain ⟨scopes, retained, rfl⟩ := hu.same
    exact ⟨scopes, retained, rfl⟩
  | unfinished hu hl => exact ⟨rfl, _, hu, hbefore.trans hl, fun h => absurd rfl h⟩

/-- Two interpreters that have come through the same runs, the second of which releases scopes. -/
inductive Alongside (c : Limits) : Session → Session → Prop
  | new : Alongside c (new c) (new c)
  | run {s t : Session} {fuel : Nat} {p : Program} {market : Market} (h : Alongside c s t)
      (he : (t.runReleasing fuel p market).1 ≠ .unfinished) :
      Alongside c (s.run fuel p market).2 (t.runReleasing fuel p market).2

theorem Alongside.followed {c : Limits} (h : Alongside c s t) : s.FollowedBy ⟨t, .none⟩ := by
  induction h with
  | new => exact .refl (Live.sound_new c)
  | run _ he ih =>
    obtain ⟨-, h, hs, -, hnone⟩ := ih.run _ _ _
    exact hnone he ▸ hs

/-- Nobody can tell whether scopes are released, after however many runs. -/
theorem Alongside.sameResult {c : Limits} (h : Alongside c s t) (fuel : Nat) (p : Program) (market : Market) :
    SameResult (s.run fuel p market).1 (s.run fuel p market).2 (t.runReleasing fuel p market).1
      (t.runReleasing fuel p market).2 := by
  obtain ⟨hending, h, hs, -, -⟩ := h.followed.run fuel p market
  refine ⟨hending, ?_, (hs.scopes.bindings globalScope (Live.reaches_global _)).symm⟩
  obtain ⟨scopes, retained, hsame⟩ := hs.same
  exact congrArg (·.trades.records) hsame.symm

end Session

end StrategyScript
