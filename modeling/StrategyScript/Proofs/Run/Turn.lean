/-
Sessions add up: running two programs in turn is running them as one. Between two runs a session
forgets its trades and its steps and nothing else, and without a budget a program can only learn of
them from `position`. So the second program does the same with the trades of the first before its own,
numbered on from them.

The invariant compares a computation with itself in the session that has done more before: whatever
it does, it does the same there. For that no value in reach may be `position` itself.
-/
import StrategyScript.Proofs.Run.Fuel
import StrategyScript.Proofs.Run.Invariant
import StrategyScript.Proofs.Scope.Holding

namespace StrategyScript

open Eval

/-! ## Trades after trades -/

/-- The record of a trade that is made after so many others. -/
def TradeRecord.later (n : Nat) (r : TradeRecord) : TradeRecord := { r with sequence := r.sequence + n }

namespace TradeLog

/-- The trades of a log behind those of another one. -/
def after (log base : TradeLog) : TradeLog := ⟨base.entries ++ log.entries.map (·.later base.size)⟩

theorem records_after (log base : TradeLog) :
    (log.after base).records = base.records ++ log.records.map (·.later base.size) := by
  simp [after, records]

@[simp] theorem after_empty (base : TradeLog) : TradeLog.empty.after base = base := by
  simp [after, empty]

theorem trade_after (log base : TradeLog) (market : Market) (action : TradeAction) (order : Argument.Order) :
    (log.after base).trade market action order = (log.trade market action order).after base := by
  have hrecord : ((log.after base).nextRecord action order.message order.quantity market.referencePrice) =
      (log.nextRecord action order.message order.quantity market.referencePrice).later base.size := by
    simp only [nextRecord, TradeRecord.later, after, size, Array.size_append, Array.size_map]
    rw [Nat.add_comm]
  unfold trade emit
  rw [hrecord]
  simp only [after, Array.map_push, Array.append_push]

end TradeLog

namespace Session

/-- The same session with other trades and steps before its own. -/
def after (s : Session) (base : TradeLog) (k : Nat) : Session :=
  { s with trades := s.trades.after base, steps := k + s.steps }

end Session

def Outcome.after {α : Type} (o : Outcome α) (base : TradeLog) (k : Nat) : Outcome α :=
  match o with
  | .done a s => .done a (s.after base k)
  | .failed e s => .failed e (s.after base k)
  | .unfinished s => .unfinished (s.after base k)

theorem Outcome.restoring_after {α : Type} (o : Outcome α) (base : TradeLog) (k : Nat) (current : ScopeId)
    (adjust : Nat → Nat) : restoring current adjust (o.after base k) = (restoring current adjust o).after base k := by
  cases o <;> rfl

/-! ## Without `position` -/

/-- Values through which nobody gets at the trade log. -/
inductive Value.Quiet : Value → Prop
  | plain (v : Value) (h : v.kind = .null ∨ v.kind = .boolean ∨ v.kind = .number ∨ v.kind = .string) : Quiet v
  | data (v : Value) (h : v.IsData) : Quiet v
  | builtin (b : Builtin) (h : b ≠ .position) : Quiet (.builtin b)
  | function (f : Function) (h : "position" ∉ f.decl.names) : Quiet (.function f)

theorem Value.Quiet.at {t i v : Value} {line : Nat} (ht : t.Quiet) (h : t.at i line = .ok v) : v.Quiet := by
  cases ht with
  | plain _ hk => cases t <;> first | cases h | simp [Value.kind] at hk
  | data _ hd =>
    obtain ⟨x, rfl⟩ := hd.at h
    exact .plain _ (.inr (.inr (.inl rfl)))
  | builtin b _ => cases h
  | function f _ => cases h

/-- Without a budget, and `position` is only where it belongs. -/
structure Session.Quiet (s : Session) : Prop where
  budget : s.limits.maxSteps = none
  values : ∀ i x v, x ≠ "position" → (s.scopes.bindings i).get? x = some v → v.Quiet

/-- What is sure of every outcome that a quiet session comes to. -/
structure Calm {α : Type} (P : α → Prop) (s : Session) (o : Outcome α) : Prop where
  gives : o.Gives P
  quiet : o.session.Quiet
  market : o.session.market = s.market
  stays : ∀ a t, o = .done a t → t.current = s.current ∧ t.depth = s.depth

/-- After other trades the computation does the same. -/
def Undisturbed {α : Type} (P : α → Prop) (m : Eval α) (s : Session) : Prop :=
  Calm P s (m s) ∧ ∀ base k, m (s.after base k) = (m s).after base k

section

variable {α β : Type} {P : α → Prop} {Q : β → Prop} {s : Session}

theorem calm_of_stop {o : Outcome α} (h : ∀ a t, o ≠ .done a t) (hq : o.session.Quiet)
    (hm : o.session.market = s.market) : Calm P s o :=
  ⟨fun a t ho => absurd ho (h a t), hq, hm, fun a t ho => absurd ho (h a t)⟩

theorem Calm.trans {o : Outcome α} {o' : Outcome β} {a : α} {t : Session} (h : Calm P s o) (ho : o = .done a t)
    (h' : Calm Q t o') : Calm Q s o' := by
  obtain ⟨hc, hd⟩ := h.stays a t ho
  have hm := h.market
  rw [ho] at hm
  refine ⟨h'.gives, h'.quiet, h'.market.trans hm, fun b u hb => ?_⟩
  obtain ⟨hc', hd'⟩ := h'.stays b u hb
  exact ⟨hc'.trans hc, hd'.trans hd⟩

theorem Calm.restoring {o : Outcome α} {u : Session} {adjust : Nat → Nat} (h : Calm P u o) (hm : u.market = s.market)
    (hd : adjust u.depth = s.depth) : Calm P s (restoring s.current adjust o) := by
  cases o with
  | done a t =>
    refine ⟨fun b v hb => ?_, ⟨h.quiet.budget, h.quiet.values⟩, h.market.trans hm, fun b v hb => ?_⟩
    · cases hb; exact h.gives a t rfl
    · cases hb; exact ⟨rfl, (congrArg adjust (h.stays a t rfl).2).trans hd⟩
  | failed e t => exact calm_of_stop nofun ⟨h.quiet.budget, h.quiet.values⟩ (h.market.trans hm)
  | unfinished t => exact calm_of_stop nofun h.quiet (h.market.trans hm)

/-- A step that gives a result and leaves the session quiet. -/
theorem undisturbed_done {m : Eval α} {t : Session} {a : α} (ha : P a) (hq : t.Quiet) (hm : t.market = s.market)
    (hc : t.current = s.current) (hd : t.depth = s.depth) (h : m s = .done a t)
    (hafter : ∀ base k, m (s.after base k) = .done a (t.after base k)) : Undisturbed P m s := by
  refine ⟨?_, fun base k => by rw [hafter, h]; rfl⟩
  rw [h]
  refine ⟨fun b u hb => ?_, hq, hm, fun b u hb => ?_⟩
  · cases hb; exact ha
  · cases hb; exact ⟨hc, hd⟩

theorem undisturbed_failed {m : Eval α} {e : RuntimeError} (hq : s.Quiet) (h : m s = .failed e s)
    (hafter : ∀ base k, m (s.after base k) = .failed e (s.after base k)) : Undisturbed P m s := by
  refine ⟨?_, fun base k => by rw [hafter, h]; rfl⟩
  rw [h]
  exact calm_of_stop nofun hq rfl

theorem Undisturbed.bind {m : Eval α} {f : α → Eval β} (h : Undisturbed P m s)
    (hf : ∀ a t, P a → t.Quiet → Undisturbed Q (f a) t) : Undisturbed Q (m >>= f) s := by
  obtain ⟨hcalm, hafter⟩ := h
  cases hm : m s with
  | done a t =>
    rw [hm] at hcalm
    obtain ⟨hcalm', hafter'⟩ := hf a t (hcalm.gives a t rfl) hcalm.quiet
    refine ⟨?_, fun base k => ?_⟩
    · rw [bind_done f hm]
      exact hcalm.trans rfl hcalm'
    · have hm' : m (s.after base k) = .done a (t.after base k) := by rw [hafter, hm]; rfl
      rw [bind_done f hm, bind_done f hm', hafter']
  | failed e t =>
    rw [hm] at hcalm
    refine ⟨?_, fun base k => ?_⟩
    · rw [bind_failed f hm]
      exact calm_of_stop nofun hcalm.quiet hcalm.market
    · have hm' : m (s.after base k) = .failed e (t.after base k) := by rw [hafter, hm]; rfl
      rw [bind_failed f hm, bind_failed f hm']
      rfl
  | unfinished t =>
    rw [hm] at hcalm
    refine ⟨?_, fun base k => ?_⟩
    · rw [bind_unfinished f hm]
      exact calm_of_stop nofun hcalm.quiet hcalm.market
    · have hm' : m (s.after base k) = .unfinished (t.after base k) := by rw [hafter, hm]; rfl
      rw [bind_unfinished f hm, bind_unfinished f hm']
      rfl

/-- A new scope with quiet bindings leaves a session quiet. -/
theorem Session.Quiet.addChild (h : s.Quiet) (parent current : ScopeId) (depth : Nat) {bindings : Dictionary Value}
    (hb : ∀ x v, x ≠ "position" → bindings.get? x = some v → v.Quiet) :
    Session.Quiet { s with scopes := s.scopes.addChild parent bindings, current, depth } := by
  refine ⟨h.budget, fun i x v hx hv => ?_⟩
  rw [Forest.bindings_addChild] at hv
  split at hv
  · exact hb x v hx hv
  · exact h.values i x v hx hv

theorem Session.Quiet.define (h : s.Quiet) {i : ScopeId} {x : String} {v : Value} (hv : v.Quiet) :
    Session.Quiet { s with scopes := s.scopes.define i x v } := by
  refine ⟨h.budget, fun j y w hy hw => ?_⟩
  rcases Forest.get?_define hw with ⟨-, rfl⟩ | hw
  · exact hv
  · exact h.values j y w hy hw

theorem undisturbed_restoring {m : Eval α} {u : Session} (h : Undisturbed P m u) (hm : u.market = s.market)
    (adjust : Nat → Nat) (hd : adjust u.depth = s.depth) :
    Calm P s (restoring s.current adjust (m u)) ∧ ∀ base k,
      restoring s.current adjust (m (u.after base k)) = (restoring s.current adjust (m u)).after base k :=
  ⟨h.1.restoring hm hd, fun base k => by rw [h.2, Outcome.restoring_after]⟩

end

/-- Programs without `position` are undisturbed, as an invariant of computations. -/
def undisturbed : Invariant where
  allows x := x ≠ "position"
  fits := Value.Quiet
  Holds P m := ∀ s, s.Quiet → Undisturbed P m s
  fits_plain v h := .plain v h
  fits_at ht h := ht.at h
  allows_decl h x hx := by
    rintro rfl
    cases h with
    | plain _ hk => simp [Value.kind] at hk
    | data _ hd => cases hd
    | function f hf => exact hf hx
  pure ha s hq := undisturbed_done ha hq rfl rfl rfl rfl fun _ _ => rfl
  bind h hf s hq := (h s hq).bind fun a t ha ht => hf a ha t ht
  outOfFuel s hq := ⟨calm_of_stop nofun hq rfl, fun _ _ => rfl⟩
  fault s hq := undisturbed_failed hq rfl fun _ _ => rfl
  tick s hq := by
    have htick : ∀ u : Session, u.limits = s.limits → Eval.tick u = .done () { u with steps := u.steps + 1 } :=
      fun u hu => tick_within fun limit hl => by rw [hu, hq.budget] at hl; cases hl
    refine undisturbed_done trivial (t := { s with steps := s.steps + 1 }) ⟨hq.budget, hq.values⟩ rfl rfl rfl
      (htick s rfl) fun base k => ?_
    rw [htick _ (by rfl)]
    rfl
  lookup {x line} hx s hq := by
    cases h : s.scopes.lookup s.current x with
    | some v =>
      obtain ⟨j, hj⟩ := Forest.get?_of_lookup h
      exact undisturbed_done (hq.values j x v hx hj) hq rfl rfl rfl (by rw [lookup_eq, h]) fun base k => by
        rw [lookup_eq, Session.after, h]
    | none =>
      exact undisturbed_failed hq (by rw [lookup_eq, h]) fun base k => by rw [lookup_eq, Session.after, h]
  assign {x v line} _ hv s hq := by
    cases h : s.scopes.resolve s.current x with
    | some owner =>
      exact undisturbed_done trivial (hq.define (i := owner) (x := x) hv) rfl rfl rfl (by rw [assign, h])
        fun base k => by rw [assign, Session.after, h]; rfl
    | none => exact undisturbed_failed hq (by rw [assign, h]) fun base k => by rw [assign, Session.after, h]
  define _ hv s hq := undisturbed_done trivial (hq.define hv) rfl rfl rfl rfl fun _ _ => rfl
  newFunction decl hd s hq := undisturbed_done (t := { s with nextFunction := s.nextFunction + 1 })
    (.function ⟨s.nextFunction, decl, s.current⟩ fun h => hd _ h rfl) ⟨hq.budget, hq.values⟩ rfl rfl rfl rfl
    fun _ _ => rfl
  inBlock h s hq := by
    have hbindings : ∀ x (v : Value), x ≠ "position" → ([] : Dictionary Value).get? x = some v → v.Quiet := nofun
    exact undisturbed_restoring (s := s) (h _ (hq.addChild s.current s.scopes.size s.depth hbindings)) rfl id rfl
  inCall {α P m f args} line _ hargs h s hq := by
    have hbindings : ∀ x v, x ≠ "position" → (bindParameters f.decl.params args []).get? x = some v → v.Quiet := by
      intro x v _ hv
      rcases get?_bindParameters hv with rfl | hv | hv
      · exact .plain _ (.inl rfl)
      · exact hargs v hv
      · cases hv
    -- the depth is the same in both sessions, and so is the answer to the check
    by_cases hdepth : s.limits.maxCallDepth ≤ s.depth
    · exact undisturbed_failed hq ((call_eq ..).trans (if_pos hdepth)) fun base k =>
        (call_eq ..).trans (if_pos hdepth)
    · have hinner := h _ (hq.addChild f.closure s.scopes.size (s.depth + 1) hbindings)
      obtain ⟨hcalm, hafter⟩ := undisturbed_restoring (s := s) hinner rfl (· - 1) rfl
      have hgo : ∀ u : Session, u.limits.maxCallDepth = s.limits.maxCallDepth → u.depth = s.depth →
          (do checkDepth line; inCall f.closure (bindParameters f.decl.params args []) m : Eval _) u =
            inCall f.closure (bindParameters f.decl.params args []) m u := by
        intro u hu hd
        rw [call_eq, if_neg (by rw [hu, hd]; exact hdepth)]
      refine ⟨hgo s rfl rfl ▸ hcalm, fun base k => ?_⟩
      rw [hgo s rfl rfl, hgo (s.after base k) rfl rfl]
      exact hafter base k
  trade {action order} s hq := undisturbed_done (t := { s with trades := s.trades.trade s.market action order })
    trivial ⟨hq.budget, hq.values⟩ rfl rfl rfl rfl fun base k => by
      simp only [Eval.trade, Session.after, TradeLog.trade_after]
  callBuiltin {b args line} hb _ s hq := by
    have hpos : b ≠ .position := by
      cases hb with
      | plain _ hk => simp [Value.kind] at hk
      | data _ hd => cases hd
      | builtin b hb => exact hb
    rcases b.touches s.market args with ⟨r, hr, h⟩ | ⟨rfl, -⟩ | ⟨action, order, h⟩
    · cases r with
      | ok v =>
        exact undisturbed_done (.data v (hr v rfl)) hq rfl rfl rfl (by rw [callBuiltin, h]; rfl) fun base k => by
          rw [callBuiltin, Session.after, h]; rfl
      | error fault =>
        exact undisturbed_failed hq (by rw [callBuiltin, h]; rfl) fun base k => by
          rw [callBuiltin, Session.after, h]; rfl
    · exact absurd rfl hpos
    · refine undisturbed_done (.data _ (.boolean true)) (t := { s with trades := s.trades.trade s.market action order })
        ⟨hq.budget, hq.values⟩ rfl rfl rfl (by rw [callBuiltin, h]) fun base k => ?_
      rw [callBuiltin, Session.after, h]
      simp only [Session.after, TradeLog.trade_after]

/-! ## One program after another -/

/-- After a statement the next ones are executed, unless it has returned. -/
def Flow.onward (next : Eval Flow) : Flow → Eval Flow
  | .normal => next
  | .returned v line => return .returned v line

theorem executeAll_append (n : Nat) (q p : List Stmt) :
    executeAll (p.length + (n + 1)) (p ++ q) =
      executeAll (p.length + (n + 1)) p >>= Flow.onward (executeAll (n + 1) q) := by
  induction p with
  | nil =>
    rw [List.length_nil, Nat.zero_add]
    rfl
  | cons stmt p ih =>
    have hlen : (stmt :: p).length + (n + 1) = p.length + (n + 1) + 1 := by rw [List.length_cons]; omega
    rw [hlen]
    show execute (p.length + (n + 1)) stmt >>= Flow.onward (executeAll (p.length + (n + 1)) (p ++ q)) = _
    rw [ih]
    show _ = (execute (p.length + (n + 1)) stmt >>= Flow.onward (executeAll (p.length + (n + 1)) p)) >>= _
    rw [bind_assoc]
    congr 1
    funext flow
    cases flow <;> rfl

theorem executeProgram_append (n : Nat) (p q : Program) :
    executeProgram (p.length + (n + 1)) (p ++ q) =
      (do executeProgram (p.length + (n + 1)) p; executeProgram (n + 1) q) := by
  unfold executeProgram
  rw [executeAll_append, bind_assoc, bind_assoc]
  congr 1
  funext flow
  cases flow <;> rfl

namespace Session

/-- A new session has no function yet, and only one name for `position`. -/
theorem quiet_new (depth : Nat) : (new ⟨none, depth⟩).Quiet := by
  refine ⟨rfl, fun i x v hx hv => ?_⟩
  rcases Forest.get?_defineBuiltins hv with ⟨b, rfl, rfl⟩ | hv
  · exact .builtin b fun hb => hx (by rw [hb]; rfl)
  · unfold Forest.addGlobal at hv
    rw [Forest.bindings_push] at hv
    split at hv <;> cases hv

theorem Quiet.prepare {s : Session} (h : s.Quiet) (market : Market) : (s.prepare market).Quiet :=
  ⟨h.budget, h.values⟩

theorem conclude_after (o : Outcome Unit) (base : TradeLog) (k : Nat) :
    conclude (o.after base k) = ((conclude o).1, (conclude o).2.after base k) := by
  cases o <;> rfl

/-- Between two runs nothing is forgotten but what came before. -/
theorem eq_after_prepare {u : Session} {market : Market} (hm : u.market = market) (hc : u.current = globalScope)
    (hd : u.depth = 0) : u = (u.prepare market).after u.trades u.steps := by
  cases u
  cases hm
  cases hc
  cases hd
  simp [prepare, after, globalScope]

/-- The run of two programs in a row is the run of the first, and if it succeeds that of the second in
the session it leaves behind. -/
theorem run_append {s : Session} {p q : Program} {market : Market} (hs : s.Quiet)
    (hp : "position" ∉ Stmt.namesAll p) (hq : "position" ∉ Stmt.namesAll q) (n : Nat) :
    s.run (p.length + (n + 1)) (p ++ q) market =
      match s.run (p.length + (n + 1)) p market with
      | (.success, u) => ((u.run (n + 1) q market).1, (u.run (n + 1) q market).2.after u.trades u.steps)
      | r => r := by
  have hcalm := (undisturbed.program (p.length + (n + 1)) p (fun x hx h => hp (h ▸ hx)) _ (hs.prepare market)).1
  rw [run_eq, run_eq, executeProgram_append]
  cases ho : executeProgram (p.length + (n + 1)) p (s.prepare market) with
  | failed e u => rw [bind_failed _ ho]; rfl
  | unfinished u => rw [bind_unfinished _ ho]; rfl
  | done a u =>
    rw [ho] at hcalm
    obtain ⟨hcurrent, hdepth⟩ := hcalm.stays a u rfl
    -- `p` ends where it began, so the session it leaves behind is a prepared one with something before it
    have hu : u = (u.prepare market).after u.trades u.steps := eq_after_prepare hcalm.market hcurrent hdepth
    have hafter : executeProgram (n + 1) q ((u.prepare market).after u.trades u.steps) =
        (executeProgram (n + 1) q (u.prepare market)).after u.trades u.steps :=
      (undisturbed.program (n + 1) q (fun x hx h => hq (h ▸ hx)) _ (hcalm.quiet.prepare market)).2 _ _
    rw [← hu] at hafter
    rw [bind_done _ ho, hafter, conclude_after]
    rfl

/-- Two runs in turn: the second takes place if the first succeeds. They end as the last of them
does, and their trades are those of both, numbered through. -/
inductive EndsInTurn (s : Session) (p q : Program) (market : Market) : Ending → Session → List TradeRecord → Prop
  | stopped {e : RuntimeError} {u : Session} (h : s.Ends p market (.failure e) u) :
      EndsInTurn s p q market (.failure e) u u.trades.records
  | finished {u v : Session} {e : Ending} (hp : s.Ends p market .success u) (hq : u.Ends q market e v) :
      EndsInTurn s p q market e v (u.trades.records ++ v.trades.records.map (·.later u.trades.size))

/-- A session is one long script: what two programs in turn come to, the two in a row come to in one
run, and the other way round. The ending, the scopes with all their values, and the trades agree. -/
theorem ends_append_iff {p q : Program} (hp : "position" ∉ Stmt.namesAll p) (hq : "position" ∉ Stmt.namesAll q)
    (depth : Nat) (market : Market) (e : Ending) (scopes : Forest) (trades : List TradeRecord) :
    (∃ t, (new ⟨none, depth⟩).Ends (p ++ q) market e t ∧ t.scopes = scopes ∧ t.trades.records = trades) ↔
      ∃ v, EndsInTurn (new ⟨none, depth⟩) p q market e v trades ∧ v.scopes = scopes := by
  have happend := @run_append _ p q market (quiet_new depth) hp hq
  constructor
  · rintro ⟨t, ⟨he, fuel, hrun⟩, rfl, rfl⟩
    -- fuel enough to take the run apart behind `p`
    have hmore := run_add_fuel hrun he (p.length + 1)
    rw [show fuel + (p.length + 1) = p.length + (fuel + 1) by omega, happend] at hmore
    split at hmore
    · rename_i u hfirst
      obtain ⟨rfl, rfl⟩ := Prod.mk.inj hmore
      refine ⟨(u.run (fuel + 1) q market).2, ?_, rfl⟩
      rw [Session.after, TradeLog.records_after]
      exact .finished ⟨nofun, _, hfirst⟩ ⟨he, _, rfl⟩
    · rename_i r hne
      cases e with
      | success => exact absurd hmore (hne t)
      | failure err => exact ⟨t, .stopped ⟨he, _, hmore⟩, rfl⟩
      | unfinished => exact absurd rfl he
  · rintro ⟨v, hturn, rfl⟩
    cases hturn with
    | stopped h =>
      obtain ⟨he, fuel, hrun⟩ := h
      have hmore := run_add_fuel hrun he (p.length + 1)
      rw [show fuel + (p.length + 1) = p.length + (fuel + 1) by omega] at hmore
      refine ⟨v, ⟨he, p.length + (fuel + 1), ?_⟩, rfl, rfl⟩
      rw [happend, hmore]
    | @finished u _ _ hfirst hsecond =>
      obtain ⟨he₁, m, hrun₁⟩ := hfirst
      obtain ⟨he₂, n, hrun₂⟩ := hsecond
      -- the two runs have fuel of their own, and the run of both needs one amount that is enough for either
      have hmore₁ := run_add_fuel hrun₁ he₁ (p.length + (n + 1))
      have hmore₂ := run_add_fuel hrun₂ he₂ (m + 1)
      rw [show m + (p.length + (n + 1)) = p.length + (n + m + 1) by omega] at hmore₁
      refine ⟨v.after u.trades u.steps, ⟨he₂, p.length + (n + m + 1), ?_⟩, rfl, TradeLog.records_after ..⟩
      rw [happend, hmore₁]
      show ((u.run (n + m + 1) q market).1, _) = _
      rw [show u.run (n + m + 1) q market = (e, v) from hmore₂]

/-- A program that buys and one that sells: in a row they make the trades number zero and one. -/
theorem buy_append_sell :
    let p : Program := [.trade .buy [] 1]
    let q : Program := [.trade .sell [] 1]
    "position" ∉ Stmt.namesAll p ∧ "position" ∉ Stmt.namesAll q ∧
      ∃ t, (new ⟨none, 64⟩).Ends (p ++ q) .empty .success t ∧ t.trades.records.map (·.sequence) = [0, 1] := by
  intro p q
  have hp : "position" ∉ Stmt.namesAll p := by decide
  have hq : "position" ∉ Stmt.namesAll q := by decide
  have hfirst : (new ⟨none, 64⟩).Ends p .empty .success ((new ⟨none, 64⟩).run 4 p .empty).2 := ⟨nofun, 4, rfl⟩
  generalize hu : ((new ⟨none, 64⟩).run 4 p .empty).2 = u at hfirst
  have hsecond : u.Ends q .empty .success (u.run 4 q .empty).2 := ⟨nofun, 4, by subst hu; rfl⟩
  obtain ⟨t, ht, -, htrades⟩ := (ends_append_iff hp hq 64 .empty .success _ _).2 ⟨_, .finished hfirst hsecond, rfl⟩
  refine ⟨hp, hq, t, ht, ?_⟩
  rw [htrades]
  subst hu
  rfl

end Session

end StrategyScript
