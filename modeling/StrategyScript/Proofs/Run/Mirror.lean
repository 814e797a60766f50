/-
One tree, run in two sessions that mirror each other. The runs do the same: they come to values that are
alike or to the same error, log the same trades, and leave sessions behind that mirror each other again.
The right one may have more fuel. Where scopes that one side alone has are passed by, look-up, assignment
and calls still go alike; only a definition takes place in the current scopes themselves, so there they
must belong together.
-/
import StrategyScript.Proofs.Run.Growth
import StrategyScript.Proofs.Run.Turn
import StrategyScript.Proofs.Scope.Mirror

namespace StrategyScript

open Eval

/-! ## Operations on values -/

section

variable {w : Pairing} {l l' r r' v v' : Value}

theorem Value.Alike.outline (h : v.Alike w v') : v.Outline v' := by
  cases h with
  | function id decl _ => exact .function _ _
  | data _ => exact .same v

theorem Value.Alike.isTruthy (h : v.Alike w v') : v.isTruthy = v'.isTruthy := by
  cases h <;> rfl

/-- Functions are compared by their numbers, and all other operators refuse them. -/
theorem BinaryOp.apply_alike (op : BinaryOp) (hl : l.Alike w l') (hr : r.Alike w r') (line : Nat) :
    op.apply l r line = op.apply l' r' line := by
  cases hl with
  | function id decl _ =>
    cases hr with
    | function id' decl' _ => cases op <;> rfl
    | data _ => cases op <;> cases r <;> rfl
  | data _ =>
    cases hr with
    | function id decl _ => cases op <;> cases l <;> rfl
    | data _ => rfl

theorem UnaryOp.apply_alike (op : UnaryOp) (h : v.Alike w v') (line : Nat) : op.apply v line = op.apply v' line := by
  cases h with
  | function id decl _ => cases op <;> rfl
  | data _ => rfl

theorem Value.at_alike (hl : l.Alike w l') (hr : r.Alike w r') (line : Nat) : l.at r line = l'.at r' line := by
  cases hl with
  | function id decl _ => rfl
  | data _ =>
    cases hr with
    | function id decl _ => cases l <;> rfl
    | data _ => rfl

end

/-- What an operation answers has no function in it. -/
def AnswersPlainly (r : Except RuntimeError Value) : Prop := ∀ v, r = .ok v → v.Fits fun _ => False

theorem BinaryOp.answersPlainly (op : BinaryOp) (l r : Value) (line : Nat) : AnswersPlainly (op.apply l r line) :=
  fun _ h => Value.fits_plain (.inr (BinaryOp.apply_ok h))

theorem UnaryOp.answersPlainly (op : UnaryOp) (v : Value) (line : Nat) : AnswersPlainly (op.apply v line) :=
  fun _ h => Value.fits_plain ((UnaryOp.apply_ok h).elim (.inr ∘ .inl) (.inr ∘ .inr ∘ .inl))

theorem Value.Alike.answersPlainly {w : Pairing} {t t' : Value} (h : t.Alike w t') (i : Value) (line : Nat) :
    AnswersPlainly (t.at i line) := by
  intro v hv
  cases h with
  | function id decl _ => cases hv
  | data hd => exact hd.at hv

/-! ## Sessions -/

/-- The sessions differ in their scopes, which mirror each other, and in the steps they have counted, of
which there may be any number. -/
structure Session.Mirrors (w : Pairing) (s s' : Session) : Prop where
  scopes : s.scopes.Mirrors w s'.scopes
  current : w.views s.current s'.current
  nextFunction : s'.nextFunction = s.nextFunction
  market : s'.market = s.market
  trades : s'.trades = s.trades
  limits : s'.limits = s.limits
  depth : s'.depth = s.depth
  unlimited : s.limits.maxSteps = none

namespace Session.Mirrors

variable {w : Pairing} {s s' : Session} {i j : ScopeId}

theorem counted (h : s.Mirrors w s') : s.counted.Mirrors w s' :=
  ⟨h.scopes, h.current, h.nextFunction, h.market, h.trades, h.limits, h.depth, h.unlimited⟩

theorem counted_right (h : s.Mirrors w s') : s.Mirrors w s'.counted :=
  ⟨h.scopes, h.current, h.nextFunction, h.market, h.trades, h.limits, h.depth, h.unlimited⟩

theorem numbered (h : s.Mirrors w s') : s.numbered.Mirrors w s'.numbered :=
  ⟨h.scopes, h.current, congrArg (· + 1) h.nextFunction, h.market, h.trades, h.limits, h.depth, h.unlimited⟩

theorem logged (h : s.Mirrors w s') {log log' : TradeLog} (hlog : log' = log) : (s.logged log).Mirrors w (s'.logged log') :=
  ⟨h.scopes, h.current, h.nextFunction, h.market, hlog, h.limits, h.depth, h.unlimited⟩

theorem binding (h : s.Mirrors w s') (hm : w.mates i j) (x : String) {v v' : Value} (hv : v.Alike w v') :
    (s.binding i x v).Mirrors w (s'.binding j x v') :=
  ⟨h.scopes.define hm x hv, h.current, h.nextFunction, h.market, h.trades, h.limits, h.depth, h.unlimited⟩

theorem enter (h : s.Mirrors w s') (hv : w.views i j) {d d' : Dictionary Value} (hd : d.Alike w d') {n n' : Nat}
    (hn : n' = n) : (s.enter i d n).Mirrors (w.pair s.scopes.size s'.scopes.size) (s'.enter j d' n') :=
  ⟨h.scopes.addChild hv hd, .inr ⟨rfl, rfl⟩, h.nextFunction, h.market, h.trades, h.limits, hn, h.unlimited⟩

/-- Only the session on the right enters a new scope. -/
theorem enterRight (h : s.Mirrors w s') (hbase : w.base ≤ s.current) :
    s.Mirrors (w.pass s.current s'.scopes.size) s'.enterBlock :=
  ⟨h.scopes.addRight h.current hbase, .inr ⟨rfl, rfl⟩, h.nextFunction, h.market, h.trades, h.limits, h.depth,
    h.unlimited⟩

theorem swap (h : s.Mirrors w s') : s'.Mirrors w.swap s :=
  ⟨h.scopes.swap, h.current, h.nextFunction.symm, h.market.symm, h.trades.symm, h.limits.symm, h.depth.symm,
    h.limits ▸ h.unlimited⟩

/-- Back in earlier scopes. -/
theorem leave {t t' : Session} (h : t.Mirrors w t') (hv : w.views s.current s'.current) (adjust : Nat → Nat) :
    (s.leave t adjust).Mirrors w (s'.leave t' adjust) :=
  ⟨h.scopes, hv, h.nextFunction, h.market, h.trades, h.limits, congrArg adjust h.depth, h.unlimited⟩

theorem leaveRight {t t' : Session} (h : t.Mirrors w t') (hv : w.views t.current s'.current) :
    t.Mirrors w (s'.leave t' id) :=
  ⟨h.scopes, hv, h.nextFunction, h.market, h.trades, h.limits, h.depth, h.unlimited⟩

theorem leaveLeft {t t' : Session} (h : t.Mirrors w t') (hv : w.views s.current t'.current) :
    (s.leave t id).Mirrors w t' :=
  ⟨h.scopes, hv, h.nextFunction, h.market, h.trades, h.limits, h.depth, h.unlimited⟩

end Session.Mirrors

/-! ## Computations -/

/-- If the computation on the left ends then so does the one on the right, in the same way: with related
results or with one error, back in the scopes where they began, and in sessions that mirror each other. -/
inductive Outcome.Mirrored {α β : Type} (w : Pairing) (R : Pairing → α → β → Prop) (s s' : Session) :
    Outcome α → Outcome β → Prop
  | done {w' : Pairing} {a : α} {b : β} {t t' : Session} (hw : w.Grows w') (hR : R w' a b) (h : t.Mirrors w' t')
      (hc : t.current = s.current) (hc' : t'.current = s'.current) : Mirrored w R s s' (.done a t) (.done b t')
  | failed {w' : Pairing} {t t' : Session} (e : RuntimeError) (hw : w.Grows w') (h : t.Mirrors w' t')
      (hc : t.current = s.current) (hc' : t'.current = s'.current) : Mirrored w R s s' (.failed e t) (.failed e t')
  | unfinished (t : Session) (o : Outcome β) : Mirrored w R s s' (.unfinished t) o

/-- The computation on the right mirrors the one on the left, in whatever sessions mirror each other whose
current scopes stand to each other as `P` says. -/
def Follows {α β : Type} (w : Pairing) (P : Pairing → ScopeId → ScopeId → Prop) (R : Pairing → α → β → Prop)
    (m : Eval α) (m' : Eval β) : Prop :=
  ∀ w' s s', w.Grows w' → s.Mirrors w' s' → (∀ v, w'.Grows v → P v s.current s'.current) →
    Outcome.Mirrored w' R s s' (m s) (m' s')

/-- Nothing more than that look-up goes the same way. -/
def Pairing.apart (_ : Pairing) (_ _ : ScopeId) : Prop := True

/-- The scopes belong together and are none of the old ones. -/
def Pairing.young (w : Pairing) (i j : ScopeId) : Prop := w.mates i j ∧ w.base ≤ i ∧ w.base ≤ j

/-- A statement ends in the same way. -/
inductive Flow.Alike (w : Pairing) : Flow → Flow → Prop
  | normal : Alike w .normal .normal
  | returned {v v' : Value} (h : v.Alike w v') (line : Nat) : Alike w (.returned v line) (.returned v' line)

/-- The arguments are alike, one by one. -/
def Value.AlikeAll (w : Pairing) : List Value → List Value → Prop := List.Forall₂ (Value.Alike w)

theorem Value.AlikeAll.mono {w w' : Pairing} {vs vs' : List Value} (h : Value.AlikeAll w vs vs') (hw : w.Grows w') :
    Value.AlikeAll w' vs vs' := List.Forall₂.imp (fun _ _ hv => hv.mono hw) h

theorem Flow.Alike.result {w : Pairing} {flow flow' : Flow} (h : flow.Alike w flow') : flow.result.Alike w flow'.result := by
  cases h with
  | normal => exact .data (Value.fits_plain (.inl rfl))
  | returned h line => exact h

section

variable {α β γ δ : Type} {w w' : Pairing} {P Q : Pairing → ScopeId → ScopeId → Prop} {R : Pairing → α → β → Prop}
  {T : Pairing → γ → δ → Prop} {m : Eval α} {m' : Eval β} {s s' t t' : Session}

theorem Outcome.Mirrored.from {o : Outcome α} {o' : Outcome β} (h : Outcome.Mirrored w' R t t' o o') (hw : w.Grows w')
    (hc : t.current = s.current) (hc' : t'.current = s'.current) : Outcome.Mirrored w R s s' o o' := by
  cases h with
  | done hw' hR h hd hd' => exact .done (hw.trans hw') hR h (hd.trans hc) (hd'.trans hc')
  | failed e hw' h hd hd' => exact .failed e (hw.trans hw') h (hd.trans hc) (hd'.trans hc')
  | unfinished t => exact .unfinished t _

/-- Both leave the scopes that they have entered. -/
theorem Outcome.Mirrored.restoring {o : Outcome α} {o' : Outcome β} (h : Outcome.Mirrored w' R t t' o o')
    (hw : w.Grows w') (hv : w.views s.current s'.current) (adjust : Nat → Nat) :
    Outcome.Mirrored w R s s' (restoring s.current adjust o) (restoring s'.current adjust o') := by
  cases h with
  | done hw' hR h _ _ => exact .done (hw.trans hw') hR (h.leave ((hw.trans hw').views hv) adjust) rfl rfl
  | failed e hw' h _ _ => exact .failed e (hw.trans hw') (h.leave ((hw.trans hw').views hv) adjust) rfl rfl
  | unfinished t => exact .unfinished t _

theorem Outcome.Mirrored.leaveRight {o : Outcome α} {o' : Outcome β} (h : Outcome.Mirrored w' R s t' o o')
    (hw : w.Grows w') (hv : w.views s.current s'.current) :
    Outcome.Mirrored w R s s' o (Eval.restoring s'.current id o') := by
  cases h with
  | done hw' hR h hc _ => exact .done (hw.trans hw') hR (h.leaveRight (hc ▸ (hw.trans hw').views hv)) hc rfl
  | failed e hw' h hc _ => exact .failed e (hw.trans hw') (h.leaveRight (hc ▸ (hw.trans hw').views hv)) hc rfl
  | unfinished t => exact .unfinished t _

theorem Outcome.Mirrored.leaveLeft {o : Outcome α} {o' : Outcome β} (h : Outcome.Mirrored w' R t s' o o')
    (hw : w.Grows w') (hv : w.views s.current s'.current) :
    Outcome.Mirrored w R s s' (Eval.restoring s.current id o) o' := by
  cases h with
  | done hw' hR h _ hc => exact .done (hw.trans hw') hR (h.leaveLeft (hc ▸ (hw.trans hw').views hv)) rfl hc
  | failed e hw' h _ hc => exact .failed e (hw.trans hw') (h.leaveLeft (hc ▸ (hw.trans hw').views hv)) rfl hc
  | unfinished t => exact .unfinished _ o'

namespace Follows

theorem anywhere (h : Follows w Pairing.apart R m m') : Follows w P R m m' := fun _ s s' hw hs _ =>
  h _ s s' hw hs fun _ _ => trivial

theorem young (h : Follows w Pairing.mates R m m') : Follows w Pairing.young R m m' := fun _ s s' hw hs hP =>
  h _ s s' hw hs fun v hv => (hP v hv).1

theorem bind {f : α → Eval γ} {g : β → Eval δ} (h : Follows w P R m m')
    (hf : ∀ w' a b, w.Grows w' → R w' a b → Follows w' P T (f a) (g b)) : Follows w P T (m >>= f) (m' >>= g) := by
  intro w₁ s s' hw hs hP
  have h := h w₁ s s' hw hs hP
  generalize ho : m s = o at h
  generalize ho' : m' s' = o' at h
  cases h with
  | @done w₂ a b t t' hw' hR ht hc hc' =>
    rw [bind_done f ho, bind_done g ho']
    refine Outcome.Mirrored.from ?_ hw' hc hc'
    refine hf w₂ a b (hw.trans hw') hR w₂ t t' (.refl w₂) ht fun v hv => ?_
    rw [hc, hc']
    exact hP v (hw'.trans hv)
  | failed e hw' ht hc hc' =>
    rw [bind_failed f ho, bind_failed g ho']
    exact .failed e hw' ht hc hc'
  | unfinished t =>
    rw [bind_unfinished f ho]
    exact .unfinished t _

/-- What is known of the results on the left may be added. -/
theorem given {K : α → Prop} (h : Follows w P R m m') (hK : ∀ s a t, m s = .done a t → K a) :
    Follows w P (fun w a b => R w a b ∧ K a) m m' := by
  intro w' s s' hw hs hP
  have h := h w' s s' hw hs hP
  have hK := hK s
  generalize m s = o at h hK
  generalize m' s' = o' at h
  cases h with
  | done hw hR ht hc hc' => exact .done hw ⟨hR, hK _ _ rfl⟩ ht hc hc'
  | failed e hw ht hc hc' => exact .failed e hw ht hc hc'
  | unfinished t => exact .unfinished t _

/-- What follows a computation with more fuel follows the one with less. -/
theorem lessFuel {m₁ : Eval α} (hless : ∀ s, (m s).Forces Eq (m₁ s)) (h : Follows w P R m₁ m') : Follows w P R m m' := by
  intro w' s s' hw hs hP
  have h := h w' s s' hw hs hP
  have hless := hless s
  cases ho : m s with
  | unfinished t => exact .unfinished t _
  | failed e t =>
    rw [ho] at hless
    rw [show m₁ s = .failed e t from hless] at h
    exact h
  | done a t =>
    rw [ho] at hless
    obtain ⟨b, hb, rfl⟩ := hless
    rw [hb] at h
    exact h

/-! ### Single steps -/

theorem pure {a : α} {b : β} (h : ∀ w', w.Grows w' → R w' a b) : Follows w P R (Pure.pure a) (Pure.pure b) :=
  fun w' _ _ hw hs _ => .done (.refl w') (h w' hw) hs rfl rfl

theorem normal : Follows w P Flow.Alike (Pure.pure .normal) (Pure.pure .normal) := .pure fun _ _ => .normal

theorem value {v v' : Value} (h : v.Alike w v') : Follows w P Value.Alike (Pure.pure v) (Pure.pure v') :=
  .pure fun _ hw => h.mono hw

theorem outOfFuel : Follows w P R Eval.outOfFuel m' := fun _ s _ _ _ _ => .unfinished s _

theorem fail (e : RuntimeError) : Follows w P R (Eval.fail e) (Eval.fail e) :=
  fun w' _ _ _ hs _ => .failed e (.refl w') hs rfl rfl

theorem ofExcept {r : Except RuntimeError Value} (hr : AnswersPlainly r) :
    Follows w P Value.Alike (Eval.ofExcept r) (Eval.ofExcept r) := by
  cases r with
  | ok v => exact .value (.data (hr v rfl))
  | error e => exact .fail e

/-- Counting on the left alone. -/
theorem tickLeft (h : Follows w P R m m') : Follows w P R (Eval.tick >>= fun _ => m) m' := by
  intro w' s s' hw hs hP
  rw [bind_done _ (tick_within (by intro limit hl; rw [hs.unlimited] at hl; cases hl))]
  exact (h w' s.counted s' hw hs.counted hP).from (.refl w') rfl rfl

/-- Counting on the right alone. -/
theorem tickRight (h : Follows w P R m m') : Follows w P R m (Eval.tick >>= fun _ => m') := by
  intro w' s s' hw hs hP
  rw [bind_done _ (tick_within (by intro limit hl; rw [hs.limits, hs.unlimited] at hl; cases hl))]
  exact (h w' s s'.counted hw hs.counted_right hP).from (.refl w') rfl rfl

theorem tick (h : Follows w P R m m') :
    Follows w P R (Eval.tick >>= fun _ => m) (Eval.tick >>= fun _ => m') := h.tickRight.tickLeft

theorem lookup (x : String) (line : Nat) : Follows w P Value.Alike (Eval.lookup x line) (Eval.lookup x line) := by
  intro w' s s' _ hs _
  rw [lookup_eq, lookup_eq]
  have hx := hs.scopes.lookup hs.current x
  generalize s.scopes.lookup s.current x = o at hx
  generalize s'.scopes.lookup s'.current x = o' at hx
  cases hx with
  | none => exact .failed _ (.refl w') hs rfl rfl
  | some hv => exact .done (.refl w') hv hs rfl rfl

theorem assign {v v' : Value} (hv : v.Alike w v') (x : String) (line : Nat) :
    Follows w P (fun _ => Eq) (Eval.assign x v line) (Eval.assign x v' line) := by
  intro w' s s' hw hs _
  unfold Eval.assign
  have hx := hs.scopes.resolve hs.current x
  generalize s.scopes.resolve s.current x = o at hx
  generalize s'.scopes.resolve s'.current x = o' at hx
  cases hx with
  | none => exact .failed _ (.refl w') hs rfl rfl
  | some hm => exact .done (.refl w') rfl (hs.binding hm x (hv.mono hw)) rfl rfl

theorem define {v v' : Value} (hv : v.Alike w v') (x : String) :
    Follows w Pairing.mates (fun _ => Eq) (Eval.define x v) (Eval.define x v') := fun w' _ _ hw hs hP =>
  .done (.refl w') rfl (hs.binding (hP w' (.refl w')) x (hv.mono hw)) rfl rfl

theorem newFunction (decl : FunctionDecl) :
    Follows w P (fun w f g => (Value.function f).Alike w (.function g)) (Eval.newFunction decl)
      (Eval.newFunction decl) := by
  intro w' s s' _ hs _
  refine .done (.refl w') ?_ hs.numbered rfl rfl
  rw [hs.nextFunction]
  exact .function _ decl hs.current

theorem checkDepth (line : Nat) : Follows w P (fun _ => Eq) (Eval.checkDepth line) (Eval.checkDepth line) := by
  intro w' s s' _ hs _
  unfold Eval.checkDepth
  rw [hs.limits, hs.depth]
  split
  · exact .failed _ (.refl w') hs rfl rfl
  · exact .done (.refl w') rfl hs rfl rfl

theorem trade (action : TradeAction) (order : Argument.Order) :
    Follows w P (fun _ => Eq) (Eval.trade action order) (Eval.trade action order) := by
  intro w' s s' _ hs _
  exact .done (.refl w') rfl (hs.logged (by rw [hs.trades, hs.market])) rfl rfl

theorem callBuiltin {args args' : List Value} (hargs : Value.AlikeAll w args args') (b : Builtin) (line : Nat) :
    Follows w P Value.Alike (Eval.callBuiltin b args line) (Eval.callBuiltin b args' line) := by
  intro w' s s' _ hs _
  have happly : b.apply s'.market s'.trades args' = b.apply s.market s.trades args := by
    rw [hs.market, hs.trades, ← Builtin.apply_outline (hargs.imp fun _ _ hv => hv.outline)]
  unfold Eval.callBuiltin
  rw [happly]
  cases hb : b.apply s.market s.trades args with
  | ok r => exact .done (.refl w') (.data (Value.fits_data (Builtin.apply_data hb))) (hs.logged rfl) rfl rfl
  | error fault => exact .failed _ (.refl w') hs rfl rfl

/-! ### New scopes -/

theorem inBlock (h : ∀ w', w.Grows w' → Follows w' Pairing.young R m m') :
    Follows w P R (Eval.inBlock m) (Eval.inBlock m') := by
  intro w' s s' hw hs _
  have hgrows := w'.grows_pair s.scopes.size s'.scopes.size
  have hin := hs.enter hs.current Dictionary.alike_nil hs.depth
  refine (h _ (hw.trans hgrows) _ _ _ (.refl _) hin fun v hv => ?_).restoring hgrows hs.current id
  exact ⟨hv.mates (.inr ⟨rfl, rfl⟩), (hgrows.trans hv).base ▸ hs.scopes.spans.base⟩

theorem inCall {i j : ScopeId} (hv : w.views i j) {d d' : Dictionary Value} (hd : d.Alike w d')
    (h : ∀ w', w.Grows w' → Follows w' Pairing.mates R m m') :
    Follows w P R (Eval.inCall i d m) (Eval.inCall j d' m') := by
  intro w' s s' hw hs _
  have hgrows := w'.grows_pair s.scopes.size s'.scopes.size
  have hin := hs.enter (hw.views hv) (hd.mono hw) (congrArg (· + 1) hs.depth)
  refine (h _ (hw.trans hgrows) _ _ _ (.refl _) hin fun v hv => ?_).restoring hgrows hs.current (· - 1)
  exact hv.mates (.inr ⟨rfl, rfl⟩)

/-- A new scope on the right alone. -/
theorem inRight (h : ∀ w', w.Grows w' → Follows w' Pairing.apart R m m') :
    Follows w Pairing.young R m (Eval.inBlock m') := by
  intro w' s s' hw hs hP
  obtain ⟨-, hi, -⟩ := hP w' (.refl w')
  have hgrows := w'.grows_pass s.current s'.scopes.size
  exact (h _ (hw.trans hgrows) _ _ _ (.refl _) (hs.enterRight hi) fun _ _ => trivial).leaveRight hgrows hs.current

/-- A new scope on the left alone. -/
theorem inLeft (h : ∀ w', w.Grows w' → Follows w' Pairing.apart R m m') :
    Follows w Pairing.young R (Eval.inBlock m) m' := by
  intro w' s s' hw hs hP
  obtain ⟨-, -, hj⟩ := hP w' (.refl w')
  have hgrows := (w'.swap.grows_pass s'.current s.scopes.size).swap
  exact (h _ (hw.trans hgrows) _ _ _ (.refl _) (hs.swap.enterRight hj).swap fun _ _ => trivial).leaveLeft hgrows hs.current

end Follows

end

/-! ## Loops -/

/-- Whether a loop goes on; without a condition it does. -/
def goesOn (n : Nat) : Option Expr → Eval Bool
  | some c => do
    let v ← evaluate n c
    return v.isTruthy
  | none => return true

/-- What a loop does behind its body. -/
def increase (n : Nat) : Option Expr → Eval Flow
  | some i => do
    let _ ← evaluate n i
    return .normal
  | none => return .normal

/-- One turn of a loop. -/
def loopTurn (n : Nat) (increment : Option Expr) (body : Stmt) : Eval Flow :=
  execute n body >>= Flow.onward (increase n increment)

theorem loop_eq (n : Nat) (condition increment : Option Expr) (body : Stmt) :
    loop (n + 1) condition increment body = do
      if ← goesOn n condition then
        tick
        loopTurn n increment body >>= Flow.onward (loop n condition increment body)
      else return .normal := by
  have hround : loopRound n condition increment body =
      (do tick; loopTurn n increment body >>= Flow.onward (loop n condition increment body)) := by
    refine bind_congr fun _ => ?_
    rw [loopTurn, Eval.bind_assoc]
    refine bind_congr fun flow => ?_
    cases flow with
    | returned v line => rfl
    | normal =>
      cases increment with
      | none => rfl
      | some i =>
        show (evaluate n i >>= fun _ => loop n condition (some i) body) =
          (evaluate n i >>= fun _ => Pure.pure .normal) >>= Flow.onward (loop n condition (some i) body)
        rw [Eval.bind_assoc]
        rfl
  cases condition with
  | none => exact hround
  | some c =>
    rw [goesOn, Eval.bind_assoc]
    refine bind_congr fun v => ?_
    show (if v.isTruthy then loopRound n (some c) increment body else Pure.pure .normal) = _
    rw [hround]
    rfl

namespace Follows

variable {w : Pairing} {P : Pairing → ScopeId → ScopeId → Prop} {k n : Nat}

theorem onward {m m' next next' : Eval Flow} (h : Follows w P Flow.Alike m m')
    (hnext : ∀ w', w.Grows w' → Follows w' P Flow.Alike next next') :
    Follows w P Flow.Alike (m >>= Flow.onward next) (m' >>= Flow.onward next') := by
  refine h.bind fun w' flow flow' hw hflow => ?_
  cases hflow with
  | normal => exact hnext w' hw
  | returned hv line => exact .pure fun _ hw' => .returned (hv.mono hw') line

variable {condition condition' increment increment' : Option Expr} {body body' : Stmt}

/-- Loops go along if their conditions and their turns do, and the turns that come next. -/
theorem loop_succ
    (hc : ∀ w, Follows w P (fun _ => Eq) (goesOn n condition) (goesOn (n + k) condition'))
    (ht : ∀ w, Follows w P Flow.Alike (loopTurn n increment body) (loopTurn (n + k) increment' body'))
    (hrest : ∀ w, Follows w P Flow.Alike (StrategyScript.loop n condition increment body)
      (StrategyScript.loop (n + k) condition' increment' body')) (w : Pairing) :
    Follows w P Flow.Alike (StrategyScript.loop (n + 1) condition increment body)
      (StrategyScript.loop (n + 1 + k) condition' increment' body') := by
  rw [Nat.add_right_comm, loop_eq, loop_eq]
  refine (hc w).bind fun w' b b' _ hb => ?_
  subst hb
  split
  · exact .tick ((ht w').onward fun w'' _ => hrest w'')
  · exact .normal

theorem loop
    (hc : ∀ n w, Follows w P (fun _ => Eq) (goesOn n condition) (goesOn (n + k) condition'))
    (ht : ∀ n w, Follows w P Flow.Alike (loopTurn n increment body) (loopTurn (n + k) increment' body'))
    (n : Nat) : ∀ w, Follows w P Flow.Alike (StrategyScript.loop n condition increment body)
      (StrategyScript.loop (n + k) condition' increment' body') := by
  induction n with
  | zero => exact fun _ => .outOfFuel
  | succ n ih => exact loop_succ (hc n) (ht n) ih

end Follows

/-! ## Whole expressions and statements -/

/-- With so much fuel on the left, and `k` units more on the right, every tree is followed by itself. -/
structure Copies (k n : Nat) : Prop where
  evaluate : ∀ w e, Follows w Pairing.apart Value.Alike (evaluate n e) (evaluate (n + k) e)
  evaluateAll : ∀ w es, Follows w Pairing.apart Value.AlikeAll (evaluateAll n es) (evaluateAll (n + k) es)
  callFunction : ∀ w f g vs vs' line, (Value.function f).Alike w (.function g) → Value.AlikeAll w vs vs' →
    Follows w Pairing.apart Value.Alike (callFunction n f vs line) (callFunction (n + k) g vs' line)
  execute : ∀ w stmt, Follows w Pairing.mates Flow.Alike (execute n stmt) (execute (n + k) stmt)
  executeAll : ∀ w stmts, Follows w Pairing.mates Flow.Alike (executeAll n stmts) (executeAll (n + k) stmts)
  loop : ∀ w condition increment body, Follows w Pairing.mates Flow.Alike (loop n condition increment body)
    (loop (n + k) condition increment body)

namespace Copies

variable {k n : Nat}

theorem zero : Copies k 0 where
  evaluate _ _ := .outOfFuel
  evaluateAll _ _ := .outOfFuel
  callFunction _ _ _ _ _ _ _ _ := .outOfFuel
  execute _ _ := .outOfFuel
  executeAll _ _ := .outOfFuel
  loop _ _ _ _ := .outOfFuel

theorem evaluate_succ (h : Copies k n) (w : Pairing) (e : Expr) :
    Follows w Pairing.apart Value.Alike (StrategyScript.evaluate (n + 1) e) (StrategyScript.evaluate (n + 1 + k) e) := by
  rw [Nat.add_right_comm]
  have hplain : ∀ {w v}, v.kind = .null ∨ v.kind = .boolean ∨ v.kind = .number ∨ v.kind = .string →
      Follows w Pairing.apart Value.Alike (Pure.pure v) (Pure.pure v) := fun hv => .value (Value.alike_plain hv)
  cases e with
  | number x p => exact hplain (.inr (.inr (.inl rfl)))
  | string x p => exact hplain (.inr (.inr (.inr rfl)))
  | boolean b p => exact hplain (.inr (.inl rfl))
  | identifier x p => exact .lookup x p.line
  | assign x value p =>
    refine (h.evaluate w value).bind fun w' v v' _ hv => ?_
    exact (Follows.assign hv x p.line).bind fun _ _ _ hw _ => .value (hv.mono hw)
  | binary op left right p =>
    refine (h.evaluate w left).bind fun w₁ l l' _ hl => ?_
    -- `and` and `or` reach the right side by the truth of the left one, every other operator does so always
    have htruth : Follows w₁ Pairing.apart Value.Alike
        (do return .boolean (← StrategyScript.evaluate n right).isTruthy)
        (do return .boolean (← StrategyScript.evaluate (n + k) right).isTruthy) :=
      (h.evaluate w₁ right).bind fun w₂ r r' _ hr => by
        rw [hr.isTruthy]
        exact hplain (.inr (.inl rfl))
    have hop : ∀ op : BinaryOp, Follows w₁ Pairing.apart Value.Alike
        (do Eval.ofExcept (op.apply l (← StrategyScript.evaluate n right) p.line))
        (do Eval.ofExcept (op.apply l' (← StrategyScript.evaluate (n + k) right) p.line)) := fun op =>
      (h.evaluate w₁ right).bind fun w₂ r r' hw hr => by
        rw [← op.apply_alike (hl.mono hw) hr]
        exact .ofExcept (op.answersPlainly l r p.line)
    cases op
    case and =>
      dsimp only
      rw [← hl.isTruthy]
      split
      · exact htruth
      · exact hplain (.inr (.inl rfl))
    case or =>
      dsimp only
      rw [← hl.isTruthy]
      split
      · exact hplain (.inr (.inl rfl))
      · exact htruth
    all_goals exact hop _
  | unary op operand p =>
    refine (h.evaluate w operand).bind fun w' v v' _ hv => ?_
    rw [← op.apply_alike hv]
    exact .ofExcept (op.answersPlainly v p.line)
  | call callee args p =>
    refine (Follows.lookup callee p.line).bind fun w₁ f f' _ hf => ?_
    refine (h.evaluateAll w₁ args).bind fun w₂ vs vs' hw hvs => ?_
    -- both sides found the same kind of value, so they call alike or fail alike
    cases hf.mono hw with
    | function id decl hv => exact h.callFunction w₂ _ _ vs vs' p.line (.function id decl hv) hvs
    | data hd =>
      cases f with
      | function g => exact absurd rfl (hd.function g)
      | builtin b => exact .callBuiltin hvs b p.line
      | null | boolean _ | number _ | string _ | record _ | list _ => exact .fail _
  | index target i p =>
    refine (h.evaluate w target).bind fun w₁ t t' _ ht => ?_
    refine (h.evaluate w₁ i).bind fun w₂ v v' hw hv => ?_
    rw [← Value.at_alike (ht.mono hw) hv]
    exact .ofExcept (ht.answersPlainly v p.line)

theorem evaluateAll_succ (h : Copies k n) (w : Pairing) (es : List Expr) :
    Follows w Pairing.apart Value.AlikeAll (StrategyScript.evaluateAll (n + 1) es)
      (StrategyScript.evaluateAll (n + 1 + k) es) := by
  rw [Nat.add_right_comm]
  cases es with
  | nil => exact .pure fun _ _ => .nil
  | cons e es =>
    refine (h.evaluate w e).bind fun w₁ v v' _ hv => ?_
    refine (h.evaluateAll w₁ es).bind fun w₂ vs vs' hw hvs => ?_
    exact .pure fun _ hw' => .cons (hv.mono (hw.trans hw')) (hvs.mono hw')

theorem callFunction_succ (h : Copies k n) (w : Pairing) (f g : Function) (vs vs' : List Value) (line : Nat)
    (hf : (Value.function f).Alike w (.function g)) (hvs : Value.AlikeAll w vs vs') :
    Follows w Pairing.apart Value.Alike (StrategyScript.callFunction (n + 1) f vs line)
      (StrategyScript.callFunction (n + 1 + k) g vs' line) := by
  rw [Nat.add_right_comm]
  cases hf with
  | data hd => exact absurd rfl (hd.function f)
  | function id decl hv =>
    refine (Follows.checkDepth line).bind fun w₁ _ _ hw _ => ?_
    have hd := (Dictionary.alike_nil (w := w₁)).bindParameters decl.params (hvs.mono hw)
    refine (Follows.inCall (hw.views hv) hd fun w₂ _ => h.executeAll w₂ decl.body).bind fun _ _ _ _ hflow => ?_
    exact .value hflow.result

/-- A block is followed by itself also where its scope stands inside scopes that do not belong together. -/
theorem block (h : Copies k n) (w : Pairing) (body : List Stmt) :
    Follows w Pairing.apart Flow.Alike (StrategyScript.execute (n + 1) (.block body))
      (StrategyScript.execute (n + 1 + k) (.block body)) := by
  rw [Nat.add_right_comm]
  exact .tick (.inBlock fun w' _ => (h.executeAll w' body).young)

theorem execute_succ (h : Copies k n) (w : Pairing) (stmt : Stmt) :
    Follows w Pairing.mates Flow.Alike (StrategyScript.execute (n + 1) stmt) (StrategyScript.execute (n + 1 + k) stmt) := by
  have hevaluate : ∀ w e, Follows w Pairing.mates Value.Alike (StrategyScript.evaluate n e)
      (StrategyScript.evaluate (n + k) e) := fun w e => (h.evaluate w e).anywhere
  cases stmt with
  | block body => exact (h.block w body).anywhere
  | function name params body =>
    rw [Nat.add_right_comm]
    refine .tick ((Follows.newFunction _).bind fun w' f g _ hf => ?_)
    exact (Follows.define hf name).bind fun _ _ _ _ _ => .normal
  | var name value =>
    rw [Nat.add_right_comm]
    cases value with
    | none => exact .tick ((Follows.define (Value.alike_plain (.inl rfl)) name).bind fun _ _ _ _ _ => .normal)
    | some e =>
      refine .tick ((hevaluate w e).bind fun w' v v' _ hv => ?_)
      exact (Follows.define hv name).bind fun _ _ _ _ _ => .normal
  | branch c thenBranch elseBranch =>
    rw [Nat.add_right_comm]
    refine .tick ((hevaluate w c).bind fun w' v v' _ hv => ?_)
    rw [hv.isTruthy]
    split
    · exact h.execute w' thenBranch
    · cases elseBranch with
      | none => exact .normal
      | some e => exact h.execute w' e
  | whileLoop c body =>
    rw [Nat.add_right_comm]
    exact .tick (h.loop w (some c) none body)
  | forLoop start c increment body =>
    rw [Nat.add_right_comm]
    cases start with
    | none => exact .tick (.inBlock fun w' _ => (h.loop w' c increment body).young)
    | some start =>
      refine .tick (.inBlock fun w' _ => ((h.execute w' start.toStmt).bind fun w₁ _ _ _ _ => ?_).young)
      exact h.loop w₁ c increment body
  | ret value line =>
    rw [Nat.add_right_comm]
    have hreturn : ∀ w v v', v.Alike w v' →
        Follows w Pairing.mates Flow.Alike (Pure.pure (.returned v line)) (Pure.pure (.returned v' line)) :=
      fun w v v' hv => .pure fun _ hw => .returned (hv.mono hw) line
    cases value with
    | none => exact .tick (hreturn w _ _ (Value.alike_plain (.inl rfl)))
    | some e => exact .tick ((hevaluate w e).bind fun w' v v' _ hv => hreturn w' v v' hv)
  | trade action args line =>
    rw [Nat.add_right_comm]
    refine .tick ((h.evaluateAll w args).anywhere.bind fun w' vs vs' _ hvs => ?_)
    rw [← Argument.classify_outline (hvs.imp fun _ _ hv => hv.outline)]
    cases Argument.classify vs with
    | ok order => exact (Follows.trade action order).bind fun _ _ _ _ _ => .normal
    | error fault => exact .fail _
  | expr value =>
    rw [Nat.add_right_comm]
    exact .tick ((hevaluate w value).bind fun _ _ _ _ _ => .normal)

theorem executeAll_succ (h : Copies k n) (w : Pairing) (stmts : List Stmt) :
    Follows w Pairing.mates Flow.Alike (StrategyScript.executeAll (n + 1) stmts)
      (StrategyScript.executeAll (n + 1 + k) stmts) := by
  rw [Nat.add_right_comm]
  cases stmts with
  | nil => exact .normal
  | cons stmt stmts => exact (h.execute w stmt).onward fun w' _ => h.executeAll w' stmts

theorem goesOn (h : Copies k n) (w : Pairing) (condition : Option Expr) :
    Follows w Pairing.apart (fun _ => Eq) (StrategyScript.goesOn n condition) (StrategyScript.goesOn (n + k) condition) := by
  cases condition with
  | none => exact .pure fun _ _ => rfl
  | some c => exact (h.evaluate w c).bind fun _ _ _ _ hv => .pure fun _ _ => hv.isTruthy

theorem increase (h : Copies k n) (w : Pairing) (increment : Option Expr) :
    Follows w Pairing.apart Flow.Alike (StrategyScript.increase n increment)
      (StrategyScript.increase (n + k) increment) := by
  cases increment with
  | none => exact .normal
  | some i => exact (h.evaluate w i).bind fun _ _ _ _ _ => .normal

end Copies

theorem copies (k n : Nat) : Copies k n := by
  induction n with
  | zero => exact .zero
  | succ n h =>
    refine ⟨h.evaluate_succ, h.evaluateAll_succ, h.callFunction_succ, h.execute_succ, h.executeAll_succ, ?_⟩
    intro w condition increment body
    refine Follows.loop_succ (fun w => (h.goesOn w condition).anywhere) (fun w => ?_) ?_ w
    · exact (h.execute w body).onward fun w' _ => (h.increase w' increment).anywhere
    · exact fun w => h.loop w condition increment body

end StrategyScript
