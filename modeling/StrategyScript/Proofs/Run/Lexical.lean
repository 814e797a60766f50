/-
Scoping is lexical. An expression is evaluated in two scopes of one session, in which the names that
occur in it mean the same. Look-up and assignment are all that the scope decides, so both evaluations
make the same of the session; on the way no scope that was there learns a name, so the names keep meaning
the same. A call enters a scope inside that of the declaration, and what happens there knows nothing of
the scope that it was called from.
-/
import StrategyScript.Proofs.Run.Hygiene
import StrategyScript.Proofs.Run.Rooted

namespace StrategyScript

open Eval

/-! ## Two scopes of one session -/

/-- The same session with another current scope. -/
def Session.inScope (s : Session) (i : ScopeId) : Session := { s with current := i }

/-- The two computations come to the same result or error, and leave the same session behind, each in a
scope of its own. Without enough fuel neither comes to anything. -/
inductive Outcome.Parallel {α : Type} (i j : ScopeId) : Outcome α → Outcome α → Prop
  | done (a : α) (t : Session) : Parallel i j (.done a (t.inScope i)) (.done a (t.inScope j))
  | failed (e : RuntimeError) (t : Session) : Parallel i j (.failed e (t.inScope i)) (.failed e (t.inScope j))
  | unfinished (t u : Session) : Parallel i j (.unfinished t) (.unfinished u)

/-- The computation does the same in both scopes of the session. -/
def Eval.Coincides {α : Type} (m : Eval α) (i j : ScopeId) (s : Session) : Prop :=
  Outcome.Parallel i j (m (s.inScope i)) (m (s.inScope j))

/-- Each of the names means the same in both scopes, or nothing in both. -/
def Session.AgreesOn (s : Session) (i j : ScopeId) (names : List String) : Prop :=
  ∀ x ∈ names, s.scopes.resolve i x = s.scopes.resolve j x

/-- Two scopes of a session as it can be met, which agree on some names. -/
structure Session.Ready (s : Session) (i j : ScopeId) (names : List String) : Prop where
  sound : rooted.Sound (s.inScope i)
  right : j < s.scopes.size
  agree : s.AgreesOn i j names

section

variable {α β : Type} {i j : ScopeId} {s t : Session} {names names' : List String}

/-! ## What names mean later on -/

/-- If no scope has learned a name, names mean what they meant. -/
theorem Session.SameNames.resolve (hnames : s.SameNames t) (hs : s.scopes.Rooted) (hext : s.scopes.Extends t.scopes)
    (hi : i < s.scopes.size) (x : String) : t.scopes.resolve i x = s.scopes.resolve i x := by
  unfold Forest.resolve
  rw [hext.chain i hi]
  refine List.find?_congr fun k hk => ?_
  exact Bool.eq_iff_iff.2 (hnames k (hs.lt_size_of_mem_chain hi hk) x)

namespace Session

theorem Ready.mono (h : s.Ready i j names) (hsub : names' ⊆ names) : s.Ready i j names' :=
  ⟨h.sound, h.right, fun x hx => h.agree x (hsub hx)⟩

theorem Ready.next (h : s.Ready i j names) (hsound : rooted.Sound (t.inScope i))
    (hreturns : (s.inScope i).Returns [] (t.inScope i)) : t.Ready i j names := by
  have hmeans : ∀ {k x}, k < s.scopes.size → t.scopes.resolve k x = s.scopes.resolve k x := fun hk =>
    hreturns.sameNames.resolve h.sound.good.scopes hreturns.scopes hk _
  have hi : i < s.scopes.size := h.sound.good.current
  refine ⟨hsound, h.right.trans_le hreturns.scopes.size, fun x hx => ?_⟩
  rw [hmeans hi, hmeans h.right]
  exact h.agree x hx

theorem Ready.lookup (h : s.Ready i j names) {x : String} {line : Nat} {v : Value}
    (hv : lookup x line (s.inScope i) = .done v (t.inScope i)) : t.Ready i j names := by
  have hsame : s.inScope i = t.inScope i := by
    rw [lookup_eq] at hv
    split at hv
    · exact (Outcome.done.inj hv).2
    · cases hv
  exact h.next (hsame ▸ h.sound) (hsame ▸ .refl ..)

/-- Behind an expression the scopes agree as before. -/
theorem Ready.evaluate (h : s.Ready i j names) {n : Nat} {e : Expr} {v : Value}
    (hv : evaluate n e (s.inScope i) = .done v (t.inScope i)) : t.Ready i j names := by
  have hr : rooted.Right ⟨n, .evaluate e, s.inScope i⟩ := ⟨trivial, h.sound, trivial⟩
  obtain ⟨hsound, hreturns⟩ := hr.ended (congrArg Outcome.ended? hv)
  exact h.next hsound hreturns

end Session

/-! ## Steps -/

theorem Eval.Coincides.bind {m : Eval α} {f : α → Eval β} (h : m.Coincides i j s)
    (hf : ∀ a t, m (s.inScope i) = .done a (t.inScope i) → (f a).Coincides i j t) : (m >>= f).Coincides i j s := by
  unfold Coincides at h ⊢
  generalize hi : m (s.inScope i) = o at h
  generalize hj : m (s.inScope j) = o' at h
  cases h with
  | done a t =>
    rw [bind_done f hi, bind_done f hj]
    exact hf a t hi
  | failed e t =>
    rw [bind_failed f hi, bind_failed f hj]
    exact .failed e t
  | unfinished t u =>
    rw [bind_unfinished f hi, bind_unfinished f hj]
    exact .unfinished t u

theorem coincides_pure (a : α) : (pure a : Eval α).Coincides i j s := .done a s

theorem coincides_fail (e : RuntimeError) : (fail e : Eval α).Coincides i j s := .failed e s

theorem coincides_ofExcept (r : Except RuntimeError α) : (ofExcept r).Coincides i j s := by
  cases r with
  | ok a => exact .done a s
  | error e => exact .failed e s

theorem coincides_lookup {x : String} (h : s.scopes.resolve i x = s.scopes.resolve j x) (line : Nat) :
    (lookup x line).Coincides i j s := by
  have hmeans : s.scopes.lookup i x = s.scopes.lookup j x := by rw [Forest.lookup, h, Forest.lookup]
  unfold Coincides
  simp only [lookup_eq, Session.inScope, hmeans]
  cases s.scopes.lookup j x with
  | some v => exact .done v s
  | none => exact .failed _ s

theorem coincides_assign {x : String} (h : s.scopes.resolve i x = s.scopes.resolve j x) (v : Value) (line : Nat) :
    (assign x v line).Coincides i j s := by
  unfold Coincides
  simp only [assign, Session.inScope, h]
  cases s.scopes.resolve j x with
  | some owner => exact .done () (s.binding owner x v)
  | none => exact .failed _ s

theorem coincides_callBuiltin (b : Builtin) (args : List Value) (line : Nat) :
    (callBuiltin b args line).Coincides i j s := by
  unfold Coincides
  simp only [callBuiltin, Session.inScope]
  cases b.apply s.market s.trades args with
  | ok r => exact .done r.1 (s.logged r.2)
  | error fault => exact .failed _ s

theorem coincides_checkDepth (line : Nat) : (checkDepth line).Coincides i j s := by
  unfold Coincides
  by_cases hd : s.limits.maxCallDepth ≤ s.depth
  · have hfailed : ∀ k, checkDepth line (s.inScope k) =
        .failed (.fault (.callDepthExceeded s.limits.maxCallDepth) line) (s.inScope k) := fun _ => if_pos hd
    rw [hfailed, hfailed]
    exact .failed _ s
  · have hdone : ∀ k, checkDepth line (s.inScope k) = .done () (s.inScope k) := fun _ => if_neg hd
    rw [hdone, hdone]
    exact .done () s

/-- Inside a call nothing is left of the scope that it was made in. -/
theorem coincides_inCall (parent : ScopeId) (bindings : Dictionary Value) (m : Eval α) :
    (inCall parent bindings m).Coincides i j s := by
  show Outcome.Parallel i j (restoring i (· - 1) (m (s.enter parent bindings (s.depth + 1))))
    (restoring j (· - 1) (m (s.enter parent bindings (s.depth + 1))))
  cases m (s.enter parent bindings (s.depth + 1)) with
  | done a t => exact .done a (s.leave t (· - 1))
  | failed e t => exact .failed e (s.leave t (· - 1))
  | unfinished t => exact .unfinished t t

theorem coincides_callFunction (n : Nat) (f : Function) (args : List Value) (line : Nat) :
    (callFunction n f args line).Coincides i j s := by
  cases n with
  | zero => exact .unfinished _ _
  | succ n =>
    refine (coincides_checkDepth line).bind fun _ t _ => ?_
    exact (coincides_inCall ..).bind fun flow u _ => coincides_pure _

/-! ## Expressions -/

/-- With so much fuel, expressions do the same in two scopes that agree on their names. -/
structure Lexical (n : Nat) : Prop where
  evaluate : ∀ {i j s} (e : Expr), s.Ready i j e.names → (StrategyScript.evaluate n e).Coincides i j s
  evaluateAll : ∀ {i j s} (es : List Expr), s.Ready i j (Expr.namesAll es) →
    (StrategyScript.evaluateAll n es).Coincides i j s

theorem Lexical.evaluate_succ {n : Nat} (h : Lexical n) {e : Expr} (hs : s.Ready i j e.names) :
    (StrategyScript.evaluate (n + 1) e).Coincides i j s := by
  cases e with
  | number x p | string x p | boolean b p => exact coincides_pure _
  | identifier x p => exact coincides_lookup (hs.agree x (List.mem_singleton_self x)) _
  | assign x value p =>
    refine (h.evaluate value (hs.mono (List.subset_cons_self ..))).bind fun v t hv => ?_
    refine (coincides_assign ((hs.evaluate hv).agree x List.mem_cons_self) v _).bind fun _ u _ => coincides_pure v
  | binary op left right p =>
    refine (h.evaluate left (hs.mono (List.subset_append_left ..))).bind fun l t hl => ?_
    have hright := h.evaluate right ((hs.evaluate hl).mono (List.subset_append_right ..))
    cases op
    case and =>
      dsimp only
      split
      · exact hright.bind fun r u _ => coincides_pure _
      · exact coincides_pure _
    case or =>
      dsimp only
      split
      · exact coincides_pure _
      · exact hright.bind fun r u _ => coincides_pure _
    all_goals exact hright.bind fun r u _ => coincides_ofExcept _
  | unary op operand p => exact (h.evaluate operand hs).bind fun v t _ => coincides_ofExcept _
  | call callee args p =>
    refine (coincides_lookup (hs.agree callee List.mem_cons_self) _).bind fun f t hf => ?_
    refine (h.evaluateAll args ((hs.lookup hf).mono (List.subset_cons_self ..))).bind fun vs u _ => ?_
    cases f with
    | function f => exact coincides_callFunction n f vs _
    | builtin b => exact coincides_callBuiltin b vs _
    | null | boolean _ | number _ | string _ | record _ | list _ => exact coincides_fail _
  | index target k p =>
    refine (h.evaluate target (hs.mono (List.subset_append_left ..))).bind fun v t hv => ?_
    refine (h.evaluate k ((hs.evaluate hv).mono (List.subset_append_right ..))).bind fun w u _ => ?_
    exact coincides_ofExcept _

theorem Lexical.evaluateAll_succ {n : Nat} (h : Lexical n) {es : List Expr} (hs : s.Ready i j (Expr.namesAll es)) :
    (StrategyScript.evaluateAll (n + 1) es).Coincides i j s := by
  cases es with
  | nil => exact coincides_pure _
  | cons e es =>
    refine (h.evaluate e (hs.mono (List.subset_append_left ..))).bind fun v t hv => ?_
    refine (h.evaluateAll es ((hs.evaluate hv).mono (List.subset_append_right ..))).bind fun vs u _ => ?_
    exact coincides_pure _

theorem lexical (n : Nat) : Lexical n := by
  induction n with
  | zero => exact ⟨fun _ _ => .unfinished _ _, fun _ _ => .unfinished _ _⟩
  | succ n ih => exact ⟨fun _ hs => ih.evaluate_succ hs, fun _ hs => ih.evaluateAll_succ hs⟩

end

namespace Session

/-- In two scopes of a reachable session an expression comes to the same, if each name that occurs in it
means the same in both; and a call of a function comes to the same in any two scopes. -/
theorem scoping_is_lexical {s : Session} (hs : s.Reachable) {i j : ScopeId} (hi : i < s.scopes.size)
    (hj : j < s.scopes.size) (fuel : Nat) :
    (∀ e : Expr, s.AgreesOn i j e.names →
      Outcome.Parallel i j (evaluate fuel e (s.inScope i)) (evaluate fuel e (s.inScope j))) ∧
    ∀ f args line, Outcome.Parallel i j (callFunction fuel f args line (s.inScope i))
      (callFunction fuel f args line (s.inScope j)) := by
  obtain ⟨hgood, hholds⟩ := Discipline.sound_of_reachable rooted_lasts hs
  have hsound : rooted.Sound (s.inScope i) := ⟨⟨hgood.scopes, hi, hgood.builtins⟩, hholds⟩
  exact ⟨fun e hnames => (lexical fuel).evaluate e ⟨hsound, hj, hnames⟩, coincides_callFunction fuel⟩

/-- A function that reads a global variable, called where a block has hidden it: the call gives what it
gives outside, though the name now means something else. -/
theorem hidden_variable_is_not_read :
    let p : Program := [.var "x" (some (.boolean true ⟨1, 9⟩)),
      .function "f" [] [.ret (some (.identifier "x" ⟨2, 23⟩)) 2],
      .block [.var "x" (some (.boolean false ⟨3, 11⟩))]]
    let s := ((new {}).run 8 p .empty).2
    let call : Expr := .call "f" [] ⟨4, 1⟩
    s.Reachable ∧ s.scopes.size = 2 ∧ s.AgreesOn 0 1 call.names ∧
      s.scopes.resolve 0 "x" ≠ s.scopes.resolve 1 "x" ∧
      Outcome.Parallel 0 1 (evaluate 6 call (s.inScope 0)) (evaluate 6 call (s.inScope 1)) ∧
      (evaluate 6 call (s.inScope 1)).ended?.map (·.scopes.size) = some 3 := by
  intro p s call
  have hs : s.Reachable := (History.new.run (by decide +kernel)).reachable
  have hsize : s.scopes.size = 2 := by decide +kernel
  have hnames : s.AgreesOn 0 1 call.names := by unfold AgreesOn; decide +kernel
  have hlexical := scoping_is_lexical hs (i := 0) (j := 1) (by rw [hsize]; decide) (by rw [hsize]; decide) 6
  exact ⟨hs, hsize, hnames, by decide +kernel, hlexical.1 call hnames, by decide +kernel⟩

end Session

end StrategyScript
