/-
The ways to a trade. A trade can be made by a statement and by calling a built-in; both evaluate the
arguments, tell message and quantity apart in the same way and make the same record or none. The parser
does the same with literals before anything runs, and it refuses just what would be refused later.
-/
import StrategyScript.Proofs.Run.Invariant
import StrategyScript.Proofs.Run.Growth
import StrategyScript.Proofs.Parse.Yield

namespace StrategyScript

open Eval

/-! ## One step more -/

namespace Outcome

variable {α : Type}

/-- The same with one step more counted. -/
def counted (o : Outcome α) : Outcome α :=
  match o with
  | .done a s => .done a s.counted
  | .failed e s => .failed e s.counted
  | .unfinished s => .unfinished s.counted

theorem restoring_counted (o : Outcome α) (current : ScopeId) (adjust : Nat → Nat) :
    restoring current adjust o.counted = (restoring current adjust o).counted := by
  cases o <;> rfl

end Outcome

/-- Without a budget the computation does the same however many steps are counted before it, and its
results satisfy `P`. -/
def Unmetered {α : Type} (P : α → Prop) (m : Eval α) : Prop :=
  ∀ s, s.limits.maxSteps = none →
    (m s).Gives P ∧ (m s).session.limits = s.limits ∧ m s.counted = (m s).counted

section

variable {α β : Type} {P : α → Prop} {Q : β → Prop}

theorem Unmetered.bind {m : Eval α} {f : α → Eval β} (h : Unmetered P m) (hf : ∀ a, P a → Unmetered Q (f a)) :
    Unmetered Q (m >>= f) := by
  intro s hs
  obtain ⟨hgives, hlimits, hcounted⟩ := h s hs
  cases ho : m s with
  | done a t =>
    rw [ho] at hlimits hcounted
    rw [bind_done f ho, bind_done f hcounted]
    have ht : t.limits = s.limits := hlimits
    obtain ⟨hresult, hrest, hthen⟩ := hf a (hgives a t ho) t (ht ▸ hs)
    exact ⟨hresult, hrest.trans ht, hthen⟩
  | failed e t =>
    rw [ho] at hlimits hcounted
    rw [bind_failed f ho, bind_failed f hcounted]
    exact ⟨nofun, hlimits, rfl⟩
  | unfinished t =>
    rw [ho] at hlimits hcounted
    rw [bind_unfinished f ho, bind_unfinished f hcounted]
    exact ⟨nofun, hlimits, rfl⟩

theorem Unmetered.restoring {m : Eval α} (h : Unmetered P m) (enter : Session → Session) (adjust : Nat → Nat)
    (hlimits : ∀ s, (enter s).limits = s.limits) (henter : ∀ s : Session, enter s.counted = (enter s).counted) :
    Unmetered P fun s => restoring s.current adjust (m (enter s)) := by
  intro s hs
  obtain ⟨hgives, hl, hcounted⟩ := h (enter s) ((hlimits s).symm ▸ hs)
  refine ⟨fun a t ho => ?_, (session_restoring ..).1.trans (hl.trans (hlimits s)), ?_⟩
  · obtain ⟨u, hu, -⟩ := restoring_done ho
    exact hgives a u hu
  · show Eval.restoring s.current adjust (m (enter s.counted)) = _
    rw [henter, hcounted]
    exact Outcome.restoring_counted ..

end

/-- No step looks at how many there were. -/
def unmetered : Invariant where
  allows _ := True
  fits _ := True
  Holds P m := Unmetered P m
  fits_plain _ _ := trivial
  fits_at _ _ := trivial
  allows_decl _ _ _ := trivial
  pure ha s _ := ⟨fun _ _ ho => by cases ho; exact ha, rfl, rfl⟩
  bind h hf := h.bind hf
  outOfFuel _ _ := ⟨nofun, rfl, rfl⟩
  fault _ _ := ⟨nofun, rfl, rfl⟩
  tick s hs := by
    have htick : ∀ t : Session, t.limits.maxSteps = none → tick t = .done () t.counted :=
      fun t ht => tick_within fun limit hl => by rw [ht] at hl; cases hl
    rw [htick s hs, htick s.counted hs]
    exact ⟨fun _ _ _ => trivial, rfl, rfl⟩
  lookup {x line} _ s _ := by
    simp only [lookup_eq, Session.counted]
    cases s.scopes.lookup s.current x <;> exact ⟨fun _ _ _ => trivial, rfl, rfl⟩
  assign {x v line} _ _ s _ := by
    simp only [assign, Session.counted]
    cases s.scopes.resolve s.current x <;> exact ⟨fun _ _ _ => trivial, rfl, rfl⟩
  define _ _ _ _ := ⟨fun _ _ _ => trivial, rfl, rfl⟩
  newFunction _ _ _ _ := ⟨fun _ _ _ => trivial, rfl, rfl⟩
  inBlock h := h.restoring Session.enterBlock id (fun _ => rfl) fun _ => rfl
  inCall {α P m f args} line _ _ h := by
    have hcheck : Unmetered (fun _ => True) (checkDepth line) := fun s _ => by
      by_cases hd : s.limits.maxCallDepth ≤ s.depth
      · rw [show checkDepth line s = _ from if_pos hd, show checkDepth line s.counted = _ from if_pos hd]
        exact ⟨nofun, rfl, rfl⟩
      · rw [show checkDepth line s = _ from if_neg hd, show checkDepth line s.counted = _ from if_neg hd]
        exact ⟨fun _ _ _ => trivial, rfl, rfl⟩
    exact hcheck.bind fun _ _ => h.restoring (·.enterCall f args) (· - 1) (fun _ => rfl) fun _ => rfl
  trade _ _ := ⟨fun _ _ _ => trivial, rfl, rfl⟩
  callBuiltin {b args line} _ _ s _ := by
    simp only [callBuiltin, Session.counted]
    cases b.apply s.market s.trades args <;> exact ⟨fun _ _ _ => trivial, rfl, rfl⟩

theorem evaluateAll_counted {s : Session} (hs : s.limits.maxSteps = none) (n : Nat) (es : List Expr) :
    evaluateAll n es s.counted = (evaluateAll n es s).counted :=
  (unmetered.evaluateAll n es (fun _ _ => trivial) s hs).2.2

/-! ## By a statement and by a call -/

/-- A statement that trades and a call of the built-in, from one session: how both end, when the arguments
have come to the first outcome in it. The step is the statement's own. -/
inductive TradesAlike (action : TradeAction) (line callLine : Nat) :
    Outcome (List Value) → Outcome Flow → Outcome Value → Prop
  | made {vs : List Value} {t : Session} {order : Argument.Order} {log : TradeLog} (h : Argument.classify vs = .ok order)
    (hlog : log.records = t.trades.records ++
      [t.trades.nextRecord action order.message order.quantity t.market.referencePrice]) :
    TradesAlike action line callLine (.done vs t) (.done .normal (t.counted.logged log)) (.done (.boolean true) (t.logged log))
  | refused {vs : List Value} {t : Session} {fault : TradeArgumentFault} (h : Argument.classify vs = .error fault) :
    TradesAlike action line callLine (.done vs t)
      (.failed (.fault (.typeError ("invalid " ++ action.name ++ " arguments: " ++ fault.message)) line) t.counted)
      (.failed (.fault (.invalidArgument action.name fault.message) callLine) t)
  | failed (e : RuntimeError) (t : Session) : TradesAlike action line callLine (.failed e t) (.failed e t.counted) (.failed e t)
  | unfinished (t : Session) : TradesAlike action line callLine (.unfinished t) (.unfinished t.counted) (.unfinished t)

theorem trades_alike {s : Session} {action : TradeAction} (hs : s.limits.maxSteps = none)
    (hname : s.scopes.lookup s.current action.name = some (.builtin (.trade action))) (n : Nat) (args : List Expr)
    (line : Nat) (p : Position) :
    TradesAlike action line p.line (evaluateAll n args s) (execute (n + 1) (.trade action args line) s)
      (evaluate (n + 1) (.call action.name args p) s) := by
  have htick : tick s = .done () s.counted := tick_within fun limit hl => by rw [hs] at hl; cases hl
  have hlookup : lookup action.name p.line s = .done (.builtin (.trade action)) s := by rw [lookup_eq, hname]
  have hcounted := evaluateAll_counted hs n args
  cases ho : evaluateAll n args s with
  | failed e t =>
    rw [ho] at hcounted
    rw [show execute (n + 1) (.trade action args line) s = _ from (bind_done _ htick).trans (bind_failed _ hcounted),
      show evaluate (n + 1) (.call action.name args p) s = _ from (bind_done _ hlookup).trans (bind_failed _ ho)]
    exact .failed e t
  | unfinished t =>
    rw [ho] at hcounted
    rw [show execute (n + 1) (.trade action args line) s = _ from (bind_done _ htick).trans (bind_unfinished _ hcounted),
      show evaluate (n + 1) (.call action.name args p) s = _ from (bind_done _ hlookup).trans (bind_unfinished _ ho)]
    exact .unfinished t
  | done vs t =>
    rw [ho] at hcounted
    rw [show execute (n + 1) (.trade action args line) s = _ from (bind_done _ htick).trans (bind_done _ hcounted),
      show evaluate (n + 1) (.call action.name args p) s = _ from (bind_done _ hlookup).trans (bind_done _ ho)]
    dsimp only
    unfold callBuiltin Builtin.apply
    cases hclass : Argument.classify vs with
    | ok order => exact .made hclass (TradeLog.records_emit ..)
    | error fault => exact .refused hclass

/-! ## Literals -/

/-- The value of a literal. -/
def Expr.literal? : Expr → Option Value
  | .number x _ => some (.number x)
  | .string s _ => some (.string s)
  | .boolean b _ => some (.boolean b)
  | _ => none

/-- The expressions are literals with these values. -/
def Literals (args : List Expr) (vs : List Value) : Prop := List.Forall₂ (fun e v => e.literal? = some v) args vs

theorem Expr.literal?_cases {e : Expr} {v : Value} (h : e.literal? = some v) :
    (∃ x p, e = .number x p ∧ v = .number x) ∨ (∃ s p, e = .string s p ∧ v = .string s) ∨
      ∃ b p, e = .boolean b p ∧ v = .boolean b := by
  cases e <;> cases h
  · exact .inl ⟨_, _, rfl, rfl⟩
  · exact .inr (.inl ⟨_, _, rfl, rfl⟩)
  · exact .inr (.inr ⟨_, _, rfl, rfl⟩)

/-- The parser complains of literals as arguments of a trade if and only if their values are refused. -/
theorem Parse.tradeArgumentComplaint?_iff {args : List Expr} {vs : List Value} (h : Literals args vs) :
    tradeArgumentComplaint? args = none ↔ ∃ order, Argument.classify vs = .ok order := by
  have hlength := h.length_eq
  by_cases hmany : 2 < args.length
  · have hclass : Argument.classify vs = .error (.tooMany vs.length) := if_pos (hlength ▸ hmany)
    have hcomplaint : tradeArgumentComplaint? args = some .tooManyTradeArguments := if_pos hmany
    simp [hclass, hcomplaint]
  · cases h with
    | nil => exact ⟨fun _ => ⟨_, rfl⟩, fun _ => rfl⟩
    | @cons a v as ws ha h =>
      cases h with
      | nil =>
        rcases Expr.literal?_cases ha with ⟨x, p, rfl, rfl⟩ | ⟨x, p, rfl, rfl⟩ | ⟨x, p, rfl, rfl⟩
        · exact ⟨fun _ => ⟨_, rfl⟩, fun _ => rfl⟩
        · exact ⟨fun _ => ⟨_, rfl⟩, fun _ => rfl⟩
        · exact ⟨nofun, nofun⟩
      | @cons b w bs ws hb h =>
        cases h with
        | nil =>
          -- of nine pairs, only a message and a quantity are accepted, in either order
          rcases Expr.literal?_cases ha with ⟨x, p, rfl, rfl⟩ | ⟨x, p, rfl, rfl⟩ | ⟨x, p, rfl, rfl⟩ <;>
            rcases Expr.literal?_cases hb with ⟨y, q, rfl, rfl⟩ | ⟨y, q, rfl, rfl⟩ | ⟨y, q, rfl, rfl⟩ <;>
            first | exact ⟨fun _ => ⟨_, rfl⟩, fun _ => rfl⟩ | exact ⟨nofun, nofun⟩
        | cons _ _ => exact absurd (by simp only [List.length_cons]; omega) hmany

theorem evaluate_literal {e : Expr} {v : Value} (h : e.literal? = some v) (n : Nat) (s : Session) :
    evaluate (n + 1) e s = .done v s := by
  rcases Expr.literal?_cases h with ⟨x, p, rfl, rfl⟩ | ⟨x, p, rfl, rfl⟩ | ⟨x, p, rfl, rfl⟩ <;> rfl

/-- Literals have their values, and to evaluate them does nothing. -/
theorem evaluateAll_literals {args : List Expr} {vs : List Value} (h : Literals args vs) (n : Nat) (s : Session) :
    evaluateAll n args s = .done vs s ∨ evaluateAll n args s = .unfinished s := by
  induction h generalizing n with
  | nil =>
    cases n with
    | zero => exact .inr rfl
    | succ n => exact .inl rfl
  | @cons e v es vs he _ ih =>
    match n with
    | 0 | 1 => exact .inr rfl
    | n + 2 =>
      have hhead := evaluate_literal he n s
      rcases ih (n + 1) with hrest | hrest
      · exact .inl ((bind_done _ hhead).trans (bind_done _ hrest))
      · exact .inr ((bind_done _ hhead).trans (bind_unfinished _ hrest))

/-- A trade whose arguments are literals that the parser accepts has no fault. -/
theorem execute_trade_literals {args : List Expr} {vs : List Value} (h : Literals args vs)
    (hargs : Parse.tradeArgumentComplaint? args = none) {action : TradeAction} {line n : Nat} {s t : Session}
    {cause : RuntimeFault} {l : Nat} : execute n (.trade action args line) s ≠ .failed (.fault cause l) t := by
  obtain ⟨order, hclass⟩ := (Parse.tradeArgumentComplaint?_iff h).1 hargs
  cases n with
  | zero => exact nofun
  | succ n =>
    intro hfailed
    by_cases hb : s.limits.Affords (s.steps + 1)
    · have htick : tick s = .done () s.counted := tick_within hb
      rcases evaluateAll_literals h n s.counted with ho | ho
      · rw [show execute (n + 1) (.trade action args line) s = _ from (bind_done _ htick).trans (bind_done _ ho)] at hfailed
        rw [hclass] at hfailed
        cases hfailed
      · rw [show execute (n + 1) (.trade action args line) s = _ from
          (bind_done _ htick).trans (bind_unfinished _ ho)] at hfailed
        cases hfailed
    · obtain ⟨limit, hl, hlt⟩ := Limits.not_affords hb
      rw [show execute (n + 1) (.trade action args line) s = _ from bind_failed _ (tick_beyond hl hlt)] at hfailed
      cases hfailed

/-! ## All three -/

/-- In every program that is read, no trade statement is one that the parser would complain of. -/
theorem Parse.program_trades {tokens : List Token} {p : Program} (hp : program tokens = .ok p) :
    ∀ stmt ∈ Stmt.withinAll true p, ∀ action args line, stmt = .trade action args line →
      tradeArgumentComplaint? args = none := by
  refine Sides.oneRow_same.program_within (S := fun _ _ => True) (fun t u w h => ⟨trivial, ?_⟩) (.of (.ofTokens tokens))
    rfl hp
  exact (h.parts (S := fun _ _ => True)).trade

/-- Without a budget a trade statement and a call of the built-in of its name do the same, but for the
step of the statement. Literals are accepted by the parser just where their values are accepted by both;
and so, in a program that is read, no statement that trades with literals only has a fault. -/
theorem trade_paths_agree :
    (∀ (s : Session) (action : TradeAction) (args : List Expr) (line : Nat) (p : Position) (n : Nat),
      s.limits.maxSteps = none → s.scopes.lookup s.current action.name = some (.builtin (.trade action)) →
      TradesAlike action line p.line (evaluateAll n args s) (execute (n + 1) (.trade action args line) s)
        (evaluate (n + 1) (.call action.name args p) s)) ∧
    (∀ args vs, Literals args vs →
      (Parse.tradeArgumentComplaint? args = none ↔ ∃ order, Argument.classify vs = .ok order)) ∧
    ∀ tokens p, Parse.program tokens = .ok p →
      ∀ action args line vs, .trade action args line ∈ Stmt.withinAll true p → Literals args vs →
        ∀ n s details l t, execute n (.trade action args line) s ≠ .failed (.fault (.typeError details) l) t :=
  ⟨fun _ _ args line p n hs hname => trades_alike hs hname n args line p,
    fun _ _ => Parse.tradeArgumentComplaint?_iff,
    fun _ _ hp action args line _ hmem hargs _ _ _ _ _ =>
      execute_trade_literals hargs (Parse.program_trades hp _ hmem action args line rfl)⟩

/-- Two messages are too many for both, each in its own words, and for the parser; a message and a quantity
are not. -/
theorem trade_of_two_messages :
    let messages : List Expr := [.string "a" ⟨1, 5⟩, .string "b" ⟨1, 10⟩]
    let s := Session.new ⟨none, 64⟩
    execute 5 (.trade .buy messages 1) s =
        .failed (.fault (.typeError "invalid buy arguments: more than one message") 1) s.counted ∧
      evaluate 5 (.call "buy" messages ⟨2, 1⟩) s = .failed (.fault (.invalidArgument "buy" "more than one message") 2) s ∧
      Parse.tradeArgumentComplaint? messages ≠ none ∧
      ∀ n s details l t, execute n (.trade .sell [.string "a" ⟨1, 6⟩, .number 2.0 ⟨1, 11⟩] 1) s ≠
        .failed (.fault (.typeError details) l) t := by
  intro messages s
  obtain ⟨hpaths, hliterals, hprogram⟩ := trade_paths_agree
  have hname : s.scopes.lookup s.current "buy" = some (.builtin (.trade .buy)) := rfl
  have hvalues : Literals messages [.string "a", .string "b"] := .cons rfl (.cons rfl .nil)
  have hrefused : Argument.classify [.string "a", .string "b"] = .error .twoMessages := rfl
  have hp : Parse.program (Lexer.tokens "sell('a', 2.0)") = .ok [.trade .sell [.string "a" ⟨1, 6⟩, .number 2.0 ⟨1, 11⟩] 1] := rfl
  have hargs : evaluateAll 4 messages s = .done [.string "a", .string "b"] s := rfl
  have halike := hpaths s .buy messages 1 ⟨2, 1⟩ 4 rfl hname
  rw [hargs] at halike
  have hboth : execute 5 (.trade .buy messages 1) s =
        .failed (.fault (.typeError "invalid buy arguments: more than one message") 1) s.counted ∧
      evaluate 5 (.call "buy" messages ⟨2, 1⟩) s = .failed (.fault (.invalidArgument "buy" "more than one message") 2) s := by
    change TradesAlike .buy 1 2 _ _ (evaluate 5 (.call "buy" messages ⟨2, 1⟩) s) at halike
    generalize execute 5 (.trade .buy messages 1) s = statement at halike ⊢
    generalize evaluate 5 (.call "buy" messages ⟨2, 1⟩) s = call at halike ⊢
    cases halike with
    | made h _ => cases hrefused.symm.trans h
    | refused h =>
      cases hrefused.symm.trans h
      exact ⟨rfl, rfl⟩
  have hsell := hprogram _ _ hp .sell _ 1 [.string "a", .number 2.0] List.mem_cons_self (.cons rfl (.cons rfl .nil))
  refine ⟨hboth.1, hboth.2, fun hnone => ?_, hsell⟩
  obtain ⟨order, haccepted⟩ := (hliterals _ _ hvalues).1 hnone
  rw [hrefused] at haccepted
  cases haccepted

end StrategyScript
