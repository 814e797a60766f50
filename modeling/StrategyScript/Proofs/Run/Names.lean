/-
Names that a script declares. Any identifier can be declared, as a variable or as a parameter. What the script
gets back when it uses the name is the value that it gave it, unless the word is one that expressions read in a
way of their own: `true` and `false` stand for themselves, and `not` for nothing.
-/
import StrategyScript.Proofs.Parse.Names
import StrategyScript.Proofs.Run.Globals

namespace StrategyScript

open Eval
open Session (globalScope)

/-! ## At the global scope -/

/-- The session is at its global scope, which binds names as `d` says. It may take any number of steps and at least
one more call. -/
structure Session.AtTop (s : Session) (d : Dictionary Value) : Prop where
  unlimited : s.limits.maxSteps = none
  callable : s.depth < s.limits.maxCallDepth
  current : s.current = globalScope
  exists_global : globalScope < s.scopes.size
  alone : s.scopes.chain globalScope = [globalScope]
  bindings : s.scopes.bindings globalScope = d

namespace Session.AtTop

variable {s t : Session} {d : Dictionary Value} {x : String} {v : Value}

theorem affords (h : s.AtTop d) (steps : Nat) : s.limits.Affords steps := by
  intro limit hlimit
  rw [h.unlimited] at hlimit
  cases hlimit

theorem tick (h : s.AtTop d) : ∃ t, Eval.tick s = .done () t ∧ t.AtTop d :=
  ⟨_, tick_within (h.affords _), h.unlimited, h.callable, h.current, h.exists_global, h.alone, h.bindings⟩

theorem global (h : s.AtTop d) (x : String) : s.global x = d.get? x := by
  rw [Session.global_eq h.alone, h.bindings]

theorem lookup (h : s.AtTop d) (hx : d.get? x = some v) (line : Nat) : Eval.lookup x line s = .done v s := by
  have hlookup : s.scopes.lookup s.current x = some v := by
    rw [h.current]
    exact (h.global x).trans hx
  rw [lookup_eq, hlookup]

theorem binding (h : s.AtTop d) (x : String) (v : Value) :
    ({ s with scopes := s.scopes.define globalScope x v } : Session).AtTop (d.insert x v) where
  unlimited := h.unlimited
  callable := h.callable
  current := h.current
  exists_global := by
    rw [Forest.size_define]
    exact h.exists_global
  alone := by
    rw [Forest.chain_define]
    exact h.alone
  bindings := by
    rw [Forest.bindings_define, if_pos ⟨rfl, h.exists_global⟩, h.bindings]

theorem define (h : s.AtTop d) (x : String) (v : Value) :
    ∃ t, Eval.define x v s = .done () t ∧ t.AtTop (d.insert x v) := by
  refine ⟨_, ?_, h.binding x v⟩
  unfold Eval.define
  rw [h.current]

theorem assign (h : s.AtTop d) {u : Value} (hx : d.get? x = some u) (v : Value) (line : Nat) :
    ∃ t, Eval.assign x v line s = .done () t ∧ t.AtTop (d.insert x v) := by
  have hresolve : s.scopes.resolve s.current x = some globalScope := by
    unfold Forest.resolve
    rw [h.current, h.alone, List.find?_cons, h.bindings]
    unfold Dictionary.contains
    rw [hx]
    rfl
  refine ⟨_, ?_, h.binding x v⟩
  unfold Eval.assign
  rw [hresolve]

/-- A call leaves behind the scope that it was given, and the steps that it took. -/
theorem called (h : s.AtTop d) (arguments : Dictionary Value) (steps : Nat) :
    ({ s with scopes := s.scopes.addChild globalScope arguments, steps } : Session).AtTop d where
  unlimited := h.unlimited
  callable := h.callable
  current := h.current
  exists_global := by
    rw [Forest.size_addChild]
    exact Nat.lt_succ_of_lt h.exists_global
  alone := by
    rw [Forest.chain_addChild, if_neg h.exists_global.ne, h.alone]
  bindings := by
    rw [Forest.bindings_addChild, if_neg h.exists_global.ne, h.bindings]

end Session.AtTop

/-! ## Values -/

/-- What an identifier other than `not` is worth where it is the name of `v`. -/
def wordValue (w : String) (v : Value) : Value :=
  if sameWord w "true" then .boolean true
  else if sameWord w "false" then .boolean false
  else v

theorem wordValue_eq_number {w : String} (hnot : sameWord w "not" = false) {x : Float} :
    wordValue w (.number x) = .number x ↔ Parse.isReserved w = false := by
  unfold wordValue Parse.isReserved
  rw [hnot]
  cases sameWord w "true" <;> cases sameWord w "false" <;> simp

theorem evaluate_word {s : Session} {w : String} {v : Value} (h : s.scopes.lookup s.current w = some v) (n : Nat)
    (p : Position) : evaluate (n + 1) ((Parse.wordAtom w).expr p) s = .done (wordValue w v) s := by
  unfold Parse.wordAtom wordValue
  split
  · rfl
  · split
    · rfl
    · show Eval.lookup w p.line s = _
      rw [lookup_eq, h]

/-- In a new scope with one name, inside the global scope. -/
theorem lookup_addChild (f : Forest) (w : String) (v : Value) :
    (f.addChild globalScope (.insert w v [])).lookup f.size w = some v := by
  have hbound : ((f.addChild globalScope (.insert w v [])).bindings f.size).get? w = some v := by
    rw [Forest.bindings_addChild, if_pos rfl, Dictionary.get?_insert, if_pos rfl]
  unfold Forest.lookup Forest.resolve
  rw [Forest.chain_addChild, if_pos rfl, List.find?_cons]
  unfold Dictionary.contains
  rw [hbound]
  exact hbound

section

variable {s : Session} {d : Dictionary Value} {v : Value}

/-- Where the global scope binds names as `d` says, the expression has this value, and the bindings stay. -/
def Worth (d : Dictionary Value) (n : Nat) (e : Expr) (v : Value) : Prop :=
  ∀ s : Session, s.AtTop d → ∃ t, evaluate n e s = .done v t ∧ t.AtTop d

theorem Worth.number (d : Dictionary Value) (n : Nat) (x : Float) (p : Position) :
    Worth d (n + 1) (.number x p) (.number x) := fun s h => ⟨s, rfl, h⟩

theorem Worth.word {w : String} (hw : d.get? w = some v) (n : Nat) (p : Position) :
    Worth d (n + 1) ((Parse.wordAtom w).expr p) (wordValue w v) := by
  intro s h
  have hlookup : s.scopes.lookup s.current w = some v := by
    rw [h.current]
    exact (h.global w).trans hw
  exact ⟨s, evaluate_word hlookup n p, h⟩

/-- A call of a function that gives its parameter back. -/
theorem Worth.call {name w : String} {id line : Nat} {p q : Position}
    (hf : d.get? name = some (.function ⟨id, ⟨name, [w], [.ret (some ((Parse.wordAtom w).expr p)) line]⟩, globalScope⟩))
    (n : Nat) (x : Float) (r : Position) :
    Worth d (n + 5) (.call name [.number x q] r) (wordValue w (.number x)) := by
  intro s h
  let inner : Session := { s with
    scopes := s.scopes.addChild globalScope (.insert w (.number x) []), current := s.scopes.size, depth := s.depth + 1 }
  let after : Session := { inner with steps := s.steps + 1 }
  have hreturn : execute (n + 2) (.ret (some ((Parse.wordAtom w).expr p)) line) inner =
      .done (.returned (wordValue w (.number x)) line) after := by
    rw [execute, Memory.execute, bind_done (t := after) _ (tick_within (h.affords _))]
    exact bind_done _ (evaluate_word (s := after) (lookup_addChild s.scopes w (.number x)) n p)
  have hbody : executeAll (n + 3) [.ret (some ((Parse.wordAtom w).expr p)) line] inner =
      .done (.returned (wordValue w (.number x)) line) after := by
    rw [executeAll, Memory.executeAll]
    exact bind_done _ hreturn
  have hinner : inCall globalScope (.insert w (.number x) [])
      (executeAll (n + 3) [.ret (some ((Parse.wordAtom w).expr p)) line]) s =
      .done (.returned (wordValue w (.number x)) line) { after with current := s.current, depth := s.depth } := by
    show restoring s.current (· - 1) (executeAll (n + 3) _ inner) = _
    rw [hbody]
    rfl
  have hdepth : checkDepth r.line s = .done () s := if_neg (Nat.not_le.2 h.callable)
  have hargs : evaluateAll (n + 4) [.number x q] s = .done [.number x] s := rfl
  refine ⟨{ after with current := s.current, depth := s.depth }, ?_, h.called (.insert w (.number x) []) (s.steps + 1)⟩
  have hcall : callFunction (n + 4) ⟨id, ⟨name, [w], [.ret (some ((Parse.wordAtom w).expr p)) line]⟩, globalScope⟩
      [.number x] r.line s = .done (wordValue w (.number x)) { after with current := s.current, depth := s.depth } := by
    rw [callFunction, Memory.callFunction, bind_done _ hdepth]
    exact bind_done _ hinner
  rw [evaluate, Memory.evaluate, bind_done _ (h.lookup hf r.line)]
  exact (bind_done _ hargs).trans hcall

/-! ## Statements -/

namespace Session.AtTop

variable {n : Nat} {e : Expr}

theorem var (h : s.AtTop d) (he : Worth d n e v) (x : String) :
    ∃ t, execute (n + 1) (.var x (some e)) s = .done .normal t ∧ t.AtTop (d.insert x v) := by
  obtain ⟨t, ht, htop⟩ := h.tick
  obtain ⟨u, hu, hutop⟩ := he t htop
  obtain ⟨r, hr, hrtop⟩ := hutop.define x v
  refine ⟨r, ?_, hrtop⟩
  rw [execute, Memory.execute, bind_done _ ht]
  exact (bind_done _ hu).trans (bind_done _ hr)

theorem assignment (h : s.AtTop d) (he : Worth d n e v) {u : Value} (hx : d.get? x = some u) (p : Position) :
    ∃ t, execute (n + 2) (.expr (.assign x e p)) s = .done .normal t ∧ t.AtTop (d.insert x v) := by
  obtain ⟨t, ht, htop⟩ := h.tick
  obtain ⟨r, hr, hrtop⟩ := he t htop
  obtain ⟨q, hq, hqtop⟩ := hrtop.assign hx v p.line
  have hvalue : evaluate (n + 1) (.assign x e p) t = .done v q := by
    rw [evaluate, Memory.evaluate]
    exact (bind_done _ hr).trans (bind_done _ hq)
  refine ⟨q, ?_, hqtop⟩
  rw [execute, Memory.execute, bind_done _ ht]
  exact bind_done _ hvalue

theorem function (h : s.AtTop d) (name : String) (params : List String) (body : List Stmt) :
    ∃ t id, execute (n + 1) (.function name params body) s = .done .normal t ∧
      t.AtTop (d.insert name (.function ⟨id, ⟨name, params, body⟩, globalScope⟩)) := by
  obtain ⟨t, ht, htop⟩ := h.tick
  have hnew : newFunction ⟨name, params, body⟩ t =
      .done ⟨t.nextFunction, ⟨name, params, body⟩, globalScope⟩ { t with nextFunction := t.nextFunction + 1 } := by
    unfold newFunction
    rw [htop.current]
  have hnewtop : ({ t with nextFunction := t.nextFunction + 1 } : Session).AtTop d :=
    ⟨htop.unlimited, htop.callable, htop.current, htop.exists_global, htop.alone, htop.bindings⟩
  obtain ⟨r, hr, hrtop⟩ := hnewtop.define name (.function ⟨t.nextFunction, ⟨name, params, body⟩, globalScope⟩)
  refine ⟨r, t.nextFunction, ?_, hrtop⟩
  rw [execute, Memory.execute, bind_done _ ht, bind_done _ hnew, bind_done _ hr]
  rfl

end Session.AtTop

end

/-! ## What the scripts leave behind -/

theorem Session.atTop_new (market : Market) :
    ((new {}).prepare market).AtTop ((new {}).scopes.bindings globalScope) where
  unlimited := rfl
  callable := Nat.zero_lt_succ 63
  current := rfl
  exists_global := show globalScope < (new {}).scopes.size by decide
  alone := (rooted_lasts {}).sound_new.good.scopes.global
  bindings := rfl

theorem executeAll_normal {n : Nat} {stmt : Stmt} {stmts : List Stmt} {s t : Session}
    (h : execute n stmt s = .done .normal t) : executeAll (n + 1) (stmt :: stmts) s = executeAll n stmts t := by
  rw [executeAll, Memory.executeAll]
  exact bind_done _ h

theorem Session.run_of_normal {s t : Session} {fuel : Nat} {p : Program} {market : Market}
    (h : executeAll fuel p (s.prepare market) = .done .normal t) : s.run fuel p market = (.success, t) := by
  have hprogram : executeProgram fuel p (s.prepare market) = .done () t := by
    unfold executeProgram
    rw [bind_done _ h]
    rfl
  rw [run_eq, hprogram]
  rfl

theorem run_variable (place : Nat → Position) (w : String) (market : Market) :
    ∃ t, (Session.new {}).run 6 (Parse.variableProgram place w) market = (.success, t) ∧
      t.global "probe" = some (wordValue w (.number 7)) := by
  let before := (Session.new {}).scopes.bindings globalScope
  obtain ⟨t, ht, htop⟩ := (Session.atTop_new market).var (.number _ 3 0 (place 3)) "probe"
  obtain ⟨u, hu, hutop⟩ := htop.var (.number _ 2 7 (place 8)) w
  have hword : ((before.insert "probe" (.number 0)).insert w (.number 7)).get? w = some (.number 7) := by
    rw [Dictionary.get?_insert, if_pos rfl]
  have hprobe : ((before.insert "probe" (.number 0)).insert w (.number 7)).get? "probe" =
      some (if "probe" = w then .number 7 else .number 0) := by
    rw [Dictionary.get?_insert, Dictionary.get?_insert, if_pos rfl, apply_ite some]
  obtain ⟨r, hr, hrtop⟩ := hutop.assignment (.word hword 0 (place 12)) hprobe (place 10)
  refine ⟨r, Session.run_of_normal ?_, ?_⟩
  · unfold Parse.variableProgram
    rw [executeAll_normal ht, executeAll_normal hu, executeAll_normal hr]
    rfl
  · rw [hrtop.global, Dictionary.get?_insert, if_pos rfl]

theorem run_parameter (place : Nat → Position) (w : String) (market : Market) :
    ∃ t, (Session.new {}).run 8 (Parse.parameterProgram place w) market = (.success, t) ∧
      t.global "probe" = some (wordValue w (.number 7)) := by
  let decl : FunctionDecl := ⟨"f", [w], [.ret (some ((Parse.wordAtom w).expr (place 7))) (place 6).line]⟩
  obtain ⟨t, id, ht, htop⟩ := (Session.atTop_new market).function (n := 6) "f" [w] decl.body
  have hf : (((Session.new {}).scopes.bindings globalScope).insert "f" (.function ⟨id, decl, globalScope⟩)).get? "f" =
      some (.function ⟨id, decl, globalScope⟩) := by
    rw [Dictionary.get?_insert, if_pos rfl]
  obtain ⟨u, hu, hutop⟩ := htop.var (.call hf 0 7 (place 13)) "probe"
  refine ⟨u, Session.run_of_normal ?_, ?_⟩
  · unfold Parse.parameterProgram
    rw [executeAll_normal ht, executeAll_normal hu]
    rfl
  · rw [hutop.global, Dictionary.get?_insert, if_pos rfl]

namespace Script

/-- Run in a new session, the script comes to its end, and among its globals is this one. -/
def Leaves (source : String) (market : Market) (x : String) (v : Value) : Prop :=
  ∃ fuel report, Script.run fuel source market {} = .finished report ∧ (x, v) ∈ report.globals

/-- How a program ends does not hang on the fuel, so one run tells what the script leaves behind. -/
theorem leaves_iff {source : String} {p : Program} {market : Market} {fuel : Nat} {t : Session}
    (hp : Parse.source source = .ok p) (ht : (Session.new {}).run fuel p market = (.success, t)) (x : String) {v : Value}
    (hv : v.kind ≠ .builtin) : Leaves source market x v ↔ t.global x = some v := by
  have hended : Ending.success ≠ .unfinished := by rintro ⟨⟩
  have hends : (Session.new {}).Ends p market .success t := ⟨hended, fuel, ht⟩
  have hreachable : t.Reachable := by
    have hrun : ((Session.new {}).run fuel p market).1 ≠ .unfinished := by rwa [ht]
    have h := (Session.History.new.run hrun).reachable
    rwa [ht] at h
  have hlisting : (x, v) ∈ t.globals ↔ t.global x = some v := by
    rw [Session.mem_globals_iff hreachable]
    exact and_iff_left hv
  rw [← hlisting]
  constructor
  · rintro ⟨fuel', report, hrun, hmem⟩
    unfold Script.run at hrun
    rw [hp] at hrun
    dsimp only at hrun
    split at hrun
    · rename_i s hs
      cases hrun
      have hends' : (Session.new {}).Ends p market .success s := ⟨hended, fuel', hs⟩
      obtain ⟨-, rfl⟩ := hends.unique hends'
      exact hmem
    · cases hrun
    · cases hrun
  · intro hmem
    refine ⟨fuel, ⟨t.trades.records, t.globals⟩, ?_, hmem⟩
    unfold Script.run
    rw [hp]
    dsimp only
    rw [ht]

theorem not_leaves {source : String} {e : ParseError} (he : Parse.source source = .error e) (market : Market) (x : String)
    (v : Value) : ¬ Leaves source market x v := by
  rintro ⟨fuel, report, hrun, -⟩
  unfold Script.run at hrun
  rw [he] at hrun
  cases hrun

/-- A declared name gives back its value unless expressions read it as a literal or an operator, and this is so for
variables and for parameters alike. -/
theorem leaves_seven_iff {w : String} (h : Lexer.IsIdentifier w) (market : Market) :
    (Leaves (variableText w) market "probe" (.number 7) ↔ Parse.isReserved w = false) ∧
      (Leaves (parameterText w) market "probe" (.number 7) ↔ Parse.isReserved w = false) := by
  obtain ⟨place, hread, hrefused⟩ := Parse.source_variable h
  obtain ⟨place', hread', hrefused'⟩ := Parse.source_parameter h
  by_cases hnot : sameWord w "not"
  · obtain ⟨e, he⟩ := hrefused hnot
    obtain ⟨e', he'⟩ := hrefused' hnot
    have hreserved : ¬ Parse.isReserved w = false := by
      unfold Parse.isReserved
      rw [hnot, Bool.or_true]
      nofun
    exact ⟨iff_of_false (not_leaves he market _ _) hreserved, iff_of_false (not_leaves he' market _ _) hreserved⟩
  · rw [Bool.not_eq_true] at hnot
    obtain ⟨t, ht, hprobe⟩ := run_variable place w market
    obtain ⟨t', ht', hprobe'⟩ := run_parameter place' w market
    have hvalue : some (wordValue w (.number 7)) = some (.number 7) ↔ Parse.isReserved w = false := by
      rw [Option.some_inj, wordValue_eq_number hnot]
    have hseven : (Value.number 7).kind ≠ .builtin := nofun
    rw [leaves_iff (hread hnot) ht "probe" hseven, leaves_iff (hread' hnot) ht' "probe" hseven, hprobe, hprobe']
    exact ⟨hvalue, hvalue⟩

theorem leaves_seven_and : Lexer.IsIdentifier "and" ∧
    Leaves (variableText "and") .empty "probe" (.number 7) ∧ Leaves (parameterText "and") .empty "probe" (.number 7) := by
  have hand : Lexer.IsIdentifier "and" := rfl
  obtain ⟨hvariable, hparameter⟩ := leaves_seven_iff hand .empty
  exact ⟨hand, hvariable.2 rfl, hparameter.2 rfl⟩

/-- A variable may be called `true`, but it cannot be read. -/
theorem true_not_seven : Lexer.IsIdentifier "true" ∧ "true" ≠ "probe" ∧
    Leaves (variableText "true") .empty "probe" (.boolean true) ∧
      ¬ Leaves (variableText "true") .empty "probe" (.number 7) := by
  have htrue : Lexer.IsIdentifier "true" := rfl
  obtain ⟨place, hread, -⟩ := Parse.source_variable htrue
  obtain ⟨t, ht, hprobe⟩ := run_variable place "true" .empty
  have hboolean : t.global "probe" = some (.boolean true) := hprobe
  have hkind : (Value.boolean true).kind ≠ .builtin := nofun
  have hseven : (Value.number 7).kind ≠ .builtin := nofun
  refine ⟨htrue, by decide, (leaves_iff (hread rfl) ht "probe" hkind).2 hboolean, ?_⟩
  rw [leaves_iff (hread rfl) ht "probe" hseven, hboolean]
  nofun

end Script

end StrategyScript
