/-
One walk through the grammar. Whatever the accord, two readers give what is made in the same way of tokens that belong
together and of what the readers inside them give. So a property that the making keeps is one of all that the parser
gives; which level it was given at is all that is left to an induction.
-/
import StrategyScript.Proofs.Parse.Made

namespace StrategyScript

variable {s : Sides} {slot : Expr → Expr → Prop} {stmt : Stmt → Stmt → s.Place → Prop}

/-! ## Expressions that readers give -/

namespace Accord

open StrategyScript.Parser hiding iterate
open StrategyScript.Reading

variable {m n : Type → Type} [Reading m] [Reading n] {A : Accord s m n} {operand inner target expression : m Expr}
  {operand' inner' target' expression' : n Expr} {statement : m Stmt} {statement' : n Stmt} {k : Nat}

theorem chain (operator : Lexeme → Option BinaryOp) (h : A.Rel (Expr.Made s slot k) operand operand') :
    A.Rel (Expr.Made s slot (k + 1)) (Parse.chain operator operand) (Parse.chain operator operand') := by
  refine .bind h fun e f hef => .iterate (fun l l' hl => .bind .peek fun t u htu => ?_) (.looser hef)
  rw [htu.lexeme]
  split
  · exact .bind .advance fun _ _ _ => .bind h fun r r' hr => .pure (.some (.binary htu hl hr))
  · exact .pure .none

theorem binary (h : A.Rel (Expr.Made s slot 0) operand operand') :
    A.Rel (Expr.Made s slot 6) (Parse.binary operand) (Parse.binary operand') :=
  chain _ <| chain _ <| chain _ <| chain _ <| chain _ <| chain _ h

/-- What the next token stands for is known to be made of it, for instance because the caller has looked for a unary
operator, or else the word of one would be taken for a name. -/
theorem primary (h : A.Rel slot inner inner') {w : s.Place}
    (hatom : ∀ e f, Parse.atom? w.left.peek = .ok e → Parse.atom? w.right.peek = .ok f → Expr.Made s slot 0 e f) :
    A.Run w (Parse.primary inner) (Parse.primary inner') fun e f _ => Expr.Made s slot 0 e f := by
  have htu := Sides.Tokens.peek w
  refine A.look ?_
  generalize w.left.peek = t at htu hatom
  generalize w.right.peek = u at htu hatom
  have hlexeme := htu.lexeme
  rw [htu.kind]
  split
  · exact (Rel.bind .advance fun _ _ _ => .bind h fun e f hef => .bind .expect fun _ _ _ => .pure (.parens hef)) w
  · obtain ⟨l, p⟩ := t
    obtain ⟨_, q⟩ := u
    cases hlexeme
    rcases Parse.atom?_cases l with ⟨g, hg, -⟩ | ⟨complaint, hfounded, hcomplaint⟩
    · rw [hg p, hg q]
      exact (Rel.bind .advance fun _ _ _ => .pure (hatom _ _ (hg p) (hg q))) w
    · rw [hcomplaint p, hcomplaint q]
      exact Rel.fail hfounded htu w

theorem arguments (h : A.Rel slot inner inner') (what : String) :
    A.Rel (List.Forall₂ slot) (Parse.arguments inner what) (Parse.arguments inner' what) := by
  have hend : ∀ es fs, List.Forall₂ slot es fs → A.Rel (List.Forall₂ slot)
      (do let _ ← expect (.symbol .rightParen) what; return es) (do let _ ← expect (.symbol .rightParen) what; return fs) :=
    fun es fs hes => .bind .expect fun _ _ _ => .pure hes
  refine .bind .check fun x y hxy => ?_
  subst hxy
  split
  · exact .bind (.pure .nil) hend
  · exact .bind (.commaSeparated h) hend

section

variable {e f v v' : Expr} {es fs : List Expr} {t u : Token}

theorem callOf (hslot : ∀ e f, slot e f → e.Alike f) (h : Expr.Made s slot 0 e f) (hargs : List.Forall₂ slot es fs)
    (htu : s.Tokens t u) : s.parsers.Rel (Expr.Made s slot 0) (Parse.callOf e es t) (Parse.callOf f fs u) := by
  rcases (h.alike hslot).identifier_or with ⟨x, p, q, rfl, rfl⟩ | ⟨he, hf⟩
  · exact .pure (.call h hargs)
  · have hfail : ∀ {e : Expr} (es : List Expr) (t : Token), (∀ x p, e ≠ .identifier x p) →
        Parse.callOf e es t = Parser.fail .badCall t := by
      intro e es t he
      cases e with
      | identifier x p => exact absurd rfl (he x p)
      | _ => rfl
    rw [hfail es t he, hfail fs u hf]
    exact .fail trivial htu

theorem assignmentOf (hslot : ∀ e f, slot e f → e.Alike f) (h : Expr.Made s slot k e f) (hv : slot v v')
    (htu : s.Tokens t u) : s.parsers.Rel (Expr.Made s slot k) (Parse.assignmentOf e v t) (Parse.assignmentOf f v' u) := by
  rcases (h.alike hslot).identifier_or with ⟨x, p, q, rfl, rfl⟩ | ⟨he, hf⟩
  · exact .pure (.assign h hv)
  · have hfail : ∀ {e : Expr} (v : Expr) (t : Token), (∀ x p, e ≠ .identifier x p) →
        Parse.assignmentOf e v t = Parser.fail .badAssignment t := by
      intro e v t he
      cases e with
      | identifier x p => exact absurd rfl (he x p)
      | _ => rfl
    rw [hfail v t he, hfail v' u hf]
    exact .fail trivial htu

end

theorem postfixed (hslot : ∀ e f, slot e f → e.Alike f) (h : A.Rel slot inner inner') {w : s.Place}
    (hatom : ∀ e f, Parse.atom? w.left.peek = .ok e → Parse.atom? w.right.peek = .ok f → Expr.Made s slot 0 e f) :
    A.Run w (Parse.postfixed inner) (Parse.postfixed inner') fun e f _ => Expr.Made s slot 0 e f := by
  refine A.bind (primary h hatom) fun e f w' hef => Rel.iterate (fun e f hef => .bind .peek fun t u htu => ?_) hef w'
  rw [htu.kind]
  split
  · exact .bind .advance fun _ _ _ => .bind (arguments h _) fun es fs hes =>
      .bind (.lift (callOf hslot hef hes htu)) fun _ _ hcall => .pure (.some hcall)
  · split
    · exact .bind .advance fun _ _ _ => .bind h fun i j hij => .bind .expect fun _ _ _ => .pure (.some (.index hef hij))
    · exact .pure .none

theorem unary (hslot : ∀ e f, slot e f → e.Alike f) (ho : A.Rel slot operand operand') (hi : A.Rel slot inner inner') :
    A.Rel (Expr.Made s slot 0) (Parse.unary operand inner) (Parse.unary operand' inner') := by
  intro w
  have htu := Sides.Tokens.peek w
  refine A.look ?_
  rw [← htu.lexeme]
  cases hunary : Parse.unaryOperator w.left.peek.toLexeme with
  | some op => exact (Rel.bind .advance fun _ _ _ => .bind ho fun e f hef => .pure (.unary htu hef)) w
  | none => exact postfixed hslot hi fun e f he hf => .atom htu hunary he hf

theorem assignment (hslot : ∀ e f, slot e f → e.Alike f) (ht : A.Rel (Expr.Made s slot k) target target')
    (hi : A.Rel slot inner inner') :
    A.Rel (Expr.Made s slot k) (Parse.assignment target inner) (Parse.assignment target' inner') := by
  refine .bind ht fun e f hef => .bind .peek fun t u htu => ?_
  rw [htu.kind]
  split
  · exact .bind .advance fun _ _ _ => .bind hi fun v v' hv => .lift (assignmentOf hslot hef hv htu)
  · exact .pure hef

/-! ## Statements that readers give -/

theorem statementEnd : s.parsers.Rel (fun _ _ => True) Parse.statementEnd Parse.statementEnd := by
  refine .bind .peek fun t u htu => ?_
  rw [htu.kind]
  split
  · exact Rel.skip.mono fun _ _ _ => trivial
  · exact .failHere fun _ => trivial

theorem declaration (h : A.Rel slot expression expression') :
    A.Rel (fun a b => a.1 = b.1 ∧ s.Declares a.1 ∧ Option.Rel slot a.2 b.2) (Parse.declaration expression)
      (Parse.declaration expression') := by
  refine .bind .expect fun t u ⟨htu, hkind⟩ => .bind .accept fun x y hxy => ?_
  subst hxy
  have hx : s.Declares t.text := ⟨t, u, htu, hkind, rfl⟩
  split
  · exact .bind h fun e f hef => .pure ⟨htu.text, hx, .some hef⟩
  · exact .pure ⟨htu.text, hx, .none⟩

theorem condition (h : A.Rel slot expression expression') (before after : String) :
    A.Rel slot (Parse.condition expression before after) (Parse.condition expression' before after) :=
  .bind .expect fun _ _ _ => .bind h fun _ _ hef => .bind .expect fun _ _ _ => .pure hef

theorem varStatement (h : A.Rel slot expression expression') (w : s.Place) :
    A.Run w (Parse.varStatement expression) (Parse.varStatement expression') (Stmt.Made s slot stmt) := by
  refine A.bind (declaration h w) fun ⟨x, o⟩ ⟨y, o'⟩ w' ⟨hxy, hx, ho⟩ => ?_
  obtain rfl : x = y := hxy
  exact A.bind (Rel.lift statementEnd w') fun _ _ _ _ => A.pure (.var hx ho)

theorem loopStart (h : A.Rel slot expression expression') :
    A.Rel (Option.Rel (LoopStart.Made s slot)) (Parse.loopStart expression) (Parse.loopStart expression') := by
  have hend : ∀ start start', LoopStart.Made s slot start start' → A.Rel (Option.Rel (LoopStart.Made s slot))
      (do
        let _ ← expect (.symbol .semicolon) "';' after loop initializer"
        return some start)
      (do
        let _ ← expect (.symbol .semicolon) "';' after loop initializer"
        return some start') :=
    fun start start' hstart => .bind .expect fun _ _ _ => .pure (.some hstart)
  refine .bind .accept fun x y hxy => ?_
  subst hxy
  split
  · exact .pure .none
  · refine .bind .accept fun x y hxy => ?_
    subst hxy
    split
    · refine .bind (declaration h) fun ⟨x, o⟩ ⟨y, o'⟩ ⟨hxy, hx, ho⟩ => ?_
      obtain rfl : x = y := hxy
      exact .bind (.pure (.var hx ho)) hend
    · exact .bind h fun e f hef => .bind (.pure (.expr hef)) hend

theorem loopClause (h : A.Rel slot expression expression') (ending : Symbol) (what : String) :
    A.Rel (Option.Rel slot) (Parse.loopClause expression ending what) (Parse.loopClause expression' ending what) := by
  have hend : ∀ o o', Option.Rel slot o o' → A.Rel (Option.Rel slot)
      (do let _ ← expect (.symbol ending) what; return o) (do let _ ← expect (.symbol ending) what; return o') :=
    fun o o' ho => .bind .expect fun _ _ _ => .pure ho
  refine .bind .check fun x y hxy => ?_
  subst hxy
  split
  · exact .bind (.pure .none) hend
  · exact .bind h fun _ _ hef => .bind (.pure (.some hef)) hend

theorem returnStatement (h : A.Rel slot expression expression') {t u : Token} (htu : s.Tokens t u) (w : s.Place) :
    A.Run w (Parse.returnStatement expression t) (Parse.returnStatement expression' u) (Stmt.Made s slot stmt) := by
  have hend : ∀ o o', Option.Rel slot o o' → ∀ w, A.Run w
      (do Parse.statementEnd; return Stmt.ret o t.position.line)
      (do Parse.statementEnd; return Stmt.ret o' u.position.line)
      (Stmt.Made s slot stmt) :=
    fun o o' ho w => A.bind (Rel.lift statementEnd w) fun _ _ _ _ => A.pure (.ret ho htu)
  refine A.look ?_
  rw [(Sides.Tokens.peek w).kind]
  split
  · exact A.bind (Rel.pure .none w) fun o o' w' ho => hend o o' ho w'
  · refine A.bind (h w) fun e f w' hef => ?_
    exact A.bind (Rel.pure (.some hef) w') fun o o' w' ho => hend o o' ho w'

theorem tradeEnd (hslot : ∀ e f, slot e f → e.Alike f) (action : TradeAction) {t u : Token} (htu : s.Tokens t u)
    {es fs : List Expr} (hargs : List.Forall₂ slot es fs) (w : s.Place) :
    A.Run w (Parse.tradeEnd action t es) (Parse.tradeEnd action u fs) (Stmt.Made s slot stmt) := by
  unfold Parse.tradeEnd
  rw [← Parse.tradeArgumentComplaint_alike (hargs.imp hslot)]
  cases hfit : Parse.tradeArgumentComplaint? es with
  | some complaint =>
    have hfounded : complaint.Founded := by
      unfold Parse.tradeArgumentComplaint? at hfit
      dsimp only at hfit
      split_ifs at hfit <;> cases hfit <;> trivial
    exact A.read (.error w hfounded htu)
  | none => exact A.bind (Rel.lift statementEnd w) fun _ _ _ _ => A.pure (.trade hargs hfit htu)

theorem tradeStatement (hslot : ∀ e f, slot e f → e.Alike f) (h : A.Rel slot expression expression')
    (action : TradeAction) {t u : Token} (htu : s.Tokens t u) (w : s.Place) :
    A.Run w (Parse.tradeStatement expression action t) (Parse.tradeStatement expression' action u)
      (Stmt.Made s slot stmt) := by
  refine A.bind (Rel.accept w) fun x y w' hxy => ?_
  subst hxy
  split
  · exact A.bind (arguments h _ w') fun es fs w' hargs => tradeEnd hslot action htu hargs w'
  · exact A.bind (Rel.pure .nil w') fun es fs w' hargs => tradeEnd hslot action htu hargs w'

theorem expressionStatement (h : A.Rel slot expression expression') (w : s.Place) :
    A.Run w (Parse.expressionStatement expression) (Parse.expressionStatement expression') (Stmt.Made s slot stmt) :=
  A.bind (h w) fun _ _ w' hef => A.bind (Rel.lift statementEnd w') fun _ _ _ _ => A.pure (.expr hef)

section

variable (hs : ∀ w, A.Run w statement statement' stmt)
include hs

/-- Where it does not matter how a row of statements goes on behind one of them. -/
theorem someStatement : A.Rel (fun t u => ∃ w, stmt t u w) statement statement' :=
  fun w => A.mono (hs w) fun _ _ w' htu => ⟨w', htu⟩

theorem blockBody : A.Rel (List.Forall₂ fun t u => ∃ w, stmt t u w) (Parse.blockBody statement) (Parse.blockBody statement') := by
  refine .bind (R := List.Forall₂ fun t u => ∃ w, stmt t u w) (.iterate (fun ts us hts => ?_) .nil) fun ts us hts =>
    .bind .expect fun _ _ _ => .pure (List.forall₂_reverse_iff.2 hts)
  refine .bind .skip fun _ _ _ => .bind .peek fun t u htu => ?_
  rw [htu.kind]
  dsimp only
  split
  · exact .pure .none
  · exact .bind (someStatement hs) fun _ _ htu => .pure (.some (.cons htu hts))

theorem body (w : s.Place) : A.Run w (Parse.body statement) (Parse.body statement') stmt :=
  A.bind (Rel.skip w) fun _ _ w' _ => hs w'

theorem elseBranch (w : s.Place) :
    A.Run w (Parse.elseBranch statement) (Parse.elseBranch statement') (Stmt.ElseMade s stmt w) := by
  refine A.bind (R := fun x y w' => x = y ∧ if x then w.elseAhead else w' = w ∧ ¬ w.elseAhead)
    (acceptElse (fun helse _ => ⟨rfl, helse⟩) fun helse => ⟨rfl, rfl, helse⟩) ?_
  rintro x _ w' ⟨rfl, hx⟩
  cases x with
  | true => exact A.bind (body hs w') fun _ _ _ htu => A.pure (.some hx htu)
  | false =>
    obtain ⟨rfl, helse⟩ := hx
    exact A.pure (.none helse)

/-- Of the parameters only their texts end up in the statement. -/
theorem functionStatement (w : s.Place) :
    A.Run w (Parse.functionStatement statement) (Parse.functionStatement statement') (Stmt.Made s slot stmt) := by
  refine A.bind (Rel.expect w) fun name name' w' ⟨hname, hkind⟩ => A.bind (Rel.expect w') fun _ _ w' _ =>
    A.bind (Rel.check w') fun x y w' hxy => ?_
  subst hxy
  have hend : ∀ ts us, List.Forall₂ (fun t u => s.Tokens t u ∧ t.kind = .identifier) ts us → ∀ w, A.Run w
      (do
        let _ ← expect (.symbol .rightParen) "')' after parameters"
        Parse.skipNewlines
        let _ ← expect (.symbol .leftBrace) "'\x7b' before function body"
        let statements ← Parse.blockBody statement
        return Stmt.function name.text (ts.map (·.text)) statements)
      (do
        let _ ← expect (.symbol .rightParen) "')' after parameters"
        Parse.skipNewlines
        let _ ← expect (.symbol .leftBrace) "'\x7b' before function body"
        let statements ← Parse.blockBody statement'
        return Stmt.function name'.text (us.map (·.text)) statements) (Stmt.Made s slot stmt) := by
    intro ts us htus w
    have htexts : ts.map (·.text) = us.map (·.text) ∧ ∀ y ∈ ts.map (·.text), s.Declares y := by
      induction htus with
      | nil => exact ⟨rfl, nofun⟩
      | @cons t u ts us htu _ ih =>
        obtain ⟨htokens, hkind⟩ := htu
        rw [List.map_cons, List.map_cons, htokens.text, ih.1]
        exact ⟨rfl, List.forall_mem_cons.2 ⟨⟨t, u, htokens, hkind, htokens.text⟩, ih.1 ▸ ih.2⟩⟩
    rw [← htexts.1, ← hname.text]
    exact A.bind (Rel.expect w) fun _ _ w' _ => A.bind (Rel.skip w') fun _ _ w' _ =>
      A.bind (Rel.expect w') fun _ _ w' _ => A.bind (blockBody hs w') fun _ _ _ hss =>
      A.pure (.function ⟨name, name', hname, hkind, rfl⟩ htexts.2 hss)
  split
  · exact A.bind (Rel.pure .nil w') fun ts us w' htus => hend ts us htus w'
  · exact A.bind (Rel.commaSeparated .expect w') fun ts us w' htus => hend ts us htus w'

theorem ifStatement (he : A.Rel slot expression expression') (w : s.Place) :
    A.Run w (Parse.ifStatement expression statement) (Parse.ifStatement expression' statement') (Stmt.Made s slot stmt) :=
  A.bind (condition he _ _ w) fun _ _ w' hef => A.bind (body hs w') fun _ _ w' htu =>
    A.bind (elseBranch hs w') fun _ _ _ ho => A.pure (.branch hef htu ho)

theorem whileStatement (he : A.Rel slot expression expression') (w : s.Place) :
    A.Run w (Parse.whileStatement expression statement) (Parse.whileStatement expression' statement')
      (Stmt.Made s slot stmt) :=
  A.bind (condition he _ _ w) fun _ _ w' hef => A.bind (body hs w') fun _ _ _ htu => A.pure (.whileLoop hef htu)

theorem forStatement (he : A.Rel slot expression expression') (w : s.Place) :
    A.Run w (Parse.forStatement expression statement) (Parse.forStatement expression' statement') (Stmt.Made s slot stmt) :=
  A.bind (Rel.expect w) fun _ _ w' _ => A.bind (loopStart he w') fun _ _ w' hstart =>
    A.bind (loopClause he _ _ w') fun _ _ w' ho => A.bind (loopClause he _ _ w') fun _ _ w' hi =>
    A.bind (body hs w') fun _ _ _ htu => A.pure (.forLoop hstart ho hi htu)

theorem anyStatement (hslot : ∀ e f, slot e f → e.Alike f) (he : A.Rel slot expression expression') (w : s.Place) :
    A.Run w (Parse.anyStatement expression statement) (Parse.anyStatement expression' statement')
      (Stmt.Made s slot stmt) := by
  have htu := Sides.Tokens.peek w
  refine A.look ?_
  rw [htu.kind]
  split
  · exact A.bind (Rel.advance w) fun _ _ w' _ => functionStatement hs w'
  · exact A.bind (Rel.advance w) fun _ _ w' _ => varStatement he w'
  · exact A.bind (Rel.advance w) fun _ _ w' _ => ifStatement hs he w'
  · exact A.bind (Rel.advance w) fun _ _ w' _ => whileStatement hs he w'
  · exact A.bind (Rel.advance w) fun _ _ w' _ => forStatement hs he w'
  · exact A.bind (Rel.advance w) fun _ _ w' _ => returnStatement he htu w'
  · exact A.bind (Rel.advance w) fun _ _ w' _ => tradeStatement hslot he _ htu w'
  · exact A.bind (Rel.advance w) fun _ _ w' _ => A.bind (blockBody hs w') fun _ _ _ hss => A.pure (.block hss)
  · exact expressionStatement he w

theorem allStatements :
    A.Rel (List.Forall₂ fun t u => ∃ w, stmt t u w) (Parse.allStatements statement) (Parse.allStatements statement') := by
  refine .bind (R := List.Forall₂ fun t u => ∃ w, stmt t u w) (.iterate (fun ts us hts => ?_) .nil) fun ts us hts =>
    .pure (List.forall₂_reverse_iff.2 hts)
  refine .bind .skip fun _ _ _ => .bind .peek fun t u htu => ?_
  rw [htu.kind]
  split
  · exact .pure .none
  · exact .bind (someStatement hs) fun _ _ htu => .pure (.some (.cons htu hts))

end

end Accord

/-! ## What the parser gives -/

namespace Sides

theorem tooDeep {α β : Type} {R : α → β → Prop} (what : Parse.Construct) :
    s.parsers.Rel R (Parse.tooDeep what) (Parse.tooDeep what) := .failHere fun _ => trivial

section

variable {slot : Nat → Expr → Expr → Prop} {stmt : Nat → Stmt → Stmt → s.Place → Prop}
  (hslot : ∀ n e f, slot n e f → e.Alike f)
include hslot

mutual

/-- What follows for an expression from its being made of expressions one level deeper is true of every expression. -/
theorem expression (hmade : ∀ n e f, Expr.Made s (slot n) 6 e f → slot (n + 1) e f) :
    ∀ n, s.parsers.Rel (slot n) (Parse.expression n) (Parse.expression n)
  | 0 => tooDeep .expression
  | n + 1 =>
    have hunary := Accord.unary (hslot n) (operand hmade n) (expression hmade n)
    (Accord.assignment (hslot n) (Accord.binary hunary) (expression hmade n)).mono (hmade n)

theorem operand (hmade : ∀ n e f, Expr.Made s (slot n) 6 e f → slot (n + 1) e f) :
    ∀ n, s.parsers.Rel (slot n) (Parse.operand n) (Parse.operand n)
  | 0 => tooDeep .expression
  | n + 1 => (Accord.unary (hslot n) (operand hmade n) (expression hmade n)).mono fun e f h => hmade n e f h.loosest

end

/-- What follows for a statement from its being made of expressions and statements one level deeper is true of every
statement. -/
theorem statement (he : ∀ n, s.parsers.Rel (slot n) (Parse.expression n) (Parse.expression n))
    (hmade : ∀ n t u w, Stmt.Made s (slot n) (stmt n) t u w → stmt (n + 1) t u w) :
    ∀ n w, s.parsers.Run w (Parse.statement n) (Parse.statement n) (stmt n)
  | 0, w => s.parsers.mono (tooDeep (R := fun _ _ => False) .statement w) fun _ _ _ h => h.elim
  | n + 1, w => s.parsers.mono (Accord.anyStatement (statement he hmade n) (hslot n) (he n) w) (hmade n)

end

end Sides

end StrategyScript
