/-
A parser that counts the levels it is in. Instead of being told how many levels are left it keeps the
number of those it has entered, adds one when it enters the next and takes it off again behind it, however
that has ended. The grammar is the same for it; whatever solves the equations of the grammar reads what the
parser with levels left reads, and leaves the count as it has found it.
-/
import StrategyScript.Proofs.Parse.Levels

namespace StrategyScript

open Parse

/-- A parser with a count. -/
def Counting (α : Type) : Type := Nat → Cursor → Parsed α × Nat

namespace Counting

variable {α β : Type}

@[inline] protected def pure (a : α) : Counting α := fun depth c => (.ok a c, depth)

@[inline] protected def bind (m : Counting α) (f : α → Counting β) : Counting β := fun depth c =>
  match m depth c with
  | (.ok a d, depth) => f a depth d
  | (.error e d, depth) => (.error e d, depth)

def iterateWithin (step : α → Counting (Option α)) : List Token → α → Counting α
  | [], a => Counting.pure a
  | _ :: bound, a => fun depth c =>
    match step a depth c with
    | (.ok (some b) c, depth) => iterateWithin step bound b depth c
    | (.ok none c, depth) => (.ok a c, depth)
    | (.error e c, depth) => (.error e c, depth)

/-- A parser that does not enter a level leaves the count alone. -/
instance : Reading Counting where
  pure := Counting.pure
  bind := Counting.bind
  read p := fun depth c => (p c, depth)
  iterate step a := fun depth c => iterateWithin step (c.peek :: c.rest) a depth c

/-- Reads one level deeper, unless there are as many as there may be. -/
def nested (what : Construct) (m : Counting α) : Counting α := fun depth c =>
  if maxNesting ≤ depth then (tooDeep what c, depth)
  else
    let (r, depth) := m (depth + 1) c
    (r, depth - 1)

/-! ## Agreement -/

/-- Begun with this count, readers come back to it and end as parsers do. -/
def accord (depth : Nat) : Accord .same Counting Parser where
  Run w m p R := ∃ r, m depth w.left = (r, depth) ∧ Sides.same.Ended R r (p w.right)
  pure h := ⟨_, rfl, .ok _ h⟩
  bind {_ _ _ _ w m p f g R S} := by
    rintro ⟨r, hm, hended⟩ hf
    show ∃ r, Counting.bind m f depth w.left = (r, depth) ∧ Sides.same.Ended S r (Parser.bind p g w.right)
    unfold Counting.bind Parser.bind
    rw [hm]
    generalize p w.right = x at hended
    cases hended with
    | ok w' h => exact hf _ _ w' h
    | error w' hc htu => exact ⟨_, rfl, .error w' hc htu⟩
  mono := by
    rintro _ _ w m p R R' ⟨r, hm, hended⟩ hR
    exact ⟨r, hm, hended.mono hR⟩
  iterate {_ _ step step' I _ _} h hab w := by
    have hwithin : ∀ (l l' : List Token), l.length = l'.length → ∀ a b (w : Sides.same.Place), I a b →
        ∃ r, iterateWithin step l a depth w.left = (r, depth) ∧
          Sides.same.Ended (fun a b _ => I a b) r (Parser.iterateWithin step' l' b w.right) := by
      intro l
      induction l with
      | nil =>
        intro l' hl a b w hab
        obtain rfl := List.length_eq_zero_iff.1 hl.symm
        exact ⟨_, rfl, .ok w hab⟩
      | cons t l ih =>
        intro l' hl a b w hab
        obtain _ | ⟨t', l'⟩ := l'
        · cases hl
        obtain ⟨r, hstep, hended⟩ := h a b w hab
        unfold iterateWithin Parser.iterateWithin
        rw [hstep]
        generalize step' b w.right = x at hended
        cases hended with
        | error w' hc htu => exact ⟨_, rfl, .error w' hc htu⟩
        | ok w' ho => cases ho with
          | none => exact ⟨_, rfl, .ok w' hab⟩
          | some hab' => exact ih l' (Nat.succ.inj hl) _ _ w' hab'
    refine hwithin _ _ ?_ _ _ w hab
    rw [List.length_cons, List.length_cons, Sides.same.length w.beside]
  read h := ⟨_, rfl, h⟩

/-- Begun with this count, the reader does what `p` does, and comes back to the count. -/
def Agrees (m : Counting α) (depth : Nat) (p : Parser α) : Prop := (accord depth).Rel Eq m p

namespace Agrees

variable {m : Counting α} {p : Parser α} {depth : Nat}

theorem eq (h : m.Agrees depth p) (c : Cursor) : m depth c = (p c, depth) := by
  obtain ⟨r, hm, hended⟩ := h (.of c)
  have hr : r = p c := by
    show r = p (Sides.Place.of c).right
    generalize p (Sides.Place.of c).right = x at hended
    cases hended with
    | ok w h => rw [h, Sides.oneRow_same _ _ w.beside]
    | error w _ htu => rw [Sides.oneRow_same.tokens htu, Sides.oneRow_same _ _ w.beside]
  rw [← hr]
  exact hm

/-- One level deeper there is one level less left. -/
theorem nested {what : Construct} (hlt : depth < maxNesting) (h : m.Agrees (depth + 1) p) :
    (nested what m).Agrees depth p := by
  intro w
  obtain ⟨r, hm, hended⟩ := h w
  refine ⟨r, ?_, hended⟩
  unfold Counting.nested
  rw [if_neg (Nat.not_le.2 hlt), hm]
  rfl

theorem nested_tooDeep {what : Construct} (m : Counting α) (hle : maxNesting ≤ depth) :
    (Counting.nested what m).Agrees depth (tooDeep what) :=
  fun w => ⟨_, if_pos hle, Sides.tooDeep what w⟩

end Agrees

variable {depth : Nat}

/-- What is made of equal parts is equal. -/
theorem agrees_of_made {m : Counting Expr} {p : Parser Expr} {k : Nat} (h : (accord depth).Rel (Expr.Made .same Eq k) m p) :
    m.Agrees depth p := h.mono fun _ _ hef => hef.eq Sides.oneRow_same fun _ _ h => h

theorem agrees_of_stmtMade {m : Counting Stmt} {p : Parser Stmt}
    (h : ∀ w, (accord depth).Run w m p (Stmt.Made .same Eq fun t u _ => t = u)) : m.Agrees depth p :=
  fun w => (accord depth).mono (h w) fun _ _ _ htu =>
    htu.eq Sides.oneRow_same (fun _ _ h => h) fun _ _ _ h => h

theorem eq_of_rel {α : Type} {R : α → α → Prop} {a b : Option α} (h : Option.Rel R a b) (hR : ∀ x y, R x y → x = y) :
    a = b := by
  cases h with
  | none => rfl
  | some hxy => exact congrArg some (hR _ _ hxy)

theorem agrees_of_list {α : Type} {R : α → α → Prop} {m : Counting (List α)} {p : Parser (List α)}
    (h : (accord depth).Rel (List.Forall₂ R) m p) (hR : ∀ a b, R a b → a = b) : m.Agrees depth p := by
  refine h.mono fun as bs has => ?_
  induction has with
  | nil => rfl
  | cons hab _ ih => rw [hR _ _ hab, ih]

end Counting

/-! ## The grammar -/

namespace Counting

theorem alike_of_eq (e f : Expr) (h : e = f) : e.Alike f := congrArg _ h

/-- If it agrees one level deeper, where there is one, the grammar agrees on this level. -/
theorem level_agrees (expression operand : Counting Expr) (statement : Counting Stmt) (depth : Nat)
    (h : depth < maxNesting → expression.Agrees (depth + 1) (Parse.expression (maxNesting - (depth + 1))) ∧
      operand.Agrees (depth + 1) (Parse.operand (maxNesting - (depth + 1))) ∧
      statement.Agrees (depth + 1) (Parse.statement (maxNesting - (depth + 1)))) :
    (nested .expression (Parse.assignment (Parse.binary (Parse.unary operand expression)) expression)).Agrees depth
        (Parse.expression (maxNesting - depth)) ∧
      (nested .expression (Parse.unary operand expression)).Agrees depth (Parse.operand (maxNesting - depth)) ∧
      (nested .statement (Parse.anyStatement expression statement)).Agrees depth (Parse.statement (maxNesting - depth)) := by
  by_cases hlt : depth < maxNesting
  · obtain ⟨he, ho, hs⟩ := h hlt
    have hunary := Accord.unary alike_of_eq ho he
    rw [show maxNesting - depth = maxNesting - (depth + 1) + 1 by omega]
    exact ⟨.nested hlt (agrees_of_made (Accord.assignment alike_of_eq (Accord.binary hunary) he)),
      .nested hlt (agrees_of_made hunary), .nested hlt (agrees_of_stmtMade (Accord.anyStatement hs alike_of_eq he))⟩
  · have hle := Nat.not_lt.1 hlt
    rw [Nat.sub_eq_zero_of_le hle]
    exact ⟨.nested_tooDeep _ hle, .nested_tooDeep _ hle, .nested_tooDeep _ hle⟩

end Counting

/-- A reader of the whole grammar: what stands inside something else is read one level deeper. -/
@[ext] structure CountingReader where
  expression : Counting Expr
  operand : Counting Expr
  statement : Counting Stmt
  expression_eq : expression = .nested .expression (Parse.assignment (Parse.binary (Parse.unary operand expression)) expression)
  operand_eq : operand = .nested .expression (Parse.unary operand expression)
  statement_eq : statement = .nested .statement (Parse.anyStatement expression statement)

namespace CountingReader

/-- A reader has no choice but to agree with the parser that takes what is left of the levels. -/
theorem agrees (r : CountingReader) (depth : Nat) :
    r.expression.Agrees depth (Parse.expression (maxNesting - depth)) ∧
      r.operand.Agrees depth (Parse.operand (maxNesting - depth)) ∧
      r.statement.Agrees depth (Parse.statement (maxNesting - depth)) := by
  have hlevel := Counting.level_agrees r.expression r.operand r.statement depth fun _ => r.agrees (depth + 1)
  rwa [← r.expression_eq, ← r.operand_eq, ← r.statement_eq] at hlevel
termination_by maxNesting - depth

/-- The parser that takes what is left of the levels, with the count beside it. -/
def beside {α : Type} (p : Nat → Parser α) : Counting α := fun depth c => (p (maxNesting - depth) c, depth)

theorem beside_eq_of_agrees {α : Type} {m : Counting α} {p : Nat → Parser α}
    (h : ∀ depth, m.Agrees depth (p (maxNesting - depth))) : beside p = m :=
  funext fun depth => funext fun c => ((h depth).eq c).symm

theorem beside_agrees {α : Type} {p : Nat → Parser α} (h : ∀ n, Sides.same.parsers.Rel Eq (p n) (p n)) (depth : Nat) :
    (beside p).Agrees depth (p (maxNesting - depth)) := fun w => ⟨_, rfl, h _ w⟩

/-- It is a reader. -/
def ofLevels : CountingReader :=
  have hmade := fun (_ : Nat) e f (h : Expr.Made .same Eq 6 e f) => h.eq Sides.oneRow_same fun _ _ h => h
  have he := Sides.expression (fun _ => Counting.alike_of_eq) hmade
  have ho := Sides.operand (fun _ => Counting.alike_of_eq) hmade
  have hs : ∀ n, Sides.same.parsers.Rel Eq (Parse.statement n) (Parse.statement n) :=
    Sides.statement (fun _ => Counting.alike_of_eq) he fun _ _ _ _ h =>
      h.eq Sides.oneRow_same (fun _ _ h => h) fun _ _ _ h => h
  have h := fun depth => Counting.level_agrees (beside Parse.expression) (beside Parse.operand) (beside Parse.statement)
    depth fun _ => ⟨beside_agrees he _, beside_agrees ho _, beside_agrees hs _⟩
  { expression := beside Parse.expression
    operand := beside Parse.operand
    statement := beside Parse.statement
    expression_eq := beside_eq_of_agrees fun depth => (h depth).1
    operand_eq := beside_eq_of_agrees fun depth => (h depth).2.1
    statement_eq := beside_eq_of_agrees fun depth => (h depth).2.2 }

theorem eq_ofLevels (r : CountingReader) : r = ofLevels :=
  CountingReader.ext (beside_eq_of_agrees fun depth => (r.agrees depth).1).symm
    (beside_eq_of_agrees fun depth => (r.agrees depth).2.1).symm
    (beside_eq_of_agrees fun depth => (r.agrees depth).2.2).symm

/-- The functions of a reader, each with the parser that it stands for when so many levels are left. -/
inductive Function (r : CountingReader) : {α : Type} → Counting α → (Nat → Parser α) → Prop
  | expression : Function r r.expression Parse.expression
  | operand : Function r r.operand Parse.operand
  | statement : Function r r.statement Parse.statement
  | primary : Function r (Parse.primary r.expression) fun n => Parse.primary (Parse.expression n)
  | arguments (what : String) : Function r (Parse.arguments r.expression what) fun n => Parse.arguments (Parse.expression n) what
  | postfixed : Function r (Parse.postfixed r.expression) fun n => Parse.postfixed (Parse.expression n)
  | unary : Function r (Parse.unary r.operand r.expression) fun n => Parse.unary (Parse.operand n) (Parse.expression n)
  /-- Any rank of operators, above the ranks that are tighter. -/
  | chain {m : Counting Expr} {p : Nat → Parser Expr} (operator : Lexeme → Option BinaryOp) (h : Function r m p) :
    Function r (Parse.chain operator m) fun n => Parse.chain operator (p n)
  | assignment {m : Counting Expr} {p : Nat → Parser Expr} (h : Function r m p) :
    Function r (Parse.assignment m r.expression) fun n => Parse.assignment (p n) (Parse.expression n)
  | blockBody : Function r (Parse.blockBody r.statement) fun n => Parse.blockBody (Parse.statement n)
  | body : Function r (Parse.body r.statement) fun n => Parse.body (Parse.statement n)
  | declaration : Function r (Parse.declaration r.expression) fun n => Parse.declaration (Parse.expression n)
  | condition (before after : String) : Function r (Parse.condition r.expression before after) fun n =>
    Parse.condition (Parse.expression n) before after
  | functionStatement : Function r (Parse.functionStatement r.statement) fun n => Parse.functionStatement (Parse.statement n)
  | varStatement : Function r (Parse.varStatement r.expression) fun n => Parse.varStatement (Parse.expression n)
  | elseBranch : Function r (Parse.elseBranch r.statement) fun n => Parse.elseBranch (Parse.statement n)
  | ifStatement : Function r (Parse.ifStatement r.expression r.statement) fun n =>
    Parse.ifStatement (Parse.expression n) (Parse.statement n)
  | whileStatement : Function r (Parse.whileStatement r.expression r.statement) fun n =>
    Parse.whileStatement (Parse.expression n) (Parse.statement n)
  | loopStart : Function r (Parse.loopStart r.expression) fun n => Parse.loopStart (Parse.expression n)
  | loopClause (ending : Symbol) (what : String) : Function r (Parse.loopClause r.expression ending what) fun n =>
    Parse.loopClause (Parse.expression n) ending what
  | forStatement : Function r (Parse.forStatement r.expression r.statement) fun n =>
    Parse.forStatement (Parse.expression n) (Parse.statement n)
  | returnStatement (t : Token) : Function r (Parse.returnStatement r.expression t) fun n =>
    Parse.returnStatement (Parse.expression n) t
  | tradeStatement (action : TradeAction) (t : Token) : Function r (Parse.tradeStatement r.expression action t) fun n =>
    Parse.tradeStatement (Parse.expression n) action t
  | expressionStatement : Function r (Parse.expressionStatement r.expression) fun n =>
    Parse.expressionStatement (Parse.expression n)
  | anyStatement : Function r (Parse.anyStatement r.expression r.statement) fun n =>
    Parse.anyStatement (Parse.expression n) (Parse.statement n)
  | statements : Function r (Parse.allStatements r.statement) Parse.statements

/-- Each function of the grammar agrees, since the readers inside it do. -/
theorem Function.agrees {r : CountingReader} {α : Type} {m : Counting α} {p : Nat → Parser α} (h : r.Function m p)
    (depth : Nat) : m.Agrees depth (p (maxNesting - depth)) := by
  obtain ⟨he, ho, hs⟩ := r.agrees depth
  have hslot := Counting.alike_of_eq
  -- an expression that is equal is made of it, as if in parentheses
  have hmade : ∀ {m : Counting Expr} {p : Parser Expr}, m.Agrees depth p →
      (Counting.accord depth).Rel (Expr.Made .same Eq 0) m p := fun h => h.mono fun _ _ hef => .parens hef
  have hatom : ∀ w : Sides.same.Place, ∀ e f, atom? w.left.peek = .ok e → atom? w.right.peek = .ok f →
      Expr.Made .same Eq 0 e f := by
    intro w e f he hf
    rw [← Sides.oneRow_same _ _ w.beside, he] at hf
    exact .parens (Except.ok.inj hf)
  induction h with
  | expression => exact he
  | operand => exact ho
  | statement => exact hs
  | primary => exact Counting.agrees_of_made fun w => Accord.primary he (hatom w)
  | arguments what => exact Counting.agrees_of_list (Accord.arguments he what) fun _ _ h => h
  | postfixed => exact Counting.agrees_of_made fun w => Accord.postfixed hslot he (hatom w)
  | unary => exact Counting.agrees_of_made (Accord.unary hslot ho he)
  | chain operator _ ih => exact Counting.agrees_of_made (Accord.chain operator (hmade ih))
  | assignment _ ih => exact Counting.agrees_of_made (Accord.assignment hslot (hmade ih) he)
  | blockBody => exact Counting.agrees_of_list (Accord.blockBody hs) fun _ _ ⟨_, h⟩ => h
  | body => exact Accord.body hs
  | declaration =>
    refine (Accord.declaration he).mono ?_
    rintro ⟨x, o⟩ ⟨y, o'⟩ ⟨hxy, -, ho⟩
    exact Prod.ext hxy (Counting.eq_of_rel ho fun _ _ h => h)
  | condition before after => exact Accord.condition he before after
  | functionStatement => exact Counting.agrees_of_stmtMade (Accord.functionStatement hs)
  | varStatement => exact Counting.agrees_of_stmtMade (Accord.varStatement he)
  | elseBranch =>
    refine fun w => (Counting.accord depth).mono (Accord.elseBranch hs w) fun o o' _ ho => ?_
    cases ho with
    | none => rfl
    | some _ h => exact congrArg some h
  | ifStatement => exact Counting.agrees_of_stmtMade (Accord.ifStatement hs he)
  | whileStatement => exact Counting.agrees_of_stmtMade (Accord.whileStatement hs he)
  | loopStart =>
    refine (Accord.loopStart he).mono fun _ _ ho => Counting.eq_of_rel ho fun start start' h => ?_
    cases h with
    | var _ ho => rw [Counting.eq_of_rel ho fun _ _ h => h]
    | expr h => rw [h]
  | loopClause ending what => 
    exact (Accord.loopClause he ending what).mono fun _ _ ho => Counting.eq_of_rel ho fun _ _ h => h
  | forStatement => exact Counting.agrees_of_stmtMade (Accord.forStatement hs he)
  | returnStatement t => exact Counting.agrees_of_stmtMade (Accord.returnStatement he ⟨.of ⟨[t], t.position⟩⟩)
  | tradeStatement action t => exact Counting.agrees_of_stmtMade (Accord.tradeStatement hslot he action ⟨.of ⟨[t], t.position⟩⟩)
  | expressionStatement => exact Counting.agrees_of_stmtMade (Accord.expressionStatement he)
  | anyStatement => exact Counting.agrees_of_stmtMade (Accord.anyStatement hs hslot he)
  | statements => exact Counting.agrees_of_list (Accord.allStatements hs) fun _ _ ⟨_, h⟩ => h

end CountingReader

namespace Parse

/-- No way down in a program that is read has more than `maxNesting` levels. And where the parser counts the
levels it is in, there is one reader for the grammar; each of its functions reads what it reads when told how
many levels are left, and comes back to the count it was begun with, after an error too. -/
theorem nesting_limit :
    (∀ tokens p, program tokens = .ok p → Stmt.levelsAll p ≤ maxNesting) ∧
      (∃ r : CountingReader, ∀ r', r' = r) ∧
      ∀ (r : CountingReader) (α : Type) (m : Counting α) (p : Nat → Parser α), r.Function m p →
        ∀ depth c, m depth c = (p (maxNesting - depth) c, depth) :=
  ⟨fun _ _ => program_levels, ⟨.ofLevels, CountingReader.eq_ofLevels⟩, fun _ _ _ _ h depth c => (h.agrees depth).eq c⟩

/-- A statement, its expression, the value that is assigned in it and the operand there are four levels.
One level too deep, the reader refuses and the count is as before. -/
theorem nesting_of_assignment :
    let p : Program := [.expr (.assign "a" (.unary .negate (.identifier "b" ⟨1, 6⟩) ⟨1, 5⟩) ⟨1, 1⟩)]
    program (Lexer.tokens "a = -b") = .ok p ∧ Stmt.levelsAll p = 4 ∧ 4 ≤ maxNesting ∧
      ∃ r : CountingReader, r.statement 61 (.ofTokens (Lexer.tokens "a = -b")) =
        (.error ⟨"expression nested too deeply", ⟨1, 6⟩⟩ ⟨[⟨⟨.identifier, "b"⟩, ⟨1, 6⟩⟩], ⟨1, 7⟩⟩, 61) := by
  obtain ⟨hlevels, ⟨r, -⟩, hcount⟩ := nesting_limit
  have hp : program (Lexer.tokens "a = -b") =
      .ok [.expr (.assign "a" (.unary .negate (.identifier "b" ⟨1, 6⟩) ⟨1, 5⟩) ⟨1, 1⟩)] := rfl
  have hrefused : Parse.statement 3 (.ofTokens (Lexer.tokens "a = -b")) =
      .error ⟨"expression nested too deeply", ⟨1, 6⟩⟩ ⟨[⟨⟨.identifier, "b"⟩, ⟨1, 6⟩⟩], ⟨1, 7⟩⟩ := rfl
  refine ⟨hp, rfl, hlevels _ _ hp, r, ?_⟩
  rw [hcount r Stmt _ _ .statement, ← hrefused]
  rfl

end Parse

end StrategyScript
