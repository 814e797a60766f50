/-
Words as expressions. Where an operand is expected, `true` and `false` are read as literals and `not` as an
operator, in any case of their letters; every other identifier is read as the name that it is, `and` and `or`
too. A word that is an expression by itself is read at any level that is left, and a statement around it is read
as far as its expression is.
-/
import StrategyScript.Proofs.Parse.Chain

namespace StrategyScript.Parse

open StrategyScript.Parser

/-- What an identifier other than `not` is as an operand. -/
def wordAtom (w : String) : Atom :=
  if sameWord w "true" then .boolean true
  else if sameWord w "false" then .boolean false
  else .name w

/-- Whether expressions read the word as a literal or an operator, in any case of its letters. -/
def isReserved (w : String) : Bool := sameWord w "true" || sameWord w "false" || sameWord w "not"

theorem kept_of_word {l : Lexeme} (hkind : l.kind = .identifier) (hnot : sameWord l.text "not" = false) :
    l.KeptAs (wordAtom l.text).sign := by
  have hsame : ∀ w, l.isWord w = sameWord l.text w := fun w => by simp [Lexeme.isWord, hkind]
  unfold wordAtom
  split
  · rename_i htrue
    exact (hsame "true").trans htrue
  · rename_i htrue
    split
    · rename_i hfalse
      exact (hsame "false").trans hfalse
    · rename_i hfalse
      exact .inl ⟨hkind, rfl, by simp [hsame, htrue, hfalse, hnot]⟩

section

variable {c d : Cursor} {e : Expr} {err : ParseError} {operand : Parser Expr} {operators : List (Lexeme → Option BinaryOp)}

/-! ## All ranks at once -/

/-- Where no operator follows, an operand is all that the ranks read. -/
theorem chains_of_operand (h : operand c = .ok e d) (hd : ∀ f ∈ operators, f d.peek.toLexeme = none) :
    operators.foldr chain operand c = .ok e d := by
  induction operators with
  | nil => exact h
  | cons f operators ih =>
    obtain ⟨hf, hrest⟩ := List.forall_mem_cons.1 hd
    rw [List.foldr_cons, chain_eq, bind_ok (ih hrest)]
    exact iterate_stop (chainStep_none hf)

theorem chains_error (h : operand c = .error err d) : operators.foldr chain operand c = .error err d := by
  induction operators with
  | nil => exact h
  | cons f operators ih => rw [List.foldr_cons, chain_eq, bind_error ih]

/-! ## Expressions -/

variable {rest : List Token} {stop : Position} {t : Token}

/-- A token that is an operand by itself, with no operator, call or indexing behind it, is all that is read. -/
theorem binary_of_atom {a : Atom} (h : t.KeptAs a.sign) (hstops : Stops 0 ⟨rest, stop⟩) (levels : Nat) :
    binary (unary (Parse.operand levels) (expression levels)) ⟨t :: rest, stop⟩ =
      .ok (a.expr t.position) ⟨rest, stop⟩ := by
  have hprimary : primary (expression levels) ⟨t :: rest, stop⟩ = .ok (a.expr t.position) ⟨rest, stop⟩ :=
    primary_atom (atom_of_kept h)
  have hunary : unary (Parse.operand levels) (expression levels) ⟨t :: rest, stop⟩ =
      .ok (a.expr t.position) ⟨rest, stop⟩ := by
    have hnone : unaryOperator (Cursor.mk (t :: rest) stop).peek.toLexeme = none := unaryOperator_of_kept h
    unfold unary
    rw [Reading.liftM_self, peek_bind, hnone]
    dsimp only
    rw [postfixed_eq, bind_ok hprimary]
    exact iterate_stop (postfixStep_none hstops.call hstops.index)
  exact chains_of_operand hunary hstops.operators

theorem expression_of_atom {a : Atom} (h : t.KeptAs a.sign) (hstops : Stops 0 ⟨rest, stop⟩)
    (hassign : (Cursor.mk rest stop).peek.kind ≠ .symbol .assign) (levels : Nat) :
    expression (levels + 1) ⟨t :: rest, stop⟩ = .ok (a.expr t.position) ⟨rest, stop⟩ := by
  rw [expression]
  unfold assignment
  rw [bind_ok (binary_of_atom h hstops levels), Reading.liftM_self, peek_bind, if_neg hassign]
  rfl

/-- An identifier with nothing behind it that goes on. -/
theorem expression_of_word {w : String} {p : Position} (hnot : sameWord w "not" = false) (hstops : Stops 0 ⟨rest, stop⟩)
    (hassign : (Cursor.mk rest stop).peek.kind ≠ .symbol .assign) (levels : Nat) :
    expression (levels + 1) ⟨⟨⟨.identifier, w⟩, p⟩ :: rest, stop⟩ = .ok ((wordAtom w).expr p) ⟨rest, stop⟩ := by
  have hkept : Lexeme.KeptAs ⟨.identifier, w⟩ (wordAtom w).sign := kept_of_word rfl hnot
  exact expression_of_atom (t := ⟨⟨.identifier, w⟩, p⟩) hkept hstops hassign levels

/-- Behind a name and an equals sign, the value decides. -/
theorem expression_assigned {x : String} {q : Position} (h : t.KeptAs (.name x)) (levels : Nat) :
    expression (levels + 1) ⟨t :: ⟨.symbol .assign, q⟩ :: rest, stop⟩ =
      (do return .assign x (← expression levels) t.position : Parser Expr) ⟨rest, stop⟩ := by
  have hstops : Stops 0 ⟨⟨.symbol .assign, q⟩ :: rest, stop⟩ := ⟨ranks_none (.inr rfl), nofun, nofun⟩
  have htarget := binary_of_atom (a := .name x) h hstops levels
  rw [expression]
  unfold assignment
  rw [bind_ok htarget]
  rfl

theorem arguments_single {inner : Parser Expr} {what : String} (hc : c.peek.kind ≠ .symbol .rightParen)
    (he : inner c = .ok e d) (hd : d.peek.kind = .symbol .rightParen) : arguments inner what c = .ok [e] d.next := by
  have hstop : nextItem inner [e] d = .ok none d := by
    have haccept : accept (.symbol .comma) d = .ok false d := if_neg (by rw [hd]; nofun)
    unfold nextItem
    rw [bind_ok haccept]
    rfl
  have hitems : Reading.commaSeparated inner c = .ok [e] d := by
    rw [commaSeparated_eq, bind_ok he, bind_ok (iterate_stop hstop)]
    rfl
  have hcheck : check (.symbol .rightParen) c = .ok false c := by
    unfold check
    rw [beq_eq_false_iff_ne.2 hc]
  have hexpect : expect (.symbol .rightParen) what d = .ok d.peek d.next := if_pos hd
  unfold arguments
  rw [Reading.liftM_self, bind_ok hcheck, if_neg Bool.false_ne_true, bind_ok hitems]
  exact bind_ok hexpect

/-- A call of a name. -/
theorem expression_called {x : String} {q : Position} {levels : Nat} {args : List Expr} (h : t.KeptAs (.name x))
    (hargs : arguments (expression levels) "')' after arguments" ⟨rest, stop⟩ = .ok args d) (hstops : Stops 0 d)
    (hassign : d.peek.kind ≠ .symbol .assign) :
    expression (levels + 1) ⟨t :: ⟨.symbol .leftParen, q⟩ :: rest, stop⟩ = .ok (.call x args t.position) d := by
  have hprimary : primary (expression levels) ⟨t :: ⟨.symbol .leftParen, q⟩ :: rest, stop⟩ =
      .ok (.identifier x t.position) ⟨⟨.symbol .leftParen, q⟩ :: rest, stop⟩ := primary_atom (atom_of_kept (a := .name x) h)
  have hcall : postfixStep (expression levels) (.identifier x t.position) ⟨⟨.symbol .leftParen, q⟩ :: rest, stop⟩ =
      .ok (some (.call x args t.position)) d := by
    show (do return some (← callOf (.identifier x t.position) (← arguments _ _) ⟨.symbol .leftParen, q⟩) : Parser _)
      ⟨rest, stop⟩ = _
    rw [bind_ok hargs]
    rfl
  have hends : Ends (postfixStep (expression levels)) := (postfixStep_adds (expression_keeps levels)).ends
  have hunary : unary (Parse.operand levels) (expression levels) ⟨t :: ⟨.symbol .leftParen, q⟩ :: rest, stop⟩ =
      .ok (.call x args t.position) d := by
    have hnone : unaryOperator (Cursor.mk (t :: ⟨.symbol .leftParen, q⟩ :: rest) stop).peek.toLexeme = none :=
      unaryOperator_of_kept (a := .name x) h
    unfold unary
    rw [Reading.liftM_self, peek_bind, hnone]
    dsimp only
    rw [postfixed_eq, bind_ok hprimary, hends.iterate_go hcall]
    exact iterate_stop (postfixStep_none hstops.call hstops.index)
  have hbinary : binary (unary (Parse.operand levels) (expression levels)) ⟨t :: ⟨.symbol .leftParen, q⟩ :: rest, stop⟩ =
      .ok (.call x args t.position) d := chains_of_operand hunary hstops.operators
  rw [expression]
  unfold assignment
  rw [bind_ok hbinary, Reading.liftM_self, peek_bind, if_neg hassign]
  rfl

/-- No operand begins with the end of input or a closing brace. -/
theorem unary_error {inner : Parser Expr} (hk : c.peek.kind = .endOfInput ∨ c.peek.kind = .symbol .rightBrace) :
    unary operand inner c = .error ⟨(Complaint.unexpected c.peek.toLexeme).message, c.peek.position⟩ c := by
  have hword : c.peek.isWord "not" = false := isWord_of_kind (by rcases hk with hk | hk <;> rw [hk] <;> nofun) "not"
  have hnone : unaryOperator c.peek.toLexeme = none := by
    unfold unaryOperator
    rw [if_neg (by rcases hk with hk | hk <;> rw [hk] <;> nofun), hword]
    rfl
  have hatom : atom? c.peek = .error (.unexpected c.peek.toLexeme) := by
    unfold atom?
    rcases hk with hk | hk <;> rw [hk]
  have hprimary : primary inner c = .error ⟨(Complaint.unexpected c.peek.toLexeme).message, c.peek.position⟩ c := by
    unfold primary
    rw [Reading.liftM_self, peek_bind, if_neg (by rcases hk with hk | hk <;> rw [hk] <;> nofun), hatom]
    rfl
  unfold unary
  rw [Reading.liftM_self, peek_bind, hnone]
  dsimp only
  rw [postfixed_eq, bind_error hprimary]

theorem unary_of_not {inner : Parser Expr} (h : c.peek.isWord "not") (hoperand : operand c.next = .error err d) :
    unary operand inner c = .error err d := by
  have hsaid : UnaryOp.not.SaidBy c.peek.toLexeme := h
  unfold unary
  rw [Reading.liftM_self, peek_bind, unaryOperator_said hsaid]
  dsimp only
  rw [Reading.liftM_self, advance_bind, bind_error hoperand]

theorem expression_error {levels : Nat} (h : unary (Parse.operand levels) (expression levels) c = .error err d) :
    expression (levels + 1) c = .error err d := by
  rw [expression]
  unfold assignment
  rw [binary_eq, bind_error (chains_error h)]

/-- The operator `not` asks for an operand. -/
theorem expression_of_not (h : t.isWord "not")
    (hk : (Cursor.mk rest stop).peek.kind = .endOfInput ∨ (Cursor.mk rest stop).peek.kind = .symbol .rightBrace)
    (levels : Nat) : ∃ err d, expression (levels + 2) ⟨t :: rest, stop⟩ = .error err d := by
  obtain ⟨err, d, hoperand⟩ : ∃ err d, Parse.operand (levels + 1) ⟨rest, stop⟩ = .error err d := by
    rw [Parse.operand]
    exact ⟨_, _, unary_error hk⟩
  exact ⟨err, d, expression_error (unary_of_not h hoperand)⟩

/-! ## Statements -/

variable {s : Stmt} {word x : String} {levels : Nat} {p q r : Position}

/-- Where a statement may end, all ends of statements are passed over. -/
theorem statementEnd_ok (hd : endsStatement d.peek.kind) : statementEnd d = .ok () (d.skip isTerminator) := by
  unfold statementEnd
  rw [peek_bind, if_pos hd]
  rfl

theorem ended {f : Expr → Stmt} (he : expression levels c = .ok e d) (hd : endsStatement d.peek.kind) :
    (do let e ← expression levels; statementEnd; return f e : Parser Stmt) c = .ok (f e) (d.skip isTerminator) := by
  rw [bind_ok he, bind_ok (statementEnd_ok hd)]
  rfl

theorem statement_declared (he : expression levels ⟨rest, stop⟩ = .ok e d) (hd : endsStatement d.peek.kind) :
    statement (levels + 1)
        ⟨⟨⟨.keyword .varWord, word⟩, p⟩ :: ⟨⟨.identifier, x⟩, q⟩ :: ⟨.symbol .assign, r⟩ :: rest, stop⟩ =
      .ok (.var x (some e)) (d.skip isTerminator) := by
  have hdeclaration : declaration (expression levels) ⟨⟨⟨.identifier, x⟩, q⟩ :: ⟨.symbol .assign, r⟩ :: rest, stop⟩ =
      .ok (x, some e) d := by
    show (do return (x, some (← expression levels)) : Parser (String × Option Expr)) ⟨rest, stop⟩ = _
    rw [bind_ok he]
    rfl
  rw [statement]
  show varStatement (expression levels) ⟨⟨⟨.identifier, x⟩, q⟩ :: ⟨.symbol .assign, r⟩ :: rest, stop⟩ = _
  unfold varStatement
  rw [bind_ok hdeclaration]
  dsimp only
  rw [Reading.liftM_self, bind_ok (statementEnd_ok hd)]
  rfl

theorem statement_expr (hbegins : beginsStmt c.peek.kind = false) (levels : Nat) :
    statement (levels + 1) c = (do let e ← expression levels; statementEnd; return .expr e : Parser Stmt) c := by
  rw [statement, anyStatement_other hbegins]
  rfl

theorem statement_returned (hbegins : endsStatement (Cursor.mk rest stop).peek.kind = false) (levels : Nat) :
    statement (levels + 1) ⟨⟨⟨.keyword .returnWord, word⟩, p⟩ :: rest, stop⟩ =
      (do let e ← expression levels; statementEnd; return .ret (some e) p.line : Parser Stmt) ⟨rest, stop⟩ := by
  rw [statement]
  show returnStatement (expression levels) ⟨⟨.keyword .returnWord, word⟩, p⟩ ⟨rest, stop⟩ = _
  unfold returnStatement
  rw [Reading.liftM_self, peek_bind, hbegins]
  rfl

/-- Whether a statement follows in a block. -/
theorem nextStatement_inside (hgo : ¬(c.peek.kind = .symbol .rightBrace ∨ c.peek.kind = .endOfInput))
    (hskip : c.skip isTerminator = c) (read : List Stmt) :
    nextStatement (fun k => k = .symbol .rightBrace ∨ k = .endOfInput) (statement levels) read c =
      (do return some ((← statement levels) :: read) : Parser _) c := by
  unfold nextStatement
  rw [skip_peek_run, hskip]
  dsimp only
  rw [if_neg hgo]

/-- A block of one statement, with its closing brace. -/
theorem blockBody_single (hgo : ¬(c.peek.kind = .symbol .rightBrace ∨ c.peek.kind = .endOfInput))
    (hskip : c.skip isTerminator = c) (hs : statement levels c = .ok s d) (hd : d.peek.kind = .symbol .rightBrace)
    (hskip' : d.skip isTerminator = d) : blockBody (statement levels) c = .ok [s] d.next := by
  have hround : nextStatement (fun k => k = .symbol .rightBrace ∨ k = .endOfInput) (statement levels) [] c =
      .ok (some [s]) d := by
    rw [nextStatement_inside hgo hskip, bind_ok hs, pure_run]
  have hstop : nextStatement (fun k => k = .symbol .rightBrace ∨ k = .endOfInput) (statement levels) [s] d =
      .ok none d := by
    unfold nextStatement
    rw [skip_peek_run, hskip']
    dsimp only
    rw [if_pos (.inl hd)]
    rfl
  have hexpect : expect (.symbol .rightBrace) "'\x7d' after block" d = .ok d.peek d.next := if_pos hd
  have hends : Ends (nextStatement (fun k => k = .symbol .rightBrace ∨ k = .endOfInput) (statement levels)) :=
    (nextStatement_adds (statement_walks levels)).ends
  rw [blockBody_eq, bind_ok ((hends.iterate_go hround).trans (iterate_stop hstop)), bind_ok hexpect]
  rfl

theorem blockBody_error (hgo : ¬(c.peek.kind = .symbol .rightBrace ∨ c.peek.kind = .endOfInput))
    (hskip : c.skip isTerminator = c) (hs : statement levels c = .error err d) :
    blockBody (statement levels) c = .error err d := by
  have hround : nextStatement (fun k => k = .symbol .rightBrace ∨ k = .endOfInput) (statement levels) [] c =
      .error err d := by
    rw [nextStatement_inside hgo hskip, bind_error hs]
  rw [blockBody_eq, bind_error (iterate_fail hround)]

/-- A function of one parameter is read up to its body. -/
theorem statement_function (name : String) (p₀ p₁ p₂ p₃ p₄ p₅ : Position) :
    statement (levels + 1) ⟨⟨⟨.keyword .functionWord, word⟩, p₀⟩ :: ⟨⟨.identifier, name⟩, p₁⟩ :: ⟨.symbol .leftParen, p₂⟩ ::
        ⟨⟨.identifier, x⟩, p₃⟩ :: ⟨.symbol .rightParen, p₄⟩ :: ⟨.symbol .leftBrace, p₅⟩ :: rest, stop⟩ =
      (do return .function name [x] (← blockBody (statement levels)) : Parser Stmt) ⟨rest, stop⟩ := by
  rw [statement]
  rfl

end

end StrategyScript.Parse
