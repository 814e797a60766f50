/-
The lexemes of an expression are read as that expression. An operation stands in parentheses, so at
every rank of operators but its own the reader meets a smallest expression, and then a token that is no
operator of that rank.
-/
import StrategyScript.Proofs.Parse.Layout
import StrategyScript.Proofs.Parse.Output
import StrategyScript.Proofs.Parse.Read

namespace StrategyScript

/-- A leaf that is read as itself. Of a number this asks that reading undoes printing. -/
def Leaf.Legible (l : Leaf) : Prop :=
  l.Proper ∧ ∀ x, l = .number x → Number.readFloat (Number.text x) = .ok x

namespace Parse

open StrategyScript.Parser

/-! ## What stands around an expression -/

/-- A token that can begin an expression without an operator in front. -/
def beginsExpr : TokenKind → Bool
  | .number | .string | .identifier => true
  | .keyword k => k.isBuiltinName
  | .symbol s => s == .leftParen
  | .newline | .endOfInput => false

/-- A token that ends an expression. -/
def endsExpr : TokenKind → Bool
  | .symbol s => [.rightParen, .rightBracket, .comma, .semicolon].contains s
  | .newline => true
  | _ => false

theorem beginsExpr_of_atom {t : Token} {e : Expr} (h : atom? t = .ok e) : beginsExpr t.kind := by
  simp only [atom?] at h
  split at h
  case h_1 hk | h_2 hk | h_3 hk => rw [hk]; rfl
  case h_4 k hk =>
    split at h
    · rw [hk]
      assumption
    · cases h
  case h_5 => cases h

theorem beginsExpr_of_endsExpr {k : TokenKind} (h : endsExpr k) : beginsExpr k = false := by
  cases k with
  | symbol s =>
    revert h
    cases s <;> decide
  | newline => rfl
  | _ => cases h

theorem ne_of_beginsExpr {k k' : TokenKind} (h : beginsExpr k) (h' : beginsExpr k' = false) : k ≠ k' := by
  rintro rfl
  rw [h] at h'
  cases h'

theorem ne_of_endsExpr {k k' : TokenKind} (h : endsExpr k) (h' : endsExpr k' = false) : k ≠ k' := by
  rintro rfl
  rw [h] at h'
  cases h'

/-! ## Operators -/

/-- The ranks of operators with two operands, loosest first. -/
def ranks : List (Lexeme → Option BinaryOp) :=
  [orOperator, andOperator, equalityOperator, comparisonOperator, sumOperator, productOperator]

theorem binary_eq (operand : Parser Expr) : binary operand = ranks.foldr chain operand := rfl

theorem ranks_none {l : Lexeme} (h : endsExpr l.kind ∨ l.kind = .symbol .assign) : ∀ f ∈ ranks, f l = none := by
  obtain ⟨kind, text⟩ := l
  have hcases : kind = .newline ∨ ∃ s, kind = .symbol s ∧
      (s = .rightParen ∨ s = .rightBracket ∨ s = .comma ∨ s = .semicolon ∨ s = .assign) := by
    rcases h with h | rfl
    · cases kind with
      | newline => exact .inl rfl
      | symbol s =>
        have hs : s = .rightParen ∨ s = .rightBracket ∨ s = .comma ∨ s = .semicolon := by
          simpa [endsExpr] using h
        exact .inr ⟨s, rfl, by tauto⟩
      | _ => cases h
    · exact .inr ⟨.assign, rfl, by simp⟩
  rcases hcases with rfl | ⟨s, rfl, rfl | rfl | rfl | rfl | rfl⟩ <;>
    exact List.forall_mem_cons.2 ⟨rfl, List.forall_mem_cons.2 ⟨rfl, List.forall_mem_cons.2 ⟨rfl,
      List.forall_mem_cons.2 ⟨rfl, List.forall_mem_cons.2 ⟨rfl, List.forall_mem_singleton.2 rfl⟩⟩⟩⟩⟩

/-- An operator belongs to one rank, and to none of the tighter ones. -/
theorem ranks_split (op : BinaryOp) :
    ∃ looser f tighter, ranks = looser ++ f :: tighter ∧ f op.lexeme = some op ∧ ∀ g ∈ tighter, g op.lexeme = none := by
  cases op with
  | or => exact ⟨[], _, _, rfl, by decide, by decide⟩
  | and => exact ⟨[orOperator], _, _, rfl, by decide, by decide⟩
  | equal | notEqual => exact ⟨[orOperator, andOperator], _, _, rfl, by decide, by decide⟩
  | less | lessEqual | greater | greaterEqual =>
    exact ⟨[orOperator, andOperator, equalityOperator], _, _, rfl, by decide, by decide⟩
  | add | subtract =>
    exact ⟨[orOperator, andOperator, equalityOperator, comparisonOperator], _, _, rfl, by decide, by decide⟩
  | multiply | divide =>
    exact ⟨[orOperator, andOperator, equalityOperator, comparisonOperator, sumOperator], _, _, rfl, by decide, by decide⟩

/-! ## Chains of operators -/

section

variable {operator : Lexeme → Option BinaryOp} {operand inner : Parser Expr} {R : Expr → Prop} {c m d : Cursor}

/-- The step of `chain`. -/
def chainStep (operator : Lexeme → Option BinaryOp) (operand : Parser Expr) (left : Expr) :
    Parser (Option Expr) := do
  let t ← peek
  match operator t.toLexeme with
  | some op => do
    let _ ← advance
    let right ← operand
    return some (.binary op left right t.position)
  | none => return none

theorem chain_eq (operator : Lexeme → Option BinaryOp) (operand : Parser Expr) :
    chain operator operand = operand >>= iterate (chainStep operator operand) := rfl

theorem chainStep_none {left : Expr} (hd : operator d.peek.toLexeme = none) :
    chainStep operator operand left d = .ok none d := by
  unfold chainStep
  rw [peek_bind, hd]
  rfl

theorem chain_single (h : operand.Reads R c d) (hd : operator d.peek.toLexeme = none) :
    (chain operator operand).Reads R c d := by
  rw [chain_eq]
  refine .bind h fun e he => ?_
  have hloop : Loops (chainStep operator operand) ParseError.Deep (fun f d' => R f ∧ d' = d) e d :=
    .stop (chainStep_none hd) ⟨he, rfl⟩
  exact hloop.iterate

theorem chain_pair {op : BinaryOp} {left right : Expr} {p : Position} (hleft : operand.Reads (·.Alike left) c m)
    (hop : operator m.peek.toLexeme = some op) (hright : operand.Reads (·.Alike right) m.next d)
    (hlt : d.rest.length < m.rest.length) (hd : operator d.peek.toLexeme = none) :
    (chain operator operand).Reads (·.Alike (.binary op left right p)) c d := by
  rw [chain_eq]
  refine .bind hleft fun e he => ?_
  have hstep : (chainStep operator operand e).Reads
      (fun o => ∃ f, f.Alike (.binary op left right p) ∧ o = some f) m d := by
    refine .bind .peek ?_
    rintro _ rfl
    rw [hop]
    refine .bind .advance fun _ _ => .bind hright fun f hf => .pure ⟨_, ?_, rfl⟩
    show Expr.relocate .erase _ = Expr.relocate .erase _
    simp only [Expr.relocate, show Expr.relocate .erase e = _ from he, show Expr.relocate .erase f = _ from hf]
    rfl
  have hloop : Loops (chainStep operator operand) ParseError.Deep
      (fun f d' => f.Alike (.binary op left right p) ∧ d' = d) e m :=
    .of_reads hstep hlt fun f hf => .stop (chainStep_none hd) ⟨hf, rfl⟩
  exact hloop.iterate

theorem chains_single {operators : List (Lexeme → Option BinaryOp)} (h : operand.Reads R c d)
    (hd : ∀ f ∈ operators, f d.peek.toLexeme = none) : (operators.foldr chain operand).Reads R c d := by
  induction operators with
  | nil => exact h
  | cons f operators ih =>
    obtain ⟨hf, hrest⟩ := List.forall_mem_cons.1 hd
    exact chain_single (ih hrest) hf

/-- Two operands with an operator between them: tighter ranks see one operand at a time, looser ranks see
the whole as one. -/
theorem binary_pair {op : BinaryOp} {left right : Expr} {p : Position} (hleft : operand.Reads (·.Alike left) c m)
    (hop : m.peek.toLexeme = op.lexeme) (hright : operand.Reads (·.Alike right) m.next d)
    (hlt : d.rest.length < m.rest.length) (hd : ∀ f ∈ ranks, f d.peek.toLexeme = none) :
    (binary operand).Reads (·.Alike (.binary op left right p)) c d := by
  obtain ⟨looser, f, tighter, hranks, hf, htighter⟩ := ranks_split op
  rw [hranks] at hd
  obtain ⟨hlooser, hrest⟩ := List.forall_mem_append.1 hd
  obtain ⟨hfd, htighterd⟩ := List.forall_mem_cons.1 hrest
  rw [← hop] at hf htighter
  -- from the outside in: looser ranks, the operator's own rank, tighter ranks around each operand
  rw [binary_eq, hranks, List.foldr_append]
  exact chains_single (chain_pair (chains_single hleft htighter) hf (chains_single hright htighterd) hlt hfd) hlooser

/-! ## Assignments -/

theorem assignment_target {target : Parser Expr} (h : target.Reads R c d) (hd : d.peek.kind ≠ .symbol .assign) :
    (assignment target inner).Reads R c d := by
  refine .bind h fun e he => .bind .peek ?_
  rintro _ rfl
  rw [if_neg hd]
  exact .pure he

theorem identifier_of_alike {e : Expr} {name : String} {p : Position} (h : e.Alike (.identifier name p)) :
    ∃ q, e = .identifier name q := by
  cases e <;> cases h
  exact ⟨_, rfl⟩

theorem assignment_pair {target : Parser Expr} {name : String} {value : Expr} {p q : Position}
    (htarget : target.Reads (·.Alike (.identifier name q)) c m) (hm : m.peek.kind = .symbol .assign)
    (hvalue : inner.Reads (·.Alike value) m.next d) :
    (assignment target inner).Reads (·.Alike (.assign name value p)) c d := by
  refine .bind htarget fun e he => .bind .peek ?_
  rintro _ rfl
  rw [if_pos hm]
  refine .bind .advance fun _ _ => .bind hvalue fun v hv => ?_
  obtain ⟨_, rfl⟩ := identifier_of_alike he
  refine .pure ?_
  show Expr.relocate .erase _ = Expr.relocate .erase _
  simp only [Expr.relocate, show Expr.relocate .erase v = _ from hv]
  rfl

end

/-- What any expression reads that has a level left; the other ones refuse. -/
theorem expression_reads {R : Expr → Prop} {c d : Cursor} {levels : Nat}
    (h : ∀ levels, (binary (unary (operand levels) (expression levels))).Reads R c d) (hd : endsExpr d.peek.kind) :
    (expression levels).Reads R c d := by
  cases levels with
  | zero => exact .tooDeep .expression
  | succ levels => exact assignment_target (h levels) (ne_of_endsExpr hd rfl)

/-! ## Calls and indexings -/

/-- The step of `postfixed`. -/
def postfixStep (inner : Parser Expr) (e : Expr) : Parser (Option Expr) := do
  let t ← peek
  if t.kind = .symbol .leftParen then
    let _ ← advance
    let args ← arguments inner "')' after arguments"
    return some (← callOf e args t)
  else if t.kind = .symbol .leftBracket then
    let _ ← advance
    let i ← inner
    let _ ← expect (.symbol .rightBracket) "']' after index"
    return some (.index e i e.position)
  else return none

theorem postfixed_eq (inner : Parser Expr) : postfixed inner = primary inner >>= iterate (postfixStep inner) := rfl

theorem primary_atom {inner : Parser Expr} {a : Expr} {c : Cursor} (h : atom? c.peek = .ok a) :
    primary inner c = .ok a c.next := by
  have hparen : c.peek.kind ≠ .symbol .leftParen := by
    intro hk
    unfold atom? at h
    rw [hk] at h
    cases h
  unfold primary
  rw [Reading.liftM_self, peek_bind, if_neg hparen, h]
  rfl

/-- Calls and indexings go on from `c` until exactly `d`, with a result that satisfies `R`. -/
def Continues (inner : Parser Expr) (R : Expr → Prop) (d : Cursor) (e : Expr) (c : Cursor) : Prop :=
  Loops (postfixStep inner) ParseError.Deep (fun f d' => R f ∧ d' = d) e c

theorem postfixStep_none {inner : Parser Expr} {e : Expr} {d : Cursor} (hcall : d.peek.kind ≠ .symbol .leftParen)
    (hindex : d.peek.kind ≠ .symbol .leftBracket) : postfixStep inner e d = .ok none d := by
  unfold postfixStep
  rw [peek_bind, if_neg hcall, if_neg hindex]
  rfl

theorem continues_stop {inner : Parser Expr} {R : Expr → Prop} {e : Expr} {d : Cursor} (he : R e)
    (hcall : d.peek.kind ≠ .symbol .leftParen) (hindex : d.peek.kind ≠ .symbol .leftBracket) :
    Continues inner R d e d :=
  .stop (postfixStep_none hcall hindex) ⟨he, rfl⟩

/-- These lexemes are read as the expression wherever a smallest expression is expected. What is behind
them may be another call or indexing, so the reading is followed to its end. -/
structure ReadsAs (ls : List Lexeme) (e : Expr) : Prop where
  begins : ∀ {c d}, Cursor.Row ls c d → beginsExpr c.peek.kind ∧ unaryOperator c.peek.toLexeme = none
  postfixed : ∀ {levels c m d R}, Cursor.Row ls c m → (∀ a, a.Alike e → Continues (expression levels) R d a m) →
    (postfixed (expression levels)).Reads R c d

/-- These lexemes are read as the expression where any expression is expected and ends behind them. -/
def ReadsInside (ls : List Lexeme) (e : Expr) : Prop :=
  ∀ ⦃levels c d⦄, Cursor.Row ls c d → endsExpr d.peek.kind → (expression levels).Reads (·.Alike e) c d

section

variable {ls ms : List Lexeme} {e : Expr} {p : Position} {c d : Cursor} {levels : Nat}

theorem ReadsAs.unary {operand : Parser Expr} (h : ReadsAs ls e) (hrow : Cursor.Row ls c d)
    (hcall : d.peek.kind ≠ .symbol .leftParen) (hindex : d.peek.kind ≠ .symbol .leftBracket) :
    (unary operand (expression levels)).Reads (·.Alike e) c d := by
  refine .bind .peek ?_
  rintro _ rfl
  rw [(h.begins hrow).2]
  exact h.postfixed hrow fun a ha => continues_stop ha hcall hindex

theorem ReadsAs.inside (h : ReadsAs ls e) : ReadsInside ls e := by
  intro levels c d hrow hd
  refine expression_reads (fun levels => ?_) hd
  rw [binary_eq]
  exact chains_single (h.unary hrow (ne_of_endsExpr hd rfl) (ne_of_endsExpr hd rfl)) (ranks_none (.inl hd))

/-- A token that stands for an expression by itself. -/
theorem ReadsAs.atom {l : Lexeme} (hatom : ∀ p, ∃ a, atom? ⟨l, p⟩ = .ok a ∧ a.Alike e) (hunary : unaryOperator l = none) :
    ReadsAs [l] e := by
  have hpeek : ∀ {c d}, Cursor.Row [l] c d → ∃ a, atom? c.peek = .ok a ∧ a.Alike e ∧ c.peek.toLexeme = l := by
    intro c d hrow
    obtain ⟨hl, -, -⟩ := hrow.cons
    obtain ⟨a, ha, hae⟩ := hatom c.peek.position
    rw [← hl] at ha
    exact ⟨a, ha, hae, hl⟩
  constructor
  · intro c d hrow
    obtain ⟨a, ha, -, hl⟩ := hpeek hrow
    exact ⟨beginsExpr_of_atom ha, by rw [hl, hunary]⟩
  · intro levels c m d R hrow hgo
    obtain ⟨a, ha, hae, -⟩ := hpeek hrow
    obtain ⟨-, hnext, -⟩ := hrow.cons
    obtain rfl := hnext.nil
    rw [postfixed_eq]
    unfold Reads
    rw [bind_ok (primary_atom ha)]
    exact (hgo a hae).iterate

/-- Any expression can stand in parentheses. -/
theorem ReadsInside.parens (h : ReadsInside ls e) : ReadsAs (.symbol .leftParen :: (ls ++ [.symbol .rightParen])) e := by
  constructor
  · intro c d hrow
    obtain ⟨hl, -, -⟩ := hrow.cons
    rw [hl]
    exact ⟨rfl, rfl⟩
  · intro levels c m d R hrow hgo
    obtain ⟨hopen, hrow, -⟩ := hrow.cons_symbol
    obtain ⟨k, hinner, hclose⟩ := hrow.append
    obtain ⟨hk, hnext, -⟩ := hclose.cons_symbol
    obtain rfl := hnext.nil
    -- the closing parenthesis ends the inner expression whatever is behind it
    have hprimary : (primary (expression levels)).Reads (·.Alike e) c k.next := by
      refine .bind .peek ?_
      rintro _ rfl
      rw [if_pos hopen]
      refine .bind .advance fun _ _ => .bind (h hinner (by rw [hk]; rfl)) fun a ha => ?_
      exact .bind (.expect hk) fun _ _ => .pure ha
    rw [postfixed_eq]
    exact .bind hprimary fun a ha => (hgo a ha).iterate

/-! ## One rule for each kind of expression -/

theorem ReadsAs.name {name : String} (h : IsName name) : ReadsAs [.word name] (.identifier name p) :=
  .atom (fun q => ⟨_, h.atom q, rfl⟩) h.unary

theorem ReadsInside.assign {name : String} (hname : IsName name) (h : ReadsInside ls e) :
    ReadsInside (.word name :: .symbol .assign :: ls) (.assign name e p) := by
  intro levels c d hrow hd
  obtain ⟨m, htarget, hrow⟩ := hrow.uncons
  obtain ⟨hm, hvalue, -⟩ := hrow.cons_symbol
  cases levels with
  | zero => exact .tooDeep .expression
  | succ levels =>
    have hleft : (Parse.unary (operand levels) (expression levels)).Reads (·.Alike (.identifier name p)) c m :=
      (ReadsAs.name hname).unary htarget (by rw [hm]; nofun) (by rw [hm]; nofun)
    -- the name is a target of its own: an equals sign is an operator of no rank
    refine assignment_pair (q := p) ?_ hm (h hvalue hd)
    rw [binary_eq]
    exact chains_single hleft (ranks_none (.inr hm))

theorem binaryLexeme_kind (op : BinaryOp) :
    op.lexeme.kind ≠ .symbol .leftParen ∧ op.lexeme.kind ≠ .symbol .leftBracket := by
  cases op <;> decide

theorem ReadsInside.binary {op : BinaryOp} {f : Expr} (he : ReadsAs ls e) (hf : ReadsAs ms f) :
    ReadsInside (ls ++ op.lexeme :: ms) (.binary op e f p) := by
  intro levels c d hrow hd
  obtain ⟨m, hleft, hrow⟩ := hrow.append
  obtain ⟨hm, hright, hlt⟩ := hrow.cons
  have hkind : m.peek.kind = op.lexeme.kind := congrArg Lexeme.kind hm
  obtain ⟨hcall, hindex⟩ := binaryLexeme_kind op
  refine expression_reads (fun levels => ?_) hd
  refine binary_pair (he.unary hleft ?_ ?_) hm (hf.unary hright (ne_of_endsExpr hd rfl) (ne_of_endsExpr hd rfl))
    (hright.length_le.trans_lt hlt) (ranks_none (.inl hd))
  · rw [hkind]
    exact hcall
  · rw [hkind]
    exact hindex

theorem unaryOperator_lexeme (op : UnaryOp) : unaryOperator op.lexeme = some op := by
  cases op <;> decide

theorem ReadsInside.unary {op : UnaryOp} (h : ReadsAs ls e) : ReadsInside (op.lexeme :: ls) (.unary op e p) := by
  intro levels c d hrow hd
  obtain ⟨hop, hrow, -⟩ := hrow.cons
  refine expression_reads (fun levels => ?_) hd
  have hoperand : (operand levels).Reads (·.Alike e) c.next d := by
    cases levels with
    | zero => exact .tooDeep .expression
    | succ levels => exact h.unary hrow (ne_of_endsExpr hd rfl) (ne_of_endsExpr hd rfl)
  have hread : (Parse.unary (operand levels) (expression levels)).Reads (·.Alike (.unary op e p)) c d := by
    refine .bind .peek ?_
    rintro _ rfl
    rw [hop, unaryOperator_lexeme]
    refine .bind .advance fun _ _ => .bind hoperand fun a ha => .pure ?_
    show Expr.relocate .erase _ = Expr.relocate .erase _
    simp only [Expr.relocate, show Expr.relocate .erase a = _ from ha]
    rfl
  rw [binary_eq]
  exact chains_single hread (ranks_none (.inl hd))

theorem ReadsAs.index {i : Expr} (he : ReadsAs ls e) (hi : ReadsInside ms i) :
    ReadsAs (ls ++ .symbol .leftBracket :: (ms ++ [.symbol .rightBracket])) (.index e i p) := by
  constructor
  · intro c d hrow
    obtain ⟨m, hrow, -⟩ := hrow.append
    exact he.begins hrow
  · intro levels c m d R hrow hgo
    obtain ⟨k, htarget, hrest⟩ := hrow.append
    obtain ⟨hopen, hrest, hlt⟩ := hrest.cons_symbol
    obtain ⟨j, hinner, hclose⟩ := hrest.append
    obtain ⟨hj, hnext, hlt'⟩ := hclose.cons_symbol
    obtain rfl := hnext.nil
    have hshorter : j.next.rest.length < k.rest.length := hlt'.trans (hinner.length_le.trans_lt hlt)
    -- the target is read first, then one step reads the index, then the rest goes on as it would
    refine he.postfixed htarget fun a ha => ?_
    have hstep : (postfixStep (expression levels) a).Reads (fun o => ∃ b, b.Alike (.index e i p) ∧ o = some b) k j.next := by
      refine .bind .peek ?_
      rintro _ rfl
      rw [if_neg (by rw [hopen]; nofun), if_pos hopen]
      refine .bind .advance fun _ _ => .bind (hi hinner (by rw [hj]; rfl)) fun f hf => .bind (.expect hj) fun _ _ =>
        .pure ⟨_, ?_, rfl⟩
      show Expr.relocate .erase _ = Expr.relocate .erase _
      simp only [Expr.relocate, show Expr.relocate .erase a = _ from ha, show Expr.relocate .erase f = _ from hf]
      rfl
    exact .of_reads hstep hshorter hgo

theorem lexemesList_eq (es : List Expr) : Expr.lexemesList es = separated (es.map Expr.lexemes) := by
  induction es with
  | nil => rfl
  | cons e es ih =>
    cases es with
    | nil => rfl
    | cons f es => exact congrArg (e.lexemes ++ .symbol .comma :: ·) ih

/-- The arguments of a call with their closing parenthesis. -/
theorem arguments_reads {es : List Expr} (h : ∀ e ∈ es, ReadsAs e.lexemes e) {what : String}
    (hrow : Cursor.Row (Expr.lexemesList es ++ [.symbol .rightParen]) c d) :
    (arguments (expression levels) what).Reads (fun fs => List.Forall₂ Expr.Alike fs es) c d := by
  rw [lexemesList_eq] at hrow
  obtain ⟨m, hitems, hclose⟩ := hrow.append
  obtain ⟨hm, hnext, -⟩ := hclose.cons_symbol
  obtain rfl := hnext.nil
  have hend : ∀ fs, List.Forall₂ Expr.Alike fs es → Reads
      (do let _ ← expect (.symbol .rightParen) what; return fs) (fun fs => List.Forall₂ Expr.Alike fs es) m m.next :=
    fun fs hfs => .bind (.expect hm) fun _ _ => .pure hfs
  refine .bind (.check _) ?_
  rintro _ rfl
  -- the parser looks for the parenthesis first, and no argument begins with one that closes
  cases es with
  | nil =>
    obtain rfl := hitems.nil
    rw [if_pos (by rw [hm]; rfl)]
    exact .bind (.pure .nil) hend
  | cons e es =>
    have hne : c.peek.kind ≠ .symbol .rightParen := by
      rw [separated_cons] at hitems
      obtain ⟨k, hfirst, -⟩ := hitems.append
      exact ne_of_beginsExpr ((h e List.mem_cons_self).begins hfirst).1 rfl
    rw [if_neg (by simpa using hne)]
    have hitem : ∀ f ∈ e :: es, ∀ c d, Cursor.Row f.lexemes c d → endsItem d.peek.kind →
        (expression levels).Reads (·.Alike f) c d := by
      intro f hf c d hrow hends
      refine (h f hf).inside hrow ?_
      rcases hends with hk | hk
      · rw [hk]; rfl
      · rw [hk]; rfl
    exact .bind (.commaSeparated hitem (List.cons_ne_nil e es) hitems hm) hend

theorem ReadsAs.call {callee : String} {es : List Expr} (hcallee : IsName callee) (hes : ∀ e ∈ es, ReadsAs e.lexemes e) :
    ReadsAs (.word callee :: .symbol .leftParen :: (Expr.lexemesList es ++ [.symbol .rightParen])) (.call callee es p) := by
  have hname : ReadsAs [.word callee] (.identifier callee p) := .name hcallee
  constructor
  · intro c d hrow
    obtain ⟨m, hrow, -⟩ := hrow.uncons
    exact hname.begins hrow
  · intro levels c m d R hrow hgo
    obtain ⟨k, hrow, hrest⟩ := hrow.uncons
    obtain ⟨hopen, hargs, hlt⟩ := hrest.cons_symbol
    refine hname.postfixed hrow fun a ha => ?_
    obtain ⟨q, rfl⟩ := identifier_of_alike ha
    have hstep : (postfixStep (expression levels) (.identifier callee q)).Reads
        (fun o => ∃ b, b.Alike (.call callee es p) ∧ o = some b) k m := by
      refine .bind .peek ?_
      rintro _ rfl
      rw [if_pos hopen]
      refine .bind .advance fun _ _ => .bind (arguments_reads hes hargs) fun fs hfs => ?_
      refine .bind (R := (·.Alike (.call callee es p))) (.pure ?_) fun b hb => .pure ⟨b, hb, rfl⟩
      show Expr.relocate .erase _ = Expr.relocate .erase _
      simp only [Expr.relocate, Expr.relocateAll_of_alike hfs]
      rfl
    exact .of_reads hstep (hargs.length_le.trans_lt hlt) hgo

end

/-! ## All expressions -/

theorem boolean_atom (b : Bool) (p : Position) :
    atom? ⟨.word (if b then "true" else "false"), p⟩ = .ok (.boolean b p) := by
  have hword : Lexeme.word (if b then "true" else "false") = ⟨.identifier, if b then "true" else "false"⟩ := by
    cases b <;> decide
  have htrue : Lexeme.isWord ⟨.identifier, if b then "true" else "false"⟩ "true" = b := by cases b <;> decide
  have hfalse : Lexeme.isWord ⟨.identifier, if b then "true" else "false"⟩ "false" = !b := by cases b <;> decide
  rw [hword]
  simp only [atom?, htrue, hfalse]
  cases b <;> rfl

mutual

theorem readsAs_lexemes : ∀ e : Expr, (∀ l ∈ e.leaves, l.Legible) → ReadsAs e.lexemes e
  | .number x p, h => by
    refine .atom (fun q => ⟨.number x q, ?_, rfl⟩) rfl
    simp only [atom?]
    rw [(h (.number x) List.mem_cons_self).2 x rfl]
  | .string s p, _ => .atom (fun q => ⟨_, rfl, rfl⟩) rfl
  | .boolean b p, _ => by
    refine .atom (fun q => ⟨_, boolean_atom b q, rfl⟩) ?_
    cases b <;> decide
  | .identifier name p, h => .name (h (.name name) List.mem_cons_self).1
  | .assign name value p, h => by
    obtain ⟨hname, hvalue⟩ := List.forall_mem_cons.1 h
    exact (ReadsInside.assign hname.1 (readsAs_lexemes value hvalue).inside).parens
  | .binary op left right p, h => by
    obtain ⟨hleft, hright⟩ := List.forall_mem_append.1 h
    have hinside : ReadsInside (left.lexemes ++ op.lexeme :: right.lexemes) (.binary op left right p) :=
      .binary (readsAs_lexemes left hleft) (readsAs_lexemes right hright)
    have hparens := hinside.parens
    rw [List.append_assoc] at hparens
    exact hparens
  | .unary op operand p, h => (ReadsInside.unary (readsAs_lexemes operand h)).parens
  | .call callee args p, h => by
    obtain ⟨hcallee, hargs⟩ := List.forall_mem_cons.1 h
    exact .call hcallee.1 (readsAs_all args hargs)
  | .index target i p, h => by
    obtain ⟨htarget, hi⟩ := List.forall_mem_append.1 h
    exact (readsAs_lexemes target htarget).index (readsAs_lexemes i hi).inside

theorem readsAs_all : ∀ es : List Expr, (∀ l ∈ Expr.leavesAll es, l.Legible) → ∀ e ∈ es, ReadsAs e.lexemes e
  | [], _ => nofun
  | e :: es, h => by
    obtain ⟨he, hes⟩ := List.forall_mem_append.1 h
    exact List.forall_mem_cons.2 ⟨readsAs_lexemes e he, readsAs_all es hes⟩

end

end Parse

end StrategyScript
