/-
What the parsers of statements pass over. A statement has the signs of all its tokens, in their order,
and no statement is read from nothing; braces, parentheses, commas and ends of statements leave no
signs. The newlines behind a branch without an `else` are given back, and are passed over by what
comes next.
-/
import StrategyScript.Proofs.Parse.WalkExpr
import StrategyScript.Proofs.Parse.ReadStmt

namespace StrategyScript

/-- The tokens from which a statement has been read: they have its signs, and there is one at least. -/
def Stmt.ReadFrom (s : Stmt) (ts : List Token) : Prop := ts ≠ [] ∧ Sign.Tell s.signs ts

namespace Parse

open StrategyScript.Parser

/-! ## Ends of statements -/

theorem isPunctuation_of_isTerminator {k : TokenKind} (h : isTerminator k) : k.isPunctuation := by
  unfold isTerminator at h
  rw [Bool.or_eq_true] at h
  rcases h with h | h
  · rw [eq_of_beq h]
    rfl
  · rw [eq_of_beq h]
    rfl

theorem skipTerminators_keeps : skipTerminators.Keeps fun _ => [] :=
  .skip fun _ => isPunctuation_of_isTerminator

theorem skipNewlines_keeps : skipNewlines.Keeps fun _ => [] := by
  refine .skip ?_
  intro k hk
  rw [eq_of_beq hk]
  rfl

theorem statementEnd_keeps : statementEnd.Keeps fun _ => [] := by
  intro c
  unfold statementEnd
  refine .peek ?_
  split
  · exact skipTerminators_keeps c
  · refine Walks.failHere ?_ c
    intro l
    exact rfl

/-! ## Statements one after another -/

section

variable {expression : Parser Expr} {statement : Parser Stmt}

theorem nextStatement_adds {ends : TokenKind → Prop} [DecidablePred ends] (h : statement.Walks Stmt.ReadFrom) :
    Adds (fun ss => ss.reverse.flatMap Stmt.signs) (nextStatement ends statement) := by
  intro ss c
  unfold nextStatement
  refine .keep (.refl c) .nil skipTerminators_keeps ?_
  intro _ ts d hd htell
  refine .peek ?_
  dsimp only
  split
  · exact .done hd htell
  · refine .step hd h ?_
    rintro s us e ⟨hne, hs⟩ he
    refine .done he ⟨?_, s.signs, ?_, htell.append hs⟩
    · intro hnil
      exact hne (List.append_eq_nil_iff.1 hnil).2
    · simp

theorem blockBody_keeps (h : statement.Walks Stmt.ReadFrom) : (blockBody statement).Keeps Stmt.signsAll := by
  intro c
  rw [blockBody_eq]
  refine .step (.refl c) ((nextStatement_adds h).iterate []) ?_
  rintro ss ts d ⟨more, hss, hmore⟩ hd
  refine .close hd hmore rfl ?_
  intro us htell
  rw [Stmt.signsAll_eq, hss]
  exact htell

/-! ## Parts of statements -/

theorem body_keeps (h : statement.Walks Stmt.ReadFrom) : (body statement).Keeps Stmt.signs := by
  intro c
  unfold body
  refine .keep (.refl c) .nil skipNewlines_keeps ?_
  intro _ ts d hd htell
  refine Parsed.Walked.extend (h d) hd ?_
  rintro s us ⟨-, hs⟩
  exact htell.append hs

theorem declaration_keeps (h : expression.Keeps Expr.signs) :
    (declaration expression).Keeps fun d => Sign.declaration d.1 d.2 := by
  intro c
  unfold declaration
  refine .keep (.refl c) .nil .expect_name ?_
  intro name ts d hd htell
  refine .step hd (.accept nofun) ?_
  intro b us e hb he
  cases b with
  | false =>
    simp only [Bool.false_eq_true, if_false] at hb ⊢
    subst hb
    refine .done he ?_
    simpa [Sign.declaration] using htell
  | true =>
    obtain ⟨t, rfl, ht⟩ := hb
    have hassign : Sign.Tell [.assign] [t] := .assign ht
    refine .keep he (htell.append hassign) h ?_
    intro value vs e he htell
    refine .done he ?_
    simpa [Sign.declaration] using htell

theorem condition_keeps (h : expression.Keeps Expr.signs) (before after : String) :
    (condition expression before after).Keeps Expr.signs := by
  intro c
  unfold condition
  refine .keep (.refl c) .nil (.expect_mark rfl) ?_
  intro _ ts d hd htell
  refine .keep hd htell h ?_
  intro e us d hd htell
  exact .close hd htell rfl fun _ htold => htold

/-- The signs of the `else` of a branch. -/
def elseSigns : Option Stmt → List Sign
  | none => []
  | some s => .keyword .elseWord :: s.signs

theorem signs_branch (e : Expr) (s : Stmt) (o : Option Stmt) :
    (Stmt.branch e s o).signs = .keyword .ifWord :: (e.signs ++ (s.signs ++ elseSigns o)) := by
  cases o with
  | none => simp [Stmt.signs, elseSigns]
  | some t => rw [Stmt.signs, elseSigns]

theorem elseBranch_keeps (h : statement.Walks Stmt.ReadFrom) : (elseBranch statement).Keeps elseSigns := by
  intro c
  rw [elseBranch_eq]
  split
  · rename_i helse
    obtain ⟨ts, hd, htell⟩ := skipNewlines_keeps c
    have hkept : (c.skip (· == .newline)).peek.KeptAs (.keyword .elseWord) := helse
    refine .keep (hd.trans (.next hkept.kind.2)) (htell.append (.single hkept)) (body_keeps h) ?_
    intro s us e he htell
    exact .done he htell
  · -- nothing is passed over: the newlines are given back
    exact ⟨[], .refl c, .nil⟩

/-- The first clause of a `for` loop. -/
theorem loopStart_keeps (h : expression.Keeps Expr.signs) : (loopStart expression).Keeps LoopStart.signsIn := by
  have hclose : ∀ (start : LoopStart) (c d : Cursor) (ts : List Token), c.Passes ts d → Sign.Tell start.signs ts →
      ((do
        let _ ← expect (.symbol .semicolon) "';' after loop initializer"
        return some start : Parser (Option LoopStart)) d).Walked c fun o ts => Sign.Tell (LoopStart.signsIn o) ts := by
    intro start c d ts hd htell
    exact .close hd htell rfl fun _ htold => htold
  intro c
  unfold loopStart
  refine .step (.refl c) (.accept nofun) ?_
  intro b ts d hb hd
  cases b with
  | true =>
    obtain ⟨t, rfl, ht⟩ := hb
    exact .done hd (mark_of_kind ht rfl).2
  | false =>
    simp only [Bool.false_eq_true, if_false] at hb ⊢
    subst hb
    refine .step hd (.accept nofun) ?_
    intro b us e hb he
    cases b with
    | true =>
      obtain ⟨t, rfl, ht⟩ := hb
      have hvar : Sign.Tell [.keyword .varWord] [t] := .keyword ht
      refine .keep he hvar (declaration_keeps h) ?_
      rintro ⟨name, value⟩ vs e he htell
      exact hclose (.var name value) c e _ he htell
    | false =>
      simp only [Bool.false_eq_true, if_false] at hb ⊢
      subst hb
      refine .keep he .nil h ?_
      intro value vs e he htell
      exact hclose (.expr value) c e _ he htell

theorem loopClause_keeps (h : expression.Keeps Expr.signs) {ending : Symbol} (hending : (TokenKind.symbol ending).isPunctuation)
    (what : String) : (loopClause expression ending what).Keeps Expr.signsIn := by
  have hclose : ∀ (o : Option Expr) (c d : Cursor) (ts : List Token), c.Passes ts d → Sign.Tell (Expr.signsIn o) ts →
      ((do let _ ← expect (.symbol ending) what; return o : Parser (Option Expr)) d).Walked c
        fun o ts => Sign.Tell (Expr.signsIn o) ts := by
    intro o c d ts hd htell
    exact .close hd htell hending fun _ htold => htold
  intro c
  unfold loopClause
  refine .step (.refl c) (.check _) ?_
  rintro b _ d rfl hd
  split
  · exact hclose none c d _ hd .nil
  · refine .keep hd .nil h ?_
    intro e us d hd htell
    exact hclose (some e) c d _ hd htell

/-! ## Kinds of statements, each behind its keyword -/

section

variable {c d : Cursor} {t : Token}

theorem functionStatement_walks (h : statement.Walks Stmt.ReadFrom) (hd : c.Passes [t] d)
    (ht : t.kind = .keyword .functionWord) : (functionStatement statement d).Walked c Stmt.ReadFrom := by
  have hend : ∀ (name : Token) (params : List Token) (d : Cursor) (ts : List Token), c.Passes ts d → ts ≠ [] →
      Sign.Tell (.keyword .functionWord :: .declared name.text :: params.map (.declared ·.text)) ts →
      ((do
        let _ ← expect (.symbol .rightParen) "')' after parameters"
        skipNewlines
        let _ ← expect (.symbol .leftBrace) "'\x7b' before function body"
        let statements ← blockBody statement
        return .function name.text (params.map (·.text)) statements : Parser Stmt) d).Walked c Stmt.ReadFrom := by
    intro name params d ts hd hne htell
    refine .keep hd htell (.expect_mark rfl) ?_
    intro _ us d hd htell
    refine .keep hd htell skipNewlines_keeps ?_
    intro _ vs d hd htell
    refine .keep hd htell (.expect_mark rfl) ?_
    intro _ ws d hd htell
    refine .keep hd htell (blockBody_keeps h) ?_
    intro ss xs d hd htell
    refine .done hd ⟨by simp [hne], ?_⟩
    simpa [Stmt.signs, Function.comp_def] using htell
  have hkeyword : Sign.Tell [.keyword .functionWord] [t] := .keyword ht
  unfold functionStatement
  refine .keep hd hkeyword .expect_name ?_
  intro name us d hd htell
  refine .keep hd htell (.expect_mark rfl) ?_
  intro _ vs d hd htell
  refine .step hd (.check _) ?_
  rintro b _ d rfl hd
  split
  · refine hend name [] d _ hd (by simp) ?_
    simpa using htell
  · refine .keep hd (by simpa using htell) (commaSeparated_keeps .expect_name) ?_
    intro params ws d hd htell
    refine hend name params d _ hd (by simp) ?_
    simpa [← List.map_eq_flatMap] using htell

theorem varStatement_walks (h : expression.Keeps Expr.signs) (hd : c.Passes [t] d) (ht : t.kind = .keyword .varWord) :
    (varStatement expression d).Walked c Stmt.ReadFrom := by
  have hkeyword : Sign.Tell [.keyword .varWord] [t] := .keyword ht
  unfold varStatement
  refine .keep hd hkeyword (declaration_keeps h) ?_
  rintro ⟨name, value⟩ us d hd htell
  refine .keep hd htell statementEnd_keeps ?_
  intro _ vs d hd htell
  refine .done hd ⟨by simp, ?_⟩
  simpa [Stmt.signs] using htell

theorem ifStatement_walks (he : expression.Keeps Expr.signs) (hs : statement.Walks Stmt.ReadFrom) (hd : c.Passes [t] d)
    (ht : t.kind = .keyword .ifWord) : (ifStatement expression statement d).Walked c Stmt.ReadFrom := by
  have hkeyword : Sign.Tell [.keyword .ifWord] [t] := .keyword ht
  unfold ifStatement
  refine .keep hd hkeyword (condition_keeps he _ _) ?_
  intro e us d hd htell
  refine .keep hd htell (body_keeps hs) ?_
  intro s vs d hd htell
  refine .keep hd htell (elseBranch_keeps hs) ?_
  intro o ws d hd htell
  refine .done hd ⟨by simp, ?_⟩
  rw [signs_branch]
  simpa using htell

theorem whileStatement_walks (he : expression.Keeps Expr.signs) (hs : statement.Walks Stmt.ReadFrom)
    (hd : c.Passes [t] d) (ht : t.kind = .keyword .whileWord) :
    (whileStatement expression statement d).Walked c Stmt.ReadFrom := by
  have hkeyword : Sign.Tell [.keyword .whileWord] [t] := .keyword ht
  unfold whileStatement
  refine .keep hd hkeyword (condition_keeps he _ _) ?_
  intro e us d hd htell
  refine .keep hd htell (body_keeps hs) ?_
  intro s vs d hd htell
  refine .done hd ⟨by simp, ?_⟩
  simpa [Stmt.signs] using htell

theorem forStatement_walks (he : expression.Keeps Expr.signs) (hs : statement.Walks Stmt.ReadFrom) (hd : c.Passes [t] d)
    (ht : t.kind = .keyword .forWord) : (forStatement expression statement d).Walked c Stmt.ReadFrom := by
  have hkeyword : Sign.Tell [.keyword .forWord] [t] := .keyword ht
  unfold forStatement
  refine .keep hd hkeyword (.expect_mark rfl) ?_
  intro _ us d hd htell
  refine .keep hd htell (loopStart_keeps he) ?_
  intro start vs d hd htell
  refine .keep hd htell (loopClause_keeps he rfl _) ?_
  intro e ws d hd htell
  refine .keep hd htell (loopClause_keeps he rfl _) ?_
  intro increment xs d hd htell
  refine .keep hd htell (body_keeps hs) ?_
  intro s ys d hd htell
  refine .done hd ⟨by simp, ?_⟩
  simpa [Stmt.signs] using htell

theorem returnStatement_walks (h : expression.Keeps Expr.signs) (hd : c.Passes [t] d)
    (ht : t.kind = .keyword .returnWord) : (returnStatement expression t d).Walked c Stmt.ReadFrom := by
  have hend : ∀ (o : Option Expr) (d : Cursor) (ts : List Token), c.Passes ts d → ts ≠ [] →
      Sign.Tell (.keyword .returnWord :: Expr.signsIn o) ts →
      ((do statementEnd; return .ret o t.position.line : Parser Stmt) d).Walked c Stmt.ReadFrom := by
    intro o d ts hd hne htell
    refine .keep hd htell statementEnd_keeps ?_
    intro _ us d hd htell
    refine .done hd ⟨by simp [hne], ?_⟩
    simpa [Stmt.signs] using htell
  have hkeyword : Sign.Tell [.keyword .returnWord] [t] := .keyword ht
  unfold returnStatement
  refine .peek ?_
  split
  · exact hend none d _ hd (by simp) hkeyword
  · refine .keep hd hkeyword h ?_
    intro e us d hd htell
    exact hend (some e) d _ hd (by simp) htell

theorem tradeArgumentComplaint_concerns {args : List Expr} {complaint : Complaint} {action : TradeAction} {l : Lexeme}
    (h : tradeArgumentComplaint? args = some complaint) (hl : l.kind = .keyword (.trade action)) :
    complaint.Concerns l := by
  unfold tradeArgumentComplaint? at h
  dsimp only at h
  split at h
  · cases h
    exact ⟨action, hl⟩
  · split at h
    · cases h
      exact ⟨action, hl⟩
    · split at h
      · cases h
        exact ⟨action, hl⟩
      · split at h
        · cases h
          exact ⟨action, hl⟩
        · cases h

/-- Wrong arguments are told at the keyword, which has been passed over long before. -/
theorem tradeStatement_walks (h : expression.Keeps Expr.signs) {action : TradeAction} (hd : c.Passes [t] d)
    (ht : t.kind = .keyword (.trade action)) : (tradeStatement expression action t d).Walked c Stmt.ReadFrom := by
  have hend : ∀ (args : List Expr) (d : Cursor) (ts : List Token), c.Passes ts d → t ∈ ts →
      Sign.Tell (.keyword (.trade action) :: Expr.signsAll args) ts →
      ((tradeEnd action t args : Parser Stmt) d).Walked c Stmt.ReadFrom := by
    intro args d ts hd hmem htell
    unfold tradeEnd
    cases hargs : tradeArgumentComplaint? args with
    | some complaint =>
      exact .fail hd (List.mem_append_left _ hmem) (tradeArgumentComplaint_concerns hargs ht)
    | none =>
      refine .keep hd htell statementEnd_keeps ?_
      intro _ us d hd htell
      refine .done hd ⟨List.ne_nil_of_mem (List.mem_append_left _ hmem), ?_⟩
      simpa [Stmt.signs] using htell
  have hkeyword : Sign.Tell [.keyword (.trade action)] [t] := .keyword ht
  unfold tradeStatement
  refine .step hd (.accept nofun) ?_
  intro b us d hb hd
  cases b with
  | true =>
    obtain ⟨paren, rfl, hparen⟩ := hb
    refine .keep hd (hkeyword.append (mark_of_kind hparen rfl).2) (arguments_keeps h _) ?_
    intro args vs d hd htell
    exact hend args d _ hd (by simp) (by simpa using htell)
  | false =>
    simp only [Bool.false_eq_true, if_false] at hb ⊢
    subst hb
    exact hend [] d _ hd (by simp) (by simpa [Expr.signsAll] using hkeyword)

end

theorem expressionStatement_walks (h : expression.Keeps Expr.signs) :
    (expressionStatement expression).Walks Stmt.ReadFrom := by
  intro c
  unfold expressionStatement
  refine .keep (.refl c) .nil h ?_
  intro e ts d hd htell
  refine .keep hd htell statementEnd_keeps ?_
  intro _ us d hd htell
  have hsigns : Sign.Tell e.signs ([] ++ ts ++ us) := by simpa using htell
  exact .done hd ⟨hsigns.ne_nil e.signs_ne_nil, hsigns⟩

theorem block_walks (h : statement.Walks Stmt.ReadFrom) {c d : Cursor} {t : Token} (hd : c.Passes [t] d)
    (ht : t.kind = .symbol .leftBrace) : ((do return .block (← blockBody statement) : Parser Stmt) d).Walked c Stmt.ReadFrom := by
  refine .keep hd (mark_of_kind ht rfl).2 (blockBody_keeps h) ?_
  intro ss us d hd htell
  exact .done hd ⟨by simp, htell⟩

/-! ## The grammar -/

theorem anyStatement_walks (he : expression.Keeps Expr.signs) (hs : statement.Walks Stmt.ReadFrom) :
    (anyStatement expression statement).Walks Stmt.ReadFrom := by
  intro c
  have hnext : ∀ {k : TokenKind}, c.peek.kind = k → k ≠ .endOfInput → c.Passes [c.peek] c.next := by
    rintro k rfl hk
    exact .next hk
  unfold anyStatement
  refine .peek ?_
  cases hk : c.peek.kind with
  | keyword k =>
    have hd : c.Passes [c.peek] c.next := hnext hk nofun
    cases k with
    | functionWord => exact functionStatement_walks hs hd hk
    | varWord => exact varStatement_walks he hd hk
    | ifWord => exact ifStatement_walks he hs hd hk
    | whileWord => exact whileStatement_walks he hs hd hk
    | forWord => exact forStatement_walks he hs hd hk
    | returnWord => exact returnStatement_walks he hd hk
    | trade action => exact tradeStatement_walks he hd hk
    | _ => exact expressionStatement_walks he c
  | symbol s =>
    cases s with
    | leftBrace => exact block_walks hs (hnext hk nofun) hk
    | _ => exact expressionStatement_walks he c
  | _ => exact expressionStatement_walks he c

end

theorem statement_walks (levels : Nat) : (statement levels).Walks Stmt.ReadFrom := by
  induction levels with
  | zero => exact tooDeep_walks .statement
  | succ levels ih => exact anyStatement_walks (expression_keeps levels) ih

theorem statements_keeps (levels : Nat) : (statements levels).Keeps Stmt.signsAll := by
  intro c
  rw [statements_eq]
  refine .step (.refl c) ((nextStatement_adds (statement_walks levels)).iterate []) ?_
  rintro ss ts d ⟨more, hss, hmore⟩ hd
  refine .done hd ?_
  rw [Stmt.signsAll_eq, hss]
  simpa using hmore

end Parse

end StrategyScript
