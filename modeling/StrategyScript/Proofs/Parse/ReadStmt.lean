/-
The lexemes of a statement are read as that statement. What stands behind it has to be something that
the statement does not take for a part of itself: no semicolon, and no `else` if it ends in a branch
without one.
-/
import StrategyScript.Proofs.Parse.ReadLoosely

namespace StrategyScript

namespace Parse

open StrategyScript.Parser

/-- A token that begins a printed statement. -/
def beginsStmt : TokenKind → Bool
  | .keyword .functionWord | .keyword .varWord | .keyword .ifWord | .keyword .whileWord | .keyword .forWord
  | .keyword .returnWord | .keyword (.trade _) => true
  | .symbol s => s == .leftParen || s == .leftBrace
  | _ => false

theorem ne_of_beginsStmt {k k' : TokenKind} (h : beginsStmt k) (h' : beginsStmt k' = false) : k ≠ k' := by
  rintro rfl
  rw [h] at h'
  cases h'

theorem begins_lexemes {c d : Cursor} : ∀ s : Stmt, Cursor.Row s.lexemes c d → beginsStmt c.peek.kind
  | .function _ _ _, hrow => by rw [(hrow.cons_keyword (k := .functionWord)).1]; rfl
  | .var _ none, hrow | .var _ (some _), hrow => by rw [(hrow.cons_keyword (k := .varWord)).1]; rfl
  | .branch _ _ none, hrow | .branch _ _ (some _), hrow => by rw [(hrow.cons_keyword (k := .ifWord)).1]; rfl
  | .whileLoop _ _, hrow => by rw [(hrow.cons_keyword (k := .whileWord)).1]; rfl
  | .forLoop none _ _ _, hrow | .forLoop (some _) _ _ _, hrow => by
    rw [(hrow.cons_keyword (k := .forWord)).1]; rfl
  | .ret none _, hrow | .ret (some _) _, hrow => by rw [(hrow.cons_keyword (k := .returnWord)).1]; rfl
  | .trade action _ _, hrow => by rw [(hrow.cons_keyword (k := .trade action)).1]; rfl
  | .block _, hrow => by rw [hrow.cons_symbol.1]; rfl
  | .expr _, hrow => by rw [hrow.cons_symbol.1]; rfl

/-- The lexemes of a statement are read as that statement, whatever may follow it. -/
def StmtReads (s : Stmt) : Prop :=
  ∀ ⦃levels c d⦄, Cursor.Row s.lexemes c d → s.Precedes d → (statement levels).ReadsLoosely (·.Alike s) c d

/-! ## Parts of statements -/

/-- Names with a part that may be missing. -/
def declarationAlike (a b : String × Option Expr) : Prop := a.1 = b.1 ∧ Option.Rel Expr.Alike a.2 b.2

section

variable {c d m : Cursor} {levels : Nat} {ls ms : List Lexeme} {e : Expr} {s : Stmt}

theorem statementEnd_reads (hrow : Cursor.Row [.newline] c d) (hd : d.afterNewlines.peek.kind ≠ .symbol .semicolon) :
    statementEnd.Reads (fun _ => True) c d.afterNewlines := by
  obtain ⟨hk, hskip⟩ := hrow.newline
  refine .bind .peek ?_
  rintro _ rfl
  rw [if_pos (by rw [hk]; rfl)]
  exact ⟨trivial, Cursor.skipTerminators_eq hskip hd⟩

/-- A statement that takes all newlines behind it. -/
theorem loosely_of_end {p : Parser Stmt} {R : Stmt → Prop} (h : p.Reads R c d.afterNewlines)
    (hlt : d.rest.length < c.rest.length) : p.ReadsLoosely R c d :=
  h.loosely d.afterNewlines_twice ((d.length_skip_le _).trans_lt hlt)

theorem body_reads (h : StmtReads s) (hrow : Cursor.Row s.lexemes c d) (hd : s.Precedes d) :
    (body (statement levels)).ReadsLoosely (·.Alike s) c d := by
  have hskip : skipNewlines.Reads (fun _ => True) c c :=
    ⟨trivial, Cursor.afterNewlines_self (ne_of_beginsStmt (begins_lexemes s hrow) rfl)⟩
  exact .bind hskip le_rfl fun _ _ => h hrow hd

theorem condition_reads (h : ReadsInside ls e) {before after : String}
    (hrow : Cursor.Row (.symbol .leftParen :: (ls ++ .symbol .rightParen :: ms)) c d) :
    ∃ m, (condition (expression levels) before after).Reads (·.Alike e) c m ∧ Cursor.Row ms m d ∧
      m.rest.length < c.rest.length := by
  obtain ⟨hopen, hrow, hlt⟩ := hrow.cons_symbol
  obtain ⟨k, hinner, hrest⟩ := hrow.append
  obtain ⟨hclose, hrest, hlt'⟩ := hrest.cons_symbol
  refine ⟨k.next, ?_, hrest, hlt'.trans (hinner.length_le.trans_lt hlt)⟩
  refine .bind (.expect hopen) fun _ _ => .bind (h hinner (by rw [hclose]; rfl)) fun a ha => ?_
  exact .bind (.expect hclose) fun _ _ => .pure ha

theorem declaration_none {name : String} (hname : (Leaf.declared name).Proper) (hrow : Cursor.Row [.word name] c d)
    (hd : d.peek.kind ≠ .symbol .assign) :
    (declaration (expression levels)).Reads (declarationAlike · (name, none)) c d := by
  obtain ⟨hk, htext, hnext, -⟩ := hrow.cons_declared hname
  obtain rfl := hnext.nil
  refine .bind (.expect hk) ?_
  rintro _ rfl
  refine .bind (.not_accept hd) ?_
  rintro _ rfl
  exact .pure ⟨htext, .none⟩

theorem declaration_some {name : String} (hname : (Leaf.declared name).Proper) (h : ReadsInside ls e)
    (hrow : Cursor.Row (.word name :: .symbol .assign :: ls) c d) (hd : endsExpr d.peek.kind) :
    (declaration (expression levels)).Reads (declarationAlike · (name, some e)) c d := by
  obtain ⟨hk, htext, hnext, -⟩ := hrow.cons_declared hname
  obtain ⟨hassign, hvalue, -⟩ := hnext.cons_symbol
  refine .bind (.expect hk) ?_
  rintro _ rfl
  refine .bind (.accept hassign) ?_
  rintro _ rfl
  exact .bind (h hvalue hd) fun a ha => .pure ⟨htext, .some ha⟩

end

/-! ## Statements one after another -/

/-- The step of a block and of a program; `ends` tells where the statements end. -/
def nextStatement (ends : TokenKind → Prop) [DecidablePred ends] (statement : Parser Stmt) (statements : List Stmt) :
    Parser (Option (List Stmt)) := do
  skipTerminators
  let k := (← peek).kind
  if ends k then return none
  else return some ((← statement) :: statements)

theorem blockBody_eq (statement : Parser Stmt) :
    blockBody statement = (do
      let statements ← iterate (nextStatement (fun k => k = .symbol .rightBrace ∨ k = .endOfInput) statement) []
      let _ ← expect (.symbol .rightBrace) "'\x7d' after block"
      return statements.reverse) := rfl

theorem statements_eq (levels : Nat) :
    statements levels = (do
      let statements ← iterate (nextStatement (fun k => k = .endOfInput) (statement levels)) []
      return statements.reverse) := rfl

section

variable {ends : TokenKind → Prop} [DecidablePred ends] {levels : Nat} {d : Cursor}

theorem peek_skipTerminators {c m : Cursor} (h : c.afterNewlines = m.afterNewlines) (hline : m.peek.kind ≠ .newline)
    (hsemicolon : m.peek.kind ≠ .symbol .semicolon) : c.skip isTerminator = m := by
  have hm : m.afterNewlines = m := Cursor.afterNewlines_self hline
  rw [Cursor.skipTerminators_eq h (by rw [hm]; exact hsemicolon), hm]

/-- A row of statements is read one by one, from any place that is there but for newlines. -/
theorem nextStatement_loops (hends : ∀ k, ends k → beginsStmt k = false) (hd : ends d.peek.kind)
    (hclose : d.peek.kind = .symbol .rightBrace ∨ d.peek.kind = .endOfInput) :
    ∀ (ss done acc : List Stmt) (c m : Cursor), (∀ s ∈ ss, StmtReads s) → List.Forall₂ Stmt.Alike acc.reverse done →
      Cursor.Row (Stmt.lexemesAll ss) m d → c.afterNewlines = m.afterNewlines →
      Loops (nextStatement ends (statement levels)) ParseError.Deep
        (fun ts d' => List.Forall₂ Stmt.Alike ts.reverse (done ++ ss) ∧ d' = d) acc c
  | [], done, acc, c, m, _, hacc, hrow, hc => by
    obtain rfl := hrow.nil
    have hskip : c.skip isTerminator = m := by
      refine peek_skipTerminators hc ?_ ?_
      · rcases hclose with hk | hk <;> rw [hk] <;> nofun
      · rcases hclose with hk | hk <;> rw [hk] <;> nofun
    have hstop : nextStatement ends (statement levels) acc c = .ok none m := by
      have hterminators : skipTerminators c = .ok () m := congrArg (Parsed.ok ()) hskip
      unfold nextStatement
      rw [bind_ok hterminators, peek_bind, if_pos hd]
      rfl
    rw [List.append_nil]
    exact .stop hstop ⟨hacc, rfl⟩
  | s :: ss, done, acc, c, m, hreads, hacc, hrow, hc => by
    obtain ⟨hs, hss⟩ := List.forall_mem_cons.1 hreads
    obtain ⟨k, hfirst, hrest⟩ := hrow.append
    have hbegins := begins_lexemes s hfirst
    have hskip : c.skip isTerminator = m :=
      peek_skipTerminators hc (ne_of_beginsStmt hbegins rfl) (ne_of_beginsStmt hbegins rfl)
    -- what comes next is another statement or the end, so `s` ends here
    have hprecedes : s.Precedes k := by
      have hk : k.peek.kind ≠ .newline ∧ k.peek.kind ≠ .symbol .semicolon ∧ k.peek.kind ≠ .keyword .elseWord := by
        cases ss with
        | nil =>
          obtain rfl := hrest.nil
          rcases hclose with hk | hk <;> rw [hk] <;> exact ⟨nofun, nofun, nofun⟩
        | cons t ss =>
          obtain ⟨j, hnext, -⟩ := hrest.append
          have hbegins := begins_lexemes t hnext
          exact ⟨ne_of_beginsStmt hbegins rfl, ne_of_beginsStmt hbegins rfl, ne_of_beginsStmt hbegins rfl⟩
      have hself : k.afterNewlines = k := Cursor.afterNewlines_self hk.1
      refine ⟨?_, fun _ => ?_⟩
      · rw [hself]
        exact hk.2.1
      · rw [hself]
        exact hk.2.2
    have hstep : (nextStatement ends (statement levels) acc).ReadsLoosely
        (fun o => ∃ t, t.Alike s ∧ o = some (t :: acc)) c k := by
      have hterminators : skipTerminators.Reads (fun _ => True) c m := ⟨trivial, hskip⟩
      refine .bind hterminators ?_ fun _ _ => .bind .peek le_rfl ?_
      · rw [← hskip]
        exact c.length_skip_le _
      · rintro _ rfl
        rw [if_neg fun hk => by rw [hends _ hk] at hbegins; cases hbegins]
        exact .map (hs hfirst hprecedes) rfl fun t ht => ⟨t, ht, rfl⟩
    refine .of_post (Parsed.Post.mono hstep ?_)
    rintro _ c' ⟨⟨t, ht, rfl⟩, hc', hlt⟩
    refine ⟨t :: acc, rfl, hlt, ?_⟩
    have hdone : List.Forall₂ Stmt.Alike (t :: acc).reverse (done ++ [s]) := by
      rw [List.reverse_cons]
      exact List.rel_append hacc (.cons ht .nil)
    have hloop := nextStatement_loops hends hd hclose ss (done ++ [s]) (t :: acc) c' k hss hdone hrest hc'
    rw [List.append_assoc] at hloop
    exact hloop

theorem blockBody_reads {ss : List Stmt} {c : Cursor} (h : ∀ s ∈ ss, StmtReads s)
    (hrow : Cursor.Row (Stmt.lexemesAll ss) c d) (hd : d.peek.kind = .symbol .rightBrace) :
    (blockBody (statement levels)).Reads (fun ts => List.Forall₂ Stmt.Alike ts ss) c d.next := by
  have hends : ∀ k : TokenKind, k = .symbol .rightBrace ∨ k = .endOfInput → beginsStmt k = false := by
    rintro k (rfl | rfl) <;> rfl
  have hread : (iterate (nextStatement (fun k => k = .symbol .rightBrace ∨ k = .endOfInput) (statement levels)) []).Reads
      (fun ts => List.Forall₂ Stmt.Alike ts.reverse ss) c d :=
    (nextStatement_loops hends (.inl hd) (.inl hd) ss [] [] c c h .nil hrow rfl).iterate
  rw [blockBody_eq]
  exact .bind hread fun ts hts => .bind (.expect hd) fun _ _ => .pure hts

theorem statements_reads {ss : List Stmt} {c : Cursor} (h : ∀ s ∈ ss, StmtReads s)
    (hrow : Cursor.Row (Stmt.lexemesAll ss) c d) (hd : d.peek.kind = .endOfInput) :
    (statements levels).Reads (fun ts => List.Forall₂ Stmt.Alike ts ss) c d := by
  have hends : ∀ k : TokenKind, k = .endOfInput → beginsStmt k = false := by
    rintro k rfl
    rfl
  have hread : (iterate (nextStatement (fun k => k = .endOfInput) (statement levels)) []).Reads
      (fun ts => List.Forall₂ Stmt.Alike ts.reverse ss) c d :=
    (nextStatement_loops hends hd (.inr hd) ss [] [] c c h .nil hrow rfl).iterate
  rw [statements_eq]
  exact .bind hread fun ts hts => .pure hts

end

/-! ## Kinds of statements -/

section

variable {c d m : Cursor} {levels : Nat} {e : Expr} {s : Stmt}

theorem names_eq (names : List String) : namesLexemes names = separated (names.map fun name => [.word name]) := by
  induction names with
  | nil => rfl
  | cons name names ih =>
    cases names with
    | nil => rfl
    | cons other names => exact congrArg (Lexeme.word name :: .symbol .comma :: ·) ih

theorem texts_eq {ts : List Token} {names : List String} (h : List.Forall₂ (fun t name => t.text = name) ts names) :
    ts.map (·.text) = names := by
  induction h with
  | nil => rfl
  | cons ht _ ih => rw [List.map_cons, ht, ih]

theorem params_read {params : List String} (h : ∀ p ∈ params, (Leaf.declared p).Proper) (hne : params ≠ [])
    (hrow : Cursor.Row (namesLexemes params) c d) (hd : d.peek.kind = .symbol .rightParen) :
    c.peek.kind ≠ .symbol .rightParen ∧ (Reading.commaSeparated (expect .identifier "parameter name")).Reads
      (fun ts => List.Forall₂ (fun t p => t.text = p) ts params) c d := by
  rw [names_eq] at hrow
  have hitem : ∀ p ∈ params, ∀ c d, Cursor.Row [.word p] c d → endsItem d.peek.kind →
      (expect .identifier "parameter name").Reads (fun t => t.text = p) c d := by
    intro p hp c d hrow _
    obtain ⟨hk, htext, hnext, -⟩ := hrow.cons_declared (h p hp)
    obtain rfl := hnext.nil
    refine (Reads.expect hk).mono ?_
    rintro _ rfl
    exact htext
  refine ⟨?_, .commaSeparated hitem hne hrow hd⟩
  obtain _ | ⟨p, params⟩ := params
  · exact absurd rfl hne
  · rw [separated_cons] at hrow
    obtain ⟨m, hfirst, -⟩ := hrow.append
    rw [(hfirst.cons_declared (h p List.mem_cons_self)).1]
    nofun

theorem function_reads {name : String} {params : List String} {ss : List Stmt} (hname : (Leaf.declared name).Proper)
    (hparams : ∀ p ∈ params, (Leaf.declared p).Proper) (h : ∀ s ∈ ss, StmtReads s)
    (hrow : Cursor.Row (.word name :: .symbol .leftParen :: (namesLexemes params ++ .symbol .rightParen ::
      .symbol .leftBrace :: (Stmt.lexemesAll ss ++ [.symbol .rightBrace, .newline]))) c d) :
    (functionStatement (statement levels)).ReadsLoosely (·.Alike (.function name params ss)) c d := by
  obtain ⟨hk, htext, hrow, hlt⟩ := hrow.cons_declared hname
  obtain ⟨hopen, hrow, hlt₁⟩ := hrow.cons_symbol
  obtain ⟨m, hnames, hrow⟩ := hrow.append
  obtain ⟨hclose, hrow, hlt₂⟩ := hrow.cons_symbol
  obtain ⟨hbrace, hrow, hlt₃⟩ := hrow.cons_symbol
  obtain ⟨k, hbody, hrow⟩ := hrow.append
  obtain ⟨hend, hrow, hlt₄⟩ := hrow.cons_symbol
  have hshorter : k.next.rest.length < c.rest.length := by
    have hm := hnames.length_le
    have hk := hbody.length_le
    omega
  -- what follows the parameters is read alike whether there are any or not
  have htail : ∀ ts : List Token, List.Forall₂ (fun t p => t.text = p) ts params → Reads
      (do
        let _ ← expect (.symbol .rightParen) "')' after parameters"
        skipNewlines
        let _ ← expect (.symbol .leftBrace) "'\x7b' before function body"
        let statements ← blockBody (statement levels)
        return Stmt.function c.peek.text (ts.map (·.text)) statements) (·.Alike (.function name params ss)) m k.next := by
    intro ts hts
    have hskip : skipNewlines.Reads (fun _ => True) m.next m.next :=
      ⟨trivial, Cursor.afterNewlines_self (by rw [hbrace]; nofun)⟩
    refine .bind (.expect hclose) fun _ _ => .bind hskip fun _ _ => .bind (.expect hbrace) fun _ _ => ?_
    refine .bind (blockBody_reads h hbody hend) fun us hus => .pure ?_
    show Stmt.relocate .erase _ = Stmt.relocate .erase _
    simp only [Stmt.relocate, htext, texts_eq hts, Stmt.relocateAll_of_alike hus]
  refine Reads.loosely (m := k.next) ?_ hrow.newline.2 hshorter
  refine .bind (.expect hk) ?_
  rintro _ rfl
  refine .bind (.expect hopen) fun _ _ => .bind (.check _) ?_
  rintro _ rfl
  by_cases hne : params = []
  · obtain rfl := hne
    obtain rfl := hnames.nil
    rw [if_pos (by rw [hclose]; rfl)]
    exact .bind (.pure .nil) htail
  · obtain ⟨hfirst, hread⟩ := params_read hparams hne hnames hclose
    rw [if_neg (by simpa using hfirst)]
    exact .bind hread htail

theorem var_reads {name : String} {value : Option Expr}
    (hvalue : (declaration (expression levels)).Reads (declarationAlike · (name, value)) c m)
    (hrow : Cursor.Row [.newline] m d) (hd : d.afterNewlines.peek.kind ≠ .symbol .semicolon)
    (hlt : d.rest.length < c.rest.length) :
    (varStatement (expression levels)).ReadsLoosely (·.Alike (.var name value)) c d := by
  refine loosely_of_end ?_ hlt
  refine .bind hvalue ?_
  rintro ⟨x, o⟩ ⟨hx, ho⟩
  obtain rfl : x = name := hx
  refine .bind (statementEnd_reads hrow hd) fun _ _ => .pure ?_
  show Stmt.relocate .erase _ = Stmt.relocate .erase _
  simp only [Stmt.relocate, map_of_rel ho fun _ _ h => h]

theorem elseBranch_none {statement : Parser Stmt} (h : c.afterNewlines.peek.kind ≠ .keyword .elseWord) :
    elseBranch statement c = .ok none c := by
  have h : (c.skip (· == .newline)).peek.kind ≠ .keyword .elseWord := h
  rw [elseBranch_eq]
  rw [if_neg h]

/-- The `else` of a branch may stand behind newlines. -/
theorem elseBranch_some {statement : Parser Stmt} {R : Stmt → Prop} (hm : c.afterNewlines = m)
    (helse : m.peek.kind = .keyword .elseWord) (h : (body statement).ReadsLoosely R m.next d)
    (hlt : m.next.rest.length < m.rest.length) :
    (elseBranch statement).ReadsLoosely (fun o => ∃ t, R t ∧ o = some t) c d := by
  have hm : c.skip (· == .newline) = m := hm
  have hle : m.rest.length ≤ c.rest.length := by
    rw [← hm]
    exact c.length_skip_le _
  unfold Parser.ReadsLoosely
  rw [elseBranch_eq]
  dsimp only
  rw [hm, if_pos helse]
  refine .bind (Parsed.Post.mono h ?_)
  rintro t d' ⟨ht, hd', hlt'⟩
  exact ⟨⟨t, ht, rfl⟩, hd', by omega⟩

theorem if_reads_none (he : ReadsInside e.lexemes e) (hs : StmtReads s)
    (hrow : Cursor.Row (.symbol .leftParen :: (e.lexemes ++ .symbol .rightParen :: (s.lexemes ++ [.newline]))) c d)
    (hd : (Stmt.branch e s none).Precedes d) :
    (ifStatement (expression levels) (statement levels)).ReadsLoosely (·.Alike (.branch e s none)) c d := by
  obtain ⟨m, hcondition, hrow, hlt⟩ := condition_reads he hrow
  obtain ⟨k, hthen, hrow⟩ := hrow.append
  obtain ⟨-, hk⟩ := hrow.newline
  have hprecedes : s.Precedes k := hd.inner hrow fun _ => rfl
  refine .bind hcondition hlt.le fun f hf => ?_
  refine Parsed.Post.bind (Parsed.Post.mono (body_reads hs hthen hprecedes) ?_)
  rintro t k' ⟨ht, hk', hlt'⟩
  -- wherever the statement before stopped, no `else` stands behind the newlines
  have helse : elseBranch (statement levels) k' = .ok none k' := by
    refine elseBranch_none ?_
    rw [hk', hk]
    exact hd.noElse rfl
  rw [bind_ok helse]
  refine ⟨?_, hk'.trans hk, hlt'⟩
  show Stmt.relocate .erase _ = Stmt.relocate .erase _
  simp only [Stmt.relocate, show Expr.relocate .erase f = _ from hf, show Stmt.relocate .erase t = _ from ht]

theorem if_reads_some {t : Stmt} (he : ReadsInside e.lexemes e) (hs : StmtReads s) (ht : StmtReads t)
    (hclosed : s.isOpen = false)
    (hrow : Cursor.Row (.symbol .leftParen :: (e.lexemes ++ .symbol .rightParen :: (s.lexemes ++
      .word "else" :: (t.lexemes ++ [.newline])))) c d) (hd : (Stmt.branch e s (some t)).Precedes d) :
    (ifStatement (expression levels) (statement levels)).ReadsLoosely (·.Alike (.branch e s (some t))) c d := by
  obtain ⟨m, hcondition, hrow, hlt⟩ := condition_reads he hrow
  obtain ⟨k, hthen, hrow⟩ := hrow.append
  obtain ⟨helse, hrow, hlt₁⟩ := hrow.cons_keyword (k := .elseWord)
  obtain ⟨j, helsePart, hrow⟩ := hrow.append
  obtain ⟨-, hj⟩ := hrow.newline
  have hself : k.afterNewlines = k := Cursor.afterNewlines_self (by rw [helse]; nofun)
  -- the statement before the `else` is closed, so the `else` is left for this branch
  have hprecedes : s.Precedes k := by
    refine ⟨?_, fun hopen => ?_⟩
    · rw [hself, helse]
      nofun
    · rw [hclosed] at hopen
      cases hopen
  have hprecedes' : t.Precedes j := hd.inner hrow id
  refine .bind hcondition hlt.le fun f hf => ?_
  refine Parsed.Post.bind (Parsed.Post.mono (body_reads hs hthen hprecedes) ?_)
  rintro u k' ⟨hu, hk', hlt'⟩
  have hbody : (body (statement levels)).ReadsLoosely (·.Alike t) k.next j := body_reads ht helsePart hprecedes'
  have hbranch := elseBranch_some (hk'.trans hself) helse hbody hlt₁
  refine Parsed.Post.bind (Parsed.Post.mono hbranch ?_)
  rintro _ d' ⟨⟨v, hv, rfl⟩, hd', hlt''⟩
  refine ⟨?_, hd'.trans hj, hlt''.trans hlt'⟩
  show Stmt.relocate .erase _ = Stmt.relocate .erase _
  simp only [Stmt.relocate, show Expr.relocate .erase f = _ from hf, show Stmt.relocate .erase u = _ from hu,
    show Stmt.relocate .erase v = _ from hv]

theorem while_reads (he : ReadsInside e.lexemes e) (hs : StmtReads s)
    (hrow : Cursor.Row (.symbol .leftParen :: (e.lexemes ++ .symbol .rightParen :: (s.lexemes ++ [.newline]))) c d)
    (hd : (Stmt.whileLoop e s).Precedes d) :
    (whileStatement (expression levels) (statement levels)).ReadsLoosely (·.Alike (.whileLoop e s)) c d := by
  obtain ⟨m, hcondition, hrow, hlt⟩ := condition_reads he hrow
  obtain ⟨k, hbody, hrow⟩ := hrow.append
  refine .bind hcondition hlt.le fun f hf => ?_
  refine .map (body_reads hs hbody (hd.inner hrow id)) hrow.newline.2 fun t ht => ?_
  show Stmt.relocate .erase _ = Stmt.relocate .erase _
  simp only [Stmt.relocate, show Expr.relocate .erase f = _ from hf, show Stmt.relocate .erase t = _ from ht]

/-! ## Loops with three clauses -/

theorem loopStart_none (hc : c.peek.kind = .symbol .semicolon) :
    (loopStart (expression levels)).Reads (Option.Rel LoopStart.Alike · none) c c.next := by
  refine .bind (.accept hc) ?_
  rintro _ rfl
  exact .pure .none

/-- The first clause of a loop is read up to its semicolon. -/
theorem loopStart_some {start : LoopStart} (h : ∀ l ∈ start.leaves, l.Legible) (hrow : Cursor.Row start.lexemes c d)
    (hd : d.peek.kind = .symbol .semicolon) :
    (loopStart (expression levels)).Reads (Option.Rel LoopStart.Alike · (some start)) c d.next := by
  have hends : endsExpr d.peek.kind := by
    rw [hd]
    rfl
  have htail : ∀ t : LoopStart, t.Alike start → Reads
      (do
        let _ ← expect (.symbol .semicolon) "';' after loop initializer"
        return some t) (Option.Rel LoopStart.Alike · (some start)) d d.next :=
    fun t ht => .bind (.expect hd) fun _ _ => .pure (.some ht)
  -- a declaration, up to the semicolon
  have hvar : ∀ {name value}, start = .var name value → c.peek.kind = .keyword .varWord →
      (∀ levels, (declaration (expression levels)).Reads (declarationAlike · (name, value)) c.next d) →
      (loopStart (expression levels)).Reads (Option.Rel LoopStart.Alike · (some start)) c d.next := by
    intro name value hstart hk hread
    refine .bind (.not_accept (by simp [hk])) ?_
    rintro _ rfl
    refine .bind (.accept hk) ?_
    rintro _ rfl
    refine .bind (hread levels) ?_
    rintro ⟨x, o⟩ ⟨hx, ho⟩
    obtain rfl : x = name := hx
    refine .bind (R := (·.Alike start)) (.pure ?_) htail
    rw [hstart]
    show LoopStart.relocate .erase _ = LoopStart.relocate .erase _
    simp only [LoopStart.relocate, map_of_rel ho fun _ _ h => h]
  cases start with
  | var name value =>
    cases value with
    | none =>
      obtain ⟨hk, hnext, -⟩ := hrow.cons_keyword (k := .varWord)
      have hname := (h (.declared name) List.mem_cons_self).1
      exact hvar rfl hk fun levels => declaration_none hname hnext (by simp [hd])
    | some value =>
      obtain ⟨hk, hnext, -⟩ := hrow.cons_keyword (k := .varWord)
      obtain ⟨hname, hvalue⟩ := List.forall_mem_cons.1 h
      exact hvar rfl hk fun levels =>
        declaration_some hname.1 (readsAs_lexemes value hvalue).inside hnext hends
  | expr value =>
    have hparens := (readsAs_lexemes value h).inside.parens
    have hk := (hrow.cons_symbol (s := .leftParen)).1
    refine .bind (.not_accept (by simp [hk])) ?_
    rintro _ rfl
    refine .bind (.not_accept (by simp [hk])) ?_
    rintro _ rfl
    exact .bind (hparens.inside hrow hends) fun f hf =>
      .bind (R := (·.Alike (.expr value))) (.pure (congrArg LoopStart.expr hf)) htail

/-- A clause that may be missing is read up to the token that ends it. -/
theorem loopClause_reads {o : Option Expr} {ending : Symbol} {what : String} (h : ∀ l ∈ Expr.leavesIn o, l.Legible)
    (hrow : Cursor.Row (Expr.lexemesIn o) c d) (hd : d.peek.kind = .symbol ending) (hends : endsExpr (.symbol ending)) :
    (loopClause (expression levels) ending what).Reads (Option.Rel Expr.Alike · o) c d.next := by
  have htail : ∀ u : Option Expr, Option.Rel Expr.Alike u o → Reads
      (do let _ ← expect (.symbol ending) what; return u) (Option.Rel Expr.Alike · o) d d.next :=
    fun u hu => .bind (.expect hd) fun _ _ => .pure hu
  refine .bind (.check _) ?_
  rintro _ rfl
  cases o with
  | none =>
    obtain rfl := hrow.nil
    rw [if_pos (by rw [hd]; exact beq_self_eq_true _)]
    exact .bind (.pure .none) htail
  | some e =>
    have hread := readsAs_lexemes e h
    have hne : c.peek.kind ≠ .symbol ending := ne_of_beginsExpr (hread.begins hrow).1 (beginsExpr_of_endsExpr hends)
    rw [if_neg (by simpa using hne)]
    exact .bind (hread.inside hrow (by rw [hd]; exact hends)) fun f hf => .bind (.pure (.some hf)) htail

theorem for_reads {o : Option LoopStart} {condition increment : Option Expr}
    (hopen : c.peek.kind = .symbol .leftParen) (hlt : c.next.rest.length < c.rest.length)
    (hle : m.rest.length ≤ c.next.rest.length)
    (hstart : (loopStart (expression levels)).Reads (Option.Rel LoopStart.Alike · o) c.next m)
    (hcondition : ∀ l ∈ Expr.leavesIn condition, l.Legible) (hincrement : ∀ l ∈ Expr.leavesIn increment, l.Legible)
    (hs : StmtReads s)
    (hrow : Cursor.Row (Expr.lexemesIn condition ++ .symbol .semicolon :: (Expr.lexemesIn increment ++
      .symbol .rightParen :: (s.lexemes ++ [.newline]))) m d)
    (hd : (Stmt.forLoop o condition increment s).Precedes d) :
    (forStatement (expression levels) (statement levels)).ReadsLoosely (·.Alike (.forLoop o condition increment s)) c d := by
  obtain ⟨k, hfirst, hrow⟩ := hrow.append
  obtain ⟨hk, hrow, hlt₁⟩ := hrow.cons_symbol
  obtain ⟨j, hsecond, hrow⟩ := hrow.append
  obtain ⟨hj, hrow, hlt₂⟩ := hrow.cons_symbol
  obtain ⟨i, hbody, hrow⟩ := hrow.append
  -- each part of the header takes tokens away, so none of them runs past the body
  have hheader : j.next.rest.length ≤ k.next.rest.length ∧ k.next.rest.length ≤ m.rest.length := by
    have h₁ := hfirst.length_le
    have h₂ := hsecond.length_le
    omega
  refine .bind (.expect hopen) hlt.le fun _ _ => ?_
  refine .bind hstart hle fun start hstart => ?_
  refine .bind (loopClause_reads hcondition hfirst hk rfl) hheader.2 fun e he => ?_
  refine .bind (loopClause_reads hincrement hsecond hj rfl) hheader.1 fun f hf => ?_
  refine .map (body_reads hs hbody (hd.inner hrow id)) hrow.newline.2 fun t ht => ?_
  show Stmt.relocate .erase _ = Stmt.relocate .erase _
  simp only [Stmt.relocate, map_of_rel hstart fun _ _ h => h, map_of_rel he fun _ _ h => h, map_of_rel hf fun _ _ h => h,
    show Stmt.relocate .erase t = _ from ht]

/-! ## Statements of one line -/

theorem endsStatement_of_beginsExpr {k : TokenKind} (h : beginsExpr k) : endsStatement k = false := by
  cases k with
  | symbol s =>
    revert h
    cases s <;> decide
  | keyword k =>
    revert h
    cases k with
    | trade _ | price _ => exact fun _ => rfl
    | _ => decide
  | newline | endOfInput => cases h
  | _ => rfl

theorem return_reads {value : Option Expr} {line : Nat} {t : Token} (h : ∀ l ∈ Expr.leavesIn value, l.Legible)
    (hrow : Cursor.Row (Expr.lexemesIn value ++ [.newline]) c d) (hd : (Stmt.ret value line).Precedes d) :
    (returnStatement (expression levels) t).ReadsLoosely (·.Alike (.ret value line)) c d := by
  obtain ⟨m, hvalue, hend⟩ := hrow.append
  have hlt := hvalue.length_lt hend
  have htail : ∀ o : Option Expr, Option.Rel Expr.Alike o value → Reads
      (do statementEnd; return Stmt.ret o t.position.line) (·.Alike (.ret value line)) m d.afterNewlines := by
    refine fun o ho => .bind (statementEnd_reads hend hd.noSemicolon) fun _ _ => .pure ?_
    show Stmt.relocate .erase _ = Stmt.relocate .erase _
    simp only [Stmt.relocate, map_of_rel ho fun _ _ h => h]
    rfl
  refine loosely_of_end (.bind .peek ?_) hlt
  rintro _ rfl
  cases value with
  | none =>
    obtain rfl := hvalue.nil
    rw [if_pos (by rw [hend.newline.1]; rfl)]
    exact .bind (.pure .none) htail
  | some e =>
    have hread := readsAs_lexemes e h
    rw [if_neg (by rw [endsStatement_of_beginsExpr (hread.begins hvalue).1]; nofun)]
    exact .bind (hread.inside hvalue (by rw [hend.newline.1]; rfl)) fun f hf => .bind (.pure (.some hf)) htail

theorem trade_reads {action : TradeAction} {args : List Expr} {line : Nat} {t : Token}
    (h : ∀ l ∈ Expr.leavesAll args, l.Legible) (hargs : tradeArgumentComplaint? args = none)
    (hrow : Cursor.Row (.symbol .leftParen :: (Expr.lexemesList args ++ [.symbol .rightParen, .newline])) c d)
    (hd : (Stmt.trade action args line).Precedes d) :
    (tradeStatement (expression levels) action t).ReadsLoosely (·.Alike (.trade action args line)) c d := by
  obtain ⟨hopen, hrow, hlt⟩ := hrow.cons_symbol
  have hsplit : Expr.lexemesList args ++ [.symbol .rightParen, .newline] =
      (Expr.lexemesList args ++ [.symbol .rightParen]) ++ [.newline] := by simp
  rw [hsplit] at hrow
  obtain ⟨m, hinner, hend⟩ := hrow.append
  have hlt : d.rest.length < c.rest.length := hend.length_le.trans_lt (hinner.length_le.trans_lt hlt)
  refine loosely_of_end (.bind (.accept hopen) ?_) hlt
  rintro _ rfl
  refine .bind (arguments_reads (readsAs_all args h) hinner) fun es hes => ?_
  dsimp only
  unfold tradeEnd
  rw [tradeArgumentComplaint_alike hes, hargs]
  refine .bind (statementEnd_reads hend hd.noSemicolon) fun _ _ => .pure ?_
  show Stmt.relocate .erase _ = Stmt.relocate .erase _
  simp only [Stmt.relocate, Expr.relocateAll_of_alike hes]
  rfl

theorem expression_statement_reads (h : ∀ l ∈ e.leaves, l.Legible)
    (hrow : Cursor.Row (.symbol .leftParen :: (e.lexemes ++ [.symbol .rightParen, .newline])) c d)
    (hd : (Stmt.expr e).Precedes d) :
    (expressionStatement (expression levels)).ReadsLoosely (·.Alike (.expr e)) c d := by
  have hsplit : .symbol .leftParen :: (e.lexemes ++ [.symbol .rightParen, .newline]) =
      (.symbol .leftParen :: (e.lexemes ++ [.symbol .rightParen])) ++ [.newline] := by simp
  rw [hsplit] at hrow
  obtain ⟨m, hinner, hend⟩ := hrow.append
  have hlt := hinner.length_lt hend
  have hread : (expression levels).Reads (·.Alike e) c m :=
    (readsAs_lexemes e h).inside.parens.inside hinner (by rw [hend.newline.1]; rfl)
  refine loosely_of_end (.bind hread fun f hf => ?_) hlt
  exact .bind (statementEnd_reads hend hd.noSemicolon) fun _ _ => .pure (congrArg Stmt.expr hf)

theorem block_reads {ss : List Stmt} (h : ∀ s ∈ ss, StmtReads s)
    (hrow : Cursor.Row (Stmt.lexemesAll ss ++ [.symbol .rightBrace, .newline]) c d) :
    (do return Stmt.block (← blockBody (statement levels)) : Parser Stmt).ReadsLoosely (·.Alike (.block ss)) c d := by
  obtain ⟨m, hbody, hrow⟩ := hrow.append
  obtain ⟨hbrace, hrow, hlt⟩ := hrow.cons_symbol
  refine Reads.loosely (m := m.next) ?_ hrow.newline.2 (hlt.trans_le hbody.length_le)
  refine .bind (blockBody_reads h hbody hbrace) fun ts hts => .pure ?_
  exact congrArg Stmt.block (Stmt.relocateAll_of_alike hts)

end

/-! ## All statements -/

/-- What is read behind the keyword of a statement. -/
def behindKeyword (expression : Parser Expr) (statement : Parser Stmt) (t : Token) : Keyword → Parser Stmt
  | .functionWord => functionStatement statement
  | .varWord => varStatement expression
  | .ifWord => ifStatement expression statement
  | .whileWord => whileStatement expression statement
  | .forWord => forStatement expression statement
  | .returnWord => returnStatement expression t
  | .trade action => tradeStatement expression action t
  | _ => expressionStatement expression

theorem anyStatement_keyword {expression : Parser Expr} {statement : Parser Stmt} {k : Keyword} {c : Cursor}
    (hc : c.peek.kind = .keyword k) (hk : beginsStmt (.keyword k)) :
    anyStatement expression statement c =
      (do let _ ← advance; behindKeyword expression statement c.peek k) c := by
  unfold anyStatement
  rw [Reading.liftM_self, peek_bind, hc]
  cases k with
  | functionWord | varWord | ifWord | whileWord | forWord | returnWord | trade action => rfl
  | _ => cases hk

theorem anyStatement_block {expression : Parser Expr} {statement : Parser Stmt} {c : Cursor}
    (hc : c.peek.kind = .symbol .leftBrace) :
    anyStatement expression statement c = (do let _ ← advance; return Stmt.block (← blockBody statement) : Parser Stmt) c := by
  unfold anyStatement
  rw [Reading.liftM_self, peek_bind, hc]
  rfl

theorem anyStatement_expr {expression : Parser Expr} {statement : Parser Stmt} {c : Cursor}
    (hc : c.peek.kind = .symbol .leftParen) :
    anyStatement expression statement c = expressionStatement expression c := by
  unfold anyStatement
  rw [Reading.liftM_self, peek_bind, hc]

section

variable {c d : Cursor} {R : Stmt → Prop}

/-- A statement is read if there is a level left for it; otherwise the reader refuses. -/
theorem statement_reads (h : ∀ levels, (anyStatement (expression levels) (statement levels)).ReadsLoosely R c d)
    (levels : Nat) : (statement levels).ReadsLoosely R c d := by
  cases levels with
  | zero => exact .tooDeep .statement
  | succ levels => exact h levels

/-- A statement that begins with a keyword is read on behind the keyword. -/
theorem keyword_reads (k : Keyword) {ls : List Lexeme} (hk : beginsStmt (.keyword k))
    (hrow : Cursor.Row (.word k.word :: ls) c d)
    (h : ∀ levels t, Cursor.Row ls c.next d →
      (behindKeyword (expression levels) (statement levels) t k).ReadsLoosely R c.next d) (levels : Nat) :
    (statement levels).ReadsLoosely R c d := by
  obtain ⟨hc, hnext, hlt⟩ := hrow.cons_keyword
  refine statement_reads (fun levels => ?_) levels
  unfold Parser.ReadsLoosely
  rw [anyStatement_keyword hc hk]
  exact ReadsLoosely.bind .advance hlt.le fun _ _ => h levels c.peek hnext

end

theorem var_statement_reads {name : String} {value : Option Expr} {c d : Cursor} {levels : Nat} (ls : List Lexeme)
    (hvalue : ∀ {m levels}, Cursor.Row ls c.next m → endsExpr m.peek.kind →
      (declaration (expression levels)).Reads (declarationAlike · (name, value)) c.next m)
    (hrow : Cursor.Row (.word "var" :: (ls ++ [.newline])) c d) (hd : (Stmt.var name value).Precedes d) :
    (statement levels).ReadsLoosely (·.Alike (.var name value)) c d := by
  refine keyword_reads .varWord rfl hrow (fun levels _ hnext => ?_) levels
  obtain ⟨m, hdeclaration, hend⟩ := hnext.append
  refine var_reads (hvalue hdeclaration ?_) hend hd.noSemicolon (hdeclaration.length_lt hend)
  rw [hend.newline.1]
  rfl

mutual

theorem stmtReads_lexemes : ∀ s : Stmt, (∀ l ∈ s.leaves, l.Legible) → s.Fits → StmtReads s
  | .function name params body, h, hfits => by
    obtain ⟨hname, hrest⟩ := List.forall_mem_cons.1 h
    obtain ⟨hparams, hbody⟩ := List.forall_mem_append.1 hrest
    intro levels c d hrow hd
    refine keyword_reads .functionWord rfl hrow (fun levels _ hnext => ?_) levels
    exact function_reads hname.1 (fun p hp => (hparams _ (List.mem_map_of_mem hp)).1)
      (stmtReads_all body hbody hfits) hnext
  | .var name none, h, _ => by
    have hname := (h (.declared name) List.mem_cons_self).1
    intro levels c d hrow hd
    exact var_statement_reads [.word name] (fun hrow hm => declaration_none hname hrow (ne_of_endsExpr hm rfl)) hrow hd
  | .var name (some value), h, _ => by
    obtain ⟨hname, hvalue⟩ := List.forall_mem_cons.1 h
    intro levels c d hrow hd
    refine var_statement_reads (.word name :: .symbol .assign :: value.lexemes) (fun hrow hm => ?_) hrow hd
    exact declaration_some hname.1 (readsAs_lexemes value hvalue).inside hrow hm
  | .branch c thenBranch none, h, hfits => by
    obtain ⟨hc, hthen⟩ := List.forall_mem_append.1 h
    intro levels _ _ hrow hd
    refine keyword_reads .ifWord rfl hrow (fun levels _ hnext => ?_) levels
    exact if_reads_none (readsAs_lexemes c hc).inside (stmtReads_lexemes thenBranch hthen hfits) hnext hd
  | .branch c thenBranch (some elseBranch), h, hfits => by
    obtain ⟨hc, hrest⟩ := List.forall_mem_append.1 h
    obtain ⟨hthen, helse⟩ := List.forall_mem_append.1 hrest
    -- the first branch is closed: no `if` at its end can take the `else` that follows
    obtain ⟨hclosed, hfitsThen, hfitsElse⟩ := hfits
    intro levels _ _ hrow hd
    refine keyword_reads .ifWord rfl hrow (fun levels _ hnext => ?_) levels
    exact if_reads_some (readsAs_lexemes c hc).inside (stmtReads_lexemes thenBranch hthen hfitsThen)
      (stmtReads_lexemes elseBranch helse hfitsElse) hclosed hnext hd
  | .whileLoop c body, h, hfits => by
    obtain ⟨hc, hbody⟩ := List.forall_mem_append.1 h
    intro levels _ _ hrow hd
    refine keyword_reads .whileWord rfl hrow (fun levels _ hnext => ?_) levels
    exact while_reads (readsAs_lexemes c hc).inside (stmtReads_lexemes body hbody hfits) hnext hd
  | .forLoop none c increment body, h, hfits => by
    obtain ⟨hc, hrest⟩ := List.forall_mem_append.1 h
    obtain ⟨hi, hbody⟩ := List.forall_mem_append.1 hrest
    intro levels _ _ hrow hd
    refine keyword_reads .forWord rfl hrow (fun levels _ hnext => ?_) levels
    obtain ⟨hopen, hclauses, hlt⟩ := hnext.cons_symbol
    obtain ⟨hsemicolon, hclauses, hlt'⟩ := hclauses.cons_symbol
    exact for_reads hopen hlt hlt'.le (loopStart_none hsemicolon) hc hi (stmtReads_lexemes body hbody hfits) hclauses hd
  | .forLoop (some start) c increment body, h, hfits => by
    obtain ⟨hstart, hrest⟩ := List.forall_mem_append.1 h
    obtain ⟨hc, hrest⟩ := List.forall_mem_append.1 hrest
    obtain ⟨hi, hbody⟩ := List.forall_mem_append.1 hrest
    intro levels _ _ hrow hd
    refine keyword_reads .forWord rfl hrow (fun levels _ hnext => ?_) levels
    obtain ⟨hopen, hclauses, hlt⟩ := hnext.cons_symbol
    obtain ⟨m, hfirst, hclauses⟩ := hclauses.append
    obtain ⟨hsemicolon, hclauses, hlt'⟩ := hclauses.cons_symbol
    exact for_reads hopen hlt (hlt'.le.trans hfirst.length_le) (loopStart_some hstart hfirst hsemicolon) hc hi
      (stmtReads_lexemes body hbody hfits) hclauses hd
  | .ret none line, h, _ => by
    intro levels _ _ hrow hd
    refine keyword_reads .returnWord rfl hrow (fun levels _ hnext => ?_) levels
    exact return_reads h hnext hd
  | .ret (some value) line, h, _ => by
    intro levels _ _ hrow hd
    refine keyword_reads .returnWord rfl hrow (fun levels _ hnext => ?_) levels
    -- the same lexemes, in the form that also covers a missing value
    have hrow' : Cursor.Row (Expr.lexemesIn (some value) ++ [.newline]) _ _ := hnext
    exact return_reads h hrow' hd
  | .trade action args line, h, hfits => by
    intro levels _ _ hrow hd
    refine keyword_reads (.trade action) rfl hrow (fun levels _ hnext => ?_) levels
    exact trade_reads h hfits hnext hd
  | .block body, h, hfits => by
    intro levels c d hrow _
    obtain ⟨hc, hnext, hlt⟩ := hrow.cons_symbol
    refine statement_reads (fun levels => ?_) levels
    unfold Parser.ReadsLoosely
    rw [anyStatement_block hc]
    exact ReadsLoosely.bind .advance hlt.le fun _ _ => block_reads (stmtReads_all body h hfits) hnext
  | .expr value, h, _ => by
    intro levels c d hrow hd
    refine statement_reads (fun levels => ?_) levels
    unfold Parser.ReadsLoosely
    rw [anyStatement_expr hrow.cons_symbol.1]
    exact expression_statement_reads h hrow hd

theorem stmtReads_all : ∀ ss : List Stmt, (∀ l ∈ Stmt.leavesAll ss, l.Legible) → Stmt.FitsAll ss → ∀ s ∈ ss, StmtReads s
  | [], _, _ => nofun
  | s :: ss, h, hfits => by
    obtain ⟨hs, hss⟩ := List.forall_mem_append.1 h
    exact List.forall_mem_cons.2 ⟨stmtReads_lexemes s hs hfits.1, stmtReads_all ss hss hfits.2⟩

end

end Parse

end StrategyScript
