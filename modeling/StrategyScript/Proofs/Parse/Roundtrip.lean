/-
Printing a program and reading it again gives the program back. Its text spells its lexemes, and these
are read as its statements, so nothing is lost but lines and columns; only the parentheses that the
text has more than its source can go deeper than a program may.
-/
import StrategyScript.Proofs.Parse.ReadStmt

namespace StrategyScript

/-- The tokens of a text stand in a row up to the end of input. -/
theorem Cursor.row_ofTokens (text : String) :
    ∃ d, Cursor.Row (Lexer.lexemes text.toList) (.ofTokens (Lexer.tokens text)) d ∧ d.peek.kind = .endOfInput := by
  obtain ⟨ts, us, htokens, hts, hus⟩ := List.map_eq_append_iff.1 (Lexer.tokens_toLexeme text)
  obtain ⟨t, us, rfl, ht, hnil⟩ := List.map_eq_cons_iff.1 hus
  obtain rfl := List.map_eq_nil_iff.1 hnil
  have hkind : t.kind = .endOfInput := congrArg Lexeme.kind ht
  have hspoken : ∀ u ∈ ts, u.kind ≠ .endOfInput := by
    intro u hu
    have hmem := List.mem_map_of_mem (f := Token.toLexeme) hu
    rw [hts] at hmem
    exact (Lexer.spoken_lexemes _ _ hmem).2
  -- nothing before the last token is the end of input
  have hrest : (Lexer.tokens text).takeWhile (·.kind ≠ .endOfInput) = ts := by
    rw [htokens, List.takeWhile_append_of_pos (by simpa using hspoken)]
    simp [hkind]
  refine ⟨⟨[], (Cursor.ofTokens (Lexer.tokens text)).stop⟩, ⟨ts, hts, ?_⟩, rfl⟩
  show Cursor.mk ((Lexer.tokens text).takeWhile (·.kind ≠ .endOfInput)) _ = _
  rw [hrest, List.append_nil]
  rfl

namespace Parse

/-- Any program that the parser gives is read back from its text, as long as its numbers are finite and
survive being printed and read, and its strings are made of characters that quotes keep. Otherwise the
text is nested too deeply. -/
theorem text_reads_back {source : String} {p : Program} (h : Parse.source source = .ok p)
    (hfinite : ∀ x, .number x ∈ Stmt.leavesAll p → x.isFinite)
    (hnumbers : ∀ x, .number x ∈ Stmt.leavesAll p → x.isFinite → Number.readFloat (Number.text x) = .ok x)
    (hstrings : ∀ s, .string s ∈ Stmt.leavesAll p → ∀ c ∈ s.toList, Lexer.Quotable c) :
    (∃ e what, Parse.source p.text = .error e ∧ e.message = (Complaint.tooDeep what).message) ∨
      ∃ q, Parse.source p.text = .ok q ∧ Stmt.relocateAll .erase q = Stmt.relocateAll .erase p := by
  obtain ⟨hproper, hfits⟩ := source_proper h
  -- the text can carry every leaf, and every leaf is read as itself
  have hspelled : ∀ l ∈ Stmt.leavesAll p, l.Spelled := by
    intro l hl
    have hl' := hproper l hl
    cases l with
    | number x => exact Number.isNumeral_text (hfinite x hl) hl'
    | string s => exact hstrings s hl
    | name x => exact hl'.isWord
    | declared x => exact hl'.1
  have hlegible : ∀ l ∈ Stmt.leavesAll p, l.Legible := by
    refine fun l hl => ⟨hproper l hl, ?_⟩
    rintro x rfl
    exact hnumbers x hl (hfinite x hl)
  obtain ⟨d, hrow, hd⟩ := Cursor.row_ofTokens p.text
  rw [Program.lexemes_text p hspelled] at hrow
  have hread : (statements maxNesting).Reads (fun q => List.Forall₂ Stmt.Alike q p) _ d :=
    statements_reads (stmtReads_all p hlegible hfits) hrow hd
  unfold Parse.source program
  unfold Parser.Reads at hread
  cases hstatements : statements maxNesting (.ofTokens (Lexer.tokens p.text)) with
  | ok q c =>
    rw [hstatements] at hread
    exact .inr ⟨q, rfl, Stmt.relocateAll_of_alike hread.1⟩
  | error e c =>
    rw [hstatements] at hread
    obtain ⟨what, hwhat⟩ := hread
    exact .inl ⟨e, what, rfl, hwhat⟩

theorem branch_reads_back :
    let p : Program := [.branch (.identifier "a" ⟨1, 5⟩)
      (.trade .buy [.string "x\n" ⟨1, 12⟩, .number 1.5 ⟨1, 19⟩] 1) (some (.expr (.identifier "b" ⟨1, 30⟩)))]
    Parse.source "if (a) buy('x\\n', 1.5); else b" = .ok p ∧
      p.text = "if (a) buy(\x22x\\n\x22, 1.5)\nelse (b)\n\n" ∧
      ((∃ e what, Parse.source p.text = .error e ∧ e.message = (Complaint.tooDeep what).message) ∨
        ∃ q, Parse.source p.text = .ok q ∧ Stmt.relocateAll .erase q = Stmt.relocateAll .erase p) := by
  intro p
  have hsource : Parse.source "if (a) buy('x\\n', 1.5); else b" = .ok p := rfl
  have hnumber : ∀ x, .number x ∈ Stmt.leavesAll p → x = 1.5 := by
    intro x hx
    simpa [p, Stmt.leavesAll, Stmt.leaves, Expr.leaves, Expr.leavesAll] using hx
  have hstring : ∀ s, .string s ∈ Stmt.leavesAll p → s = "x\n" := by
    intro s hs
    simpa [p, Stmt.leavesAll, Stmt.leaves, Expr.leaves, Expr.leavesAll] using hs
  refine ⟨hsource, rfl, text_reads_back hsource (fun x hx => ?_) (fun x hx _ => ?_) fun s hs => ?_⟩
  · rw [hnumber x hx]
    rfl
  · rw [hnumber x hx]
    rfl
  · rw [hstring s hs]
    have hchars : "x\n".toList = ['x', '\n'] := rfl
    rw [hchars]
    exact List.forall_mem_cons.2 ⟨.inl (by decide), List.forall_mem_singleton.2 (.inr (by decide))⟩

end Parse

end StrategyScript
