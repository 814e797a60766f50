/-
The tree of a program accounts for its row. Read back in the order of the source, a program has the
signs of all tokens before the first end of input but the punctuation: no token is lost or made up, and
none has changed its place.

What a word is kept as depends on where it stands: `and` between two expressions is an operator, and
`true` an expression of its own, while either of them can be declared as a name.
-/
import StrategyScript.Proofs.Parse.Recovery

namespace StrategyScript

namespace Parse

open StrategyScript.Parser

variable {levels : Nat} {c : Cursor} {ss : List Stmt}

/-- Where no end of input is left in the row, the end of input stands behind all tokens. -/
theorem rest_eq_nil (hrest : ∀ t ∈ c.rest, t.kind ≠ .endOfInput) (hend : c.peek.kind = .endOfInput) :
    c.rest = [] := by
  obtain ⟨_ | ⟨t, rest⟩, stop⟩ := c
  · rfl
  · exact absurd hend (hrest t List.mem_cons_self)

/-- If there are no errors to be found, the statements have the signs of all that is left of the row. -/
theorem Finds.tells (h : Finds levels c ss []) (hrest : ∀ t ∈ c.rest, t.kind ≠ .endOfInput) :
    Sign.Tell (Stmt.signsAll ss) c.rest := by
  generalize herrors : ([] : List ParseError) = errors at h
  induction h with
  | @stop c hend =>
    obtain ⟨ts, hskip, htell⟩ := skipTerminators_keeps c
    have hnil : (c.skip isTerminator).rest = [] := by
      refine rest_eq_nil ?_ hend
      intro t ht
      refine hrest t ?_
      rw [hskip.rest]
      exact List.mem_append_right ts ht
    rw [hskip.rest, hnil, List.append_nil]
    exact htell
  | @statement c d s ss es hgo hs h ih =>
    obtain ⟨ts, hd, -, htell⟩ := statement_read hs
    have hsplit := hd.rest
    have hothers : Sign.Tell (Stmt.signsAll ss) d.rest := by
      refine ih ?_ herrors
      intro t ht
      refine hrest t ?_
      rw [hsplit]
      exact List.mem_append_right ts ht
    rw [hsplit]
    exact htell.append hothers
  | error _ _ _ _ => cases herrors

variable {tokens : List Token} {p : Program}

/-- A program, read in the order of the source, tells the tokens before the first end of input one by one,
without their punctuation. -/
theorem program_tells (h : program tokens = .ok p) :
    Sign.Tell (Stmt.signsAll p) (tokens.takeWhile (·.kind ≠ .endOfInput)) := by
  have hfinds := finds_of_ok h
  exact hfinds.tells fun _ => Cursor.kind_of_mem_takeWhile

/-- The words for operators and literals and the name of a built-in, in capitals and in small letters. -/
theorem loop_tells :
    ∃ p, program (Lexer.tokens "while (a And NOT True) \x7b b = Sma(1.5, 'x')[-c]\n\x7d") = .ok p ∧
      Stmt.signsAll p = [.keyword .whileWord, .name "a", .binary .and, .unary .not, .boolean true, .name "b", .assign,
        .name "sma", .number 1.5, .string "x", .unary .negate, .name "c"] ∧
      Sign.Tell (Stmt.signsAll p)
        ((Lexer.tokens "while (a And NOT True) \x7b b = Sma(1.5, 'x')[-c]\n\x7d").takeWhile (·.kind ≠ .endOfInput)) := by
  have hprogram : program (Lexer.tokens "while (a And NOT True) \x7b b = Sma(1.5, 'x')[-c]\n\x7d") = .ok [.whileLoop
      (.binary .and (.identifier "a" ⟨1, 8⟩) (.unary .not (.boolean true ⟨1, 18⟩) ⟨1, 14⟩) ⟨1, 10⟩)
      (.block [.expr (.assign "b"
        (.index (.call "sma" [.number 1.5 ⟨1, 34⟩, .string "x" ⟨1, 39⟩] ⟨1, 30⟩)
          (.unary .negate (.identifier "c" ⟨1, 45⟩) ⟨1, 44⟩) ⟨1, 30⟩) ⟨1, 26⟩)])] := by
    exact rfl
  exact ⟨_, hprogram, rfl, program_tells hprogram⟩

end Parse

end StrategyScript
