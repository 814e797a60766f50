/-
The layout of a source has no meaning for the parser, since it does not look at positions. On two rows of tokens that
say the same it does the same: it stops after as many tokens, with trees that meet when the positions of each are moved
to where they belong together, or with the same message at tokens that belong together.
-/
import StrategyScript.Proofs.Parse.Grammar

namespace StrategyScript

/-! ## Rows that say the same -/

section

variable (P : Position → Position → Prop)

/-- Tokens that say the same, at places that belong together. -/
structure Token.Alike (t u : Token) : Prop where
  lexeme : t.toLexeme = u.toLexeme
  position : P t.position u.position

structure Cursor.Alike (c d : Cursor) : Prop where
  rest : List.Forall₂ (Token.Alike P) c.rest d.rest
  stop : P c.stop d.stop

end

variable {P : Position → Position → Prop}

theorem Token.Alike.kind {t u : Token} (h : t.Alike P u) : t.kind = u.kind := congrArg Lexeme.kind h.lexeme

namespace Cursor.Alike

variable {c d : Cursor}

theorem peek (h : c.Alike P d) : c.peek.Alike P d.peek := by
  obtain ⟨rest, stop⟩ := c
  obtain ⟨rest', stop'⟩ := d
  obtain ⟨hrest, hstop⟩ := h
  cases hrest with
  | nil => exact ⟨rfl, hstop⟩
  | cons ht _ => exact ht

theorem next (h : c.Alike P d) : c.next.Alike P d.next := by
  obtain ⟨rest, stop⟩ := c
  obtain ⟨rest', stop'⟩ := d
  obtain ⟨hrest, hstop⟩ := h
  cases hrest with
  | nil => exact ⟨.nil, hstop⟩
  | cons _ hr => exact ⟨hr, hstop⟩

theorem skip (h : c.Alike P d) (p : TokenKind → Bool) : (c.skip p).Alike P (d.skip p) := by
  refine ⟨?_, h.stop⟩
  have hrest := h.rest
  simp only [Cursor.skip]
  generalize c.rest = ts at hrest
  generalize d.rest = us at hrest
  induction hrest with
  | nil => exact .nil
  | cons ht hr ih =>
    simp only [List.dropWhile_cons, ht.kind]
    split
    · exact ih
    · exact .cons ht hr

end Cursor.Alike

/-- Two rows that say the same, side by side. -/
def Sides.rows (P : Position → Position → Prop) : Sides where
  Beside := Cursor.Alike P
  lexeme h := h.peek.lexeme
  length h := h.rest.length_eq
  next h := h.next
  skip h := h.skip

/-- Places that belong together go to the same place. -/
def Relocation.Joins (ρ σ : Relocation) (P : Position → Position → Prop) : Prop :=
  ∀ p q, P p q → ρ.position p = σ.position q

theorem Sides.joined_rows {ρ σ : Relocation} (hP : ρ.Joins σ P) : (rows P).Joined ρ σ := by
  rintro _ _ ⟨w⟩
  exact hP _ _ w.beside.peek.position

namespace Parse

variable {ρ σ : Relocation}

/-! ## The parser on both rows -/

theorem statements_alike (hP : ρ.Joins σ P) (levels : Nat) :
    (Sides.rows P).parsers.Rel (List.Forall₂ (Stmt.Meet ρ σ)) (statements levels) (statements levels) := by
  have hjoined := Sides.joined_rows hP
  have hslot : ∀ (n : Nat) (e f : Expr), e.Meet ρ σ f → e.Alike f := fun _ _ _ h => h.alike
  have hexpression := Sides.expression hslot fun _ _ _ h => h.meet hjoined fun _ _ h => h
  have hstatement : ∀ n w, (Sides.rows P).parsers.Run w (statement n) (statement n) fun t u _ => t.Meet ρ σ u :=
    Sides.statement hslot hexpression fun _ _ _ _ h => h.meet hjoined (fun _ _ h => h) fun _ _ _ h => h
  refine (Accord.allStatements (hstatement levels)).mono fun ts us htus => htus.imp ?_
  rintro t u ⟨-, h⟩
  exact h

/-! ## Programs -/

theorem find?_alike {p : TokenKind → Bool} {ts us : List Token} (h : List.Forall₂ (Token.Alike P) ts us) :
    Option.Rel (Token.Alike P) (ts.find? fun t => p t.kind) (us.find? fun t => p t.kind) := by
  induction h with
  | nil => exact .none
  | cons ht _ ih =>
    rw [List.find?_cons, List.find?_cons, ht.kind]
    split
    · exact .some ht
    · exact ih

theorem takeWhile_alike {p : TokenKind → Bool} {ts us : List Token} (h : List.Forall₂ (Token.Alike P) ts us) :
    List.Forall₂ (Token.Alike P) (ts.takeWhile fun t => p t.kind) (us.takeWhile fun t => p t.kind) := by
  induction h with
  | nil => exact .nil
  | cons ht _ ih =>
    rw [List.takeWhile_cons, List.takeWhile_cons, ht.kind]
    split
    · exact .cons ht ih
    · exact .nil

theorem getLast?_alike {ts us : List Token} (h : List.Forall₂ (Token.Alike P) ts us) :
    Option.Rel (Token.Alike P) ts.getLast? us.getLast? := by
  have hrev := List.forall₂_reverse_iff.2 h
  rw [List.getLast?_eq_head?_reverse, List.getLast?_eq_head?_reverse]
  generalize ts.reverse = vs at hrev
  generalize us.reverse = ws at hrev
  cases hrev with
  | nil => exact .none
  | cons ht _ => exact .some ht

/-- A row of tokens begins and ends where a row that says the same does. -/
theorem ofTokens_alike {ts us : List Token} (h : List.Forall₂ (Token.Alike P) ts us)
    (hstart : ts = [] → P .start .start) : (Cursor.ofTokens ts).Alike P (Cursor.ofTokens us) := by
  refine ⟨takeWhile_alike (p := fun k => k ≠ .endOfInput) h, ?_⟩
  have hfind := find?_alike (p := fun k => k = .endOfInput) h
  have hlast := getLast?_alike h
  simp only [Cursor.ofTokens]
  generalize ts.find? (fun t => t.kind = .endOfInput) = x at hfind
  generalize us.find? (fun t => t.kind = .endOfInput) = y at hfind
  generalize hx : ts.getLast? = v at hlast
  generalize us.getLast? = w at hlast
  cases hfind with
  | some ht => exact ht.position
  | none =>
    cases hlast with
    | some ht => exact ht.position
    | none => exact hstart (List.getLast?_eq_none_iff.1 hx)

/-- Two rows that say the same are the same program, or fail alike at places that belong together. -/
theorem program_alike (hP : ρ.Joins σ P) {ts us : List Token} (h : List.Forall₂ (Token.Alike P) ts us)
    (hstart : ts = [] → P .start .start) :
    (∃ p q, program ts = .ok p ∧ program us = .ok q ∧ Stmt.relocateAll ρ p = Stmt.relocateAll σ q) ∨
      ∃ e f, program ts = .error e ∧ program us = .error f ∧ e.message = f.message ∧ P e.position f.position := by
  have hended : (Sides.rows P).Ended _ (statements maxNesting (.ofTokens ts)) (statements maxNesting (.ofTokens us)) :=
    statements_alike hP maxNesting ⟨_, _, ofTokens_alike h hstart⟩
  unfold program
  generalize statements maxNesting (.ofTokens ts) = x at hended
  generalize statements maxNesting (.ofTokens us) = y at hended
  cases hended with
  | ok w hpq => exact .inl ⟨_, _, rfl, rfl, Stmt.relocateAll_of_meet hpq⟩
  | error w hc htu =>
    obtain ⟨w⟩ := htu
    exact .inr ⟨_, _, rfl, rfl, rfl, w.beside.peek.position⟩

/-- Two places stand at the same index of two rows. -/
def SameIndex (ts us : List Token) (p q : Position) : Prop :=
  ∃ (i : Nat) (t u : Token), ts[i]? = some t ∧ us[i]? = some u ∧ t.position = p ∧ u.position = q

theorem forall₂_sameIndex {ts us : List Token} (h : ts.map Token.toLexeme = us.map Token.toLexeme) :
    List.Forall₂ (Token.Alike (SameIndex ts us)) ts us := by
  have hlen : ts.length = us.length := by simpa using congrArg List.length h
  refine List.forall₂_iff_get.2 ⟨hlen, fun i hi hi' => ⟨?_, i, ts[i], us[i], ?_, ?_, rfl, rfl⟩⟩
  · have hget := congrArg (fun l => l[i]?) h
    simpa [hi, hi'] using hget
  · exact List.getElem?_eq_getElem hi
  · exact List.getElem?_eq_getElem hi'

end Parse

/-- There is the end of input at least. -/
theorem Lexer.place_ne_nil (p : Position) (segments : List Lexer.Segment) : Lexer.place p segments ≠ [] := by
  induction segments generalizing p with
  | nil => exact List.cons_ne_nil _ _
  | cons s rest ih =>
    simp only [Lexer.place]
    split
    · exact List.cons_ne_nil _ _
    · exact ih _

theorem Parse.source_alike {source source' : String}
    (h : (Lexer.tokens source).map Token.toLexeme = (Lexer.tokens source').map Token.toLexeme) :
    (∃ p q, Parse.source source = .ok p ∧ Parse.source source' = .ok q ∧
        Stmt.relocateAll .erase p = Stmt.relocateAll .erase q) ∨
      ∃ e f, Parse.source source = .error e ∧ Parse.source source' = .error f ∧ e.message = f.message ∧
        SameIndex (Lexer.tokens source) (Lexer.tokens source') e.position f.position :=
  program_alike (fun _ _ _ => rfl) (forall₂_sameIndex h) fun hnil => absurd hnil (Lexer.place_ne_nil _ _)

end StrategyScript
