/-
Reading up to newlines. Some statements leave the newlines behind them unread and others take all of
them, so a reader of statements need not stop exactly where a statement ends; it stops there but for
newlines, and a reader that goes on from there passes over newlines first.
-/
import StrategyScript.Proofs.Parse.ReadExpr

namespace StrategyScript

/-! ## Newlines -/

namespace Cursor

/-- The place behind the newlines that stand here. -/
def afterNewlines (c : Cursor) : Cursor := c.skip (· == .newline)

theorem skip_of_not {c : Cursor} {p : TokenKind → Bool} (h : p c.peek.kind = false) : c.skip p = c := by
  obtain ⟨_ | ⟨t, rest⟩, stop⟩ := c
  · rfl
  · have ht : p t.kind = false := h
    unfold Cursor.skip
    rw [List.dropWhile_cons, if_neg (by rw [ht]; nofun)]

theorem skip_of {c : Cursor} {p : TokenKind → Bool} (h : p c.peek.kind) (hend : p .endOfInput = false) :
    c.skip p = c.next.skip p := by
  obtain ⟨_ | ⟨t, rest⟩, stop⟩ := c
  · exact absurd (hend.symm.trans h) nofun
  · have ht : p t.kind := h
    unfold Cursor.skip
    rw [List.dropWhile_cons, if_pos ht]
    rfl

theorem skip_skip {p q : TokenKind → Bool} (h : ∀ k, q k → p k) (c : Cursor) : (c.skip q).skip p = c.skip p := by
  obtain ⟨rest, stop⟩ := c
  unfold Cursor.skip
  dsimp only
  congr 1
  induction rest with
  | nil => rfl
  | cons t rest ih =>
    rw [List.dropWhile_cons]
    split
    · rename_i hq
      rw [ih, List.dropWhile_cons, if_pos (h _ hq)]
    · rfl

theorem length_skip_le (c : Cursor) (p : TokenKind → Bool) : (c.skip p).rest.length ≤ c.rest.length :=
  (List.dropWhile_sublist _).length_le

theorem afterNewlines_self {c : Cursor} (h : c.peek.kind ≠ .newline) : c.afterNewlines = c :=
  skip_of_not (by simpa using h)

theorem afterNewlines_next {c : Cursor} (h : c.peek.kind = .newline) : c.afterNewlines = c.next.afterNewlines :=
  skip_of (p := (· == .newline)) (by rw [h]; rfl) rfl

theorem afterNewlines_twice (c : Cursor) : c.afterNewlines.afterNewlines = c.afterNewlines :=
  skip_skip (fun _ h => h) c

theorem peek_afterNewlines (c : Cursor) : c.afterNewlines.peek.kind ≠ .newline := by
  obtain ⟨rest, stop⟩ := c
  induction rest with
  | nil => nofun
  | cons t rest ih =>
    by_cases ht : (Cursor.peek ⟨t :: rest, stop⟩).kind = .newline
    · rw [afterNewlines_next ht]
      exact ih
    · rw [afterNewlines_self ht]
      exact ht

/-- Where no semicolon stands behind the newlines, they are all there is to skip. -/
theorem skipTerminators_eq {c d : Cursor} (h : c.afterNewlines = d.afterNewlines)
    (hd : d.afterNewlines.peek.kind ≠ .symbol .semicolon) : c.skip Parse.isTerminator = d.afterNewlines := by
  have hnewline : ∀ k : TokenKind, k == .newline → Parse.isTerminator k := by
    intro k hk
    rw [eq_of_beq hk]
    rfl
  rw [← skip_skip hnewline c, show c.skip (· == .newline) = d.afterNewlines from h]
  refine skip_of_not ?_
  have hne := d.peek_afterNewlines
  unfold Parse.isTerminator
  simp [hne, hd]

end Cursor

/-! ## Reading up to newlines -/

namespace Parser

variable {α β : Type} {R : α → Prop} {S : β → Prop} {c m d : Cursor}

/-- From `c` the parser reads up to `d`, where newlines do not count. -/
def ReadsLoosely (p : Parser α) (R : α → Prop) (c d : Cursor) : Prop :=
  (p c).Post ParseError.Deep fun a d' => R a ∧ d'.afterNewlines = d.afterNewlines ∧ d'.rest.length < c.rest.length

theorem Reads.loosely {p : Parser α} (h : p.Reads R c m) (hm : m.afterNewlines = d.afterNewlines)
    (hlt : m.rest.length < c.rest.length) : p.ReadsLoosely R c d := by
  refine Parsed.Post.mono h ?_
  rintro a _ ⟨ha, rfl⟩
  exact ⟨ha, hm, hlt⟩

theorem ReadsLoosely.bind {p : Parser α} {f : α → Parser β} (hp : p.Reads R c m) (hle : m.rest.length ≤ c.rest.length)
    (hf : ∀ a, R a → (f a).ReadsLoosely S m d) : (p >>= f).ReadsLoosely S c d := by
  refine Parsed.Post.bind (Parsed.Post.mono hp ?_)
  rintro a _ ⟨ha, rfl⟩
  exact Parsed.Post.mono (hf a ha) fun b d' ⟨hb, hd', hlt⟩ => ⟨hb, hd', hlt.trans_le hle⟩

theorem ReadsLoosely.map {p : Parser α} {f : α → β} (h : p.ReadsLoosely R c m)
    (hm : m.afterNewlines = d.afterNewlines) (hf : ∀ a, R a → S (f a)) :
    (p >>= fun a => Pure.pure (f a)).ReadsLoosely S c d :=
  Parsed.Post.bind (Parsed.Post.mono h fun a _ ⟨ha, hd, hlt⟩ => ⟨hf a ha, hd.trans hm, hlt⟩)

theorem ReadsLoosely.tooDeep (what : Parse.Construct) : (Parse.tooDeep what : Parser α).ReadsLoosely R c d :=
  ⟨what, rfl⟩

end Parser

/-- What stands behind the statement is not taken for a part of it. -/
structure Stmt.Precedes (s : Stmt) (d : Cursor) : Prop where
  noSemicolon : d.afterNewlines.peek.kind ≠ .symbol .semicolon
  noElse : s.isOpen → d.afterNewlines.peek.kind ≠ .keyword .elseWord

theorem Cursor.Row.newline {c d : Cursor} (h : Cursor.Row [.newline] c d) :
    c.peek.kind = .newline ∧ c.afterNewlines = d.afterNewlines := by
  obtain ⟨hl, hnext, -⟩ := h.cons
  obtain rfl := hnext.nil
  have hk : c.peek.kind = .newline := congrArg Lexeme.kind hl
  exact ⟨hk, Cursor.afterNewlines_next hk⟩

/-- What stands behind a statement stands behind its last part too, after the newline of that part. -/
theorem Stmt.Precedes.inner {s outer : Stmt} {c d : Cursor} (hd : outer.Precedes d) (hrow : Cursor.Row [.newline] c d)
    (hopen : s.isOpen → outer.isOpen) : s.Precedes c := by
  obtain ⟨-, hc⟩ := hrow.newline
  refine ⟨?_, fun h => ?_⟩
  · rw [hc]
    exact hd.noSemicolon
  · rw [hc]
    exact hd.noElse (hopen h)

/-! ## Words at their places -/

namespace Cursor.Row

variable {ls : List Lexeme} {c d : Cursor}

theorem cons_keyword {k : Keyword} (h : Row (.word k.word :: ls) c d) :
    c.peek.kind = .keyword k ∧ Row ls c.next d ∧ c.next.rest.length < c.rest.length := by
  obtain ⟨hl, hrow, hlt⟩ := h.cons
  rw [Parse.word_of_kind (Parse.wordKind_word k)] at hl
  exact ⟨congrArg Lexeme.kind hl, hrow, hlt⟩

theorem cons_declared {name : String} (hname : (Leaf.declared name).Proper) (h : Row (.word name :: ls) c d) :
    c.peek.kind = .identifier ∧ c.peek.text = name ∧ Row ls c.next d ∧ c.next.rest.length < c.rest.length := by
  obtain ⟨hl, hrow, hlt⟩ := h.cons
  rw [Parse.word_of_kind hname.2] at hl
  exact ⟨congrArg Lexeme.kind hl, congrArg Lexeme.text hl, hrow, hlt⟩

end Cursor.Row

end StrategyScript
