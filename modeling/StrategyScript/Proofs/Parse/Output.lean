/-
What the parser can give at all. Its trees are made from proper tokens, so a number in them has no
sign, a name is one where an expression is expected, and a declared name is an identifier. Besides,
the literals among the arguments of a trade fit, and no branch with an `else` has a statement before
it that would have taken the `else` for its own.
-/
import StrategyScript.Proofs.Number.Sign
import StrategyScript.Proofs.Token.Render
import StrategyScript.Proofs.Token.Proper
import StrategyScript.Proofs.Parse.Branch

namespace StrategyScript

open Lexer

/-! ## Proper trees -/

/-- A word that stands for a name where an expression is expected. -/
structure IsName (x : String) : Prop where
  isWord : IsWord x.toList
  atom : ∀ p, Parse.atom? ⟨.word x, p⟩ = .ok (.identifier x p)
  unary : Parse.unaryOperator (.word x) = none

def Leaf.Proper : Leaf → Prop
  | .number x => Number.isNegative x = false
  | .string _ => True
  | .name x => IsName x
  | .declared x => IsWord x.toList ∧ wordKind x.toList = .identifier

def Expr.Proper (e : Expr) : Prop := ∀ l ∈ e.leaves, l.Proper

mutual

/-- What the grammar asks for beyond the shape of the tree. -/
def Stmt.Fits : Stmt → Prop
  | .function _ _ body | .block body => Stmt.FitsAll body
  | .branch _ thenBranch none => thenBranch.Fits
  | .branch _ thenBranch (some elseBranch) => thenBranch.isOpen = false ∧ thenBranch.Fits ∧ elseBranch.Fits
  | .whileLoop _ body | .forLoop _ _ _ body => body.Fits
  | .trade _ args _ => Parse.tradeArgumentComplaint? args = none
  | .var _ _ | .ret _ _ | .expr _ => True

def Stmt.FitsAll : List Stmt → Prop
  | [] => True
  | s :: ss => s.Fits ∧ Stmt.FitsAll ss

end

structure Stmt.Proper (s : Stmt) : Prop where
  leaves : ∀ l ∈ s.leaves, l.Proper
  fits : s.Fits

theorem leavesAll_proper {es : List Expr} (h : ∀ e ∈ es, e.Proper) : ∀ l ∈ Expr.leavesAll es, l.Proper := by
  induction es with
  | nil => nofun
  | cons e es ih =>
    obtain ⟨he, hes⟩ := List.forall_mem_cons.1 h
    exact List.forall_mem_append.2 ⟨he, ih hes⟩

theorem stmts_proper {ss : List Stmt} (h : ∀ s ∈ ss, s.Proper) :
    (∀ l ∈ Stmt.leavesAll ss, l.Proper) ∧ Stmt.FitsAll ss := by
  induction ss with
  | nil => exact ⟨nofun, trivial⟩
  | cons s ss ih =>
    obtain ⟨hs, hss⟩ := List.forall_mem_cons.1 h
    obtain ⟨hleaves, hfits⟩ := ih hss
    exact ⟨List.forall_mem_append.2 ⟨hs.leaves, hleaves⟩, hs.fits, hfits⟩

/-! ## What a parser gives on proper tokens -/

def Cursor.Proper (c : Cursor) : Prop := ∀ t ∈ c.rest, t.toLexeme.Proper

theorem Cursor.Proper.peek {c : Cursor} (h : c.Proper) : c.peek.toLexeme.Proper := by
  obtain ⟨_ | ⟨t, rest⟩, stop⟩ := c
  · exact Lexeme.Proper.of_kind nofun nofun nofun
  · exact h t List.mem_cons_self

theorem Cursor.Proper.next {c : Cursor} (h : c.Proper) : c.next.Proper :=
  fun t ht => h t (List.mem_of_mem_tail ht)

theorem Cursor.Proper.skip {c : Cursor} (h : c.Proper) (p : TokenKind → Bool) : (c.skip p).Proper :=
  fun t ht => h t ((List.dropWhile_sublist _).subset ht)

/-- A row of proper tokens. -/
def Sides.proper : Sides := within Cursor.Proper (fun _ h => h.next) fun _ p h => h.skip p

theorem Sides.Tokens.proper {t u : Token} (h : Sides.proper.Tokens t u) : t.toLexeme.Proper := by
  obtain ⟨w⟩ := h
  exact w.beside.2.peek

namespace Parse

open StrategyScript.Parser

/-! ## Expressions -/

theorem wordKind_word (k : Keyword) : wordKind k.word.toList = .keyword k := by
  cases k with
  | trade a => cases a <;> decide
  | price f => cases f <;> decide
  | _ => decide

theorem lowercase_word (k : Keyword) : Text.lowercase k.word = k.word := by
  cases k with
  | trade a => cases a <;> decide
  | price f => cases f <;> decide
  | _ => decide

theorem word_of_kind {w : String} {k : TokenKind} (h : wordKind w.toList = k) : Lexeme.word w = ⟨k, w⟩ :=
  congrArg (Lexeme.mk · w) h

theorem isName_keyword {k : Keyword} (hk : k.isBuiltinName) : IsName k.word := by
  have hword := word_of_kind (wordKind_word k)
  refine ⟨isWord_keyword k, fun p => ?_, ?_⟩
  · rw [hword]
    simp only [atom?]
    rw [if_pos hk, lowercase_word]
  · rw [hword]
    rfl

theorem isName_identifier {t : Token} (ht : t.toLexeme.Proper) (hk : t.kind = .identifier)
    (hunary : unaryOperator t.toLexeme = none) (htrue : t.isWord "true" = false) (hfalse : t.isWord "false" = false) :
    IsName t.text := by
  obtain ⟨hword, hkind⟩ := ht.identifier hk
  have hlexeme : Lexeme.word t.text = t.toLexeme := by
    rw [word_of_kind hkind, ← hk]
  refine ⟨hword, fun p => ?_, ?_⟩
  · rw [hlexeme]
    simp only [atom?]
    rw [hk, htrue, hfalse]
    rfl
  · rw [hlexeme, hunary]

theorem atom_proper {t : Token} {e : Expr} (ht : t.toLexeme.Proper) (hunary : unaryOperator t.toLexeme = none)
    (h : atom? t = .ok e) : e.Proper := by
  simp only [atom?] at h
  split at h
  case h_1 hk =>
    split at h
    · rename_i x hx
      cases h
      -- a numeral begins with a digit, so what it is read as has no sign
      obtain ⟨c, cs, htext, hc⟩ := ht.number hk
      rw [htext] at hx
      exact List.forall_mem_singleton.2 (Number.isNegative_readFloat hc hx)
    · cases h
  case h_2 hk =>
    cases h
    exact List.forall_mem_singleton.2 trivial
  case h_3 hk =>
    split at h
    · cases h
      exact List.forall_mem_nil _
    · split at h
      · cases h
        exact List.forall_mem_nil _
      · rename_i htrue hfalse
        cases h
        rw [Bool.not_eq_true] at htrue hfalse
        exact List.forall_mem_singleton.2 (isName_identifier ht hk hunary htrue hfalse)
  case h_4 k hk =>
    split at h
    · rename_i hbuiltin
      cases h
      rw [ht.keyword k hk]
      exact List.forall_mem_singleton.2 (isName_keyword hbuiltin)
    · cases h
  case h_5 => cases h

end Parse

/-- An expression that is made of proper tokens and proper expressions is proper. -/
theorem Expr.Made.proper {k : Nat} {e f : Expr} (h : Made .proper (fun e _ => e.Proper) k e f) : e.Proper := by
  induction h with
  | atom ht hunary he _ => exact Parse.atom_proper ht.proper hunary he
  | parens h => exact h
  | call _ hargs ih =>
    exact List.forall_mem_cons.2 ⟨ih _ List.mem_cons_self, leavesAll_proper (forall_mem_of_forall₂ hargs fun _ _ he => he)⟩
  | index _ hi ih => exact List.forall_mem_append.2 ⟨ih, hi⟩
  | unary _ h => exact h
  | looser _ ih => exact ih
  | binary _ _ _ ihl ihr => exact List.forall_mem_append.2 ⟨ihl, ihr⟩
  | assign _ hv ih => exact List.forall_mem_cons.2 ⟨ih _ List.mem_cons_self, hv⟩

/-! ## Statements -/

/-- The statement is proper, and nothing behind it would still become a part of it. -/
structure Stmt.Ends (s : Stmt) (d : Cursor) : Prop where
  proper : s.Proper
  settled : s.Settled d

theorem Sides.Declares.proper {x : String} (h : Sides.proper.Declares x) : (Leaf.declared x).Proper := by
  obtain ⟨t, u, ht, hkind, rfl⟩ := h
  exact ht.proper.identifier hkind

theorem leavesIn_of_rel {R : Expr → Expr → Prop} {o o' : Option Expr} (h : Option.Rel R o o')
    (hR : ∀ e f, R e f → e.Proper) : ∀ l ∈ Expr.leavesIn o, l.Proper := by
  cases h with
  | none => nofun
  | some he => exact hR _ _ he

theorem LoopStart.Made.proper {start start' : LoopStart} (h : start.Made .proper (fun e _ => e.Proper) start') :
    ∀ l ∈ start.leaves, l.Proper := by
  cases h with
  | var hx ho => exact List.forall_mem_cons.2 ⟨hx.proper, leavesIn_of_rel ho fun _ _ he => he⟩
  | expr he => exact he

/-- A statement that is made of proper parts is proper. -/
theorem Stmt.Made.ends {t u : Stmt} {w : Sides.proper.Place}
    (h : Made .proper (fun e _ => e.Proper) (fun t _ w => t.Ends w.left) t u w) : t.Ends w.left := by
  have hsettled := h.settled fun _ _ _ ht => ht.settled
  have hall : ∀ {ts us : List Stmt}, List.Forall₂ (fun t _ => ∃ w : Sides.proper.Place, t.Ends w.left) ts us →
      (∀ l ∈ Stmt.leavesAll ts, l.Proper) ∧ Stmt.FitsAll ts := by
    intro ts us h
    refine stmts_proper (forall_mem_of_forall₂ h ?_)
    rintro t _ ⟨w, ht⟩
    exact ht.proper
  refine ⟨?_, hsettled⟩
  cases h with
  | @function x xs ts us w hx hxs h =>
    obtain ⟨hleaves, hfits⟩ := hall h
    have hparams : ∀ l ∈ xs.map Leaf.declared, l.Proper := by
      intro l hl
      obtain ⟨y, hy, rfl⟩ := List.mem_map.1 hl
      exact (hxs y hy).proper
    exact ⟨List.forall_mem_cons.2 ⟨hx.proper, List.forall_mem_append.2 ⟨hparams, hleaves⟩⟩, hfits⟩
  | var hx ho => exact ⟨List.forall_mem_cons.2 ⟨hx.proper, leavesIn_of_rel ho fun _ _ he => he⟩, trivial⟩
  | branch he ht ho =>
    have hthen := ht.proper
    cases ho with
    | none => exact ⟨List.forall_mem_append.2 ⟨he, hthen.leaves⟩, hthen.fits⟩
    | some _ hu =>
      have helse := hu.proper
      refine ⟨?_, hsettled.own _ _ _ rfl, hthen.fits, helse.fits⟩
      exact List.forall_mem_append.2 ⟨he, List.forall_mem_append.2 ⟨hthen.leaves, helse.leaves⟩⟩
  | whileLoop he ht => exact ⟨List.forall_mem_append.2 ⟨he, ht.proper.leaves⟩, ht.proper.fits⟩
  | forLoop hstart ho hi ht =>
    have hrest := List.forall_mem_append.2 ⟨leavesIn_of_rel ho fun _ _ he => he,
      List.forall_mem_append.2 ⟨leavesIn_of_rel hi fun _ _ he => he, ht.proper.leaves⟩⟩
    refine ⟨?_, ht.proper.fits⟩
    cases hstart with
    | none => exact hrest
    | some hstart => exact List.forall_mem_append.2 ⟨hstart.proper, hrest⟩
  | ret ho _ => exact ⟨leavesIn_of_rel ho fun _ _ he => he, trivial⟩
  | trade hargs hfit _ => exact ⟨leavesAll_proper (forall_mem_of_forall₂ hargs fun _ _ he => he), hfit⟩
  | block h => exact ⟨(hall h).1, (hall h).2⟩
  | expr he => exact ⟨he, trivial⟩

/-- The tokens of a source are proper, and so are the statements of any program that the parser gives. -/
theorem Parse.source_proper {text : String} {p : Program} (h : source text = .ok p) :
    (∀ l ∈ Stmt.leavesAll p, l.Proper) ∧ Stmt.FitsAll p := by
  have hc : (Cursor.ofTokens (tokens text)).Proper :=
    fun t ht => proper_tokens text t (List.takeWhile_sublist _ |>.subset ht)
  refine stmts_proper fun t ht => ?_
  obtain ⟨_, hends⟩ := Sides.oneRow_within.program (s := .proper) (R := fun _ e => e.Proper) (S := fun _ t c => t.Ends c)
    (fun _ _ _ h => h.proper) (fun _ _ _ _ h => h.ends) ⟨_, _, rfl, hc⟩ rfl h t ht
  exact hends.proper

end StrategyScript
