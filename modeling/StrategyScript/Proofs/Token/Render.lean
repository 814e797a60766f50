/-
The text of a program spells its lexemes. Each literal and each name has to be one that the text can
carry: a number in digits, a string of characters that the quotes keep, a word.
-/
import StrategyScript.Proofs.Token.Spell

namespace StrategyScript

/-- The text can carry it. -/
def Leaf.Spelled : Leaf → Prop
  | .number x => Number.IsNumeral (Number.text x).toList
  | .string s => ∀ c ∈ s.toList, Lexer.Quotable c
  | .name x | .declared x => Lexer.IsWord x.toList

namespace Lexer

/-! ## Rules -/

section

variable {cs ds text : List Char} {ls ms : List Lexeme} {F : List Char → Prop}

theorem Spells.spaced (h : Spells ds ms F) : Spells (' ' :: ds) ms F := spells_space.then h

theorem Spells.behind {s : Symbol} {c : Char} (h : Spells ds ms F) (hc : s.spelling = [c]) (hs : standsAlone s) :
    Spells (c :: ds) (.symbol s :: ms) F :=
  (spells_alone hc hs).then h

theorem Spells.opened (h : Spells ds ms F) : Spells ('(' :: ds) (.symbol .leftParen :: ms) F := h.behind rfl rfl

theorem Spells.braced (h : Spells ds ms F) : Spells ('\x7b' :: ds) (.symbol .leftBrace :: ms) F := h.behind rfl rfl

/-- The closing parenthesis behind an expression. -/
theorem Spells.closed (h : Spells cs ls Delimited) (h' : Spells ds ms F) :
    Spells (cs ++ ')' :: ds) (ls ++ .symbol .rightParen :: ms) F :=
  h.before (h'.behind rfl rfl) rfl

theorem Spells.ended (h : Spells cs ls Delimited) : Spells (cs ++ ['\n']) (ls ++ [.newline]) Anything :=
  h.before spells_newline rfl

theorem spells_brace : Spells ['\x7d', '\n'] [.symbol .rightBrace, .newline] Anything :=
  spells_newline.behind rfl rfl

/-- An equals sign between spaces. -/
theorem Spells.assigned (h : Spells cs ls Delimited) (h' : Spells ds ms F) :
    Spells (cs ++ ' ' :: '=' :: ' ' :: ds) (ls ++ .symbol .assign :: ms) F :=
  h.before ((spells_symbol .assign).before h'.spaced rfl).spaced rfl

theorem Spells.word {w : String} (h : Spells (' ' :: ds) ms F) (hw : IsWord w.toList) :
    Spells (w.toList ++ ' ' :: ds) (.word w :: ms) F :=
  (spells_word hw).before h rfl

end

/-- Whether the first character begins a word and all others continue it. -/
def isWord : List Char → Bool
  | [] => false
  | c :: cs => beginsWord c && cs.all continuesWord

theorem isWord_iff {cs : List Char} : isWord cs ↔ IsWord cs := by
  constructor
  · intro h
    cases cs with
    | nil => cases h
    | cons c cs =>
      obtain ⟨hc, hcs⟩ := Bool.and_eq_true_iff.1 h
      exact ⟨c, cs, rfl, hc, List.all_eq_true.1 hcs⟩
  · rintro ⟨c, cs, rfl, hc, hcs⟩
    exact Bool.and_eq_true_iff.2 ⟨hc, List.all_eq_true.2 hcs⟩

theorem isWord_keyword (k : Keyword) : IsWord k.word.toList := by
  rw [← isWord_iff]
  cases k with
  | trade a => cases a <;> decide
  | price f => cases f <;> decide
  | _ => decide

end Lexer

open Lexer

/-! ## Expressions -/

theorem BinaryOp.spells (op : BinaryOp) : Spells op.symbol.toList [op.lexeme] Delimited := by
  cases op with
  | and => exact spells_word (isWord_iff.1 (by decide))
  | or => exact spells_word (isWord_iff.1 (by decide))
  | add => exact spells_symbol .plus
  | subtract => exact spells_symbol .minus
  | multiply => exact spells_symbol .star
  | divide => exact spells_symbol .slash
  | equal => exact spells_symbol .equalEqual
  | notEqual => exact spells_symbol .bangEqual
  | less => exact spells_symbol .less
  | lessEqual => exact spells_symbol .lessEqual
  | greater => exact spells_symbol .greater
  | greaterEqual => exact spells_symbol .greaterEqual

theorem boolean_spells (b : Bool) :
    Spells (if b then "true" else "false").toList [.word (if b then "true" else "false")] Delimited := by
  cases b with
  | true => exact spells_word (isWord_iff.1 (by decide))
  | false => exact spells_word (isWord_iff.1 (by decide))

mutual

theorem Expr.spells : ∀ e : Expr, (∀ l ∈ e.leaves, l.Spelled) → Spells e.text.toList e.lexemes Delimited
  | .number x _, h => spells_numeral (h (.number x) List.mem_cons_self)
  | .string s _, h => (spells_string (h (.string s) List.mem_cons_self)).weaken
  | .boolean b _, _ => boolean_spells b
  | .identifier name _, h => spells_word (h (.name name) List.mem_cons_self)
  | .assign name value p, h => by
    obtain ⟨hname, hvalue⟩ := List.forall_mem_cons.1 h
    have htext : (Expr.assign name value p).text.toList =
        '(' :: (name.toList ++ ' ' :: '=' :: ' ' :: (value.text.toList ++ [')'])) := by simp [Expr.text]
    rw [htext]
    have hinner := (spells_word hname).assigned ((Expr.spells value hvalue).closed (spells_nil Delimited))
    exact hinner.opened
  | .binary op left right p, h => by
    obtain ⟨hleft, hright⟩ := List.forall_mem_append.1 h
    -- an operator may be a word, so it needs the spaces on either side as a name would
    have htext : (Expr.binary op left right p).text.toList =
        '(' :: (left.text.toList ++ ' ' :: (op.symbol.toList ++ ' ' :: (right.text.toList ++ [')']))) := by
      simp [Expr.text]
    rw [htext]
    have hinner := (Expr.spells right hright).closed (spells_nil Delimited)
    exact ((Expr.spells left hleft).before (op.spells.before hinner.spaced rfl).spaced rfl).opened
  | .unary .negate operand p, h => by
    have htext : (Expr.unary .negate operand p).text.toList = '(' :: '-' :: (operand.text.toList ++ [')']) := by
      simp [Expr.text]
    rw [htext]
    have hinner := (Expr.spells operand h).closed (spells_nil Delimited)
    exact (hinner.behind (s := .minus) rfl rfl).opened
  | .unary .not operand p, h => by
    have htext : (Expr.unary .not operand p).text.toList =
        '(' :: ("not".toList ++ ' ' :: (operand.text.toList ++ [')'])) := by
      simp [Expr.text]
    rw [htext]
    have hinner := (Expr.spells operand h).closed (spells_nil Delimited)
    exact (hinner.spaced.word (isWord_iff.1 (by decide))).opened
  | .call callee args p, h => by
    obtain ⟨hcallee, hargs⟩ := List.forall_mem_cons.1 h
    have htext : (Expr.call callee args p).text.toList =
        callee.toList ++ '(' :: ((Expr.textList args).toList ++ [')']) := by simp [Expr.text]
    rw [htext]
    have hinner := (Expr.spellsList args hargs).closed (spells_nil Delimited)
    exact (spells_word hcallee).before hinner.opened rfl
  | .index target i p, h => by
    obtain ⟨htarget, hi⟩ := List.forall_mem_append.1 h
    have htext : (Expr.index target i p).text.toList = target.text.toList ++ '[' :: (i.text.toList ++ [']']) := by
      simp [Expr.text]
    rw [htext]
    have hclose : Spells [']'] [.symbol .rightBracket] Delimited := (spells_alone rfl rfl).weaken
    have hinner := (Expr.spells i hi).before hclose rfl
    exact (Expr.spells target htarget).before (hinner.behind (s := .leftBracket) rfl rfl) rfl

theorem Expr.spellsList : ∀ es : List Expr, (∀ l ∈ Expr.leavesAll es, l.Spelled) →
    Spells (Expr.textList es).toList (Expr.lexemesList es) Delimited
  | [], _ => spells_nil _
  | [e], h => Expr.spells e (List.forall_mem_append.1 h).1
  | e :: f :: es, h => by
    obtain ⟨he, hes⟩ := List.forall_mem_append.1 h
    have htext : (Expr.textList (e :: f :: es)).toList =
        e.text.toList ++ ',' :: ' ' :: (Expr.textList (f :: es)).toList := by simp [Expr.textList]
    rw [htext]
    have hrest := (Expr.spellsList (f :: es) hes).spaced
    exact (Expr.spells e he).before (hrest.behind (s := .comma) rfl rfl) rfl

end

/-! ## Statements -/

theorem Expr.spellsIn : ∀ e : Option Expr, (∀ l ∈ Expr.leavesIn e, l.Spelled) →
    Spells (Expr.textIn e).toList (Expr.lexemesIn e) Delimited
  | none, _ => spells_nil _
  | some e, h => Expr.spells e h

theorem names_spell : ∀ names : List String, (∀ name ∈ names, IsWord name.toList) →
    Spells (namesText names).toList (namesLexemes names) Delimited
  | [], _ => spells_nil _
  | [_], h => spells_word (h _ List.mem_cons_self)
  | name :: other :: names, h => by
    obtain ⟨hname, hnames⟩ := List.forall_mem_cons.1 h
    have htext : (namesText (name :: other :: names)).toList =
        name.toList ++ ',' :: ' ' :: (namesText (other :: names)).toList := by simp [namesText]
    rw [htext]
    have hrest := (names_spell (other :: names) hnames).spaced
    exact (spells_word hname).before (hrest.behind (s := .comma) rfl rfl) rfl

theorem LoopStart.spells : ∀ start : LoopStart, (∀ l ∈ start.leaves, l.Spelled) →
    Spells start.text.toList start.lexemes Delimited
  | .var name none, h => by
    have hname : IsWord name.toList := h (.declared name) List.mem_cons_self
    have htext : (LoopStart.var name none).text.toList = "var".toList ++ ' ' :: name.toList := by
      simp [LoopStart.text]
    rw [htext]
    exact (spells_word hname).spaced.word (isWord_keyword .varWord)
  | .var name (some value), h => by
    obtain ⟨hname, hvalue⟩ := List.forall_mem_cons.1 h
    have htext : (LoopStart.var name (some value)).text.toList =
        "var".toList ++ ' ' :: (name.toList ++ ' ' :: '=' :: ' ' :: value.text.toList) := by
      simp [LoopStart.text]
    rw [htext]
    have hinner := (spells_word hname).assigned (Expr.spells value hvalue)
    exact hinner.spaced.word (isWord_keyword .varWord)
  | .expr value, h => by
    have htext : (LoopStart.expr value).text.toList = '(' :: (value.text.toList ++ [')']) := by
      simp [LoopStart.text]
    rw [htext]
    exact ((Expr.spells value h).closed (spells_nil _)).opened

/-- The clauses of a loop behind its first semicolon, and the closing parenthesis. -/
theorem clauses_spell {c increment : Option Expr} {ds : List Char} {ms : List Lexeme}
    (hc : ∀ l ∈ Expr.leavesIn c, l.Spelled) (hi : ∀ l ∈ Expr.leavesIn increment, l.Spelled)
    (h : Spells ds ms Anything) :
    Spells (';' :: ' ' :: ((Expr.textIn c).toList ++ ';' :: ' ' :: ((Expr.textIn increment).toList ++ ')' :: ' ' :: ds)))
      (.symbol .semicolon :: (Expr.lexemesIn c ++ .symbol .semicolon :: (Expr.lexemesIn increment ++
        .symbol .rightParen :: ms))) Anything := by
  have hlast := (Expr.spellsIn increment hi).closed h.spaced
  have hfirst := (Expr.spellsIn c hc).before (hlast.spaced.behind (s := .semicolon) rfl rfl) rfl
  exact hfirst.spaced.behind rfl rfl

mutual

theorem Stmt.spells : ∀ s : Stmt, (∀ l ∈ s.leaves, l.Spelled) → Spells s.text.toList s.lexemes Anything
  | .function name params body, h => by
    obtain ⟨hname, hrest⟩ := List.forall_mem_cons.1 h
    obtain ⟨hparams, hbody⟩ := List.forall_mem_append.1 hrest
    have hwords : ∀ p ∈ params, IsWord p.toList := fun p hp => hparams _ (List.mem_map_of_mem hp)
    have htext : (Stmt.function name params body).text.toList = "function".toList ++ ' ' :: (name.toList ++ '(' ::
        ((namesText params).toList ++ ')' :: ' ' :: '\x7b' :: ((Stmt.textAll body).toList ++ ['\x7d', '\n']))) := by
      simp [Stmt.text]
    rw [htext]
    -- from the body outwards, since a word is only sure to end by what stands behind it
    have hblock := ((Stmt.spellsAll body hbody).then spells_brace).braced.spaced
    have hhead := (spells_word hname).before ((names_spell params hwords).closed hblock).opened rfl
    exact hhead.spaced.word (isWord_keyword .functionWord)
  | .var name none, h => by
    have hname : IsWord name.toList := h (.declared name) List.mem_cons_self
    have htext : (Stmt.var name none).text.toList = "var".toList ++ ' ' :: (name.toList ++ ['\n']) := by
      simp [Stmt.text]
    rw [htext]
    exact (spells_word hname).ended.spaced.word (isWord_keyword .varWord)
  | .var name (some value), h => by
    obtain ⟨hname, hvalue⟩ := List.forall_mem_cons.1 h
    have htext : (Stmt.var name (some value)).text.toList =
        "var".toList ++ ' ' :: (name.toList ++ ' ' :: '=' :: ' ' :: (value.text.toList ++ ['\n'])) := by
      simp [Stmt.text]
    rw [htext]
    have hinner := (spells_word hname).assigned (Expr.spells value hvalue).ended
    exact hinner.spaced.word (isWord_keyword .varWord)
  | .branch c thenBranch none, h => by
    obtain ⟨hc, hthen⟩ := List.forall_mem_append.1 h
    have htext : (Stmt.branch c thenBranch none).text.toList =
        "if".toList ++ ' ' :: '(' :: (c.text.toList ++ ')' :: ' ' :: (thenBranch.text.toList ++ ['\n'])) := by
      simp [Stmt.text]
    rw [htext]
    have hinner := (Expr.spells c hc).closed ((Stmt.spells thenBranch hthen).then spells_newline).spaced
    exact hinner.opened.spaced.word (isWord_keyword .ifWord)
  | .branch c thenBranch (some elseBranch), h => by
    obtain ⟨hc, hrest⟩ := List.forall_mem_append.1 h
    obtain ⟨hthen, helse⟩ := List.forall_mem_append.1 hrest
    have htext : (Stmt.branch c thenBranch (some elseBranch)).text.toList =
        "if".toList ++ ' ' :: '(' :: (c.text.toList ++ ')' :: ' ' :: (thenBranch.text.toList ++
          ("else".toList ++ ' ' :: (elseBranch.text.toList ++ ['\n'])))) := by
      simp [Stmt.text]
    rw [htext]
    have hrest := ((Stmt.spells elseBranch helse).then spells_newline).spaced.word (isWord_keyword .elseWord)
    have hinner := (Expr.spells c hc).closed ((Stmt.spells thenBranch hthen).then hrest).spaced
    exact hinner.opened.spaced.word (isWord_keyword .ifWord)
  | .whileLoop c body, h => by
    obtain ⟨hc, hbody⟩ := List.forall_mem_append.1 h
    have htext : (Stmt.whileLoop c body).text.toList =
        "while".toList ++ ' ' :: '(' :: (c.text.toList ++ ')' :: ' ' :: (body.text.toList ++ ['\n'])) := by
      simp [Stmt.text]
    rw [htext]
    have hinner := (Expr.spells c hc).closed ((Stmt.spells body hbody).then spells_newline).spaced
    exact hinner.opened.spaced.word (isWord_keyword .whileWord)
  | .forLoop none c increment body, h => by
    obtain ⟨hc, hrest⟩ := List.forall_mem_append.1 h
    obtain ⟨hi, hbody⟩ := List.forall_mem_append.1 hrest
    have htext : (Stmt.forLoop none c increment body).text.toList =
        "for".toList ++ ' ' :: '(' :: ';' :: ' ' :: ((Expr.textIn c).toList ++ ';' :: ' ' ::
          ((Expr.textIn increment).toList ++ ')' :: ' ' :: (body.text.toList ++ ['\n']))) := by
      simp only [Stmt.text, String.toList_append, List.append_assoc]
      rfl
    rw [htext]
    have hinner := clauses_spell hc hi ((Stmt.spells body hbody).then spells_newline)
    exact hinner.opened.spaced.word (isWord_keyword .forWord)
  | .forLoop (some start) c increment body, h => by
    obtain ⟨hstart, hrest⟩ := List.forall_mem_append.1 h
    obtain ⟨hc, hrest⟩ := List.forall_mem_append.1 hrest
    obtain ⟨hi, hbody⟩ := List.forall_mem_append.1 hrest
    have htext : (Stmt.forLoop (some start) c increment body).text.toList =
        "for".toList ++ ' ' :: '(' :: (start.text.toList ++ ';' :: ' ' :: ((Expr.textIn c).toList ++ ';' :: ' ' ::
          ((Expr.textIn increment).toList ++ ')' :: ' ' :: (body.text.toList ++ ['\n'])))) := by
      simp only [Stmt.text, String.toList_append, List.append_assoc]
      rfl
    rw [htext]
    have hinner := clauses_spell hc hi ((Stmt.spells body hbody).then spells_newline)
    exact ((LoopStart.spells start hstart).before hinner rfl).opened.spaced.word (isWord_keyword .forWord)
  | .ret none line, _ => by
    -- without a value no space follows the keyword, and the line break is what ends the word
    have htext : (Stmt.ret none line).text.toList = "return".toList ++ ['\n'] := by simp [Stmt.text]
    rw [htext]
    exact (spells_word (isWord_keyword .returnWord)).ended
  | .ret (some value) line, h => by
    have htext : (Stmt.ret (some value) line).text.toList =
        "return".toList ++ ' ' :: (value.text.toList ++ ['\n']) := by simp [Stmt.text]
    rw [htext]
    exact (Expr.spells value h).ended.spaced.word (isWord_keyword .returnWord)
  | .trade action args line, h => by
    have htext : (Stmt.trade action args line).text.toList =
        action.name.toList ++ '(' :: ((Expr.textList args).toList ++ [')', '\n']) := by simp [Stmt.text]
    rw [htext]
    have hinner := ((Expr.spellsList args h).closed spells_newline).opened
    exact (spells_word (isWord_keyword (.trade action))).before hinner rfl
  | .block body, h => by
    have htext : (Stmt.block body).text.toList = '\x7b' :: ((Stmt.textAll body).toList ++ ['\x7d', '\n']) := by
      simp [Stmt.text]
    rw [htext]
    exact ((Stmt.spellsAll body h).then spells_brace).braced
  | .expr value, h => by
    have htext : (Stmt.expr value).text.toList = '(' :: (value.text.toList ++ [')', '\n']) := by simp [Stmt.text]
    rw [htext]
    exact ((Expr.spells value h).closed spells_newline).opened

theorem Stmt.spellsAll : ∀ ss : List Stmt, (∀ l ∈ Stmt.leavesAll ss, l.Spelled) →
    Spells (Stmt.textAll ss).toList (Stmt.lexemesAll ss) Anything
  | [], _ => spells_nil _
  | s :: ss, h => by
    obtain ⟨hs, hss⟩ := List.forall_mem_append.1 h
    have htext : (Stmt.textAll (s :: ss)).toList = s.text.toList ++ (Stmt.textAll ss).toList := by
      simp [Stmt.textAll]
    rw [htext]
    exact (Stmt.spells s hs).then (Stmt.spellsAll ss hss)

end

/-- The text of a program says its lexemes. -/
theorem Program.lexemes_text (p : Program) (h : ∀ l ∈ Stmt.leavesAll p, l.Spelled) :
    Lexer.lexemes (Program.text p).toList = Stmt.lexemesAll p := by
  have hspells := Stmt.spellsAll p h [] trivial
  rw [List.append_nil] at hspells
  rw [Program.text, hspells, show Lexer.lexemes [] = [] from rfl, List.append_nil]

end StrategyScript
