/-
The reading of a program back into a row of tokens. A tree keeps a sign of every token but the
punctuation: a keyword, a name, a literal or an operator. Read in the order of the source, the signs
of a tree say which tokens it was made of.
-/
import StrategyScript.Syntax.Stmt
import StrategyScript.Token.Basic
import StrategyScript.Number.Read
import StrategyScript.Text.Lowercase
import Mathlib.Tactic

namespace StrategyScript

/-! ## Signs -/

/-- What a tree keeps of a token. A name that is declared stands where any word may stand; a name in an
expression does not. -/
inductive Sign
  | keyword (k : Keyword)
  | declared (name : String)
  | name (name : String)
  | number (value : Float)
  | string (value : String)
  | boolean (value : Bool)
  | assign
  | binary (op : BinaryOp)
  | unary (op : UnaryOp)

/-- The tokens that say an operator with two operands. -/
def BinaryOp.SaidBy (l : Lexeme) : BinaryOp → Prop
  | .add => l.kind = .symbol .plus
  | .subtract => l.kind = .symbol .minus
  | .multiply => l.kind = .symbol .star
  | .divide => l.kind = .symbol .slash
  | .equal => l.kind = .symbol .equalEqual
  | .notEqual => l.kind = .symbol .bangEqual
  | .less => l.kind = .symbol .less
  | .lessEqual => l.kind = .symbol .lessEqual
  | .greater => l.kind = .symbol .greater
  | .greaterEqual => l.kind = .symbol .greaterEqual
  | .and => l.isWord "and"
  | .or => l.isWord "or"

def UnaryOp.SaidBy (l : Lexeme) : UnaryOp → Prop
  | .negate => l.kind = .symbol .minus
  | .not => l.isWord "not"

/-- The token is kept as the sign. An identifier keeps its spelling, unless it is a word for an operator or a
literal there; a keyword that names a built-in is kept in lower case, and a numeral by its value. -/
def Lexeme.KeptAs (l : Lexeme) : Sign → Prop
  | .keyword k => l.kind = .keyword k
  | .declared x => l.kind = .identifier ∧ l.text = x
  | .name x =>
    (l.kind = .identifier ∧ l.text = x ∧ ∀ w ∈ ["true", "false", "not"], l.isWord w = false) ∨
      ∃ k : Keyword, l.kind = .keyword k ∧ k.isBuiltinName ∧ Text.lowercase l.text = x
  | .number x => l.kind = .number ∧ Number.readFloat l.text = .ok x
  | .string s => l.kind = .string ∧ l.text = s
  | .boolean b => l.isWord (if b then "true" else "false")
  | .assign => l.kind = .symbol .assign
  | .binary op => op.SaidBy l
  | .unary op => op.SaidBy l

/-! ## The signs of a tree -/

mutual

def Expr.signs : Expr → List Sign
  | .number x _ => [.number x]
  | .string s _ => [.string s]
  | .boolean b _ => [.boolean b]
  | .identifier name _ => [.name name]
  | .assign name value _ => .name name :: .assign :: value.signs
  | .binary op left right _ => left.signs ++ .binary op :: right.signs
  | .unary op operand _ => .unary op :: operand.signs
  | .call callee args _ => .name callee :: Expr.signsAll args
  | .index target i _ => target.signs ++ i.signs

def Expr.signsAll : List Expr → List Sign
  | [] => []
  | e :: es => e.signs ++ Expr.signsAll es

end

/-- The signs of a clause that may be missing. -/
def Expr.signsIn : Option Expr → List Sign
  | none => []
  | some e => e.signs

/-- A declared name, and the value that it may be given. -/
def Sign.declaration (name : String) : Option Expr → List Sign
  | none => [.declared name]
  | some value => .declared name :: .assign :: value.signs

def LoopStart.signs : LoopStart → List Sign
  | .var name value => .keyword .varWord :: Sign.declaration name value
  | .expr value => value.signs

def LoopStart.signsIn : Option LoopStart → List Sign
  | none => []
  | some start => start.signs

mutual

def Stmt.signs : Stmt → List Sign
  | .function name params body =>
    .keyword .functionWord :: .declared name :: (params.map .declared ++ Stmt.signsAll body)
  | .var name value => .keyword .varWord :: Sign.declaration name value
  | .branch c thenBranch none => .keyword .ifWord :: (c.signs ++ thenBranch.signs)
  | .branch c thenBranch (some elseBranch) =>
    .keyword .ifWord :: (c.signs ++ (thenBranch.signs ++ .keyword .elseWord :: elseBranch.signs))
  | .whileLoop c body => .keyword .whileWord :: (c.signs ++ body.signs)
  | .forLoop start c increment body =>
    .keyword .forWord :: (LoopStart.signsIn start ++ (Expr.signsIn c ++ (Expr.signsIn increment ++ body.signs)))
  | .ret value _ => .keyword .returnWord :: Expr.signsIn value
  | .trade action args _ => .keyword (.trade action) :: Expr.signsAll args
  | .block body => Stmt.signsAll body
  | .expr value => value.signs

def Stmt.signsAll : List Stmt → List Sign
  | [] => []
  | s :: ss => s.signs ++ Stmt.signsAll ss

end

theorem Expr.signsAll_eq (es : List Expr) : Expr.signsAll es = es.flatMap Expr.signs := by
  induction es with
  | nil => rfl
  | cons e es ih => rw [Expr.signsAll, ih, List.flatMap_cons]

theorem Stmt.signsAll_eq (ss : List Stmt) : Stmt.signsAll ss = ss.flatMap Stmt.signs := by
  induction ss with
  | nil => rfl
  | cons s ss ih => rw [Stmt.signsAll, ih, List.flatMap_cons]

/-- No expression is read from punctuation alone. -/
theorem Expr.signs_ne_nil : ∀ e : Expr, e.signs ≠ []
  | .number _ _ | .string _ _ | .boolean _ _ | .identifier _ _ | .assign _ _ _ | .unary _ _ _ | .call _ _ _ => by
    simp [Expr.signs]
  | .binary _ _ _ _ => by simp [Expr.signs]
  | .index target _ _ => by simp [Expr.signs, Expr.signs_ne_nil target]

/-! ## Tokens and signs -/

/-- Parentheses, braces, brackets, commas and ends of statements: what no tree keeps. -/
def TokenKind.isPunctuation : TokenKind → Bool
  | .symbol s =>
    [.leftParen, .rightParen, .leftBrace, .rightBrace, .leftBracket, .rightBracket, .comma, .semicolon].contains s
  | .newline => true
  | _ => false

/-- Without their punctuation, the tokens are kept as these signs, one by one. -/
def Sign.Tell (signs : List Sign) (ts : List Token) : Prop :=
  List.Forall₂ (fun sign t => t.toLexeme.KeptAs sign) signs (ts.filter (!·.kind.isPunctuation))

theorem Lexeme.isWord_kind {l : Lexeme} {w : String} (h : l.isWord w) : l.kind = .identifier := by
  unfold Lexeme.isWord at h
  rw [Bool.and_eq_true] at h
  exact eq_of_beq h.1

/-- A token that is kept is no punctuation, and not the end of the input. -/
theorem Lexeme.KeptAs.kind {l : Lexeme} {sign : Sign} (h : l.KeptAs sign) :
    l.kind.isPunctuation = false ∧ l.kind ≠ .endOfInput := by
  have hof : ∀ k, l.kind = k → k.isPunctuation = false → k ≠ .endOfInput →
      l.kind.isPunctuation = false ∧ l.kind ≠ .endOfInput := by
    rintro k rfl hpunctuation hend
    exact ⟨hpunctuation, hend⟩
  cases sign with
  | keyword k => exact hof _ h rfl nofun
  | declared x => exact hof _ h.1 rfl nofun
  | name x =>
    rcases h with ⟨hk, -⟩ | ⟨k, hk, -⟩
    · exact hof _ hk rfl nofun
    · exact hof _ hk rfl nofun
  | number x => exact hof _ h.1 rfl nofun
  | string s => exact hof _ h.1 rfl nofun
  | boolean b => exact hof _ (isWord_kind h) rfl nofun
  | assign => exact hof _ h rfl nofun
  | binary op =>
    cases op with
    | and | or => exact hof _ (isWord_kind h) rfl nofun
    | _ => exact hof _ h rfl nofun
  | unary op =>
    cases op with
    | negate => exact hof _ h rfl nofun
    | not => exact hof _ (isWord_kind h) rfl nofun

namespace Sign.Tell

variable {signs more : List Sign} {ts us : List Token}

theorem nil : Tell [] [] := List.Forall₂.nil

theorem append (h : Tell signs ts) (h' : Tell more us) : Tell (signs ++ more) (ts ++ us) := by
  unfold Tell
  rw [List.filter_append]
  exact List.rel_append h h'

theorem punctuation (h : ∀ t ∈ ts, t.kind.isPunctuation) : Tell [] ts := by
  have hnone : ts.filter (!·.kind.isPunctuation) = [] := by
    rw [List.filter_eq_nil_iff]
    intro t ht
    simp [h t ht]
  unfold Tell
  rw [hnone]
  exact .nil

theorem single {sign : Sign} {t : Token} (h : t.toLexeme.KeptAs sign) : Tell [sign] [t] := by
  have hfilter : [t].filter (!·.kind.isPunctuation) = [t] := by simp [h.kind.1]
  unfold Tell
  rw [hfilter]
  exact .cons h .nil

theorem keyword {k : Keyword} {t : Token} (h : t.kind = .keyword k) : Tell [.keyword k] [t] := by
  have hkept : t.KeptAs (.keyword k) := h
  exact .single hkept

theorem assign {t : Token} (h : t.kind = .symbol .assign) : Tell [.assign] [t] := by
  have hkept : t.KeptAs .assign := h
  exact .single hkept

/-- Where there is a sign, there is a token. -/
theorem ne_nil (h : Tell signs ts) (hne : signs ≠ []) : ts ≠ [] := by
  rintro rfl
  cases h
  exact hne rfl

end Sign.Tell

end StrategyScript
