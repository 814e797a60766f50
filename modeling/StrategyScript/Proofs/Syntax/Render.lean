/-
Programs as text. Expressions show their tree by their parentheses already; a statement shows its
parts by its keyword and by braces, and a statement that is an expression stands in parentheses of its
own, so that nothing in front of it can be taken for a keyword. A newline stands behind every
statement.

Beside the text stand the lexemes that it is meant to be read as, and the leaves of a program, its
literals and names: all that the text takes over letter by letter.
-/
import StrategyScript.Syntax.Stmt
import StrategyScript.Syntax.Print
import StrategyScript.Token.Lexer

namespace StrategyScript

/-! ## Text -/

/-- The first clause of a loop; an expression there stands in parentheses like a statement. -/
def LoopStart.text : LoopStart → String
  | .var name none => "var " ++ name
  | .var name (some value) => "var " ++ name ++ " = " ++ value.text
  | .expr value => "(" ++ value.text ++ ")"

/-- The text of a part that may be missing. -/
def Expr.textIn : Option Expr → String
  | none => ""
  | some e => e.text

/-- Names with commas between them. -/
def namesText : List String → String
  | [] => ""
  | [name] => name
  | name :: names => name ++ ", " ++ namesText names

mutual

def Stmt.text : Stmt → String
  | .function name params body =>
    "function " ++ name ++ "(" ++ namesText params ++ ") \x7b" ++ Stmt.textAll body ++ "\x7d\n"
  | .var name none => "var " ++ name ++ "\n"
  | .var name (some value) => "var " ++ name ++ " = " ++ value.text ++ "\n"
  | .branch c thenBranch none => "if (" ++ c.text ++ ") " ++ thenBranch.text ++ "\n"
  | .branch c thenBranch (some elseBranch) =>
    "if (" ++ c.text ++ ") " ++ thenBranch.text ++ "else " ++ elseBranch.text ++ "\n"
  | .whileLoop c body => "while (" ++ c.text ++ ") " ++ body.text ++ "\n"
  | .forLoop none c increment body =>
    "for (; " ++ Expr.textIn c ++ "; " ++ Expr.textIn increment ++ ") " ++ body.text ++ "\n"
  | .forLoop (some start) c increment body =>
    "for (" ++ start.text ++ "; " ++ Expr.textIn c ++ "; " ++ Expr.textIn increment ++ ") " ++ body.text ++ "\n"
  | .ret none _ => "return\n"
  | .ret (some value) _ => "return " ++ value.text ++ "\n"
  | .trade action args _ => action.name ++ "(" ++ Expr.textList args ++ ")\n"
  | .block body => "\x7b" ++ Stmt.textAll body ++ "\x7d\n"
  | .expr value => "(" ++ value.text ++ ")\n"

def Stmt.textAll : List Stmt → String
  | [] => ""
  | s :: ss => s.text ++ Stmt.textAll ss

end

/-- The text of a whole program. -/
def Program.text (p : Program) : String := Stmt.textAll p

/-! ## Lexemes -/

namespace Lexeme

def symbol (s : Symbol) : Lexeme := ⟨.symbol s, String.ofList s.spelling⟩

def word (w : String) : Lexeme := ⟨Lexer.wordKind w.toList, w⟩

def newline : Lexeme := ⟨.newline, "\n"⟩

end Lexeme

def BinaryOp.lexeme : BinaryOp → Lexeme
  | .add => .symbol .plus
  | .subtract => .symbol .minus
  | .multiply => .symbol .star
  | .divide => .symbol .slash
  | .equal => .symbol .equalEqual
  | .notEqual => .symbol .bangEqual
  | .less => .symbol .less
  | .lessEqual => .symbol .lessEqual
  | .greater => .symbol .greater
  | .greaterEqual => .symbol .greaterEqual
  | .and => .word "and"
  | .or => .word "or"

def UnaryOp.lexeme : UnaryOp → Lexeme
  | .negate => .symbol .minus
  | .not => .word "not"

mutual

def Expr.lexemes : Expr → List Lexeme
  | .number x _ => [⟨.number, Number.text x⟩]
  | .string s _ => [⟨.string, s⟩]
  | .boolean b _ => [.word (if b then "true" else "false")]
  | .identifier name _ => [.word name]
  | .assign name value _ =>
    .symbol .leftParen :: .word name :: .symbol .assign :: (value.lexemes ++ [.symbol .rightParen])
  | .binary op left right _ =>
    .symbol .leftParen :: (left.lexemes ++ op.lexeme :: (right.lexemes ++ [.symbol .rightParen]))
  | .unary op operand _ => .symbol .leftParen :: op.lexeme :: (operand.lexemes ++ [.symbol .rightParen])
  | .call callee args _ =>
    .word callee :: .symbol .leftParen :: (Expr.lexemesList args ++ [.symbol .rightParen])
  | .index target i _ => target.lexemes ++ .symbol .leftBracket :: (i.lexemes ++ [.symbol .rightBracket])

def Expr.lexemesList : List Expr → List Lexeme
  | [] => []
  | [e] => e.lexemes
  | e :: es => e.lexemes ++ .symbol .comma :: Expr.lexemesList es

end

def Expr.lexemesIn : Option Expr → List Lexeme
  | none => []
  | some e => e.lexemes

def namesLexemes : List String → List Lexeme
  | [] => []
  | [name] => [.word name]
  | name :: names => .word name :: .symbol .comma :: namesLexemes names

def LoopStart.lexemes : LoopStart → List Lexeme
  | .var name none => [.word "var", .word name]
  | .var name (some value) => .word "var" :: .word name :: .symbol .assign :: value.lexemes
  | .expr value => .symbol .leftParen :: (value.lexemes ++ [.symbol .rightParen])

mutual

def Stmt.lexemes : Stmt → List Lexeme
  | .function name params body =>
    .word "function" :: .word name :: .symbol .leftParen :: (namesLexemes params ++
      .symbol .rightParen :: .symbol .leftBrace :: (Stmt.lexemesAll body ++ [.symbol .rightBrace, .newline]))
  | .var name none => [.word "var", .word name, .newline]
  | .var name (some value) => .word "var" :: .word name :: .symbol .assign :: (value.lexemes ++ [.newline])
  | .branch c thenBranch none =>
    .word "if" :: .symbol .leftParen :: (c.lexemes ++ .symbol .rightParen :: (thenBranch.lexemes ++ [.newline]))
  | .branch c thenBranch (some elseBranch) =>
    .word "if" :: .symbol .leftParen :: (c.lexemes ++ .symbol .rightParen :: (thenBranch.lexemes ++
      .word "else" :: (elseBranch.lexemes ++ [.newline])))
  | .whileLoop c body =>
    .word "while" :: .symbol .leftParen :: (c.lexemes ++ .symbol .rightParen :: (body.lexemes ++ [.newline]))
  | .forLoop none c increment body =>
    .word "for" :: .symbol .leftParen :: .symbol .semicolon :: (Expr.lexemesIn c ++
      .symbol .semicolon :: (Expr.lexemesIn increment ++ .symbol .rightParen :: (body.lexemes ++ [.newline])))
  | .forLoop (some start) c increment body =>
    .word "for" :: .symbol .leftParen :: (start.lexemes ++ .symbol .semicolon :: (Expr.lexemesIn c ++
      .symbol .semicolon :: (Expr.lexemesIn increment ++ .symbol .rightParen :: (body.lexemes ++ [.newline]))))
  | .ret none _ => [.word "return", .newline]
  | .ret (some value) _ => .word "return" :: (value.lexemes ++ [.newline])
  | .trade action args _ =>
    .word action.name :: .symbol .leftParen :: (Expr.lexemesList args ++ [.symbol .rightParen, .newline])
  | .block body => .symbol .leftBrace :: (Stmt.lexemesAll body ++ [.symbol .rightBrace, .newline])
  | .expr value => .symbol .leftParen :: (value.lexemes ++ [.symbol .rightParen, .newline])

def Stmt.lexemesAll : List Stmt → List Lexeme
  | [] => []
  | s :: ss => s.lexemes ++ Stmt.lexemesAll ss

end

/-! ## Leaves -/

/-- What a program is made of. A name may be read or called, or it may be declared; a declared name
can be a word that means something else inside an expression. -/
inductive Leaf
  | number (x : Float)
  | string (s : String)
  | name (x : String)
  | declared (x : String)

mutual

def Expr.leaves : Expr → List Leaf
  | .number x _ => [.number x]
  | .string s _ => [.string s]
  | .boolean _ _ => []
  | .identifier name _ => [.name name]
  | .assign name value _ => .name name :: value.leaves
  | .binary _ left right _ => left.leaves ++ right.leaves
  | .unary _ operand _ => operand.leaves
  | .call callee args _ => .name callee :: Expr.leavesAll args
  | .index target i _ => target.leaves ++ i.leaves

def Expr.leavesAll : List Expr → List Leaf
  | [] => []
  | e :: es => e.leaves ++ Expr.leavesAll es

end

def Expr.leavesIn : Option Expr → List Leaf
  | none => []
  | some e => e.leaves

def LoopStart.leaves : LoopStart → List Leaf
  | .var name value => .declared name :: Expr.leavesIn value
  | .expr value => value.leaves

mutual

def Stmt.leaves : Stmt → List Leaf
  | .function name params body => .declared name :: (params.map .declared ++ Stmt.leavesAll body)
  | .var name value => .declared name :: Expr.leavesIn value
  | .branch c thenBranch none => c.leaves ++ thenBranch.leaves
  | .branch c thenBranch (some elseBranch) => c.leaves ++ (thenBranch.leaves ++ elseBranch.leaves)
  | .whileLoop c body => c.leaves ++ body.leaves
  | .forLoop none c increment body => Expr.leavesIn c ++ (Expr.leavesIn increment ++ body.leaves)
  | .forLoop (some start) c increment body =>
    start.leaves ++ (Expr.leavesIn c ++ (Expr.leavesIn increment ++ body.leaves))
  | .ret value _ => Expr.leavesIn value
  | .trade _ args _ => Expr.leavesAll args
  | .block body => Stmt.leavesAll body
  | .expr value => value.leaves

def Stmt.leavesAll : List Stmt → List Leaf
  | [] => []
  | s :: ss => s.leaves ++ Stmt.leavesAll ss

end

end StrategyScript
