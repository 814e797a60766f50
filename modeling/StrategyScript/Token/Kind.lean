/-
The kinds of tokens. Keywords are words with a meaning of their own: some begin or continue a
statement, others name a built-in and may stand where an expression is expected.
-/
import StrategyScript.Trade.Action
import StrategyScript.Market.Field

namespace StrategyScript

/-! ## Keywords -/

inductive Keyword
  | ifWord
  | elseWord
  | forWord
  | whileWord
  | functionWord
  | returnWord
  | varWord
  | trade (action : TradeAction)
  | price (field : PriceField)
  | sma
  | ema
  | rsi
  | macd
deriving DecidableEq, Repr

namespace Keyword

/-- The spelling, in lower case. -/
def word : Keyword → String
  | .ifWord => "if"
  | .elseWord => "else"
  | .forWord => "for"
  | .whileWord => "while"
  | .functionWord => "function"
  | .returnWord => "return"
  | .varWord => "var"
  | .trade action => action.name
  | .price field => field.name
  | .sma => "sma"
  | .ema => "ema"
  | .rsi => "rsi"
  | .macd => "macd"

def all : List Keyword :=
  [.ifWord, .elseWord, .forWord, .whileWord, .functionWord, .returnWord, .varWord,
    .trade .buy, .trade .sell] ++ PriceField.all.map .price ++ [.sma, .ema, .rsi, .macd]

/-- The keyword of a spelling in lower case. -/
def ofWord? (w : String) : Option Keyword :=
  all.find? (·.word == w)

/-- The keyword names a built-in. -/
def isBuiltinName : Keyword → Bool
  | .trade _ | .price _ | .sma | .ema | .rsi | .macd => true
  | _ => false

/-- A reader that has lost its way resumes at such a keyword. -/
def startsStatement : Keyword → Bool
  | .functionWord | .varWord | .ifWord | .forWord | .whileWord | .returnWord => true
  | _ => false

/-- The spelling in capitals. -/
def name (k : Keyword) : String :=
  String.ofList (k.word.toList.map Char.toUpper)

end Keyword

/-! ## Operators and punctuation -/

inductive Symbol
  | plus
  | minus
  | star
  | slash
  | assign
  | equalEqual
  | bangEqual
  | less
  | greater
  | lessEqual
  | greaterEqual
  | leftParen
  | rightParen
  | leftBrace
  | rightBrace
  | leftBracket
  | rightBracket
  | comma
  | semicolon
deriving DecidableEq, Repr

namespace Symbol

def all : List Symbol :=
  [.plus, .minus, .star, .slash, .assign, .equalEqual, .bangEqual, .less, .greater, .lessEqual,
    .greaterEqual, .leftParen, .rightParen, .leftBrace, .rightBrace, .leftBracket, .rightBracket,
    .comma, .semicolon]

/-- The spelling: one character or two. -/
def spelling : Symbol → List Char
  | .plus => ['+']
  | .minus => ['-']
  | .star => ['*']
  | .slash => ['/']
  | .assign => ['=']
  | .equalEqual => ['=', '=']
  | .bangEqual => ['!', '=']
  | .less => ['<']
  | .greater => ['>']
  | .lessEqual => ['<', '=']
  | .greaterEqual => ['>', '=']
  | .leftParen => ['(']
  | .rightParen => [')']
  | .leftBrace => ['\x7b']
  | .rightBrace => ['\x7d']
  | .leftBracket => ['[']
  | .rightBracket => [']']
  | .comma => [',']
  | .semicolon => [';']

def name : Symbol → String
  | .plus => "PLUS"
  | .minus => "MINUS"
  | .star => "STAR"
  | .slash => "SLASH"
  | .assign => "ASSIGN"
  | .equalEqual => "EQUAL_EQUAL"
  | .bangEqual => "BANG_EQUAL"
  | .less => "LESS"
  | .greater => "GREATER"
  | .lessEqual => "LESS_EQUAL"
  | .greaterEqual => "GREATER_EQUAL"
  | .leftParen => "LEFT_PAREN"
  | .rightParen => "RIGHT_PAREN"
  | .leftBrace => "LEFT_BRACE"
  | .rightBrace => "RIGHT_BRACE"
  | .leftBracket => "LEFT_BRACKET"
  | .rightBracket => "RIGHT_BRACKET"
  | .comma => "COMMA"
  | .semicolon => "SEMICOLON"

/-- The symbol of a spelling. -/
def spelled? (cs : List Char) : Option Symbol :=
  all.find? (·.spelling == cs)

theorem spelled?_spelling (s : Symbol) : spelled? s.spelling = some s := by
  cases s <;> decide

end Symbol

/-! ## Kinds -/

inductive TokenKind
  | number
  | string
  | identifier
  | keyword (k : Keyword)
  | symbol (s : Symbol)
  | newline
  | endOfInput
deriving DecidableEq, Repr

namespace TokenKind

def name : TokenKind → String
  | .number => "NUMBER"
  | .string => "STRING"
  | .identifier => "IDENTIFIER"
  | .keyword k => k.name
  | .symbol s => s.name
  | .newline => "NEWLINE"
  | .endOfInput => "EOF"

def all : List TokenKind :=
  [.number, .string, .identifier] ++ Keyword.all.map .keyword ++ Symbol.all.map .symbol ++
    [.newline, .endOfInput]

/-- The kind of that name. -/
def named? (name : String) : Option TokenKind :=
  all.find? (·.name == name)

/-- The kind of a word: a keyword's, or that of an identifier. -/
def ofWord (lowercaseWord : String) : TokenKind :=
  match Keyword.ofWord? lowercaseWord with
  | some k => .keyword k
  | none => .identifier

def startsStatement : TokenKind → Bool
  | .keyword k => k.startsStatement
  | _ => false

end TokenKind

end StrategyScript
