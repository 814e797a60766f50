/-
Tokens: a kind and a text, and the position where they begin.
-/
import StrategyScript.Token.Kind
import StrategyScript.Source.Position

namespace StrategyScript

/-- What a token says, wherever it stands. The text of a string is its value, without quotes and
escapes. -/
structure Lexeme where
  kind : TokenKind
  text : String
deriving DecidableEq, Repr

structure Token extends Lexeme where
  position : Position
deriving DecidableEq, Repr

/-- How an error message speaks of a token. -/
def Lexeme.describe (l : Lexeme) : String :=
  match l.kind with
  | .endOfInput => "end of input"
  | .newline => "newline"
  | .string => "\"" ++ l.text ++ "\""
  | _ => "'" ++ l.text ++ "'"

/-- Equality of words when the case of ASCII letters does not count. -/
def sameWord (v w : String) : Bool :=
  v.toList.map Char.toLower == w.toList.map Char.toLower

/-- An identifier of the given spelling, in any case. -/
def Lexeme.isWord (l : Lexeme) (w : String) : Bool :=
  l.kind == .identifier && sameWord l.text w

end StrategyScript
