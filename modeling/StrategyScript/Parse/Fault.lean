/-
Syntax errors: what is wrong, where, and the texts that tell it.
-/
import StrategyScript.Token.Basic
import StrategyScript.Text.Layout
import StrategyScript.Trade.Arguments

namespace StrategyScript.Parse

/-- What can be nested too deeply. -/
inductive Construct
  | statement
  | expression
deriving DecidableEq, Repr

def Construct.name : Construct → String
  | .statement => "statement"
  | .expression => "expression"

/-- What is wrong. `expected` says in words what should stand at the place of the token found. -/
inductive Complaint
  | expected (what : String) (found : Lexeme)
  | unended (found : Lexeme)
  | unexpected (found : Lexeme)
  | tooDeep (what : Construct)
  | badNumber (text : String)
  | badAssignment
  | badCall
  | tooManyTradeArguments
  | badTradeArguments (fault : TradeArgumentFault)
deriving DecidableEq, Repr

def Complaint.message : Complaint → String
  | .expected what found => s!"expected {what}, found " ++ found.describe
  | .unended found => "expected newline or ';' after statement, found " ++ found.describe
  | .unexpected found => "unexpected token " ++ found.describe
  | .tooDeep what => what.name ++ " nested too deeply"
  | .badNumber text => "invalid number: " ++ text
  | .badAssignment => "invalid assignment target"
  | .badCall => "invalid function call"
  | .tooManyTradeArguments =>
    "invalid trade-statement arguments: expected at most a message and a quantity"
  | .badTradeArguments fault => "invalid trade-statement arguments: " ++ fault.message

end Parse

/-- A message about a place in the source. -/
structure ParseError where
  message : String
  position : Position
deriving DecidableEq, Repr

namespace ParseError

def text (e : ParseError) : String :=
  s!"parse error at line {e.position.line}, column {e.position.column}: {e.message}"

/-- The source line that the error is about; a line that the source does not have is empty. -/
def sourceLine (e : ParseError) (source : String) : List Char :=
  ((Text.lines source.toList)[e.position.line - 1]?).getD []

/-- The error under its source line, with a caret below the column. -/
def textIn (e : ParseError) (source : String) : String :=
  Text.padStart 4 (toString e.position.line) ++ " | " ++ String.ofList (e.sourceLine source) ++
    "\n     | " ++ String.ofList (List.replicate (e.position.column - 1) ' ') ++ "^\n" ++ e.text

end ParseError

end StrategyScript
