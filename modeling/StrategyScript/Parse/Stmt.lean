/-
The grammar of statements. A newline or a semicolon ends a statement; before `}`, `else` or the end
of input neither is needed.
-/
import StrategyScript.Parse.Expr
import StrategyScript.Syntax.Stmt

namespace StrategyScript.Parse

open StrategyScript.Parser hiding iterate
open StrategyScript.Reading

variable {m : Type → Type} [Reading m]

/-! ## Ends of statements -/

def isTerminator (k : TokenKind) : Bool :=
  k == .newline || k == .symbol .semicolon

/-- What may stand behind a statement. -/
def endsStatement (k : TokenKind) : Bool :=
  isTerminator k || k == .symbol .rightBrace || k == .keyword .elseWord || k == .endOfInput

def skipNewlines : Parser Unit := skip (· == .newline)

def skipTerminators : Parser Unit := skip isTerminator

/-- The end of a statement, with all newlines and semicolons there. -/
def statementEnd : Parser Unit := do
  if endsStatement (← peek).kind then skipTerminators
  else failHere .unended

/-! ## Parts of statements -/

/-- The statements of a block, up to and including the closing brace. -/
def blockBody (statement : m Stmt) : m (List Stmt) := do
  let statements ← iterate (fun statements => do
    skipTerminators
    let k := (← peek).kind
    if k = .symbol .rightBrace ∨ k = .endOfInput then return none
    else return some ((← statement) :: statements)) []
  let _ ← expect (.symbol .rightBrace) "'\x7d' after block"
  return statements.reverse

/-- The body of a branch or a loop, which may begin on a later line. -/
def body (statement : m Stmt) : m Stmt := do
  skipNewlines
  statement

/-- A name and perhaps a value, without the end of the statement. -/
def declaration (expression : m Expr) : m (String × Option Expr) := do
  let name ← expect .identifier "variable name"
  if ← accept (.symbol .assign) then
    return (name.text, some (← expression))
  else return (name.text, none)

/-- An expression in parentheses behind a keyword. -/
def condition (expression : m Expr) (before after : String) : m Expr := do
  let _ ← expect (.symbol .leftParen) before
  let e ← expression
  let _ ← expect (.symbol .rightParen) after
  return e

/-! ## Kinds of statements, each without its keyword -/

def functionStatement (statement : m Stmt) : m Stmt := do
  let name ← expect .identifier "function name"
  let _ ← expect (.symbol .leftParen) "'(' after function name"
  let params ←
    if ← check (.symbol .rightParen) then pure []
    else commaSeparated (expect .identifier "parameter name")
  let _ ← expect (.symbol .rightParen) "')' after parameters"
  skipNewlines
  let _ ← expect (.symbol .leftBrace) "'\x7b' before function body"
  let statements ← blockBody statement
  return .function name.text (params.map (·.text)) statements

def varStatement (expression : m Expr) : m Stmt := do
  let (name, value) ← declaration expression
  statementEnd
  return .var name value

/-- Reads an `else`, which may stand on a later line, and tells whether it was there; where there is none,
the newlines stay unread. -/
def acceptElse : Parser Bool := fun c =>
  let d := c.skip (· == .newline)
  if d.peek.kind = .keyword .elseWord then .ok true d.next else .ok false c

/-- The `else` of a branch. -/
def elseBranch (statement : m Stmt) : m (Option Stmt) := do
  if ← acceptElse then return some (← body statement)
  else return none

theorem elseBranch_eq (statement : Parser Stmt) (c : Cursor) :
    elseBranch statement c =
      if (c.skip (· == .newline)).peek.kind = .keyword .elseWord then
        (do return some (← body statement) : Parser (Option Stmt)) (c.skip (· == .newline)).next
      else .ok none c := by
  by_cases h : (c.skip (· == .newline)).peek.kind = .keyword .elseWord
  · have haccept : acceptElse c = .ok true (c.skip (· == .newline)).next := if_pos h
    rw [if_pos h]
    exact bind_ok haccept
  · have haccept : acceptElse c = .ok false c := if_neg h
    rw [if_neg h]
    exact bind_ok haccept

def ifStatement (expression : m Expr) (statement : m Stmt) : m Stmt := do
  let c ← condition expression "'(' after 'if'" "')' after if condition"
  let thenBranch ← body statement
  let elseBranch ← elseBranch statement
  return .branch c thenBranch elseBranch

def whileStatement (expression : m Expr) (statement : m Stmt) : m Stmt := do
  let c ← condition expression "'(' after 'while'" "')' after while condition"
  return .whileLoop c (← body statement)

/-- The first clause of a `for` loop, with its semicolon. -/
def loopStart (expression : m Expr) : m (Option LoopStart) := do
  if ← accept (.symbol .semicolon) then return none
  let start ←
    if ← accept (.keyword .varWord) then do
      let (name, value) ← declaration expression
      pure (LoopStart.var name value)
    else do
      let value ← expression
      pure (LoopStart.expr value)
  let _ ← expect (.symbol .semicolon) "';' after loop initializer"
  return some start

/-- An optional clause of a `for` loop, with the token that ends it. -/
def loopClause (expression : m Expr) (ending : Symbol) (what : String) :
    m (Option Expr) := do
  let clause ← if ← check (.symbol ending) then pure none else do pure (some (← expression))
  let _ ← expect (.symbol ending) what
  return clause

def forStatement (expression : m Expr) (statement : m Stmt) : m Stmt := do
  let _ ← expect (.symbol .leftParen) "'(' after 'for'"
  let start ← loopStart expression
  let c ← loopClause expression .semicolon "';' after loop condition"
  let increment ← loopClause expression .rightParen "')' after for clauses"
  return .forLoop start c increment (← body statement)

def returnStatement (expression : m Expr) (keyword : Token) : m Stmt := do
  let value ←
    if endsStatement (← peek).kind then pure none else do pure (some (← expression))
  statementEnd
  return .ret value keyword.position.line

/-- What the literals among the arguments of a trade already tell; other arguments are known only
when the trade is made. -/
def tradeArgumentComplaint? (args : List Expr) : Option Complaint :=
  let strings := args.countP fun | .string .. => true | _ => false
  let numbers := args.countP fun | .number .. => true | _ => false
  let booleans := args.any fun | .boolean .. => true | _ => false
  if 2 < args.length then some .tooManyTradeArguments
  else if booleans then some (.badTradeArguments (.neither "boolean"))
  else if 1 < strings then some (.badTradeArguments .twoMessages)
  else if 1 < numbers then some (.badTradeArguments .twoQuantities)
  else none

/-- Behind its arguments, a trade is complained of at its keyword or comes to the end of a statement. -/
def tradeEnd (action : TradeAction) (keyword : Token) (args : List Expr) : m Stmt :=
  match tradeArgumentComplaint? args with
  | some complaint => fail complaint keyword
  | none => do
    statementEnd
    return .trade action args keyword.position.line

def tradeStatement (expression : m Expr) (action : TradeAction) (keyword : Token) :
    m Stmt := do
  let args ←
    if ← accept (.symbol .leftParen) then
      arguments expression "')' after trade arguments"
    else pure []
  tradeEnd action keyword args

def expressionStatement (expression : m Expr) : m Stmt := do
  let e ← expression
  statementEnd
  return .expr e

/-! ## The grammar -/

/-- A statement, told by its first token. -/
def anyStatement (expression : m Expr) (statement : m Stmt) : m Stmt := do
  let t ← peek
  match t.kind with
  | .keyword .functionWord => do let _ ← advance; functionStatement statement
  | .keyword .varWord => do let _ ← advance; varStatement expression
  | .keyword .ifWord => do let _ ← advance; ifStatement expression statement
  | .keyword .whileWord => do let _ ← advance; whileStatement expression statement
  | .keyword .forWord => do let _ ← advance; forStatement expression statement
  | .keyword .returnWord => do let _ ← advance; returnStatement expression t
  | .keyword (.trade action) => do let _ ← advance; tradeStatement expression action t
  | .symbol .leftBrace => do
    let _ ← advance
    return .block (← blockBody statement)
  | _ => expressionStatement expression

/-- A statement one level deeper than its surroundings. -/
def statement : Nat → Parser Stmt
  | 0 => tooDeep .statement
  | levels + 1 => anyStatement (expression levels) (statement levels)

end StrategyScript.Parse
