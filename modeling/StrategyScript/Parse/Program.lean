/-
Programs. A reader either stops at the first error, or reports it, resumes at a boundary between
statements, and finds the next.
-/
import StrategyScript.Parse.Stmt
import StrategyScript.Token.Lexer

namespace StrategyScript.Parse

open StrategyScript.Parser hiding iterate
open StrategyScript.Reading

variable {m : Type → Type} [Reading m]

/-- How deep statements and expressions may be nested. -/
def maxNesting : Nat := 64

/-! ## The first error -/

/-- All statements up to the end of input. -/
def allStatements (statement : m Stmt) : m (List Stmt) := do
  let statements ← iterate (fun statements => do
    skipTerminators
    if (← peek).kind = .endOfInput then return none
    else return some ((← statement) :: statements)) []
  return statements.reverse

def statements (levels : Nat) : Parser (List Stmt) := allStatements (statement levels)

/-- The program of a row of tokens, or the first error in it. -/
def program (tokens : List Token) : Except ParseError Program :=
  match statements maxNesting (.ofTokens tokens) with
  | .ok p _ => .ok p
  | .error e _ => .error e

/-! ## All errors -/

/-- Passes over tokens until just after a semicolon or just before the keyword of a statement; `last`
is the token passed over before. -/
def resumeAfter (last : Token) : List Token → List Token
  | [] => []
  | t :: ts =>
    if last.kind = .symbol .semicolon ∨ t.kind.startsStatement then t :: ts
    else resumeAfter t ts

/-- Where reading resumes after an error: at least one token is passed over. -/
def resume (c : Cursor) : Cursor :=
  match c.rest with
  | [] => c
  | t :: ts => { c with rest := resumeAfter t ts }

/-- What a reader that goes on after errors has found so far, latest first. -/
structure Findings where
  statements : List Stmt
  errors : List ParseError

/-- Reads one statement more, or one error more. -/
def Findings.step (levels : Nat) (f : Findings) : Parser (Option Findings) := do
  skipTerminators
  if (← peek).kind = .endOfInput then return none
  else fun c =>
    match statement levels c with
    | .ok s c => .ok (some { f with statements := s :: f.statements }) c
    | .error e c => .ok (some { f with errors := e :: f.errors }) (resume c)

/-- The program of a row of tokens, or all errors in it. -/
def programOrErrors (tokens : List Token) : Except (List ParseError) Program :=
  match Parser.iterate (Findings.step maxNesting) ⟨[], []⟩ (.ofTokens tokens) with
  | .ok ⟨statements, []⟩ _ => .ok statements.reverse
  | .ok ⟨_, errors⟩ _ => .error errors.reverse
  | .error e _ => .error [e]

/-! ## From source text -/

/-- The program of a source text, or the first error in it. -/
def source (text : String) : Except ParseError Program :=
  program (Lexer.tokens text)

end StrategyScript.Parse
