/-
Reading along a row of tokens. A parser takes what is left of the row and gives back a result and
what is left after it; a parser that fails gives back the place where it stopped as well, so that
reading can resume from there.
-/
import StrategyScript.Parse.Fault

namespace StrategyScript

/-! ## The row of tokens -/

/-- The tokens still to be read, up to the end of input, and where that end is. -/
structure Cursor where
  rest : List Token
  stop : Position
deriving Repr

namespace Cursor

/-- The tokens before the first end of input. A row without one ends where its last token begins. -/
def ofTokens (tokens : List Token) : Cursor where
  rest := tokens.takeWhile (·.kind ≠ .endOfInput)
  stop :=
    match tokens.find? (·.kind = .endOfInput), tokens.getLast? with
    | some t, _ => t.position
    | none, some t => t.position
    | none, none => .start

/-- The next token; at the end of the row it is the end of input. -/
def peek (c : Cursor) : Token :=
  match c.rest with
  | t :: _ => t
  | [] => ⟨⟨.endOfInput, ""⟩, c.stop⟩

/-- Passes over one token; the end of input stays. -/
def next (c : Cursor) : Cursor := { c with rest := c.rest.tail }

/-- Passes over tokens as long as their kinds satisfy `p`. -/
def skip (c : Cursor) (p : TokenKind → Bool) : Cursor :=
  { c with rest := c.rest.dropWhile fun t => p t.kind }

end Cursor

/-! ## Parsers -/

/-- How a parser ends. -/
inductive Parsed (α : Type)
  | ok (value : α) (after : Cursor)
  | error (e : ParseError) (stopped : Cursor)
deriving Repr

def Parser (α : Type) : Type := Cursor → Parsed α

namespace Parser

@[inline] protected def pure (a : α) : Parser α := fun c => .ok a c

@[inline] protected def bind (p : Parser α) (f : α → Parser β) : Parser β := fun c =>
  match p c with
  | .ok a c => f a c
  | .error e c => .error e c

instance : Monad Parser where
  pure := Parser.pure
  bind := Parser.bind

theorem pure_run (a : α) (c : Cursor) : (Pure.pure a : Parser α) c = .ok a c := rfl

theorem bind_ok {p : Parser α} {f : α → Parser β} {c d : Cursor} {a : α} (h : p c = .ok a d) :
    (p >>= f) c = f a d := by
  show Parser.bind p f c = _
  simp [Parser.bind, h]

theorem bind_error {p : Parser α} {f : α → Parser β} {c d : Cursor} {e : ParseError}
    (h : p c = .error e d) : (p >>= f) c = .error e d := by
  show Parser.bind p f c = _
  simp [Parser.bind, h]

/-- Fails with a complaint about a token. -/
def fail (complaint : Parse.Complaint) (t : Token) : Parser α := fun c =>
  .error ⟨complaint.message, t.position⟩ c

/-- Looks at the next token without reading it. -/
def peek : Parser Token := fun c => .ok c.peek c

/-- Fails with a complaint about the next token. -/
def failHere (complaint : Lexeme → Parse.Complaint) : Parser α := fun c =>
  .error ⟨(complaint c.peek.toLexeme).message, c.peek.position⟩ c

/-- Reads one token. -/
def advance : Parser Token := fun c => .ok c.peek c.next

/-- Whether the next token is of a kind. -/
def check (kind : TokenKind) : Parser Bool := fun c => .ok (c.peek.kind == kind) c

/-- Reads the next token if it is of a kind, and tells whether it was. -/
def accept (kind : TokenKind) : Parser Bool := fun c =>
  if c.peek.kind = kind then .ok true c.next else .ok false c

/-- Reads a token of a kind; `what` says in words what is missing otherwise. -/
def expect (kind : TokenKind) (what : String) : Parser Token := fun c =>
  if c.peek.kind = kind then .ok c.peek c.next
  else .error ⟨(Parse.Complaint.expected what c.peek.toLexeme).message, c.peek.position⟩ c

/-- Passes over tokens as long as their kinds satisfy `p`. -/
def skip (p : TokenKind → Bool) : Parser Unit := fun c => .ok () (c.skip p)

/-! ## Repetition -/

/-- Repeats a step until it answers `none`, at most once for each token of `bound`. -/
def iterateWithin (step : α → Parser (Option α)) : List Token → α → Parser α
  | [], a => Pure.pure a
  | _ :: bound, a => fun c =>
    match step a c with
    | .ok (some b) c => iterateWithin step bound b c
    | .ok none c => .ok a c
    | .error e c => .error e c

/-- Repeats a step until it answers `none`. A step that answers anything else reads a token, so
there are no more of those than tokens. -/
def iterate (step : α → Parser (Option α)) (a : α) : Parser α := fun c =>
  iterateWithin step (c.peek :: c.rest) a c

end Parser

/-! ## Ways of reading -/

/-- A way of reading: it runs parsers, one after another and again and again, and may keep something
beside the row of tokens, such as how deep it is in the grammar. The grammar is the same for all. -/
class Reading (m : Type → Type) extends Monad m where
  read : Parser α → m α
  iterate : (α → m (Option α)) → α → m α

namespace Reading

instance : Reading Parser where
  read p := p
  iterate := Parser.iterate

variable {m : Type → Type} [Reading m]

instance : MonadLift Parser m := ⟨read⟩

@[simp] theorem liftM_self (p : Parser α) : (liftM p : Parser α) = p := rfl

/-- One item or more with commas between them. -/
def commaSeparated (item : m α) : m (List α) := do
  let first ← item
  let items ← iterate (fun items => do
    if ← Parser.accept (.symbol .comma) then
      return some ((← item) :: items)
    else return none) [first]
  return items.reverse

end Reading

end StrategyScript
