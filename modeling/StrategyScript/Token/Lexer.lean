/-
From source text to tokens. The text is cut into segments, each a token or a gap, from left to
right; nothing is lost, and every text has tokens: a character that begins no token is a gap, and a
string without a closing quote runs to the end of the text.
-/
import StrategyScript.Token.Basic
import StrategyScript.Text.Letter
import StrategyScript.Text.Lowercase

namespace StrategyScript.Lexer

/-- A stretch of source text: a token's spelling, or a gap between tokens. -/
structure Segment where
  text : List Char
  token : Option Lexeme
deriving Repr

def Segment.gap (text : List Char) : Segment := ⟨text, none⟩

def Segment.lexeme (text : List Char) (kind : TokenKind) : Segment :=
  ⟨text, some ⟨kind, String.ofList text⟩⟩

/-! ## Words, numerals and strings -/

def beginsWord (c : Char) : Bool :=
  Text.isAlphabetic c || c == '_'

def continuesWord (c : Char) : Bool :=
  Text.isAlphanumeric c || c == '_'

/-- The kind of a word does not hang on its case. -/
def wordKind (word : List Char) : TokenKind :=
  .ofWord (Text.lowercase (String.ofList word))

def word (cs : List Char) : Segment :=
  let text := cs.takeWhile continuesWord
  .lexeme text (wordKind text)

/-- Digits, then perhaps a point and more digits. -/
def numeralText (cs : List Char) : List Char :=
  let whole := cs.takeWhile Char.isDigit
  match cs.dropWhile Char.isDigit with
  | '.' :: rest => whole ++ '.' :: rest.takeWhile Char.isDigit
  | _ => whole

def numeral (cs : List Char) : Segment :=
  .lexeme (numeralText cs) .number

/-- What an escaped character stands for. -/
def unescape : Char → Char
  | 'n' => '\n'
  | 't' => '\t'
  | 'r' => '\r'
  | c => c

/-- The text of a string after its opening quote, closing quote included, and its value. -/
def stringBody (quote : Char) : List Char → List Char × List Char
  | [] => ([], [])
  | ['\\'] => (['\\'], [])
  | '\\' :: c :: cs =>
    let (text, value) := stringBody quote cs
    ('\\' :: c :: text, unescape c :: value)
  | c :: cs =>
    if c = quote then ([c], [])
    else
      let (text, value) := stringBody quote cs
      (c :: text, c :: value)

def string (quote : Char) (cs : List Char) : Segment :=
  let (text, value) := stringBody quote cs
  ⟨quote :: text, some ⟨.string, String.ofList value⟩⟩

/-! ## Operators -/

/-- The symbol at the front of the text; two characters go before one. -/
def symbolAt (cs : List Char) : Option Symbol :=
  match Symbol.spelled? (cs.take 2) with
  | some s => some s
  | none => Symbol.spelled? (cs.take 1)

/-! ## Segments -/

/-- The segment at the front of a text that is not empty. -/
def firstSegment (c : Char) (cs : List Char) : Segment :=
  if c = ' ' ∨ c = '\t' ∨ c = '\r' then .gap [c]
  else if c = '/' ∧ cs.head? = some '/' then .gap ((c :: cs).takeWhile (· ≠ '\n'))
  else if c = '\n' then .lexeme [c] .newline
  else if c.isDigit then numeral (c :: cs)
  else if c = '\x22' ∨ c = '\x27' then string c cs
  else if beginsWord c then word (c :: cs)
  else match symbolAt (c :: cs) with
    | some s => .lexeme s.spelling (.symbol s)
    | none => .gap [c]

/-- The segments of a text; the bound is the text's length. -/
def segmentsWithin : Nat → List Char → List Segment
  | 0, _ => []
  | _ + 1, [] => []
  | n + 1, c :: cs =>
    let segment := firstSegment c cs
    segment :: segmentsWithin n ((c :: cs).drop segment.text.length)

def segments (cs : List Char) : List Segment :=
  segmentsWithin cs.length cs

/-- The tokens of a row of segments that begins at `p`, and the end of input behind them. -/
def place (p : Position) : List Segment → List Token
  | [] => [⟨⟨.endOfInput, ""⟩, p⟩]
  | s :: rest =>
    match s.token with
    | some l => ⟨l, p⟩ :: place (p.advanceAll s.text) rest
    | none => place (p.advanceAll s.text) rest

/-- The tokens of a source text. The last one, and only that, is the end of input. -/
def tokens (source : String) : List Token :=
  place .start (segments source.toList)

end StrategyScript.Lexer
