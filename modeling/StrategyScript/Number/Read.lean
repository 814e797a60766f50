/-
Reading numbers: doubles from decimal notation with an optional point and exponent, and 64-bit
integers.
-/

namespace StrategyScript.Number

/-! ## Doubles -/

/-- Why a text is no double. -/
inductive FloatFault
  | empty
  | malformed
deriving DecidableEq, Repr

def FloatFault.message : FloatFault → String
  | .empty => "cannot parse float from empty string"
  | .malformed => "invalid float literal"

def infinity : Float := Float.ofBits 0x7FF0000000000000

def notANumber : Float := Float.ofBits 0x7FF8000000000000

/-- The number that a row of decimal digits stands for. -/
def digitsValue (digits : List Char) : Nat :=
  digits.foldl (fun n c => 10 * n + (c.toNat - '0'.toNat)) 0

/-- The double nearest to `mantissa · 10^exponent`. Powers far outside the range of doubles are
settled by the count of digits. -/
def nearest (mantissa : Nat) (exponent : Int) : Float :=
  let size : Int := (Nat.toDigits 10 mantissa).length + exponent
  if mantissa = 0 then 0.0
  else if 310 < size then infinity
  else if size < -330 then 0.0
  else Float.ofScientific mantissa (exponent < 0) exponent.natAbs

/-- An optional sign in front: whether it is a minus, and what follows. -/
def signed : List Char → Bool × List Char
  | '-' :: cs => (true, cs)
  | '+' :: cs => (false, cs)
  | cs => (false, cs)

/-- An exponent part, or nothing, up to the end of the text. -/
def readExponent : List Char → Option Int
  | [] => some 0
  | c :: cs =>
    let (negative, digits) := signed cs
    if (c = 'e' ∨ c = 'E') ∧ digits ≠ [] ∧ digits.all Char.isDigit then
      some (if negative then -(digitsValue digits : Int) else digitsValue digits)
    else none

/-- A decimal without sign: digits around an optional point, at least one of them, then an optional
exponent. -/
def readDecimal (cs : List Char) : Option Float :=
  let whole := cs.takeWhile Char.isDigit
  let rest := cs.dropWhile Char.isDigit
  let (fraction, rest) := match rest with
    | '.' :: cs => (cs.takeWhile Char.isDigit, cs.dropWhile Char.isDigit)
    | cs => ([], cs)
  if whole = [] ∧ fraction = [] then none
  else (readExponent rest).map fun e =>
    nearest (digitsValue (whole ++ fraction)) (e - fraction.length)

/-- A magnitude: a decimal, or the name of an infinity or of a NaN in any case. -/
def readMagnitude (cs : List Char) : Option Float :=
  let name := String.ofList (cs.map Char.toLower)
  if name = "inf" ∨ name = "infinity" then some infinity
  else if name = "nan" then some notANumber
  else readDecimal cs

def readFloat (s : String) : Except FloatFault Float :=
  if s = "" then .error .empty
  else
    let (negative, cs) := signed s.toList
    match readMagnitude cs with
    | some x => .ok (if negative then -x else x)
    | none => .error .malformed

/-! ## Integers -/

/-- Why a text is no 64-bit integer. -/
inductive IntFault
  | empty
  | malformed
  | tooLarge
  | tooSmall
deriving DecidableEq, Repr

def IntFault.message : IntFault → String
  | .empty => "cannot parse integer from empty string"
  | .malformed => "invalid digit found in string"
  | .tooLarge => "number too large to fit in target type"
  | .tooSmall => "number too small to fit in target type"

/-- Reads the digits from the left; the first that is no digit, or that leaves the range up to
`limit`, decides. -/
def readDigits (limit : Nat) (overflow : IntFault) : Nat → List Char → Except IntFault Nat
  | n, [] => .ok n
  | n, c :: cs =>
    if !c.isDigit then .error .malformed
    else
      let next := 10 * n + (c.toNat - '0'.toNat)
      if limit < next then .error overflow else readDigits limit overflow next cs

/-- The greatest magnitude of a negative 64-bit integer. -/
def intLimit : Nat := Nat.pow 2 63

def readInt (s : String) : Except IntFault Int :=
  match s.toList with
  | [] => .error .empty
  | ['-'] | ['+'] => .error .malformed
  | '-' :: cs => (readDigits intLimit .tooSmall 0 cs).map fun n => -(n : Int)
  | '+' :: cs => (readDigits (intLimit - 1) .tooLarge 0 cs).map fun n => (n : Int)
  | cs => (readDigits (intLimit - 1) .tooLarge 0 cs).map fun n => (n : Int)

/-- The largest 64-bit count. -/
def largestCount : Nat := Nat.pow 2 64 - 1

def readCount (s : String) : Except IntFault Nat :=
  match s.toList with
  | [] => .error .empty
  | ['+'] => .error .malformed
  | '+' :: cs => readDigits largestCount .tooLarge 0 cs
  | cs => readDigits largestCount .tooLarge 0 cs

end StrategyScript.Number
