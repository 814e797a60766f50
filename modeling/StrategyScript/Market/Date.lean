/-
Calendar dates of the Gregorian calendar, their order, and reading and writing them as year, month
and day with hyphens between.
-/
import StrategyScript.Text.Blank
import StrategyScript.Number.Read
import StrategyScript.Text.Layout

namespace StrategyScript

structure Date where
  year : Int
  month : Nat
  day : Nat
deriving DecidableEq, Repr

namespace Date

/-- From the earlier to the later. -/
def le (a b : Date) : Bool :=
  a.year < b.year || a.year == b.year &&
    (a.month < b.month || a.month == b.month && a.day ≤ b.day)

def isLeapYear (year : Int) : Bool :=
  year % 4 == 0 && (year % 100 != 0 || year % 400 == 0)

def daysInMonth (year : Int) (month : Nat) : Nat :=
  if month = 2 then (if isLeapYear year then 29 else 28)
  else if month = 4 ∨ month = 6 ∨ month = 9 ∨ month = 11 then 30
  else 31

def firstYear : Int := -262143

def lastYear : Int := 262142

/-- The date exists and lies in the years provided for. -/
def isValid (d : Date) : Bool :=
  firstYear ≤ d.year && d.year ≤ lastYear && 1 ≤ d.month && d.month ≤ 12 && 1 ≤ d.day &&
    d.day ≤ daysInMonth d.year d.month

/-! ## Reading -/

/-- Why a text is no date. -/
inductive Fault
  | outOfRange
  | tooShort
  | malformed
  | tooLong
deriving DecidableEq, Repr

def Fault.message : Fault → String
  | .outOfRange => "input is out of range"
  | .tooShort => "premature end of input"
  | .malformed => "input contains invalid characters"
  | .tooLong => "trailing input"

/-- A row of digits, at least one and at most `width` of them, of a value that fits into 64 bits. -/
def readNumber (width : Nat) (cs : List Char) : Except Fault (Nat × List Char) :=
  match cs with
  | [] => .error .tooShort
  | c :: _ =>
    if !c.isDigit then .error .malformed
    else
      let digits := (cs.take width).takeWhile Char.isDigit
      let n := Number.digitsValue digits
      if n < Number.intLimit then .ok (n, cs.drop digits.length) else .error .outOfRange

/-- The years that fit into 32 bits can be read, though not all of them have dates. -/
def firstReadable : Int := -2147483648

def lastReadable : Int := 2147483647

/-- A year: four digits, or a sign and any count of digits. -/
def readYear (cs : List Char) : Except Fault (Int × List Char) :=
  match cs with
  | '-' :: cs => (readNumber cs.length cs).map fun (n, rest) => (-(n : Int), rest)
  | '+' :: cs => (readNumber cs.length cs).map fun (n, rest) => ((n : Int), rest)
  | cs => (readNumber 4 cs).map fun (n, rest) => ((n : Int), rest)

/-- A hyphen. -/
def readHyphen : List Char → Except Fault (List Char)
  | [] => .error .tooShort
  | '-' :: cs => .ok cs
  | _ :: _ => .error .malformed

/-- A number of one or two digits in the given range. -/
def readPart (first last : Nat) (cs : List Char) : Except Fault (Nat × List Char) := do
  let (n, rest) ← readNumber 2 (Text.trimStart cs)
  if first ≤ n && n ≤ last then .ok (n, rest) else .error .outOfRange

/-- Year, month and day; each may have blanks in front, and each is held against its range before
what follows is looked at. -/
def read (s : String) : Except Fault Date := do
  let (year, rest) ← readYear (Text.trimStart s.toList)
  if year < firstReadable || lastReadable < year then throw .outOfRange
  let rest ← readHyphen rest
  let (month, rest) ← readPart 1 12 rest
  let rest ← readHyphen rest
  let (day, rest) ← readPart 1 31 rest
  if rest ≠ [] then throw .tooLong
  let date : Date := ⟨year, month, day⟩
  if date.isValid then return date else throw .outOfRange

/-! ## Writing -/

/-- Digits with zeros in front up to a width. -/
def zeroPadded (width : Nat) (n : Nat) : String :=
  let digits := toString n
  String.ofList (List.replicate (width - digits.length) '0') ++ digits

/-- Years of more or fewer than four digits have a sign. -/
def text (d : Date) : String :=
  let sign := if d.year < 0 then "-" else if 9999 < d.year then "+" else ""
  sign ++ zeroPadded 4 d.year.natAbs ++ "-" ++ zeroPadded 2 d.month ++ "-" ++ zeroPadded 2 d.day

end Date

end StrategyScript
