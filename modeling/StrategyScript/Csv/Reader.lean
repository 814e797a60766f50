/-
Reading comma-separated values. Fields may stand between double quotes, with quotes inside doubled;
a quote elsewhere stands for itself. Records end at a line feed or a carriage return outside of
quotes, and empty lines are no records.
-/

namespace StrategyScript.Csv

/-- How far reading has come: lines from one, bytes from zero. -/
structure Place where
  line : Nat
  byte : Nat
deriving DecidableEq, Repr

def Place.start : Place := ⟨1, 0⟩

def Place.advance (p : Place) (c : Char) : Place :=
  ⟨if c = '\n' then p.line + 1 else p.line, p.byte + c.utf8Size⟩

def Place.advanceAll (p : Place) (cs : List Char) : Place :=
  cs.foldl advance p

/-- A record, and where the record before it ended. -/
structure Record where
  fields : List String
  place : Place
deriving DecidableEq, Repr

def isLineEnd (c : Char) : Bool := c = '\n' || c = '\r'

/-- Where in a field the reader is. -/
inductive Mode
  | start
  | bare
  | quoted
  | closed
deriving DecidableEq, Repr

/-- The fields up to the end of the record, and the number of characters read, the one that ends the
record included. `field` and `fields` hold, in reverse, what has been read before, `count` of
characters. -/
def readRow (mode : Mode) (field : List Char) (fields : List String) (count : Nat) :
    List Char → List String × Nat
  | [] => ((String.ofList field.reverse :: fields).reverse, count)
  | c :: cs =>
    if mode = .quoted then
      if c = '\x22' then readRow .closed field fields (count + 1) cs
      else readRow .quoted (c :: field) fields (count + 1) cs
    else if mode = .start ∧ c = '\x22' then readRow .quoted field fields (count + 1) cs
    else if mode = .closed ∧ c = '\x22' then readRow .quoted (c :: field) fields (count + 1) cs
    else if c = ',' then
      readRow .start [] (String.ofList field.reverse :: fields) (count + 1) cs
    else if isLineEnd c then ((String.ofList field.reverse :: fields).reverse, count + 1)
    else readRow .bare (c :: field) fields (count + 1) cs

/-- The records of a text that begins at a place; the bound is the text's length. -/
def recordsWithin : Nat → Place → List Char → List Record
  | 0, _, _ => []
  | bound + 1, place, cs =>
    let gap := cs.takeWhile isLineEnd
    match cs.dropWhile isLineEnd with
    | [] => []
    | c :: row =>
      let (fields, count) := readRow .start [] [] 0 (c :: row)
      let next := (place.advanceAll gap).advanceAll ((c :: row).take count)
      ⟨fields, place⟩ :: recordsWithin bound next ((c :: row).drop count)

/-- The records of a file. A byte order mark in front is passed over. -/
def records (text : String) : List Record :=
  match text.toList with
  | c :: cs =>
    if c = '\ufeff' then recordsWithin cs.length (Place.start.advance c) cs
    else recordsWithin (c :: cs).length .start (c :: cs)
  | [] => []

/-! ## Tables -/

/-- A record that does not have as many fields as the header. -/
structure Uneven where
  record : Nat
  place : Place
  found : Nat
  expected : Nat
deriving DecidableEq, Repr

def Uneven.message (u : Uneven) : String :=
  s!"CSV error: record {u.record} (line: {u.place.line}, byte: {u.place.byte}): found record with " ++
    s!"{u.found} fields, but the previous record has {u.expected} fields"

/-- The records after the header, each as its fields or as uneven. -/
def rows (text : String) : List (Except Uneven (List String)) :=
  match records text with
  | [] => []
  | header :: rest =>
    let expected := header.fields.length
    rest.zipIdx.map fun (r, i) =>
      if r.fields.length = expected then .ok r.fields
      else .error ⟨i + 1, r.place, r.fields.length, expected⟩

end StrategyScript.Csv
