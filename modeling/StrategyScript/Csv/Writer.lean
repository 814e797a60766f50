/-
Writing comma-separated values. A field is put between quotes only where it has to be.
-/

namespace StrategyScript.Csv

/-- A character that a field without quotes cannot hold. -/
def isSpecial (c : Char) : Bool :=
  c = ',' || c = '\x22' || c = '\r' || c = '\n'

/-- Each quote is written twice. -/
def doubleQuotes (cs : List Char) : List Char :=
  cs.flatMap fun c => if c = '\x22' then ['\x22', '\x22'] else [c]

def writeField (field : String) : List Char :=
  if field.toList.any isSpecial then '\x22' :: doubleQuotes field.toList ++ ['\x22']
  else field.toList

/-- Fields with commas between them. -/
def writeFields : List String → List Char
  | [] => []
  | [f] => writeField f
  | f :: fs => writeField f ++ ',' :: writeFields fs

/-- Records, each ended by a line feed. -/
def write (records : List (List String)) : String :=
  String.ofList (records.flatMap fun r => writeFields r ++ ['\n'])

end StrategyScript.Csv
