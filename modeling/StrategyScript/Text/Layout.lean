/-
Lines of a text, and padding to a width counted in characters.
-/

namespace StrategyScript.Text

/-- The lines of a text. A line ends with a line feed or with a carriage return and a line feed; a
text that ends so has no empty last line. -/
def lines : List Char → List (List Char)
  | [] => []
  | '\n' :: cs => [] :: lines cs
  | '\r' :: '\n' :: cs => [] :: lines cs
  | c :: cs =>
    match lines cs with
    | [] => [[c]]
    | l :: ls => (c :: l) :: ls

/-- Fills up with blanks in front. -/
def padStart (width : Nat) (s : String) : String :=
  String.ofList (List.replicate (width - s.length) ' ') ++ s

/-- Fills up with blanks at the end. -/
def padEnd (width : Nat) (s : String) : String :=
  s ++ String.ofList (List.replicate (width - s.length) ' ')

end StrategyScript.Text
