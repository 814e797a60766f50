/-
Configuration documents: sections of keys and values, one to a line. Names of sections and keys do
not hang on their case. A semicolon or a hash begins a comment, and keys before the first section
belong to the section `default`.
-/
import StrategyScript.Store.Dictionary
import StrategyScript.Text.Blank
import StrategyScript.Text.Layout
import StrategyScript.Text.Lowercase

namespace StrategyScript.Config

/-- The values of all keys, by section. A key may stand without a value. -/
structure Document where
  sections : Dictionary (Dictionary (Option String))
deriving Repr

namespace Document

def empty : Document := ⟨[]⟩

/-- The section exists from now on. -/
def openSection (d : Document) (name : String) : Document :=
  ⟨d.sections.insert name ((d.sections.get? name).getD .nil)⟩

/-- Sets a key, in place of what it was set to before. -/
def set (d : Document) (name key : String) (value : Option String) : Document :=
  ⟨d.sections.insert name (((d.sections.get? name).getD .nil).insert key value)⟩

/-- The value of a key. -/
def get? (d : Document) (name key : String) : Option String :=
  (d.sections.get? (Text.lowercase name)).bind fun entries =>
    (entries.get? (Text.lowercase key)).join

/-- All keys with their sections, in ascending order. -/
def keys (d : Document) : List (String × String) :=
  d.sections.toList.flatMap fun (name, entries) => entries.keys.map (name, ·)

end Document

/-! ## Reading -/

/-- Why a text is no document. -/
inductive Fault
  | unclosedSection (line : Nat)
  | emptyKey (line : Nat)
deriving DecidableEq, Repr

def Fault.message : Fault → String
  | .unclosedSection line =>
    s!"line {line}: Found opening bracket for section name but no closing bracket"
  | .emptyKey line => s!"line {line}:0: Key cannot be empty"

def isComment (c : Char) : Bool := c = ';' || c = '#'

def isDelimiter (c : Char) : Bool := c = '=' || c = ':'

def trimmed (cs : List Char) : List Char := Text.trimEnd (Text.trimStart cs)

/-- A name in lower case, without the blanks around it. -/
def name (cs : List Char) : String :=
  Text.lowercase (String.ofList (trimmed cs))

/-- What a line says. -/
inductive Line
  | nothing
  | header (name : String)
  | entry (key : String) (value : Option String)
deriving DecidableEq, Repr

/-- Reads one line. A section's name reaches up to the last closing bracket, and a key up to the
first delimiter. -/
def Line.read (number : Nat) (text : List Char) : Except Fault Line :=
  let text := trimmed ((trimmed text).takeWhile (!isComment ·))
  match text with
  | [] => .ok .nothing
  | '[' :: rest =>
    if rest.contains ']' then
      .ok (.header (Config.name (rest.reverse.dropWhile (· ≠ ']')).tail.reverse))
    else .error (.unclosedSection number)
  | _ =>
    match text.dropWhile (!isDelimiter ·) with
    | [] => .ok (.entry (Config.name text) none)
    | _ :: value =>
      let key := text.takeWhile (!isDelimiter ·)
      if key = [] then .error (.emptyKey number)
      else .ok (.entry (Config.name key) (some (String.ofList (trimmed value))))

/-- A document being read, and the section that entries belong to. -/
structure Draft where
  document : Document
  current : String

def Draft.add (d : Draft) : Line → Draft
  | .nothing => d
  | .header name => ⟨d.document.openSection name, name⟩
  | .entry key value => { d with document := d.document.set d.current key value }

/-- Reads lines into a draft; `number` is the number of the first of them. -/
def Draft.read (d : Draft) (number : Nat) : List (List Char) → Except Fault Draft
  | [] => .ok d
  | line :: rest => do (d.add (← Line.read number line)).read (number + 1) rest

def Document.read (text : String) : Except Fault Document :=
  ((Draft.mk .empty "default").read 1 (Text.lines text.toList)).map (·.document)

end StrategyScript.Config
