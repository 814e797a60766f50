/-
The program: commands on the machine's own files and streams.
-/
import StrategyScript.Command.Arguments

namespace StrategyScript

/-- What an error of the machine says about a file. -/
def FileFault.ofError : IO.Error → FileFault
  | .noFileOrDirectory .. => .notFound
  | .inappropriateType _ 20 _ => .notADirectory
  | .inappropriateType _ 21 _ => .isADirectory
  | .permissionDenied _ code details => .other s!"{details} (os error {code})"
  | e => .other e.toString

/-- An operation on files, with its error as a fault. -/
def attempt (operation : IO α) : IO (Except FileFault α) := do
  try return .ok (← operation) catch e => return .error (.ofError e)

/-- The machine. -/
def machine : Host IO where
  readText path := do
    return (← attempt (IO.FS.readBinFile path)).bind fun bytes =>
      match String.fromUTF8? bytes with
      | some text => .ok text
      | none => .error .notText
  entries path := attempt do
    let dir ← IO.FS.realPath path
    return (← dir.readDir).toList.map (·.fileName)
  createFile path := attempt do
    let file ← IO.FS.Handle.mk path .write
    return fun text => attempt do file.putStr text; file.flush
  print text := attempt (IO.print text)
  report := IO.eprint

/-- More rounds and calls than a run has the time for. -/
def fuel : Nat := Nat.pow 10 17

def exitCodeOf (words : List String) : IO Nat := do
  match Command.ofWords words with
  | .ok c =>
    match ← c.execute machine fuel with
    | some code => return code
    | none =>
      machine.report "error: the script does not come to an end\n"
      return 1
  | .error refusal =>
    if refusal.exitCode = 0 then let _ ← machine.print refusal.text
    else machine.report refusal.text
    return refusal.exitCode

end StrategyScript

def main (words : List String) : IO UInt32 := do
  return (← StrategyScript.exitCodeOf words).toUInt32
