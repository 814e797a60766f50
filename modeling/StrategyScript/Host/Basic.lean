/-
What a command needs from the machine it runs on: files, directories and two streams of text.
-/

namespace StrategyScript

/-- Why a file or a directory cannot be used. -/
inductive FileFault
  | notFound
  | notADirectory
  | isADirectory
  | notText
  | other (reason : String)
deriving DecidableEq, Repr

def FileFault.message : FileFault → String
  | .notFound => "No such file or directory (os error 2)"
  | .notADirectory => "Not a directory (os error 20)"
  | .isADirectory => "Is a directory (os error 21)"
  | .notText => "stream did not contain valid UTF-8"
  | .other reason => reason

/-- The operations, in the computations of `m`. -/
structure Host (m : Type → Type) where
  /-- The text of a file. -/
  readText : String → m (Except FileFault String)
  /-- The names in a directory. -/
  entries : String → m (Except FileFault (List String))
  /-- Makes an empty file, also in place of one that is there, and gives the operation that writes its
  text. -/
  createFile : String → m (Except FileFault (String → m (Except FileFault Unit)))
  /-- Writes to the standard output. -/
  print : String → m (Except FileFault Unit)
  /-- Writes to the standard error stream, which is always taken to be there. -/
  report : String → m Unit

/-- The path of a file in a directory. A name that begins with a slash is a path already. -/
def joinPath (dir name : String) : String :=
  if name.startsWith "/" then name
  else if dir = "" ∨ dir.endsWith "/" then dir ++ name
  else dir ++ "/" ++ name

end StrategyScript
