/-
A file tree in memory, as a host for commands. A path leads from the root or from the current directory.
The tree also knows what the machine refuses whatever the files are, so that reading, making a file,
writing to it and printing can each fail on their own, and writing also part-way or without a word, as on
the null device. There are no links in it.
-/
import StrategyScript.Host.Basic

namespace StrategyScript

inductive FileEntry
  | file (bytes : List UInt8)
  | directory
deriving DecidableEq, Repr

/-- What the machine does not do, though the files would allow it: there is no permission, the disk is
full, a device keeps nothing, nobody reads the standard output. -/
structure Refusals where
  read : List String → Option FileFault
  create : List String → Option FileFault
  /-- How many bytes a file keeps, if there is a limit, and what comes of writing more of them. -/
  write : List String → Option (Nat × Except FileFault Unit)
  print : Option FileFault

/-- The place of the device that keeps nothing of what is written to it. -/
def nullDevice : List String := ["dev", "null"]

/-- Nothing is refused, but the null device is what it is. -/
def Refusals.ordinary : Refusals where
  read _ := none
  create _ := none
  write place := if place = nullDevice then some (0, .ok ()) else none
  print := none

/-- Files and directories by their path from the root, and the path of the current directory. The root
itself has no entry. -/
structure FileTree where
  entries : List (List String × FileEntry)
  start : List String
  refusals : Refusals

namespace FileTree

/-- A current directory without files, right below the root, and beside it the null device. -/
def empty : FileTree :=
  ⟨[(["work"], .directory), (["dev"], .directory), (nullDevice, .file [])], ["work"], .ordinary⟩

def entry? (t : FileTree) (path : List String) : Option FileEntry :=
  if path = [] then some .directory else t.entries.lookup path

/-- Puts an entry at a path, in place of one that is there. -/
def put (t : FileTree) (path : List String) (e : FileEntry) : FileTree :=
  { t with entries := (path, e) :: t.entries.filter (·.1 ≠ path) }

/-! ## Paths -/

/-- The parts of a path between its slashes. -/
def parts (path : String) : List String :=
  (path.toList.splitOn '/').map String.ofList

/-- Where a path begins. -/
def origin (t : FileTree) (path : String) : List String :=
  if path.startsWith "/" then [] else t.start

/-- One part further down a path; only a directory has parts below it. The root is above itself. -/
def descend (t : FileTree) (place : List String) (part : String) : Except FileFault (List String) :=
  match t.entry? place with
  | none => .error .notFound
  | some (.file _) => .error .notADirectory
  | some .directory =>
    if part = "" ∨ part = "." then .ok place
    else if part = ".." then .ok place.dropLast
    else .ok (place ++ [part])

/-- The place that a path names; whether anything is there is not looked at. -/
def resolve (t : FileTree) (path : String) : Except FileFault (List String) :=
  if path = "" then .error .notFound
  else (parts path).foldlM t.descend (t.origin path)

/-- The place of a file to be made, which needs a directory above it and a name. -/
def resolveNew (t : FileTree) (path : String) : Except FileFault (List String) := do
  if path = "" then throw .notFound
  let all := parts path
  let named := (all.reverse.dropWhile (· = "")).reverse
  let above ← named.dropLast.foldlM t.descend (t.origin path)
  let _ ← t.descend above "."
  let name := named.getLast?.getD "."
  if named.length < all.length ∨ name = "." ∨ name = ".." then throw .isADirectory
  return above ++ [name]

/-! ## Operations -/

def readText (t : FileTree) (path : String) : Except FileFault String := do
  let place ← t.resolve path
  match t.entry? place, t.refusals.read place with
  | none, _ => throw .notFound
  | some _, some fault => throw fault
  | some .directory, none => throw .isADirectory
  | some (.file bytes), none =>
    match String.fromUTF8? ⟨bytes.toArray⟩ with
    | some text => return text
    | none => throw .notText

/-- The names right below a directory. -/
def children (t : FileTree) (dir : List String) : List String :=
  t.entries.filterMap fun (path, _) =>
    if path ≠ [] ∧ path.dropLast = dir then path.getLast? else none

def listNames (t : FileTree) (path : String) : Except FileFault (List String) := do
  let dir ← t.resolve path
  match t.entry? dir, t.refusals.read dir with
  | none, _ => throw .notFound
  | some (.file _), _ => throw .notADirectory
  | some .directory, some fault => throw fault
  | some .directory, none => return t.children dir

/-- Makes an empty file, also in place of one that is there, and tells where. -/
def create (t : FileTree) (path : String) : Except FileFault (FileTree × List String) := do
  let place ← t.resolveNew path
  match t.entry? place, t.refusals.create place with
  | some .directory, _ => throw .isADirectory
  | _, some fault => throw fault
  | _, none => return (t.put place (.file []), place)

/-- What a file keeps of the bytes written to it, and what comes of writing them. -/
def accept (t : FileTree) (place : List String) (bytes : List UInt8) : List UInt8 × Except FileFault Unit :=
  match t.refusals.write place with
  | none => (bytes, .ok ())
  | some (n, r) => if bytes.length ≤ n then (bytes, .ok ()) else (bytes.take n, r)

/-- Puts an entry at a path from the current directory, and the directories above it. -/
def plant (t : FileTree) (path : List String) (e : FileEntry) : FileTree :=
  let path := t.start ++ path
  let above := (List.range path.length).map fun n => path.take n
  let t := above.foldl (fun t dir =>
    if dir = [] ∨ (t.entry? dir).isSome then t else t.put dir .directory) t
  t.put path e

end FileTree

/-! ## The host -/

/-- A file tree, and what has been written to the two streams. -/
structure World where
  files : FileTree
  stdout : String
  stderr : String

namespace World

def ofFiles (files : FileTree) : World := ⟨files, "", ""⟩

/-- Writes a text to the file in a place, which has as much of it then as it keeps. -/
def write (place : List String) (text : String) : StateM World (Except FileFault Unit) := do
  let (bytes, r) := (← get).files.accept place text.toUTF8.data.toList
  modify fun w => { w with files := w.files.put place (.file bytes) }
  return r

/-- Commands as functions on worlds. -/
def host : Host (StateM World) where
  readText path := do return (← get).files.readText path
  entries path := do return (← get).files.listNames path
  createFile path := do
    match (← get).files.create path with
    | .ok (files, place) => modify fun w => { w with files }; return .ok (write place)
    | .error e => return .error e
  print text := do
    match (← get).files.refusals.print with
    | none => modify fun w => { w with stdout := w.stdout ++ text }; return .ok ()
    | some e => return .error e
  report text := modify fun w => { w with stderr := w.stderr ++ text }

end World

end StrategyScript
