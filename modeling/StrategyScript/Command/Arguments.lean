/-
Command lines: the name of a command, then its options in any order. The value of an option stands in
the same word, behind an equals sign, or is the next word. What is no command is a call for help or a
misuse, and both have a text of their own.
-/
import StrategyScript.Command.Basic

namespace StrategyScript.Command

/-! ## Options -/

inductive Setting
  | script | config | dataDir | symbol | output | maxSteps | globals
deriving DecidableEq, Repr

namespace Setting

def all : List Setting :=
  [.script, .config, .dataDir, .symbol, .output, .maxSteps, .globals]

def name : Setting → String
  | .script => "script"
  | .config => "config"
  | .dataDir => "data-dir"
  | .symbol => "symbol"
  | .output => "output"
  | .maxSteps => "max-steps"
  | .globals => "globals"

/-- The letter that stands for a name. -/
def letter? : Setting → Option Char
  | .script => some 's'
  | .config => some 'c'
  | .output => some 'o'
  | _ => none

/-- A flag has no value. -/
def isFlag (s : Setting) : Bool := s = .globals

/-- The option as help and complaints write it. -/
def text (s : Setting) : String :=
  if s.isFlag then "--" ++ s.name
  else "--" ++ s.name ++ " <" ++ s.name.map (fun c => if c = '-' then '_' else c.toUpper) ++ ">"

def help : Setting → String
  | .globals => "Print the script's globals after the run"
  | _ => ""

end Setting

/-! ## Verbs -/

/-- The names of the commands. -/
inductive Verb
  | run | check | tokens | listSymbols
deriving DecidableEq, Repr

namespace Verb

def all : List Verb := [.run, .check, .tokens, .listSymbols]

def name : Verb → String
  | .run => "run"
  | .check => "check"
  | .tokens => "tokens"
  | .listSymbols => "list-symbols"

def help : Verb → String
  | .run => "Run a script against a symbol's bars and write the trade log"
  | .check => "Parse a script and report every syntax error"
  | .tokens => "Print the token stream of a script"
  | .listSymbols => "List symbols with a CSV file in the data directory"

def settings : Verb → List Setting
  | .run => Setting.all
  | .check | .tokens => [.script]
  | .listSymbols => [.dataDir, .config]

/-- Without a script there is nothing to check or to show. -/
def required : Verb → List Setting
  | .check | .tokens => [.script]
  | _ => []

def named? (word : String) : Option Verb := all.find? (·.name = word)

end Verb

/-! ## Help and misuse -/

/-- What is wrong with a command line. -/
inductive Misuse
  | unknownVerb (word : String)
  | unexpected (word : String)
  | noValue (s : Setting)
  | valueOfFlag (value : String) (s : Setting)
  | repeated (s : Setting)
  | badCount (value : String) (s : Setting) (cause : Number.IntFault)
  | missing (s : Setting)
deriving DecidableEq, Repr

def Misuse.message : Misuse → String
  | .unknownVerb word => s!"unrecognized subcommand '{word}'"
  | .unexpected word => s!"unexpected argument '{word}' found"
  | .noValue s => s!"a value is required for '{s.text}' but none was supplied"
  | .valueOfFlag value s => s!"unexpected value '{value}' for '{s.text}' found; no more were expected"
  | .repeated s => s!"the argument '{s.text}' cannot be used multiple times"
  | .badCount value s cause => s!"invalid value '{value}' for '{s.text}': {cause.message}"
  | .missing s => s!"the following required arguments were not provided:\n  {s.text}"

/-- Why a command line gives no command. -/
inductive Refusal
  | help (verb : Option Verb)
  | noVerb
  | misuse (verb : Option Verb) (cause : Misuse)
deriving DecidableEq, Repr

def programName : String := "strategy-script"

def usage : Option Verb → String
  | none => s!"Usage: {programName} <COMMAND>"
  | some v =>
    if v.required = [] then s!"Usage: {programName} {v.name} [OPTIONS]"
    else " ".intercalate (s!"Usage: {programName} {v.name}" :: v.required.map (·.text))

/-- Names and what they mean, in two columns. -/
def table (rows : List (String × String)) : String :=
  let width := rows.foldl (fun n (name, _) => max n name.length) 0
  String.join (rows.map fun (name, meaning) =>
    "  " ++ (if meaning = "" then name else Text.padEnd (width + 2) name ++ meaning) ++ "\n")

def settingRow (s : Setting) : String × String :=
  ((match s.letter? with
    | some c => s!"-{c}, "
    | none => "    ") ++ s.text, s.help)

def helpText (verb : Option Verb) : String :=
  let helpRow := ("-h, --help", "Print help")
  match verb with
  | none =>
    "Run trading strategy scripts against market data\n\n" ++ usage none ++ "\n\nCommands:\n" ++
      table (Verb.all.map (fun v => (v.name, v.help)) ++
        [("help", "Print this message or the help of the given subcommand(s)")]) ++
      "\nOptions:\n" ++ table [helpRow]
  | some v =>
    v.help ++ "\n\n" ++ usage verb ++ "\n\nOptions:\n" ++
      table (v.settings.map settingRow ++ [helpRow])

namespace Refusal

def text : Refusal → String
  | .help verb => helpText verb
  | .noVerb => helpText none
  | .misuse verb cause =>
    s!"error: {cause.message}\n\n{usage verb}\n\nFor more information, try '--help'.\n"

/-- Help that is asked for is no failure. -/
def exitCode : Refusal → Nat
  | .help _ => 0
  | _ => 2

end Refusal

/-! ## Reading -/

/-- The options read so far with their values, and one whose value is still to come. -/
structure Reading where
  given : List (Setting × String)
  awaiting : Option Setting

namespace Reading

def value? (r : Reading) (s : Setting) : Option String := r.given.lookup s

/-- Takes an option, with its value if it stands in the same word. -/
def take (r : Reading) (s : Setting) (value : Option String) : Except Misuse Reading :=
  if (r.value? s).isSome then .error (.repeated s)
  else match s.isFlag, value with
    | true, some v => .error (.valueOfFlag v s)
    | true, none => .ok { r with given := (s, "") :: r.given }
    | false, some v => .ok { r with given := (s, v) :: r.given }
    | false, none => .ok { r with awaiting := some s }

/-- Takes a word that begins an option. -/
def takeOption (r : Reading) (verb : Verb) (word : String) : Except Misuse Reading :=
  match word.toList with
  | '-' :: '-' :: cs =>
    let name := String.ofList (cs.takeWhile (· ≠ '='))
    match verb.settings.find? (·.name = name) with
    | none => .error (.unexpected ("--" ++ name))
    | some s => r.take s ((cs.dropWhile (· ≠ '=')).tail?.map String.ofList)
  | '-' :: c :: cs =>
    match verb.settings.find? (·.letter? = some c), cs with
    | none, _ => .error (.unexpected (String.ofList ['-', c]))
    | some s, [] => r.take s none
    | some s, '=' :: cs | some s, cs => r.take s (some (String.ofList cs))
  | _ => .error (.unexpected word)

/-- Takes one word. -/
def step (verb : Verb) (r : Reading) (word : String) : Except Refusal Reading :=
  match r.awaiting with
  | some s =>
    if word.startsWith "-" ∧ word ≠ "-" then .error (.misuse verb (.noValue s))
    else .ok ⟨(s, word) :: r.given, none⟩
  | none =>
    if word = "-h" ∨ word = "--help" then .error (.help verb)
    else (r.takeOption verb word).mapError (.misuse verb)

/-- All words are read: an option without its value, or one that is missing, is a misuse. -/
def complete (verb : Verb) (r : Reading) : Except Misuse Unit :=
  match r.awaiting, verb.required.find? fun s => (r.value? s).isNone with
  | some s, _ => .error (.noValue s)
  | none, some s => .error (.missing s)
  | none, none => .ok ()

def maxSteps (r : Reading) : Except Misuse (Option Nat) :=
  match r.value? .maxSteps with
  | none => .ok none
  | some value =>
    match Number.readCount value with
    | .ok n => .ok (some n)
    | .error cause => .error (.badCount value .maxSteps cause)

def overrides (r : Reading) : Except Misuse Config.Overrides := do
  return {
    script := r.value? .script
    dataDir := r.value? .dataDir
    symbol := r.value? .symbol
    output := r.value? .output
    maxSteps := ← r.maxSteps
    printGlobals := (r.value? .globals).isSome }

def command (verb : Verb) (r : Reading) : Except Misuse Command := do
  r.complete verb
  match verb with
  | .run => return .run (r.value? .config) (← r.overrides)
  | .check => return .check ((r.value? .script).getD "")
  | .tokens => return .tokens ((r.value? .script).getD "")
  | .listSymbols => return .listSymbols (r.value? .dataDir) (r.value? .config)

end Reading

/-- The verb that a word names. -/
def verbOf (word : String) : Except Refusal Verb :=
  match Verb.named? word with
  | some v => .ok v
  | none => .error (.misuse none
      (if word.startsWith "-" then .unexpected word else .unknownVerb word))

/-- The command of the words behind the program's name. -/
def ofWords : List String → Except Refusal Command
  | [] => .error .noVerb
  | "-h" :: _ | "--help" :: _ | ["help"] => .error (.help none)
  | "help" :: word :: _ => do throw (.help (← verbOf word))
  | word :: words => do
    let verb ← verbOf word
    let r ← words.foldlM (Reading.step verb) ⟨[], none⟩
    (r.command verb).mapError (.misuse verb)

end StrategyScript.Command
