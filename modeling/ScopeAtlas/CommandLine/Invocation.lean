import ScopeAtlas.CommandLine.Options

/-!
Commands and how they are written.
-/

namespace ScopeAtlas.CommandLine

structure Spot where
  file : String
  line : Nat
  column : Nat
  deriving Repr

def Spot.location (spot : Spot) : Location :=
  Location.point spot.file spot.line spot.column

inductive Command
  | load (path : Path) (archive : Option Path) (workers : Option Nat)
  | scope (spot : Spot) (archive : Option Path)
  | calls (spot : Spot) (archive : Option Path)
  | callers (method : String) (archive : Option Path) (depth : Nat)
  | stats (archive : Option Path)
  | init (force : Bool)

structure Invocation where
  verbose : Bool
  settings : Option Path
  command : Command

/-! ### Values of options -/

namespace Options

def optional? {α : Type} (options : Options) (name : String) (read : String → Option α) :
    Option (Option α) :=
  match options.value? name with
  | none => some none
  | some value => (read value).map some

def required? {α : Type} (options : Options) (name : String) (read : String → Option α) : Option α :=
  (options.value? name).bind read

end Options

/-! ### Commands -/

def flag (name : String) (short : Option Char) : OptionSpec := ⟨name, short, .flag⟩

def valued (name : String) (short : Option Char) (kind : ValueKind) : OptionSpec :=
  ⟨name, short, .valued kind⟩

def sharedOptions : List OptionSpec :=
  [flag "verbose" (some 'v'), valued "config" none .path, ⟨"help", some 'h', .help⟩]

def versionOption : OptionSpec := ⟨"version", some 'V', .version⟩

def archiveOption : OptionSpec := valued "archive" (some 'a') .path

def spotOptions : List OptionSpec :=
  [valued "file" (some 'f') .text, valued "line" (some 'l') .coordinate,
    valued "column" (some 'c') .coordinate]

def commandOptions? : String → Option (List OptionSpec)
  | "load" =>
    some [valued "path" (some 'p') .path, archiveOption, valued "workers" (some 'w') .size]
  | "scope" => some (spotOptions ++ [archiveOption])
  | "calls" => some (spotOptions ++ [archiveOption])
  | "callers" => some [valued "method" (some 'm') .text, archiveOption, valued "depth" none .size]
  | "stats" => some [archiveOption]
  | "init" => some [flag "force" (some 'f')]
  | _ => none

def helpCommand : String := "help"

def isCommand (word : String) : Bool :=
  word == helpCommand || (commandOptions? word).isSome

def spot? (options : Options) : Option Spot := do
  return ⟨← options.required? "file" some, ← options.required? "line" coordinate?,
    (← options.optional? "column" coordinate?).getD 1⟩

def command? (name : String) (options : Options) : Option Command := do
  let archive ← options.optional? "archive" path?
  match name with
  | "load" =>
    return .load (← options.required? "path" path?) archive (← options.optional? "workers" size?)
  | "scope" => return .scope (← spot? options) archive
  | "calls" => return .calls (← spot? options) archive
  | "callers" =>
    return .callers (← options.required? "method" some) archive
      ((← options.optional? "depth" size?).getD 1)
  | "stats" => return .stats archive
  | "init" => return .init (options.has "force")
  | _ => none

/-- What `help` with the words after it comes to: it takes the name of one command at most. -/
def readHelp : List String → Halt
  | [] => .help
  | [word] => if isCommand word then .help else .misuse
  | _ => .misuse

def demand {α : Type} : Option α → Except Halt α
  | some value => .ok value
  | none => .error .misuse

/-- Reads a command line. The options in front of the command are complete only when those after
it have been read. -/
def Invocation.ofWords (words : List String) : Except Halt Invocation := do
  let (leading, found) ← Options.readWords (sharedOptions ++ [versionOption]) isCommand .empty words
  let (name, others) ← demand found
  if name == helpCommand then .error (readHelp others)
  else do
    let specs ← demand (commandOptions? name)
    let options ← Options.read (specs ++ sharedOptions) others
    let command ← demand (command? name options)
    let before ← leading.settle
    let config := (options.value? "config").or (before.value? "config")
    return ⟨before.has "verbose" || options.has "verbose", config.bind path?, command⟩

end ScopeAtlas.CommandLine
