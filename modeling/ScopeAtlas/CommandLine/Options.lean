import ScopeAtlas.CommandLine.Value
import ScopeAtlas.Text.Blank

/-!
Options on a command line: `--name value`, `--name=value`, `-n value`, `-nvalue`, `-n=value`, and
flags, of which several short ones may share a hyphen. Words are taken from left to right and the
first that asks for help or cannot be taken decides; an option whose value is a word of its own is
checked when the next option comes or the words end. No option may be repeated.
-/

namespace ScopeAtlas.CommandLine

inductive OptionKind
  | flag
  | valued (kind : ValueKind)
  | help
  | version
  deriving DecidableEq, Repr

structure OptionSpec where
  name : String
  short : Option Char
  kind : OptionKind
  deriving DecidableEq, Repr

structure Given where
  name : String
  value : String
  deriving DecidableEq, Repr

structure Pending where
  name : String
  kind : ValueKind
  value : Option String
  deriving DecidableEq, Repr

inductive Halt
  | help
  | version
  | misuse
  deriving DecidableEq, Repr

namespace OptionSpec

def findLong? (specs : List OptionSpec) (name : String) : Option OptionSpec :=
  specs.find? fun spec => spec.name == name

def findShort? (specs : List OptionSpec) (letter : Char) : Option OptionSpec :=
  specs.find? fun spec => spec.short == some letter

end OptionSpec

structure Options where
  given : List Given
  pending : Option Pending
  deriving DecidableEq, Repr

namespace Options

def empty : Options := ⟨[], none⟩

def value? (options : Options) (name : String) : Option String :=
  (options.given.find? fun entry => entry.name == name).map (·.value)

def has (options : Options) (name : String) : Bool :=
  (options.value? name).isSome

def awaits (options : Options) : Bool :=
  match options.pending with
  | some pending => pending.value.isNone
  | none => false

/-! ### Taking an option -/

def record (options : Options) (name value : String) : Except Halt Options :=
  if options.has name then .error .misuse
  else .ok { options with given := options.given ++ [⟨name, value⟩] }

def settle (options : Options) : Except Halt Options :=
  match options.pending with
  | none => .ok options
  | some ⟨_, _, none⟩ => .error .misuse
  | some ⟨name, kind, some value⟩ =>
    if kind.accepts value then Options.record { options with pending := none } name value
    else .error .misuse

def take (options : Options) (spec : OptionSpec) (attached : Option String) :
    Except Halt Options :=
  match spec.kind, attached with
  | .valued kind, none => do
    return { (← options.settle) with pending := some ⟨spec.name, kind, none⟩ }
  | .valued kind, some value => do
    Options.settle { (← options.settle) with pending := some ⟨spec.name, kind, some value⟩ }
  | _, some _ => .error .misuse
  | .flag, none => do (← options.settle).record spec.name ""
  | .help, none => do
    discard options.settle
    .error .help
  | .version, none => do
    discard options.settle
    .error .version

/-! ### Reading words -/

def readLong (specs : List OptionSpec) (options : Options) (body : List Char) :
    Except Halt Options :=
  let attached := match body.dropWhile (· != '=') with
    | [] => none
    | _ :: value => some (String.ofList value)
  match OptionSpec.findLong? specs (String.ofList (body.takeWhile (· != '='))) with
  | none => .error .misuse
  | some spec => options.take spec attached

/-- Reads the letters after one hyphen; what follows the letter of an option with a value is the
value. -/
def readShort (specs : List OptionSpec) : Options → List Char → Except Halt Options
  | options, [] => .ok options
  | options, letter :: rest =>
    match OptionSpec.findShort? specs letter with
    | none => .error .misuse
    | some spec =>
      match spec.kind with
      | .valued _ =>
        let attached := match rest with
          | [] => none
          | '=' :: value => some (String.ofList value)
          | value => some (String.ofList value)
        options.take spec attached
      | _ => do readShort specs (← options.take spec none) rest

def takeValue (options : Options) (word : String) : Except Halt Options :=
  match options.pending with
  | some ⟨name, kind, none⟩ => .ok { options with pending := some ⟨name, kind, some word⟩ }
  | _ => .error .misuse

def readWord (specs : List OptionSpec) (options : Options) (word : String) : Except Halt Options :=
  match word.toList with
  | '-' :: '-' :: body => options.readLong specs body
  | ['-'] => options.takeValue word
  | '-' :: letters => options.readShort specs letters
  | _ => options.takeValue word

/-- Reads words up to one that names a command and is not a value; the result also has that name
and the words after it. Two hyphens end the options, and nothing may follow them. -/
def readWords (specs : List OptionSpec) (isCommand : String → Bool) :
    Options → List String → Except Halt (Options × Option (String × List String))
  | options, [] => .ok (options, none)
  | options, word :: rest =>
    if !options.awaits && isCommand word then .ok (options, some (word, rest))
    else if word == "--" then
      if rest.isEmpty then .ok (options, none) else .error .misuse
    else do readWords specs isCommand (← options.readWord specs word) rest

def read (specs : List OptionSpec) (words : List String) : Except Halt Options := do
  (← readWords specs (fun _ => false) empty words).1.settle

end Options

end ScopeAtlas.CommandLine
