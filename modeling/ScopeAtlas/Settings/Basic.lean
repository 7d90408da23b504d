import ScopeAtlas.Failure
import ScopeAtlas.Toml.Parse
import ScopeAtlas.Toml.Print

/-!
Settings of the command line and the text they are kept as.
-/

namespace ScopeAtlas

structure Settings where
  workers : Option Nat
  lockPatience : Option Nat
  archive : Option String
  extensions : Option (List String)
  deriving DecidableEq, Repr

namespace Settings

def unset : Settings := ⟨none, none, none, none⟩

def documentExtensions (settings : Settings) : List String :=
  settings.extensions.getD ["xml"]

inductive Fault
  | malformed
  | numberTooLarge
  | file (fault : FileFault)
  | alreadyThere (path : String)
  deriving DecidableEq, Repr

def Fault.message : Fault → String
  | .malformed => "TOML parse error"
  | .numberTooLarge => "out-of-range value for u64 type"
  | .file fault => fault.message
  | .alreadyThere path => "config already exists at " ++ path ++ " (use --force to overwrite)"

/-! ### Reading -/

def setting? {α : Type} (decode : Toml.Value → Option α) (root : Toml.Entries) (key : String) :
    Option (Option α) :=
  match root.get? key with
  | none => some none
  | some value => (decode value).map some

def natural? : Toml.Value → Option Nat
  | .integer number => if 0 ≤ number then some number.toNat else none
  | _ => none

def text? : Toml.Value → Option String
  | .text content => some content
  | _ => none

def texts? : Toml.Value → Option (List String)
  | .array values => values.mapM text?
  | _ => none

/-- The settings in a root table; other keys do not count. -/
def ofEntries? (root : Toml.Entries) : Option Settings := do
  return ⟨← setting? natural? root "workers", ← setting? natural? root "lock_timeout_ms",
    ← setting? text? root "archive", ← setting? texts? root "extensions"⟩

def parse (text : String) : Except Fault Settings :=
  match (Toml.parse? text).bind ofEntries? with
  | some settings => .ok settings
  | none => .error .malformed

/-! ### Writing -/

def greatestNumber : Nat := 9223372036854775807

def numberLine (key : String) : Option Nat → Except Fault String
  | none => .ok ""
  | some number =>
    if number ≤ greatestNumber then .ok (Toml.assignment key (toString number))
    else .error .numberTooLarge

def print (settings : Settings) : Except Fault String := do
  let workers ← numberLine "workers" settings.workers
  let patience ← numberLine "lock_timeout_ms" settings.lockPatience
  let archive := (settings.archive.map fun path => Toml.assignment "archive" (Toml.quoted path)).getD ""
  let extensions := (settings.extensions.map fun list =>
    Toml.assignment "extensions" (Toml.quotedList list)).getD ""
  return workers ++ patience ++ archive ++ extensions

end Settings

end ScopeAtlas
