import ScopeAtlas.Settings.Basic
import ScopeAtlas.Storage.FileAccess

/-!
Where settings and archives are kept, and the files around them.
-/

namespace ScopeAtlas.Settings

def defaultPath : Path := ⟨"srcmodel.toml"⟩

def defaultArchive (base : Path) : Path :=
  (base.join ⟨".srcmodel"⟩).join ⟨"model.json"⟩

def ignoredEntry : String := ".srcmodel/"

variable {m : Type → Type} [Monad m]

def load (files : FileAccess m) (path : Option Path) : m (Except Fault (Option Settings)) := do
  let source := path.getD defaultPath
  if !(← files.exists? source) then return .ok none
  match ← files.read source with
  | .error fault => return .error (.file fault)
  | .ok text => return (parse text).map some

def write (files : FileAccess m) (path : Path) (settings : Settings) (force : Bool) :
    m (Except Fault Unit) := do
  if (← files.exists? path) && !force then return .error (.alreadyThere path.text)
  match settings.print with
  | .error fault => return .error fault
  | .ok text => return (← files.write path text).mapError Fault.file

def hasIgnoredEntry (text : String) : Bool :=
  (Text.lines text).any fun line => Text.trim line == ignoredEntry

def withIgnoredEntry (text : Option String) : String :=
  let before := match text with
    | none => ""
    | some content => if Text.endsWith content "\n" then content else content ++ "\n"
  before ++ ignoredEntry ++ "\n"

def ensureIgnored (files : FileAccess m) (folder : Path) : m (Except Fault Unit) := do
  let path := folder.join ⟨".gitignore"⟩
  if ← files.exists? path then
    match ← files.read path with
    | .error fault => return .error (.file fault)
    | .ok text =>
      if hasIgnoredEntry text then return .ok ()
      else return (← files.write path (withIgnoredEntry (some text))).mapError Fault.file
  else return (← files.write path (withIgnoredEntry none)).mapError Fault.file

end ScopeAtlas.Settings
