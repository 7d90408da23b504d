import ScopeAtlas.Archive.Basic
import ScopeAtlas.Storage.FileAccess

/-!
Archives in files.
-/

namespace ScopeAtlas.Archive

variable {m : Type → Type} [Monad m]

def save (files : FileAccess m) (program : Program) (path : Path) : m (Except Failure Unit) := do
  let ready ← match path.parent? with
    | none => pure (.ok ())
    | some parent =>
      if parent.text.isEmpty || (← files.exists? parent) then pure (.ok ())
      else files.makeFolders parent
  match ready with
  | .error fault => return .error (.file fault)
  | .ok () => return (← files.write path (write program)).mapError Failure.file

def load (files : FileAccess m) (path : Path) : m (Except Failure Program) := do
  if !(← files.exists? path) then return .error (.fileNotFound path.text)
  match ← files.read path with
  | .error fault => return .error (.file fault)
  | .ok text => return read text

end ScopeAtlas.Archive
