import ScopeAtlas.Failure
import ScopeAtlas.Storage.Path

/-!
Access to files, as far as this library needs it. What is written against it runs on the files of
the computer and on a store of files that is only a value.
-/

namespace ScopeAtlas

inductive EntryKind
  | file
  | folder
  deriving DecidableEq, Repr

structure FileAccess (m : Type → Type) where
  kind? : Path → m (Option EntryKind)
  read : Path → m (Except FileFault String)
  write : Path → String → m (Except FileFault Unit)
  makeFolders : Path → m (Except FileFault Unit)
  names : Path → m (List String)
  place? : Path → m (Option (List String))
  fromTop : List String → Path

namespace FileAccess

variable {m : Type → Type} [Monad m]

def exists? (files : FileAccess m) (path : Path) : m Bool := do
  return (← files.kind? path).isSome

def contents? (files : FileAccess m) (path : Path) : m (Option String) := do
  return (← files.read path).toOption

end FileAccess

end ScopeAtlas
