import ScopeAtlas.Storage.FileAccess

/-!
A store of files and folders that is a value. Places are lists of names below the working folder,
which is the empty list and always there.
-/

namespace ScopeAtlas

structure FileStore where
  files : List (List String × String)
  folders : List (List String)
  deriving Inhabited

namespace FileStore

def empty : FileStore := ⟨[], []⟩

def contentsAt? (store : FileStore) (place : List String) : Option String :=
  (store.files.find? fun entry => entry.1 == place).map (·.2)

def isFolder (store : FileStore) (place : List String) : Bool :=
  place.isEmpty || store.folders.contains place

def isFile (store : FileStore) (place : List String) : Bool :=
  (store.contentsAt? place).isSome

/-- Follows the pieces of a path from a place. Every piece but the last has to lead to a folder, and
nothing is known above the working folder. -/
def follow (store : FileStore) : List String → List String → Except FileFault (List String)
  | place, [] => .ok place
  | place, piece :: rest =>
    if !store.isFolder place then .error .notADirectory
    else match piece with
      | "" | "." => follow store place rest
      | ".." => if place.isEmpty then .error .missing else follow store place.dropLast rest
      | name =>
        let next := place ++ [name]
        if store.isFolder next || store.isFile next then follow store next rest
        else .error .missing

def pieces (path : Path) : List String :=
  (Text.pieces (· == '/') path.text.toList).map String.ofList

def resolve (store : FileStore) (path : Path) : Except FileFault (List String) :=
  if path.text.isEmpty || path.isAbsolute then .error .missing
  else store.follow [] (pieces path)

def kind? (store : FileStore) (path : Path) : Option EntryKind :=
  match store.resolve path with
  | .ok place => if store.isFolder place then some .folder else some .file
  | .error _ => none

def read (store : FileStore) (path : Path) : Except FileFault String := do
  let place ← store.resolve path
  match store.contentsAt? place with
  | some contents => .ok contents
  | none => .error .directory

def putFile (store : FileStore) (place : List String) (contents : String) : FileStore :=
  { store with files := store.files.filter (fun entry => entry.1 != place) ++ [(place, contents)] }

def newPlace (store : FileStore) (path : Path) : Except FileFault (List String) :=
  let cut := pieces path
  match cut.getLast? with
  | none | some "" => .error .directory
  | some name => do
    let folder ← store.follow [] cut.dropLast
    if store.isFolder folder then .ok (folder ++ [name]) else .error .notADirectory

def write (store : FileStore) (path : Path) (contents : String) : Except FileFault FileStore :=
  match store.resolve path with
  | .ok place =>
    if store.isFolder place then .error .directory else .ok (store.putFile place contents)
  | .error .missing =>
    if path.text.isEmpty || path.isAbsolute then .error .missing
    else do return store.putFile (← store.newPlace path) contents
  | .error fault => .error fault

def createFolders (store : FileStore) : List String → List String → Except FileFault FileStore
  | place, [] => if store.isFolder place then .ok store else .error .notADirectory
  | place, piece :: rest =>
    if !store.isFolder place then .error .notADirectory
    else match piece with
      | "" | "." => createFolders store place rest
      | ".." => if place.isEmpty then .error .missing else createFolders store place.dropLast rest
      | name =>
        let next := place ++ [name]
        if store.isFolder next || store.isFile next then createFolders store next rest
        else createFolders { store with folders := store.folders ++ [next] } next rest

def makeFolders (store : FileStore) (path : Path) : Except FileFault FileStore :=
  if path.isAbsolute then .error .missing else store.createFolders [] (pieces path)

def place (store : FileStore) (path : Path) (contents : String) : Except FileFault FileStore := do
  let folders := (pieces path).dropLast
  let ready ← if folders.isEmpty then pure store else store.createFolders [] folders
  ready.write path contents

def delete? (store : FileStore) (path : Path) : Option FileStore :=
  match store.resolve path with
  | .ok place =>
    if store.isFile place then
      some { store with files := store.files.filter fun entry => entry.1 != place }
    else none
  | .error _ => none

def names (store : FileStore) (path : Path) : List String :=
  match store.resolve path with
  | .error _ => []
  | .ok folder =>
    ((store.files.map (·.1)) ++ store.folders).filterMap fun entry =>
      if entry.dropLast == folder then entry.getLast? else none

def access : FileAccess (StateM FileStore) where
  kind? path := do return (← get).kind? path
  read path := do return (← get).read path
  write path contents := do
    match (← get).write path contents with
    | .ok store => set store; return .ok ()
    | .error fault => return .error fault
  makeFolders path := do
    match (← get).makeFolders path with
    | .ok store => set store; return .ok ()
    | .error fault => return .error fault
  names path := do return (← get).names path
  place? path := do return ((← get).resolve path).toOption
  fromTop place := ⟨"/".intercalate ("." :: place)⟩

end FileStore

end ScopeAtlas
