import ScopeAtlas.Ignore.Rules
import ScopeAtlas.Storage.FileAccess
import ScopeAtlas.Text.Lowercase

/-!
The documents below a folder: files with one of the wanted extensions that no rule leaves out.

Two sorts of rules apply. The ignore files of each folder on the way, and of the folders above the
root, hold for what is below them; those of version control only inside a repository. On top of
that the root has a list of its own, which ends with folders that never hold documents and with the
patterns given by the caller. Names that start with a dot are left out unless a rule wants them.
-/

namespace ScopeAtlas.Ignore

def standardPatterns : List String :=
  ["target/", "node_modules/", "build/", "out/", ".git/", ".srcmodel/", ".vscode/", ".idea/"]

structure Level where
  isAbove : Bool
  isRepository : Bool
  ignore : RuleSet
  gitignore : RuleSet
  exclude : RuleSet

structure Tally where
  ignore : Verdict
  gitignore : Verdict
  exclude : Verdict
  /-- The start of a repository was passed, beyond which its rules do not reach. -/
  passedRepository : Bool

namespace Tally

def start : Tally := ⟨.none, .none, .none, false⟩

def add (inRepository : Bool) (path : String) (isFolder : Bool) (tally : Tally) (level : Level) :
    Tally :=
  let governed := inRepository && !tally.passedRepository
  let versioned (earlier : Verdict) (rules : RuleSet) : Verdict :=
    if governed then earlier.or (rules.verdict path isFolder) else earlier
  { ignore := tally.ignore.or (level.ignore.verdict path isFolder)
    gitignore := versioned tally.gitignore level.gitignore
    exclude := versioned tally.exclude level.exclude
    passedRepository := tally.passedRepository || level.isRepository }

/-- Plain ignore files count before those of version control. -/
def verdict (tally : Tally) : Verdict :=
  (tally.ignore.or tally.gitignore).or tally.exclude

end Tally

structure Root where
  path : Path
  place : List String

def Root.absolute (root : Root) (path : String) : String :=
  let inner :=
    if root.path.text == "." then path
    else dropHead "/" (dropHead (dropHead "./" root.path.text) path)
  "/" ++ "/".intercalate (root.place ++ [inner])

def levelsVerdict (root : Root) (levels : List Level) (path : Path) (isFolder : Bool) : Verdict :=
  let bare := dropHead "./" path.text
  let inRepository := levels.any Level.isRepository
  let below := levels.takeWhile fun level => !level.isAbove
  let above := levels.dropWhile fun level => !level.isAbove
  let within := below.foldl (Tally.add inRepository bare isFolder) .start
  (above.foldl (Tally.add inRepository (root.absolute bare) isFolder) within).verdict

def isHidden (path : Path) : Bool :=
  match path.name? with
  | some name => Text.startsWith name "."
  | none => false

def isPassedOver (root : Root) (levels : List Level) (path : Path) (isFolder : Bool) : Bool :=
  match levelsVerdict root levels path isFolder with
  | .ignored => true
  | .wanted => false
  | .none => isHidden path

def hasExtension (extensions : List String) (path : Path) : Bool :=
  match path.extension? with
  | some extension => extensions.any (Text.sameFolded extension)
  | none => false

/-- No path is longer than this, so folders nest less deep. -/
def depthLimit : Nat := 4096

variable {m : Type → Type} [Monad m]

def linesOf (files : FileAccess m) (path : Path) : m (List String) := do
  return ((← files.contents? path).map RuleSet.fileLines).getD []

def rootRules (files : FileAccess m) (root : Path) (excludes : List String) : m RuleSet := do
  let gitignore ← linesOf files (root.join ⟨".gitignore"⟩)
  let ignore ← linesOf files (root.join ⟨".ignore"⟩)
  return .make root.text (gitignore ++ ignore ++ standardPatterns ++ excludes)

def isExcluded (rules : RuleSet) (path : Path) (isFolder : Bool) : Bool :=
  rules.verdict path.text isFolder == .ignored

def levelOf (files : FileAccess m) (path : Path) (folder : String) (isAbove : Bool) : m Level := do
  let isRepository := (← files.exists? (path.join ⟨".git"⟩)) || (← files.exists? (path.join ⟨".jj"⟩))
  let ignore ← linesOf files (path.join ⟨".ignore"⟩)
  let gitignore ← linesOf files (path.join ⟨".gitignore"⟩)
  let exclude ← linesOf files (path.join ⟨".git/info/exclude"⟩)
  return {
    isAbove, isRepository
    ignore := .make folder ignore
    gitignore := .make folder gitignore
    exclude := .make folder exclude }

def levelsAbove (files : FileAccess m) (place : List String) : m (List Level) :=
  (List.range place.length).reverse.mapM fun count =>
    let names := place.take count
    levelOf files (files.fromTop names) ("/" ++ "/".intercalate names) true

def walk (files : FileAccess m) (root : Root) (rules : RuleSet) :
    Nat → List Level → Path → m (List Path)
  | 0, _, _ => return []
  | depth + 1, levels, folder => do
    let own ← levelOf files folder folder.text false
    let inner := own :: levels
    let found ← (← files.names folder).mapM fun name => do
      let path := folder.join ⟨name⟩
      match ← files.kind? path with
      | none => return []
      | some kind =>
        let isFolder := kind == .folder
        if isPassedOver root inner path isFolder || isExcluded rules path isFolder then return []
        else if isFolder then walk files root rules depth inner path
        else return [path]
    return found.flatten

def collect (files : FileAccess m) (path : Path) (extensions excludes : List String) :
    m (List Path) := do
  match ← files.kind? path with
  | none => return []
  | some .file => return [path]
  | some .folder =>
    let rules ← rootRules files path excludes
    let place := (← files.place? path).getD []
    let levels ← levelsAbove files place
    let found ← walk files ⟨path, place⟩ rules depthLimit levels path
    return (found.filter (hasExtension extensions)).mergeSort fun left right =>
      (left.compare right) != .gt

end ScopeAtlas.Ignore
