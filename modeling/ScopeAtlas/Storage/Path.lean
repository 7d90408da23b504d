import ScopeAtlas.Text.Blank

/-!
Paths with `/` between their steps. A path is kept as it was written, and two paths are the same
when their steps are: empty steps and `.` after the first step do not count.
-/

namespace ScopeAtlas

inductive PathStep
  | top
  | here
  | up
  | down (name : String)
  deriving DecidableEq, Repr

namespace PathStep

def rank : PathStep → Nat
  | .top => 0
  | .here => 1
  | .up => 2
  | .down _ => 3

def compare : PathStep → PathStep → Ordering
  | .down left, .down right => Ord.compare left right
  | left, right => Ord.compare left.rank right.rank

end PathStep

structure Path where
  text : String
  deriving Repr, Inhabited

namespace Path

def stepOfPiece? (piece : String) : Option PathStep :=
  match piece with
  | "" | "." => none
  | ".." => some .up
  | name => some (.down name)

def steps (path : Path) : List PathStep :=
  match (Text.pieces (· == '/') path.text.toList).map String.ofList with
  | [] => []
  | first :: rest =>
    let start := match first with
      | "" => if rest.isEmpty then none else some PathStep.top
      | "." => some .here
      | _ => stepOfPiece? first
    start.toList ++ rest.filterMap stepOfPiece?

def same (left right : Path) : Bool :=
  left.steps == right.steps

def compareSteps : List PathStep → List PathStep → Ordering
  | [], [] => .eq
  | [], _ :: _ => .lt
  | _ :: _, [] => .gt
  | left :: lefts, right :: rights => (left.compare right).then (compareSteps lefts rights)

def compare (left right : Path) : Ordering :=
  compareSteps left.steps right.steps

def name? (path : Path) : Option String :=
  match path.steps.getLast? with
  | some (.down name) => some name
  | _ => none

def extensionOfName? (name : String) : Option String :=
  let reversed := name.toList.reverse
  match reversed.dropWhile (· != '.') with
  | [] | [_] => none
  | _ => some (String.ofList (reversed.takeWhile (· != '.')).reverse)

def extension? (path : Path) : Option String :=
  path.name?.bind extensionOfName?

def isAbsolute (path : Path) : Bool :=
  Text.startsWith path.text "/"

def join (base path : Path) : Path :=
  if path.isAbsolute || base.text.isEmpty then path
  else if Text.endsWith base.text "/" then ⟨base.text ++ path.text⟩
  else ⟨base.text ++ "/" ++ path.text⟩

def dropTrailing : List Char → List Char
  | '/' :: rest => dropTrailing rest
  | '.' :: '/' :: rest => dropTrailing rest
  | letters => letters

/-- The path without its last step, as it was written; a path without steps below the top has
none. -/
def parent? (path : Path) : Option Path :=
  match path.steps.getLast? with
  | none | some .top => none
  | some _ =>
    let kept := dropTrailing path.text.toList.reverse
    let before := kept.dropWhile (· != '/')
    let cut := dropTrailing before
    if cut.isEmpty && !before.isEmpty then some ⟨"/"⟩
    else some ⟨String.ofList cut.reverse⟩

end Path

end ScopeAtlas
