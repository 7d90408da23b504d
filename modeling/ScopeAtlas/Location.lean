import ScopeAtlas.Text.Lowercase

/-!
Positions and locations. A location is a stretch of one source file; one that was read from a
document also carries the locator of its element. Containment goes by locators when both sides
have one and by positions otherwise.
-/

namespace ScopeAtlas

structure Position where
  line : Nat
  column : Nat
  deriving DecidableEq, Repr, Inhabited

namespace Position

def limit : Nat := 4294967295

def unbounded : Position := ⟨limit, limit⟩

def before (left right : Position) : Bool :=
  left.line < right.line || (left.line == right.line && left.column < right.column)

instance : LT Position := ⟨fun left right => left.before right = true⟩

instance : LE Position := ⟨fun left right => right.before left = false⟩

instance (left right : Position) : Decidable (left < right) :=
  inferInstanceAs (Decidable (left.before right = true))

instance (left right : Position) : Decidable (left ≤ right) :=
  inferInstanceAs (Decidable (right.before left = false))

def display (position : Position) : String :=
  if position = unbounded then "end"
  else toString position.line ++ ":" ++ toString position.column

end Position

structure Location where
  file : String
  start : Position
  /-- Where the stretch stops; this position is no longer part of it. -/
  stop : Position
  locator : Option String
  /-- Set on declarations and qualifiers, clear on definitions. -/
  isReference : Bool
  deriving DecidableEq, Repr, Inhabited

namespace Location

def point (file : String) (line column : Nat) : Location :=
  ⟨file, ⟨line, column⟩, ⟨line, column⟩, none, false⟩

def span (file : String) (start stop : Position) : Location :=
  ⟨file, start, stop, none, false⟩

def isPoint (location : Location) : Bool :=
  location.start == location.stop

/-- File names are compared without regard to the case of ASCII letters. -/
def inFile (location : Location) (file : String) : Bool :=
  Text.sameFolded location.file file

def locatorCovers (outer inner : String) : Bool :=
  inner == outer || (outer.toList ++ ['/']).isPrefixOf inner.toList

/-- Whether a stretch covers another by position. A point is covered when it lies at the
start or strictly before the stop. -/
def spanCovers (outer inner : Location) : Bool :=
  if inner.start < outer.start then false
  else if inner.isPoint then inner.start < outer.stop || inner.start == outer.start
  else inner.stop ≤ outer.stop

def contains (outer inner : Location) : Bool :=
  outer.inFile inner.file &&
    match outer.locator, inner.locator with
    | some outerPath, some innerPath => locatorCovers outerPath innerPath
    | _, _ => spanCovers outer inner

def isWithin (inner outer : Location) : Bool :=
  outer.contains inner

def compareStart (left right : Location) : Ordering :=
  let leftFile := Text.lowercase left.file
  let rightFile := Text.lowercase right.file
  if leftFile < rightFile then .lt
  else if rightFile < leftFile then .gt
  else if left.start < right.start then .lt
  else if right.start < left.start then .gt
  else .eq

def asReference (location : Location) (isReference : Bool) : Location :=
  { location with isReference }

def display (location : Location) : String :=
  location.file ++ ": line " ++ toString location.start.line ++ ", column " ++
    toString location.start.column

end Location

end ScopeAtlas
