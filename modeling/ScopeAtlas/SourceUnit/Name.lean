import ScopeAtlas.Expression.Basic
import ScopeAtlas.Markup.Element

/-!
Names in a unit. A `name` element is either a bare text or made of inner names, separators and
lists of type arguments; what is read from it are the segments, outermost first.
-/

namespace ScopeAtlas.SourceUnit

open Markup

inductive NamePart
  | segment (found : Segment)
  | separator (text : String)
  deriving DecidableEq

namespace NamePart

def segment? : NamePart → Option Segment
  | .segment found => some found
  | .separator _ => none

end NamePart

structure NamePieces where
  parts : List NamePart
  typeArguments : List TypeUse

namespace NamePieces

def none : NamePieces := ⟨[], []⟩

def append (left right : NamePieces) : NamePieces :=
  ⟨left.parts ++ right.parts, left.typeArguments ++ right.typeArguments⟩

def segments (pieces : NamePieces) : List Segment :=
  pieces.parts.filterMap NamePart.segment?

def typeUse? (pieces : NamePieces) : Option TypeUse :=
  pieces.segments.getLast?.map fun last =>
    ⟨last.name, Qualifier.ofSegments? pieces.segments.dropLast, pieces.typeArguments⟩

end NamePieces

def hasElement (nodes : List Node) : Bool :=
  nodes.any fun node => node.element?.isSome

/-- A name without inner elements is one segment, unless it is blank. -/
def bareName (file : String) (head : Head) (children : List Node) : NamePieces :=
  let text := Text.trim (Node.textOf children)
  if text == "" then .none else ⟨[.segment ⟨text, head.location file⟩], []⟩

def piecesOf (file : String) (head : Head) (children : List Node) (inner : NamePieces) : NamePieces :=
  if hasElement children then inner else bareName file head children

def textPieces (text : String) : NamePieces :=
  let trimmed := Text.trim text
  if trimmed == "." || trimmed == "::" || trimmed == "->" || trimmed == "?." then
    ⟨[.separator trimmed], []⟩
  else .none

mutual

def innerPieces (file : String) : List Node → NamePieces
  | [] => .none
  | .text content :: rest => (textPieces content).append (innerPieces file rest)
  | .element head children :: rest =>
    let here :=
      if head.name == "name" then piecesOf file head children (innerPieces file children)
      else if head.name == "operator" then
        ⟨[.separator (Text.trim (Node.textOf children))], []⟩
      else if head.name == "argument_list" then ⟨[], typeArguments file children⟩
      else .none
    here.append (innerPieces file rest)

def typeArguments (file : String) : List Node → List TypeUse
  | [] => []
  | .text _ :: rest => typeArguments file rest
  | .element head children :: rest =>
    (if head.name == "argument" then ((firstType? file children).getD none).toList else []) ++
      typeArguments file rest

def firstType? (file : String) : List Node → Option (Option TypeUse)
  | [] => none
  | .text _ :: rest => firstType? file rest
  | .element head children :: rest =>
    if head.name == "name" then
      some (piecesOf file head children (innerPieces file children)).typeUse?
    else match firstType? file children with
      | some found => some found
      | none => firstType? file rest

end

def namePieces (file : String) (name : Element) : NamePieces :=
  piecesOf file name.head name.children (innerPieces file name.children)

def segments (file : String) (name : Element) : List Segment :=
  (namePieces file name).segments

def typeOfName? (file : String) (name : Element) : Option TypeUse :=
  (namePieces file name).typeUse?

def typeOf? (file : String) (type : Element) : Option TypeUse :=
  (type.child? "name").bind (typeOfName? file)

def declaredName? (file : String) (element : Element) : Option (String × List Segment) :=
  match element.child? "name" with
  | none => none
  | some name =>
    let found := segments file name
    found.getLast?.map fun last => (last.name, found.dropLast)

/-! Plain name paths, as aliases and imports use them. -/

def leafText (children : List Node) : List String :=
  let text := Text.trim (Node.textOf children)
  if text == "" then [] else [text]

def hasName (nodes : List Node) : Bool :=
  nodes.any fun node => match node.element? with
    | some element => element.name == "name"
    | none => false

/-- The innermost names below some nodes in document order, leaving out initial values,
argument lists and comments. -/
def leafNamesIn : List Node → List String
  | [] => []
  | .text _ :: rest => leafNamesIn rest
  | .element head children :: rest =>
    (if head.name == "name" && !hasName children then leafText children
      else if head.name == "init" || head.name == "argument_list" || head.name == "comment" then []
      else leafNamesIn children) ++ leafNamesIn rest

def leafNames (element : Element) : List String :=
  leafNamesIn element.children

def ownLeafNames (name : Element) : List String :=
  if hasName name.children then leafNames name else leafText name.children

end ScopeAtlas.SourceUnit
