import ScopeAtlas.SourceUnit.Linking
import ScopeAtlas.SourceUnit.Name

/-!
Expressions of a unit. The parts of an `expr` element are names, calls, literals and operators;
elements of any other sort are kept as compounds of what is inside. One part stands for
itself, several form a compound.
-/

namespace ScopeAtlas.SourceUnit

open Markup

def expressionOf? (location : Location) : List Expression → Option Expression
  | [] => none
  | [part] => some part
  | parts => some (.compound location parts)

def textOperators (file : String) (start : Position) (text : String) : List Expression :=
  ((Text.words text).filter fun word => word == "new" || memberAccess.contains word).map fun word =>
    .ofKind (.operator word) (Location.span file start start)

def nameExpression? (file : String) (element : Element) : Option Expression :=
  let found := segments file element
  found.getLast?.map fun last =>
    .ofKind (.name ⟨last.name, Qualifier.ofSegments? found.dropLast⟩) (element.location file)

def literalExpression (file : String) (element : Element) : Expression :=
  let kind := LiteralKind.ofAttribute ((element.attribute? "type").getD "number")
  .ofKind (.literal ⟨kind, Text.trim element.text⟩) (element.location file)

def operatorExpression? (file : String) (element : Element) : Option Expression :=
  let text := Text.trim element.text
  if text == "" then none else some (.ofKind (.operator text) (element.location file))

def segmentOperand (gathered : List Segment) : List Expression :=
  match gathered.getLast? with
  | none => []
  | some last =>
    [.ofKind (.name ⟨last.name, Qualifier.ofSegments? gathered.dropLast⟩) last.location]

/-- Operands and member accesses of the parts in front of a call; segments joined by other
separators are one qualified name. -/
def receiverParts (file : String) : List Expression → List Segment → List NamePart → List Expression
  | operands, gathered, [] => operands ++ segmentOperand gathered
  | operands, gathered, .segment found :: rest =>
    receiverParts file operands (gathered ++ [found]) rest
  | operands, gathered, .separator text :: rest =>
    if memberAccess.contains text then
      let flushed := operands ++ segmentOperand gathered
      let location := (flushed.getLast?.map (·.location)).getD (Location.point file 1 1)
      receiverParts file (flushed ++ [.ofKind (.operator text) location]) [] rest
    else receiverParts file operands gathered rest

def receiver? (file : String) (parts : List NamePart) : Option Expression :=
  match receiverParts file [] [] parts with
  | [] => none
  | first :: rest => some (chainExpression first rest)

def isAccessPart : NamePart → Bool
  | .separator text => memberAccess.contains text
  | .segment _ => false

/-- Splits the parts of a call's name at the last member access: what is before it, and the
rest. Without one there is no receiver. -/
def splitReceiver (parts : List NamePart) : List NamePart × List NamePart :=
  let rest := (parts.reverse.takeWhile fun part => !isAccessPart part).reverse
  (parts.take (parts.length - rest.length - 1), rest)

def callExpression? (file : String) (element : Element) (arguments : List Expression) :
    Option Expression :=
  match element.child? "name" with
  | none => none
  | some name =>
    let pieces := namePieces file name
    let (before, own) := splitReceiver pieces.parts
    let found := own.filterMap NamePart.segment?
    match found.getLast? with
    | none => none
    | some last =>
      let object := receiver? file before
      let call : Call :=
        ⟨last.name, Qualifier.ofSegments? found.dropLast, arguments, pieces.typeArguments, false,
          Text.startsWith last.name "~", object⟩
      some (.ofKind (.call { call with isConstructor := call.isKeyword && object.isNone })
        (element.location file))

mutual

def partsIn (file : String) (start : Position) : List Node → List Expression
  | [] => []
  | .text content :: rest => textOperators file start content ++ partsIn file start rest
  | .element head children :: rest =>
    let element : Element := ⟨head, children⟩
    let here := match head.name with
      | "name" => (nameExpression? file element).toList
      | "call" => (callExpression? file element (callArguments file children)).toList
      | "literal" => [literalExpression file element]
      | "operator" => (operatorExpression? file element).toList
      | "expr" =>
        (expressionOf? (head.location file) (link (partsIn file head.start children))).toList
      | "comment" => []
      | _ =>
        let inner := link (partsIn file head.start children)
        if inner.isEmpty then [] else [.compound (head.location file) inner]
    here ++ partsIn file start rest

def callArguments (file : String) : List Node → List Expression
  | [] => []
  | .text _ :: rest => callArguments file rest
  | .element head children :: rest =>
    (if head.name == "argument_list" && head.attribute? "type" != some "generic" then
      argumentsIn file children else []) ++ callArguments file rest

def argumentsIn (file : String) : List Node → List Expression
  | [] => []
  | .text _ :: rest => argumentsIn file rest
  | .element head children :: rest =>
    (if head.name == "argument" then
      (match firstExpression? file children with
        | some inner => inner
        | none =>
          expressionOf? (head.location file) (link (partsIn file head.start children))).toList
      else []) ++ argumentsIn file rest

def firstExpression? (file : String) : List Node → Option (Option Expression)
  | [] => none
  | .text _ :: rest => firstExpression? file rest
  | .element head children :: rest =>
    if head.name == "expr" then
      some (expressionOf? (head.location file) (link (partsIn file head.start children)))
    else firstExpression? file rest

end

def expression? (file : String) (element : Element) : Option Expression :=
  expressionOf? (element.location file) (link (partsIn file element.head.start element.children))

def call? (file : String) (element : Element) : Option Expression :=
  callExpression? file element (callArguments file element.children)

end ScopeAtlas.SourceUnit
