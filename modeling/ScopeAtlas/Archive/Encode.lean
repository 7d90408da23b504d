import ScopeAtlas.Json.Basic
import ScopeAtlas.ScopeTree.Basic

/-!
The archived form of trees: every part as a JSON value, the keys of a record in a fixed order.
-/

namespace ScopeAtlas

def Json.tagged (word : String) (content : Json) : Json :=
  .record [(word, content)]

def Language.archiveWord : Language → String
  | .c => "C"
  | .cPlusPlus => "CPlusPlus"
  | .cSharp => "CSharp"
  | .java => "Java"

def Access.archiveWord : Access → String
  | .unstated => "none"
  | .publicAccess => "public"
  | .internalAccess => "internal"
  | .protectedInternal => "protected_internal"
  | .protectedAccess => "protected"
  | .privateAccess => "private"

def LiteralKind.archiveWord : LiteralKind → String
  | .number => "number"
  | .string => "string"
  | .character => "character"
  | .boolean => "boolean"
  | .null => "null"

def Position.toJson (position : Position) : Json :=
  .record [("line", .ofNat position.line), ("column", .ofNat position.column)]

def Location.toJson (location : Location) : Json :=
  .record [
    ("file", .ofString location.file),
    ("start", location.start.toJson),
    ("end", location.stop.toJson),
    ("xpath", .ofOption .ofString location.locator),
    ("is_reference", .boolean location.isReference)]

def Segment.toJson (segment : Segment) : Json :=
  .record [("name", .ofString segment.name), ("location", segment.location.toJson)]

def Qualifier.toJson (qualifier : Qualifier) : Json :=
  .record [("segments", .ofList Segment.toJson qualifier.segments)]

def NameUse.toJson (use : NameUse) : Json :=
  .record [("name", .ofString use.name), ("prefix", .ofOption Qualifier.toJson use.qualifier)]

mutual

def TypeUse.toJson : TypeUse → Json
  | ⟨name, qualifier, arguments⟩ =>
    .record [
      ("name", .ofString name),
      ("prefix", .ofOption Qualifier.toJson qualifier),
      ("type_arguments", .array (TypeUse.listToJson arguments))]

def TypeUse.listToJson : List TypeUse → List Json
  | [] => []
  | first :: rest => first.toJson :: TypeUse.listToJson rest

end

def Literal.toJson (literal : Literal) : Json :=
  .record [("kind", .ofString literal.kind.archiveWord), ("text", .ofString literal.text)]

mutual

def Expression.toJson : Expression → Json
  | ⟨kind, location, components⟩ =>
    .record [
      ("kind", kind.toJson),
      ("location", location.toJson),
      ("components", .array (Expression.listToJson components))]

def ExpressionKind.toJson : ExpressionKind → Json
  | .compound => .ofString "Compound"
  | .name use => .tagged "Name" use.toJson
  | .type use => .tagged "Type" use.toJson
  | .literal literal => .tagged "Literal" literal.toJson
  | .operator text => .tagged "Operator" (.ofString text)
  | .call call => .tagged "Call" call.toJson
  | .declaration declared => .tagged "Declaration" declared.toJson

def Call.toJson : Call → Json
  | ⟨name, qualifier, arguments, typeArguments, isConstructor, isDestructor, object⟩ =>
    .record [
      ("name", .ofString name),
      ("prefix", .ofOption Qualifier.toJson qualifier),
      ("arguments", .array (Expression.listToJson arguments)),
      ("type_arguments", .array (TypeUse.listToJson typeArguments)),
      ("is_constructor", .boolean isConstructor),
      ("is_destructor", .boolean isDestructor),
      ("calling_object", Expression.optionToJson object)]

def Variable.toJson : Variable → Json
  | ⟨name, type, access, initializer⟩ =>
    .record [
      ("name", .ofString name),
      ("variable_type", .ofOption TypeUse.toJson type),
      ("accessibility", .ofString access.archiveWord),
      ("initializer", Expression.optionToJson initializer)]

def Expression.listToJson : List Expression → List Json
  | [] => []
  | first :: rest => first.toJson :: Expression.listToJson rest

def Expression.optionToJson : Option Expression → Json
  | none => .null
  | some expression => expression.toJson

end

def MethodDefinition.toJson (method : MethodDefinition) : Json :=
  .record [
    ("parameters", .ofList Variable.toJson method.parameters),
    ("return_type", .ofOption TypeUse.toJson method.returnType),
    ("is_constructor", .boolean method.isConstructor),
    ("is_destructor", .boolean method.isDestructor),
    ("is_partial", .boolean method.isPartial)]

def TypeDefinition.toJson (definition : TypeDefinition) : Json :=
  .record [
    ("kind", .ofString definition.kind.word),
    ("parent_types", .ofList TypeUse.toJson definition.parents),
    ("is_partial", .boolean definition.isPartial)]

def Definition.toJson : Definition → Json
  | .namespaceScope definition =>
    .tagged "Namespace" (.record [("is_anonymous", .boolean definition.isAnonymous)])
  | .typeScope definition => .tagged "Type" definition.toJson
  | .methodScope definition => .tagged "Method" definition.toJson
  | .placeholder => .ofString "Synthetic"

def Facet.toJson (facet : Facet) : Json :=
  .record [
    ("file", .ofString facet.file),
    ("is_reference", .boolean facet.isReference),
    ("accessibility", .ofString facet.access.archiveWord),
    ("definition", facet.definition.toJson)]

def NamedScope.toJson (scope : NamedScope) : Json :=
  .record [
    ("name", .ofString scope.name),
    ("prefix", .ofOption Qualifier.toJson scope.qualifier),
    ("facets", .ofList Facet.toJson scope.facets)]

def StatementKind.toJson : StatementKind → Json
  | .global => .ofString "Global"
  | .named scope => .tagged "Named" scope.toJson
  | .block => .ofString "Block"
  | .ifBranch => .ofString "If"
  | .elseBranch => .ofString "Else"
  | .whileLoop => .ofString "While"
  | .doWhile => .ofString "DoWhile"
  | .forLoop => .ofString "For"
  | .foreach => .ofString "Foreach"
  | .switch => .ofString "Switch"
  | .case isDefault => .tagged "Case" (.record [("is_default", .boolean isDefault)])
  | .tryBlock => .ofString "Try"
  | .catchClause => .ofString "Catch"
  | .finallyClause => .ofString "Finally"
  | .lock => .ofString "Lock"
  | .return => .ofString "Return"
  | .throw => .ofString "Throw"
  | .break => .ofString "Break"
  | .continue => .ofString "Continue"
  | .goto => .ofString "Goto"
  | .label name => .tagged "Label" (.ofString name)
  | .expression => .ofString "Expression"
  | .declaration => .ofString "Declaration"
  | .aliasing target name =>
    .tagged "Alias"
      (.record [("target", .ofList .ofString target), ("alias_name", .ofString name)])
  | .importing path => .tagged "Import" (.record [("namespace", .ofList .ofString path)])

def Statement.toJson (statement : Statement) : Json :=
  .record [
    ("kind", statement.kind.toJson),
    ("language", .ofString statement.language.archiveWord),
    ("locations", .ofList Location.toJson statement.locations),
    ("content", .ofList Expression.toJson statement.content),
    ("parent", .ofOption .ofNat statement.parent),
    ("children", .ofList .ofNat statement.children)]

def ScopeTree.toJson (tree : ScopeTree) : Json :=
  .record [("nodes", .ofList (.ofOption Statement.toJson) tree.slots.toList)]

end ScopeAtlas
