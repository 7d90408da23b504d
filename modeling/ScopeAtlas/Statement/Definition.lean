import ScopeAtlas.Expression.Basic

/-!
What one file says about a named scope: it is a namespace, a type, a method, or only a
placeholder for a scope that some qualifier mentions.
-/

namespace ScopeAtlas

structure NamespaceDefinition where
  isAnonymous : Bool
  deriving DecidableEq, Inhabited

structure TypeDefinition where
  kind : TypeKind
  parents : List TypeUse
  isPartial : Bool
  deriving DecidableEq, Inhabited

structure MethodDefinition where
  parameters : List Variable
  returnType : Option TypeUse
  isConstructor : Bool
  isDestructor : Bool
  isPartial : Bool
  deriving DecidableEq, Inhabited

namespace MethodDefinition

def defaultCount (method : MethodDefinition) : Nat :=
  method.parameters.countP Variable.hasDefault

def acceptsArity (method : MethodDefinition) (arguments : Nat) : Bool :=
  method.parameters.length - method.defaultCount ≤ arguments && arguments ≤ method.parameters.length

/-- Two parameters agree unless both state a type and the types have different names. -/
def parameterAgrees (left right : Variable) : Bool :=
  match left.type, right.type with
  | some leftType, some rightType => leftType.name == rightType.name
  | _, _ => true

def signatureMatches (left right : MethodDefinition) : Bool :=
  left.isConstructor == right.isConstructor &&
    left.isDestructor == right.isDestructor &&
    left.parameters.length == right.parameters.length &&
    (left.parameters.zip right.parameters).all fun (first, second) => parameterAgrees first second

/-- How much the parameter list says: one point when every parameter is named, one more when
some parameter has a default. -/
def detail (method : MethodDefinition) : Nat :=
  (if method.parameters.all fun parameter => parameter.name != "" then 1 else 0) +
    (if method.parameters.any Variable.hasDefault then 1 else 0)

end MethodDefinition

inductive Definition
  | namespaceScope (definition : NamespaceDefinition)
  | typeScope (definition : TypeDefinition)
  | methodScope (definition : MethodDefinition)
  | placeholder
  deriving DecidableEq, Inhabited

namespace Definition

def isContainer : Definition → Bool
  | .methodScope _ => false
  | .namespaceScope _ | .typeScope _ | .placeholder => true

def isNamespace : Definition → Bool
  | .namespaceScope _ => true
  | .typeScope _ | .methodScope _ | .placeholder => false

def isType : Definition → Bool
  | .typeScope _ => true
  | .namespaceScope _ | .methodScope _ | .placeholder => false

def isPlaceholder : Definition → Bool
  | .placeholder => true
  | .namespaceScope _ | .typeScope _ | .methodScope _ => false

def type? : Definition → Option TypeDefinition
  | .typeScope definition => some definition
  | .namespaceScope _ | .methodScope _ | .placeholder => none

def method? : Definition → Option MethodDefinition
  | .methodScope definition => some definition
  | .namespaceScope _ | .typeScope _ | .placeholder => none

def label : Definition → String
  | .namespaceScope _ => "namespace"
  | .typeScope definition => definition.kind.word
  | .methodScope _ => "method"
  | .placeholder => "scope"

end Definition

structure Facet where
  file : String
  isReference : Bool
  access : Access
  definition : Definition
  deriving DecidableEq, Inhabited

namespace Facet

/-- The say a facet has in what the scope is: a definition of any kind before a placeholder,
then more detail of parameters, then a definition before a reference. -/
def rank (facet : Facet) : Nat :=
  let concrete := if facet.definition.isPlaceholder then 0 else 1
  let detail := (facet.definition.method?.map MethodDefinition.detail).getD 0
  let defining := if facet.isReference then 0 else 1
  6 * concrete + 2 * detail + defining

def foremost? : List Facet → Option Facet
  | [] => none
  | first :: rest =>
    some (rest.foldl (fun best facet => if best.rank < facet.rank then facet else best) first)

end Facet

end ScopeAtlas
