import ScopeAtlas.Ordered
import ScopeAtlas.Statement.Definition

/-!
Named scopes. A scope keeps one facet for every place that contributed to it, so that what a
file said can be taken back when the file goes.
-/

namespace ScopeAtlas

structure NamedScope where
  name : String
  /-- A qualifier that has not been followed yet, such as `A::B` in `A::B::f`. -/
  qualifier : Option Qualifier
  facets : List Facet
  deriving DecidableEq, Inhabited

namespace NamedScope

def ofFacet (name : String) (qualifier : Option Qualifier) (facet : Facet) : NamedScope :=
  ⟨name, qualifier.filter fun path => !path.segments.isEmpty, [facet]⟩

def addFacet (scope : NamedScope) (facet : Facet) : NamedScope :=
  { scope with facets := scope.facets ++ [facet] }

def absorb (scope other : NamedScope) : NamedScope :=
  { scope with facets := scope.facets ++ other.facets }

def withoutFile (scope : NamedScope) (file : String) : NamedScope :=
  { scope with facets := scope.facets.filter fun facet => !Text.sameFolded facet.file file }

def primary? (scope : NamedScope) : Option Facet :=
  Facet.foremost? scope.facets

def definition (scope : NamedScope) : Definition :=
  match scope.primary? with
  | some facet => facet.definition
  | none => .placeholder

def access (scope : NamedScope) : Access :=
  ((scope.facets.map Facet.access).find? fun access => access ≠ .unstated).getD .unstated

def isNamespace (scope : NamedScope) : Bool := scope.definition.isNamespace

def isPlaceholder (scope : NamedScope) : Bool := scope.definition.isPlaceholder

def isContainer (scope : NamedScope) : Bool := scope.definition.isContainer

def type? (scope : NamedScope) : Option TypeDefinition := scope.definition.type?

def method? (scope : NamedScope) : Option MethodDefinition := scope.definition.method?

def isTypeLike (scope : NamedScope) : Bool :=
  scope.definition.isType || scope.definition.isPlaceholder

def parents (scope : NamedScope) : List TypeUse :=
  distinct (scope.facets.flatMap fun facet =>
    (facet.definition.type?.map TypeDefinition.parents).getD [])

def isAmbiguous (scope : NamedScope) : Bool :=
  scope.facets.any (·.definition.isNamespace) && scope.facets.any (·.definition.isType)

def label (scope : NamedScope) : String := scope.definition.label

/-- Whether two scopes of one parent are the same entity: methods by name and signature, other
scopes by a name that is not empty. A pending qualifier keeps scopes apart. -/
def sameIdentity (existing incoming : NamedScope) : Bool :=
  existing.name == incoming.name && existing.qualifier.isNone && incoming.qualifier.isNone &&
    match existing.definition, incoming.definition with
    | .methodScope left, .methodScope right => left.signatureMatches right
    | .methodScope _, _ => false
    | _, .methodScope _ => false
    | _, _ => existing.name != ""

end NamedScope

end ScopeAtlas
