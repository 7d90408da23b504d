import ScopeAtlas.Resolution.Inference
import ScopeAtlas.ScopeTree.Locate

/-!
From an expression to the definitions it refers to.
-/

namespace ScopeAtlas

inductive Match
  | scope (id : StatementId)
  | declared (found : Declared)
  deriving DecidableEq

namespace Resolver

def scopeOf (resolver : Resolver) (use : Location) : StatementId :=
  (resolver.tree.scopeAt? use).getD ScopeTree.root

def findMatches (resolver : Resolver) (expression : Expression) : List Match :=
  let use := expression.location
  let scope := resolver.scopeOf use
  match expression.kind with
  | .name name =>
    let keyword := if name.qualifier.isNone then resolver.keywordTypes? scope name.name else none
    match keyword with
    | some types => types.map .scope
    | none => match resolver.findVariables scope name use with
      | [] => (resolver.findScopes scope use name.path NamedScope.isContainer).map .scope
      | found => found.map .declared
  | .type type => (resolver.findTypes scope type use).map .scope
  | .call call => (resolver.findMethods scope call use).map .scope
  | .declaration declared =>
    ((declared.type.map fun type => resolver.findTypes scope type use).getD []).map .scope
  | .compound => []
  | .literal _ => []
  | .operator _ => []

def methodsOf (resolver : Resolver) (expression : Expression) : List StatementId :=
  match expression.call? with
  | some call =>
    resolver.findMethods (resolver.scopeOf expression.location) call expression.location
  | none => []

end Resolver

end ScopeAtlas
