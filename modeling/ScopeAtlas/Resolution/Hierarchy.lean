import ScopeAtlas.Resolution.Scopes

/-!
Types and what they inherit: direct bases, the whole hierarchy, and the members found along it.
-/

namespace ScopeAtlas

namespace Resolver

def baseTypes (resolver : Resolver) (id : StatementId) : List StatementId :=
  match resolver.tree.scope? id with
  | none => []
  | some scope =>
    let context := (resolver.tree.parent? id).getD id
    let use := resolver.contextLocation id
    distinct ((scope.parents.flatMap fun parent => resolver.findTypes context parent use).filter
      (· != id))

def inherits (resolver : Resolver) (id : StatementId) : List StatementId :=
  if resolver.isTypeLike id then resolver.baseTypes id else []

def hierarchy (resolver : Resolver) (id : StatementId) : List StatementId :=
  breadthFirst resolver.inherits (resolver.tree.slots.size + 1) id

def enclosingType? (resolver : Resolver) (scope : StatementId) : Option StatementId :=
  (resolver.tree.lineage scope).find? resolver.isTypeLike

def keywordTypes? (resolver : Resolver) (scope : StatementId) (name : String) :
    Option (List StatementId) :=
  if name == "this" then some (resolver.enclosingType? scope).toList
  else if name == "base" || name == "super" then
    some (((resolver.enclosingType? scope).map resolver.baseTypes).getD [])
  else none

/-- Whether a plain call can bind to the statement: an ordinary method, or a destructor for a
destructor call, that takes as many arguments. -/
def accepts (resolver : Resolver) (call : Call) (id : StatementId) : Bool :=
  match resolver.tree.method? id with
  | some method =>
    !method.isConstructor && method.isDestructor == call.isDestructor &&
      method.acceptsArity call.arity
  | none => false

def methodsIn (resolver : Resolver) (owners : List StatementId) (call : Call) : List StatementId :=
  distinct ((owners.flatMap resolver.hierarchy).flatMap fun level =>
    (resolver.tree.namedChildren level call.name).filter (resolver.accepts call))

def constructorsOf (resolver : Resolver) (types : List StatementId) (arity : Nat) :
    List StatementId :=
  distinct (types.flatMap fun type => (resolver.tree.children type).filter fun child =>
    match resolver.tree.method? child with
    | some method => method.isConstructor && method.acceptsArity arity
    | none => false)

def fieldsIn (resolver : Resolver) (owners : List StatementId) (name : String) : List Declared :=
  distinctOn Declared.site
    (((owners.flatMap resolver.hierarchy).flatMap resolver.tree.declarations).filter
      fun field => field.declared.name == name)

/-- The variables a bare name means: those of the first enclosing scope that declares it, or of
the bases of an enclosing type. -/
def lexicalVariables (resolver : Resolver) (scope : StatementId) (name : String) (use : Location) :
    List Declared :=
  firstNonEmpty (fun level =>
    match resolver.tree.declarationsForUse level name use with
    | [] => if resolver.isTypeLike level then resolver.fieldsIn (resolver.baseTypes level) name else []
    | found => found) (resolver.tree.lineage scope)

end Resolver

end ScopeAtlas
