import ScopeAtlas.Resolution.Inventory
import ScopeAtlas.ScopeTree.Visible

/-!
Which namespaces and types a name means at a place. A single name is looked up outward from
the scope of the use; a qualified name is tried below each enclosing namespace or type. Only
when both find nothing do the aliases and imports of the use's own file take part.
-/

namespace ScopeAtlas

structure Resolver where
  tree : ScopeTree
  inventory : Option Inventory

def builtinTypes : List String :=
  ["void", "bool", "boolean", "char", "wchar_t", "char16_t", "char32_t", "byte", "sbyte",
    "short", "ushort", "int", "uint", "long", "ulong", "float", "double", "decimal", "signed",
    "unsigned", "string", "object", "dynamic", "size_t"]

def isBuiltinType (name : String) : Bool :=
  builtinTypes.contains name

namespace Resolver

def isContainer (resolver : Resolver) (id : StatementId) : Bool :=
  match resolver.tree.scope? id with
  | some scope => scope.isContainer
  | none => false

def isTypeLike (resolver : Resolver) (id : StatementId) : Bool :=
  match resolver.tree.scope? id with
  | some scope => scope.isTypeLike
  | none => false

/-- The levels a qualified name can start below: the global namespace and named containers. -/
def isLookupLevel (resolver : Resolver) (id : StatementId) : Bool :=
  match resolver.tree.get? id with
  | some statement => statement.kind = .global || resolver.isContainer id
  | none => false

def walkPath (resolver : Resolver) (level : StatementId) (path : List String) : List StatementId :=
  path.foldl (fun current part =>
    (current.flatMap fun scope => resolver.tree.namedChildren scope part).filter
      resolver.isContainer) [level]

def lookupRelative (resolver : Resolver) (level : StatementId) (path : List String) :
    List StatementId :=
  if path.isEmpty then [level]
  else match resolver.inventory with
    | some inventory =>
      (inventory.lookupParts (resolver.tree.qualifiedParts level ++ path)).filter
        resolver.tree.isLive
    | none => resolver.walkPath level path

def lookupAbsolute (resolver : Resolver) (path : List String) : List StatementId :=
  resolver.lookupRelative ScopeTree.root path

def expandPath (path : List String) : StatementKind → Option (List String)
  | .aliasing target name => match path with
    | first :: rest => if name == first then some (target ++ rest) else none
    | [] => none
  | .importing imported => if path.isEmpty then none else some (imported ++ path)
  | _ => none

/-- The paths that the aliases and imports of the use's file, in the scopes around it, make of a
path, nearest scope first. -/
def importedPaths (resolver : Resolver) (scope : StatementId) (use : Location)
    (path : List String) : List (List String) :=
  (resolver.tree.lineage scope).flatMap fun level =>
    (resolver.tree.children level).filterMap fun child =>
      match resolver.tree.get? child with
      | some statement =>
        if statement.hasLocationIn use.file then expandPath path statement.kind else none
      | none => none

def accepted (resolver : Resolver) (accept : NamedScope → Bool) (ids : List StatementId) :
    List StatementId :=
  ids.filter fun id => match resolver.tree.scope? id with
    | some scope => scope.isContainer && accept scope
    | none => false

def findScopes (resolver : Resolver) (scope : StatementId) (use : Location) (path : List String)
    (accept : NamedScope → Bool) : List StatementId :=
  let levels := resolver.tree.lineage scope
  let enclosing := match path with
    | [] => []
    | [name] => firstNonEmpty (fun level =>
        resolver.accepted accept (resolver.tree.namedChildrenForUse level name use)) levels
    | _ => firstNonEmpty (fun level => resolver.accepted accept (resolver.lookupRelative level path))
        (levels.filter resolver.isLookupLevel)
  if enclosing.isEmpty then
    distinct ((resolver.importedPaths scope use path).flatMap fun imported =>
      resolver.accepted accept (resolver.lookupAbsolute imported))
  else enclosing

def findTypes (resolver : Resolver) (scope : StatementId) (type : TypeUse) (use : Location) :
    List StatementId :=
  if type.qualifier.isNone && isBuiltinType type.name then []
  else resolver.findScopes scope use type.path NamedScope.isTypeLike

def contextLocation (resolver : Resolver) (id : StatementId) : Location :=
  ((resolver.tree.get? id).bind Statement.primaryLocation?).getD (Location.point "" 0 0)

end Resolver

end ScopeAtlas
