import ScopeAtlas.Resolution.Hierarchy

/-!
Static types of expressions, and through them the variables and methods that qualified names
and member calls mean. Inference follows initial values and member chains only so far: every
step spends some of a budget, and without budget nothing is known.
-/

namespace ScopeAtlas

def memberOperators : List String := [".", "->", "::", "?.", ".*", "->*"]

def inferenceBudget : Nat := 17

namespace Resolver

def returnTypes (resolver : Resolver) (method : StatementId) : List StatementId :=
  match resolver.tree.method? method with
  | none => []
  | some definition =>
    if definition.isConstructor then (resolver.tree.parent? method).toList
    else match definition.returnType with
      | none => []
      | some type =>
        resolver.findTypes ((resolver.tree.parent? method).getD method) type
          (resolver.contextLocation method)

/-- The types of a variable: as declared, or inferred from its initial value when the
declaration leaves the type to it. -/
def variableTypes (resolver : Resolver) (infer : StatementId → Expression → List StatementId)
    (use : Location) (found : Declared) : List StatementId :=
  match found.declared.type with
  | none => []
  | some type =>
    if type.qualifier.isNone && (type.name == "var" || type.name == "auto") then
      (found.declared.initializer.map (infer found.scope)).getD []
    else resolver.findTypes found.scope type (found.location.getD use)

def memberNamed (resolver : Resolver) (infer : StatementId → Expression → List StatementId)
    (owners : List StatementId) (name : String) (use : Location) : List StatementId :=
  distinct (
    ((resolver.fieldsIn owners name).flatMap (resolver.variableTypes infer use)) ++
    ((owners.flatMap resolver.hierarchy).flatMap fun level =>
      (resolver.tree.namedChildren level name).filter resolver.isContainer))

def memberTypes (resolver : Resolver) (infer : StatementId → Expression → List StatementId)
    (owners : List StatementId) (member : Expression) : List StatementId :=
  match member.kind with
  | .name use => resolver.memberNamed infer owners use.name member.location
  | .call call => distinct ((resolver.methodsIn owners call).flatMap resolver.returnTypes)
  | _ => []

/-- The methods found for a plain name: in the scopes around the use and the bases of the types
among them, then through imports; failing that, the name may be of a type to construct. -/
def lexicalMethods (resolver : Resolver) (scope : StatementId) (call : Call) (use : Location) :
    List StatementId :=
  let enclosing := (resolver.tree.lineage scope).flatMap fun level =>
    resolver.tree.namedChildrenForUse level call.name use ++
      (if resolver.isTypeLike level then
        (resolver.hierarchy level).tail.flatMap fun base =>
          resolver.tree.namedChildren base call.name
      else [])
  let imported := (resolver.importedPaths scope use [call.name]).flatMap fun path =>
    match path.getLast? with
    | none => []
    | some name => (resolver.lookupAbsolute path.dropLast).flatMap fun owner =>
        resolver.tree.namedChildren owner name
  let found := distinct ((enclosing ++ imported).filter (resolver.accepts call))
  if found.isEmpty then
    resolver.constructorsOf (resolver.findTypes scope (.ofName call.name) use) call.arity
  else found

def methodsWith (resolver : Resolver) (receiverTypes : Expression → List StatementId)
    (qualifierTypes : List String → List StatementId) (scope : StatementId) (call : Call)
    (use : Location) : List StatementId :=
  if call.isKeyword then
    resolver.constructorsOf ((resolver.keywordTypes? scope call.name).getD []) call.arity
  else if call.isConstructor then
    resolver.constructorsOf (resolver.findTypes scope call.constructedType use) call.arity
  else match call.object with
    | some object => resolver.methodsIn (receiverTypes object) call
    | none => match call.qualifier with
      | some qualifier => resolver.methodsIn (qualifierTypes qualifier.names) call
      | none => resolver.lexicalMethods scope call use

def callTypes (resolver : Resolver) (receiverTypes : Expression → List StatementId)
    (qualifierTypes : List String → List StatementId) (scope : StatementId) (call : Call)
    (use : Location) : List StatementId :=
  if call.isConstructor && !call.isKeyword then
    resolver.findTypes scope call.constructedType use
  else
    distinct ((resolver.methodsWith receiverTypes qualifierTypes scope call use).flatMap
      resolver.returnTypes)

/-- The types of a chain such as `a.b.c()`: the first operand is inferred, each later one is
looked up as a member of the one before. Any other operator makes the type unknown. -/
def chainedTypes (infer : Expression → List StatementId)
    (member : List StatementId → Expression → List StatementId) :
    Option (List StatementId) → Bool → List Expression → List StatementId
  | owners, _, [] => owners.getD []
  | owners, afterAccess, part :: rest =>
    match part.kind with
    | .operator text =>
      if memberOperators.contains text then chainedTypes infer member owners true rest
      else if text == "(" || text == ")" then chainedTypes infer member owners afterAccess rest
      else []
    | _ => match owners with
      | none => chainedTypes infer member (some (infer part)) false rest
      | some current =>
        if afterAccess then chainedTypes infer member (some (member current part)) false rest else []

mutual

def typesWithin (resolver : Resolver) (budget : Nat) (scope : StatementId)
    (expression : Expression) : List StatementId :=
  match budget with
  | 0 => []
  | budget + 1 =>
    match expression.kind with
    | .name use => resolver.pathTypesWithin budget scope expression.location use.path
    | .type use => resolver.findTypes scope use expression.location
    | .declaration declared =>
      (declared.type.map fun type => resolver.findTypes scope type expression.location).getD []
    | .call call =>
      resolver.callTypes (fun object => resolver.typesWithin (budget - 1) scope object)
        (fun path => resolver.pathTypesWithin (budget - 1) scope expression.location path)
        scope call expression.location
    | .compound =>
      chainedTypes (fun part => resolver.typesWithin budget scope part)
        (fun owners part => resolver.memberTypes
          (fun inner value => resolver.typesWithin (budget - 2) inner value) owners part)
        none false expression.components
    | .literal _ => []
    | .operator _ => []
termination_by budget
decreasing_by all_goals omega

def pathTypesWithin (resolver : Resolver) (budget : Nat) (scope : StatementId) (use : Location)
    (path : List String) : List StatementId :=
  match budget with
  | 0 => []
  | budget + 1 =>
    match path with
    | [] => []
    | first :: rest =>
      let start := match resolver.keywordTypes? scope first with
        | some types => types
        | none => match resolver.lexicalVariables scope first use with
          | [] => resolver.findScopes scope use [first] NamedScope.isContainer
          | found => distinct (found.flatMap (resolver.variableTypes
              (fun inner value => resolver.typesWithin (budget - 1) inner value) use))
      rest.foldl (fun owners part =>
        if owners.isEmpty then []
        else resolver.memberNamed
          (fun inner value => resolver.typesWithin (budget - 2) inner value) owners part use) start
termination_by budget
decreasing_by all_goals omega

end

def staticTypes (resolver : Resolver) (scope : StatementId) (expression : Expression) :
    List StatementId :=
  resolver.typesWithin inferenceBudget scope expression

def findVariables (resolver : Resolver) (scope : StatementId) (name : NameUse) (use : Location) :
    List Declared :=
  match name.qualifier with
  | some qualifier =>
    resolver.fieldsIn
      (resolver.pathTypesWithin (inferenceBudget - 1) scope use qualifier.names) name.name
  | none => resolver.lexicalVariables scope name.name use

def findMethods (resolver : Resolver) (scope : StatementId) (call : Call) (use : Location) :
    List StatementId :=
  resolver.methodsWith (fun object => resolver.typesWithin (inferenceBudget - 1) scope object)
    (fun path => resolver.pathTypesWithin (inferenceBudget - 1) scope use path) scope call use

end Resolver

end ScopeAtlas
