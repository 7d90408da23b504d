import ScopeAtlas.SourceUnit.Expression

/-!
Declared variables and parameters, and the headers that declare them.
-/

namespace ScopeAtlas.SourceUnit

open Markup

def specifierTexts (element : Element) : List String :=
  (element.childrenNamed "specifier").map fun specifier => Text.trim specifier.text

def statedAccess (element : Element) : Access :=
  ((specifierTexts element).filterMap Access.ofKeyword?).foldl Access.combine .unstated

def isPartial (element : Element) : Bool :=
  (specifierTexts element).contains "partial"

/-- The type of a declarator; `ref="prev"` repeats the type of the one before it. -/
def declaratorType (file : String) (declarator : Element) (previous : Option TypeUse) :
    Option TypeUse :=
  match declarator.child? "type" with
  | none => none
  | some type => if type.attribute? "ref" == some "prev" then previous else typeOf? file type

/-- The initial value of a declarator: written after it, or constructed in place as in
`Foo f(1, 2)`. -/
def initialValue (file : String) (declarator : Element) (type : Option TypeUse) :
    Option Expression :=
  match (declarator.child? "init").or (declarator.child? "default") with
  | some value => expression? file value
  | none =>
    match declarator.child? "argument_list", type with
    | some list, some use =>
      some (.ofKind (.call ⟨use.name, use.qualifier, argumentsIn file list.children, [], true, false,
        none⟩) (list.location file))
    | _, _ => none

def declaredVariable (file : String) (declarator : Element) (previous : Option TypeUse)
    (fallback : Access) : Variable :=
  let name := ((declaredName? file declarator).map (·.1)).getD ""
  let type := declaratorType file declarator previous
  let typeAccess := ((declarator.child? "type").map statedAccess).getD .unstated
  let access := ((statedAccess declarator).combine typeAccess).orDefault fallback
  ⟨name, type, access, initialValue file declarator type⟩

def headerDeclaration (file : String) (declarator : Element) : Expression :=
  .ofKind (.declaration (declaredVariable file declarator none .unstated)) (declarator.location file)

def declaredContent (file : String) (access : Access) :
    Option TypeUse → List Element → List Expression
  | _, [] => []
  | previous, declarator :: rest =>
    let declared := declaredVariable file declarator previous access
    let others := declaredContent file access declared.type rest
    if declared.name == "" then others
    else .ofKind (.declaration declared) (declarator.location file) :: others

def declarators (element : Element) : List Element :=
  if element.name == "decl_stmt" then element.childrenNamed "decl" else [element]

/-- The parameters of a list; a lone unnamed `void` means none. -/
def parameters (file : String) (list : Element) : List Variable :=
  let found := (list.childrenNamed "param").map fun parameter =>
    declaredVariable file ((parameter.child? "decl").getD parameter) none .unstated
  match found with
  | [only] =>
    if only.name == "" && (only.type.map (·.name)) == some "void" then [] else found
  | _ => found

def catchDeclarators (clause : Element) : List Element :=
  clause.elements.flatMap fun child =>
    if child.name == "parameter_list" then
      (child.childrenNamed "param").filterMap fun parameter => parameter.child? "decl"
    else if child.name == "param" then (child.child? "decl").toList
    else []

def headerContent (file : String) (header : Element) : List Expression :=
  header.elements.flatMap fun child =>
    if child.name == "decl" then [headerDeclaration file child]
    else if child.name == "expr" then (expression? file child).toList
    else []

def expressionsIn (file : String) (element : Element) : List Expression :=
  element.elements.flatMap fun child =>
    match child.name with
    | "expr" => (expression? file child).toList
    | "name" => (nameExpression? file child).toList
    | "call" => (call? file child).toList
    | "decl" => [headerDeclaration file child]
    | _ => []

def expressionsOfChild (file : String) (element : Element) (name : String) : List Expression :=
  ((element.child? name).map (expressionsIn file)).getD []

end ScopeAtlas.SourceUnit
