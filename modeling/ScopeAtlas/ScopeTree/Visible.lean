import ScopeAtlas.ScopeTree.Walk

/-!
What stands directly in a scope: its named children and the variables it declares, and which
of them a use at a given place can see. A scope that contains the use hides what the same file
declares after the use; types show their members throughout.
-/

namespace ScopeAtlas

/-- Where a variable is written: as a parameter of a method, or as an expression of a
statement. Sites tell apart declarations that look the same. -/
inductive DeclarationSite
  | parameter (method : StatementId) (index : Nat)
  | expression (statement : StatementId) (index : Nat)
  deriving DecidableEq, Inhabited

structure Declared where
  scope : StatementId
  site : DeclarationSite
  declared : Variable
  location : Option Location
  deriving DecidableEq

namespace ScopeTree

def namedChildren (tree : ScopeTree) (id : StatementId) (name : String) : List StatementId :=
  (tree.children id).filter fun child => tree.name? child == some name

def hidesLater (tree : ScopeTree) (id : StatementId) (use : Location) : Bool :=
  match tree.get? id with
  | none => false
  | some statement => match statement.kind with
    | .global => statement.language.isCFamily
    | .named scope => if scope.type?.isSome then false else statement.containsLocation use
    | _ => statement.containsLocation use

def startsAfter (tree : ScopeTree) (id : StatementId) (use : Location) : Bool :=
  match tree.get? id with
  | none => false
  | some statement =>
    let sameFile := statement.locations.filter fun location => location.inFile use.file
    !sameFile.isEmpty && sameFile.all fun location => use.start < location.start

def namedChildrenForUse (tree : ScopeTree) (id : StatementId) (name : String) (use : Location) :
    List StatementId :=
  let hides := tree.hidesLater id use
  (tree.namedChildren id name).filter fun child => !hides || !tree.startsAfter child use

def contentDeclarations (scope owner : StatementId) (statement : Statement) : List Declared :=
  (statement.content.zipIdx).filterMap fun (expression, index) =>
    expression.declaration?.map fun declared =>
      ⟨scope, .expression owner index, declared, some expression.location⟩

def parameterDeclarations (id : StatementId) (statement : Statement) : List Declared :=
  match statement.method? with
  | none => []
  | some method => method.parameters.zipIdx.map fun (parameter, index) =>
      ⟨id, .parameter id index, parameter, statement.primaryLocation?⟩

/-- The variables declared in `id` itself: parameters, variables of its header, and variables
of the declaration statements directly inside. -/
def declarations (tree : ScopeTree) (id : StatementId) : List Declared :=
  match tree.get? id with
  | none => []
  | some statement =>
    parameterDeclarations id statement ++
      (if statement.kind.declaresInHeader then contentDeclarations id id statement else []) ++
      statement.children.flatMap fun child =>
        match tree.get? child with
        | some inner =>
          if inner.kind = .declaration then contentDeclarations id child inner else []
        | none => []

def declarationsForUse (tree : ScopeTree) (id : StatementId) (name : String) (use : Location) :
    List Declared :=
  let hides := tree.hidesLater id use
  (tree.declarations id).filter fun found =>
    found.declared.name == name &&
      (!hides || match found.location with
        | none => true
        | some location => !location.inFile use.file || location.start ≤ use.start)

end ScopeTree

end ScopeAtlas
