import ScopeAtlas.Expression.Walk
import ScopeAtlas.Statement.NamedScope

/-!
Statements, the nodes of a scope tree. A statement knows every location it was seen at, its own
expressions, its parent and its children.
-/

namespace ScopeAtlas

/-- Handle of a statement: the number of its slot in the tree. Numbers are not bounded here; in a
tree of fewer than 2^32 slots they are those of handles with 32 bits. -/
abbrev StatementId := Nat

inductive StatementKind
  | global
  | named (scope : NamedScope)
  | block
  | ifBranch
  | elseBranch
  | whileLoop
  | doWhile
  | forLoop
  | foreach
  | switch
  | case (isDefault : Bool)
  | tryBlock
  | catchClause
  | finallyClause
  | lock
  | return
  | throw
  | break
  | continue
  | goto
  | label (name : String)
  | expression
  | declaration
  | aliasing (target : List String) (name : String)
  | importing (path : List String)
  deriving DecidableEq, Inhabited

namespace StatementKind

def isScope : StatementKind → Bool
  | .global | .named _ | .block | .ifBranch | .elseBranch | .whileLoop | .doWhile | .forLoop
  | .foreach | .switch | .case _ | .tryBlock | .catchClause | .finallyClause | .lock => true
  | .return | .throw | .break | .continue | .goto | .label _ | .expression | .declaration
  | .aliasing _ _ | .importing _ => false

def declaresInHeader : StatementKind → Bool
  | .forLoop | .foreach | .catchClause | .lock => true
  | _ => false

def scope? : StatementKind → Option NamedScope
  | .named scope => some scope
  | _ => none

def word : StatementKind → String
  | .global => "global"
  | .named scope => scope.label
  | .block => "block"
  | .ifBranch => "if"
  | .elseBranch => "else"
  | .whileLoop => "while"
  | .doWhile => "do"
  | .forLoop => "for"
  | .foreach => "foreach"
  | .switch => "switch"
  | .case false => "case"
  | .case true => "default"
  | .tryBlock => "try"
  | .catchClause => "catch"
  | .finallyClause => "finally"
  | .lock => "lock"
  | .return => "return"
  | .throw => "throw"
  | .break => "break"
  | .continue => "continue"
  | .goto => "goto"
  | .label _ => "label"
  | .expression => "expression"
  | .declaration => "declaration"
  | .aliasing _ _ => "alias"
  | .importing _ => "import"

def mapScope (change : NamedScope → NamedScope) : StatementKind → StatementKind
  | .named scope => .named (change scope)
  | other => other

end StatementKind

structure Statement where
  kind : StatementKind
  language : Language
  locations : List Location
  content : List Expression
  parent : Option StatementId
  children : List StatementId
  deriving DecidableEq, Inhabited

namespace Statement

def detached (kind : StatementKind) (language : Language) (locations : List Location)
    (content : List Expression) : Statement :=
  ⟨kind, language, locations, content, none, []⟩

/-- The first defining location, or else the first location. -/
def primaryLocation? (statement : Statement) : Option Location :=
  (statement.locations.find? fun location => !location.isReference).or statement.locations.head?

def referenceLocations (statement : Statement) : List Location :=
  statement.locations.filter Location.isReference

def definitionLocations (statement : Statement) : List Location :=
  statement.locations.filter fun location => !location.isReference

def scope? (statement : Statement) : Option NamedScope :=
  statement.kind.scope?

def name? (statement : Statement) : Option String :=
  statement.scope?.map NamedScope.name

def method? (statement : Statement) : Option MethodDefinition :=
  statement.scope?.bind NamedScope.method?

def type? (statement : Statement) : Option TypeDefinition :=
  statement.scope?.bind NamedScope.type?

def isScope (statement : Statement) : Bool :=
  statement.kind.isScope

def isNamespaceLike (statement : Statement) : Bool :=
  match statement.kind with
  | .global => true
  | .named scope => scope.isNamespace || scope.isPlaceholder
  | _ => false

def containsLocation (statement : Statement) (location : Location) : Bool :=
  statement.locations.any fun own => own.contains location

def hasLocationIn (statement : Statement) (file : String) : Bool :=
  statement.locations.any fun own => own.inFile file

def calls (statement : Statement) : List Expression :=
  statement.content.flatMap Expression.calls

def declarations (statement : Statement) : List (Variable × Location) :=
  statement.content.filterMap fun expression =>
    expression.declaration?.map fun declared => (declared, expression.location)

end Statement

end ScopeAtlas
