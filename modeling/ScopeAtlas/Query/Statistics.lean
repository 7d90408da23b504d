import ScopeAtlas.ScopeTree.Walk

/-!
Counts over a tree.
-/

namespace ScopeAtlas

structure Statistics where
  files : Nat
  namespaces : Nat
  types : Nat
  methods : Nat
  statements : Nat
  calls : Nat
  declarations : Nat
  /-- Scopes that are a namespace in one place and a type in another. -/
  ambiguous : Nat
  deriving DecidableEq, Inhabited

namespace Statistics

def collect (tree : ScopeTree) : Statistics :=
  let statements := (tree.descendants ScopeTree.root).filterMap tree.get?
  let scopes := statements.filterMap Statement.scope?
  { files := tree.files.length
    namespaces := scopes.countP NamedScope.isNamespace
    types := scopes.countP fun scope => scope.type?.isSome
    methods := scopes.countP fun scope => scope.method?.isSome
    statements := statements.length
    calls := (statements.flatMap Statement.calls).length
    declarations := (statements.flatMap Statement.declarations).length
    ambiguous := scopes.countP NamedScope.isAmbiguous }

def display (counts : Statistics) : String :=
  "Program Model Statistics:\n" ++
    "  Files: " ++ toString counts.files ++ "\n" ++
    "  Scopes: " ++ toString counts.namespaces ++ " namespaces, " ++ toString counts.types ++
    " types, " ++ toString counts.methods ++ " methods\n" ++
    "  Statements: " ++ toString counts.statements ++ "\n" ++
    "  Calls: " ++ toString counts.calls ++ ", declarations: " ++ toString counts.declarations

end Statistics

end ScopeAtlas
