import ScopeAtlas.ScopeTree.Walk

/-!
From a place in a file to the innermost statement there. The search goes through the children
in order before it looks at the statement itself, because the span of a scope that several
files share says little about where its parts are.
-/

namespace ScopeAtlas

namespace ScopeTree

def locate (tree : ScopeTree) (accept : Statement → Bool) (location : Location) :
    Nat → StatementId → Option StatementId
  | 0, _ => none
  | depth + 1, id =>
    match tree.get? id with
    | none => none
    | some statement =>
      match statement.children.findSome? (tree.locate accept location depth) with
      | some found => some found
      | none => if accept statement && statement.containsLocation location then some id else none

def statementAt? (tree : ScopeTree) (location : Location) : Option StatementId :=
  tree.locate (fun _ => true) location (tree.slots.size + 1) root

def scopeAt? (tree : ScopeTree) (location : Location) : Option StatementId :=
  (tree.locate Statement.isScope location (tree.slots.size + 1) root).or
    (if tree.isLive root then some root else none)

end ScopeTree

end ScopeAtlas
