import ScopeAtlas.ScopeTree.Basic

/-!
The outline of a unit: its statements as they nest, before they get numbers. Placing an outline
numbers the statements in pre-order.
-/

namespace ScopeAtlas

inductive Outline
  | node (kind : StatementKind) (location : Location) (content : List Expression)
      (children : List Outline)

namespace Outline

mutual

def place (language : Language) (parent : StatementId) : Outline → ScopeTree → ScopeTree
  | .node kind location content children, tree =>
    placeAll language tree.nextId children
      (tree.add parent (.detached kind language [location] content))

def placeAll (language : Language) (parent : StatementId) : List Outline → ScopeTree → ScopeTree
  | [], tree => tree
  | first :: rest, tree => placeAll language parent rest (place language parent first tree)

end

def tree (language : Language) (location : Location) (outlines : List Outline) : ScopeTree :=
  placeAll language ScopeTree.root outlines
    ⟨#[some (.detached .global language [location] [])]⟩

end Outline

end ScopeAtlas
