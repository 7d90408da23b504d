import ScopeAtlas.ScopeTree.Basic

/-!
Equality of trees as trees: kinds, languages, locations, expressions and children in order
count, slot numbers do not.
-/

namespace ScopeAtlas

namespace ScopeTree

def sameStatement (left right : Statement) : Bool :=
  left.kind == right.kind && left.language == right.language &&
    left.locations == right.locations && left.content == right.content

def equalBelow (left right : ScopeTree) : Nat → StatementId → StatementId → Bool
  | 0, _, _ => false
  | depth + 1, leftId, rightId =>
    match left.get? leftId, right.get? rightId with
    | some first, some second =>
      sameStatement first second &&
        first.children.length == second.children.length &&
        (first.children.zip second.children).all fun (leftChild, rightChild) =>
          equalBelow left right depth leftChild rightChild
    | _, _ => false

def equalAt (left : ScopeTree) (leftId : StatementId) (right : ScopeTree) (rightId : StatementId) :
    Bool :=
  equalBelow left right (left.slots.size + 1) leftId rightId

def equivalent (left right : ScopeTree) : Bool :=
  left.equalAt root right root

end ScopeTree

end ScopeAtlas
