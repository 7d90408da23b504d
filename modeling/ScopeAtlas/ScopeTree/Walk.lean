import ScopeAtlas.Ordered
import ScopeAtlas.ScopeTree.Basic

/-!
Walks through a scope tree: upward along parents and downward along children, parents first.
A tree may have been read from outside, so a walk is bounded by the number of slots; in a tree
whose links do not run in circles the bound is never met.
-/

namespace ScopeAtlas

namespace ScopeTree

def climb (tree : ScopeTree) : Nat → Option StatementId → List StatementId
  | 0, _ => []
  | _, none => []
  | bound + 1, some id => id :: tree.climb bound (tree.parent? id)

/-- One more than the number of slots, since the last parent named may be missing. -/
def climbBound (tree : ScopeTree) : Nat :=
  tree.slots.size + 1

def ancestors (tree : ScopeTree) (id : StatementId) : List StatementId :=
  tree.climb tree.climbBound (tree.parent? id)

def lineage (tree : ScopeTree) (id : StatementId) : List StatementId :=
  if tree.isLive id then tree.climb tree.climbBound (some id) else []

def below (tree : ScopeTree) : Nat → StatementId → List StatementId
  | 0, _ => []
  | depth + 1, id => (tree.children id).flatMap fun child => child :: tree.below depth child

def descendants (tree : ScopeTree) (id : StatementId) : List StatementId :=
  tree.below tree.slots.size id

def subtree (tree : ScopeTree) (id : StatementId) : List StatementId :=
  if tree.isLive id then id :: tree.descendants id else []

def enclosingType? (tree : ScopeTree) (id : StatementId) : Option StatementId :=
  (tree.lineage id).find? fun level => ((tree.get? level).bind Statement.type?).isSome

def enclosingMethod? (tree : ScopeTree) (id : StatementId) : Option StatementId :=
  (tree.lineage id).find? fun level => (tree.method? level).isSome

def qualifiedParts (tree : ScopeTree) (id : StatementId) : List String :=
  (((tree.lineage id).filterMap tree.name?).filter fun name => name != "").reverse

def qualifiedName (tree : ScopeTree) (id : StatementId) : String :=
  ".".intercalate (tree.qualifiedParts id)

def locations (tree : ScopeTree) : List Location :=
  tree.slots.toList.flatMap fun slot => (slot.map Statement.locations).getD []

def files (tree : ScopeTree) : List String :=
  sortedNames (tree.locations.map Location.file)

end ScopeTree

end ScopeAtlas
