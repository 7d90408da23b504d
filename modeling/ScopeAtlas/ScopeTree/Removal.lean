import ScopeAtlas.ScopeTree.Basic

/-!
Taking one file out of a tree: its locations, expressions and facets go, and with them every
statement that is left without a location.
-/

namespace ScopeAtlas

namespace ScopeTree

def vacateBelow : Nat → ScopeTree → StatementId → ScopeTree
  | 0, tree, _ => tree
  | depth + 1, tree, id =>
    match tree.get? id with
    | none => tree
    | some statement => statement.children.foldl (vacateBelow depth) (tree.vacate id)

def removeSubtree (tree : ScopeTree) (id : StatementId) : ScopeTree :=
  if id = root then tree
  else vacateBelow (tree.slots.size + 1) (tree.detach id) id

def stripStatement (file : String) (statement : Statement) : Statement :=
  { statement with
    locations := statement.locations.filter fun location => !location.inFile file
    content := statement.content.filter fun expression => !expression.location.inFile file
    kind := statement.kind.mapScope fun scope => scope.withoutFile file }

def contributed (file : String) (statement : Statement) : Bool :=
  statement.locations.any (fun location => location.inFile file) ||
    statement.content.any (fun expression => expression.location.inFile file) ||
    match statement.scope? with
    | some scope => scope.facets.any fun facet => Text.sameFolded facet.file file
    | none => false

/-- Strips a statement and the children that the file touches, and removes the children left
without a location. The flag says whether anything changed. -/
def stripBelow (file : String) : Nat → ScopeTree → StatementId → ScopeTree × Bool
  | 0, tree, _ => (tree, false)
  | depth + 1, tree, id =>
    match tree.get? id with
    | none => (tree, false)
    | some statement =>
      statement.children.foldl (fun (current, changed) child =>
        match current.get? child with
        | none => (current, changed)
        | some inner =>
          if inner.hasLocationIn file then
            let (stripped, below) := stripBelow file depth current child
            let pruned := match stripped.get? child with
              | some left => if left.locations.isEmpty then stripped.removeSubtree child else stripped
              | none => stripped
            (pruned, changed || below)
          else (current, changed))
        (tree.modify id (stripStatement file), contributed file statement)

def removeFile (tree : ScopeTree) (file : String) : ScopeTree × Bool :=
  stripBelow file (tree.slots.size + 1) tree root

end ScopeTree

end ScopeAtlas
