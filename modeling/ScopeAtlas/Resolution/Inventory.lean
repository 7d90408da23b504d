import ScopeAtlas.ScopeTree.Walk

/-!
The inventory of a tree: every namespace, type and placeholder with a name, in pre-order, with
its qualified name, so that a qualified lookup need not walk the tree again.
-/

namespace ScopeAtlas

structure InventoryEntry where
  qualifiedName : String
  name : String
  id : StatementId
  deriving DecidableEq, Inhabited

structure Inventory where
  entries : List InventoryEntry
  deriving DecidableEq, Inhabited

namespace Inventory

def empty : Inventory := ⟨[]⟩

def entryOf? (tree : ScopeTree) (id : StatementId) : Option InventoryEntry :=
  match tree.scope? id with
  | some scope =>
    if scope.name == "" || !scope.isContainer then none
    else some ⟨tree.qualifiedName id, scope.name, id⟩
  | none => none

def build (tree : ScopeTree) : Inventory :=
  ⟨(tree.descendants ScopeTree.root).filterMap (entryOf? tree)⟩

def lookup (inventory : Inventory) (qualifiedName : String) : List StatementId :=
  (inventory.entries.filter fun entry => entry.qualifiedName == qualifiedName).map (·.id)

def lookupParts (inventory : Inventory) (parts : List String) : List StatementId :=
  inventory.lookup (".".intercalate (parts.filter fun part => part != ""))

def named (inventory : Inventory) (name : String) : List StatementId :=
  (inventory.entries.filter fun entry => entry.name == name).map (·.id)

def qualifiedNames (inventory : Inventory) : List String :=
  sortedNames (inventory.entries.map (·.qualifiedName))

def size (inventory : Inventory) : Nat :=
  inventory.qualifiedNames.length

def isEmpty (inventory : Inventory) : Bool :=
  inventory.entries.isEmpty

end Inventory

end ScopeAtlas
