import ScopeAtlas.Query.CallGraph
import ScopeAtlas.Query.Statistics
import ScopeAtlas.Resolution.Match
import ScopeAtlas.ScopeTree.Merge
import ScopeAtlas.ScopeTree.Removal
import ScopeAtlas.SourceUnit.Basic

/-!
Programs: the scope tree of all files together with the inventory of its types. Every change of
the tree brings the inventory up to date.
-/

namespace ScopeAtlas

structure Program where
  tree : ScopeTree
  inventory : Inventory

namespace Program

def ofTree (tree : ScopeTree) : Program :=
  ⟨tree, .build tree⟩

def empty (language : Language) : Program :=
  ofTree (.empty language)

def resolver (program : Program) : Resolver :=
  ⟨program.tree, some program.inventory⟩

def files (program : Program) : List String :=
  program.tree.files

def containsFile (program : Program) (file : String) : Bool :=
  program.files.any (Text.sameFolded file)

def removeFiles (tree : ScopeTree) : List String → ScopeTree × List String
  | [] => (tree, [])
  | file :: rest =>
    let (without, changed) := tree.removeFile file
    let (last, removed) := removeFiles without rest
    (last, if changed then file :: removed else removed)

/-- Merges the tree of a unit in place of what its files contributed before; also lists the files
that were replaced. -/
def mergeUnit (program : Program) (unit : ScopeTree) : Program × List String :=
  let (without, replaced) := removeFiles program.tree unit.files
  (ofTree (without.merge unit), replaced)

def mergeUnits (program : Program) : List ScopeTree → Program × List (List String)
  | [] => (program, [])
  | unit :: rest =>
    let (merged, replaced) := program.mergeUnit unit
    let (last, later) := mergeUnits merged rest
    (last, replaced :: later)

def loadDocument (program : Program) (text : String) : Except Failure (Program × Nat) := do
  let units ← SourceUnit.readDocument text
  return ((program.mergeUnits units).1, units.length)

def removeFile (program : Program) (file : String) : Program × Bool :=
  match program.tree.removeFile file with
  | (tree, true) => (ofTree tree, true)
  | (tree, false) => (⟨tree, program.inventory⟩, false)

def clear (program : Program) : Program :=
  ⟨program.tree.clear, .empty⟩

def statistics (program : Program) : Statistics :=
  .collect program.tree

def callGraph (program : Program) : CallGraph :=
  .build program.resolver

def nameParts (qualifiedName : String) : List String :=
  ((Text.pieces (fun letter => letter == '.' || letter == ':') qualifiedName.toList).map
    fun piece => Text.trim (String.ofList piece)).filter fun part => part != ""

def findScopes (program : Program) (qualifiedName : String) : List StatementId :=
  program.inventory.lookupParts (nameParts qualifiedName)

def findMethods (program : Program) (qualifiedName : String) : List StatementId :=
  let parts := nameParts qualifiedName
  match parts.getLast? with
  | none => []
  | some name =>
    let owners := match parts.dropLast with
      | [] => [ScopeTree.root]
      | owner => program.inventory.lookupParts owner
    (owners.flatMap fun owner => program.tree.namedChildren owner name).filter fun id =>
      (program.tree.method? id).isSome

end Program

end ScopeAtlas
