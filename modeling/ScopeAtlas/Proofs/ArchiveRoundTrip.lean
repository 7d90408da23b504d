import ScopeAtlas.Archive.Basic
import ScopeAtlas.Proofs.ArchiveForm

/-!
An archive gives back the program that was written to it: every slot of the tree with its numbers,
links, locations and expressions, the empty slots too, and the inventory.

Main statement: `readWithin_write`.
-/

namespace ScopeAtlas.Archive

/-- Reading under another limit on the levels. -/
def readWithin (levels : Nat) (text : String) : Except Failure Program :=
  match (Json.parse? text).bind (decode? levels) with
  | none => .error .malformedArchive
  | some (stated, tree) =>
    if stated = version then .ok (.ofTree tree) else .error (.archiveVersion stated version)

theorem read_eq_readWithin : read = readWithin levelLimit := rfl

theorem carries {tree : ScopeTree} (counted : InRange tree.counts) :
    Json.Carries decode? (encode tree) (version, tree) := by
  have stated : Json.Carries _ _ version := Json.carries_count (by decide)
  have tree := ScopeTree.carries counted
  refine .record (by simp [stated.plain, tree.plain]) fun levels deep => ?_
  simp only [List.forall_mem_cons] at deep
  simp [decode?, Json.fields?_record, Json.required?, stated.decoded levels, tree.decoded, deep]

/-- Every tree is read back from its archive, whatever its links are. -/
theorem readWithin_print_encode {tree : ScopeTree} (counted : InRange tree.counts) {levels : Nat}
    (deep : (encode tree).depth ≤ levels) :
    readWithin levels (encode tree).print = .ok (.ofTree tree) := by
  have carried := carries counted
  simp [readWithin, Json.parse?_print carried.plain, carried.decoded levels deep]

/-- A program whose inventory is that of its tree comes back from its archive. -/
theorem readWithin_write {program : Program} (built : program.inventory = .build program.tree)
    (counted : InRange program.tree.counts) :
    (∀ levels, (encode program.tree).depth ≤ levels →
      readWithin levels (write program) = .ok program) ∧
    ((encode program.tree).depth ≤ levelLimit → read (write program) = .ok program) := by
  have same : Program.ofTree program.tree = program := by
    rw [Program.ofTree, ← built]
  have back (levels : Nat) (deep : (encode program.tree).depth ≤ levels) :
      readWithin levels (write program) = .ok program := by
    rw [write, readWithin_print_encode counted deep, same]
  exact ⟨back, fun deep => read_eq_readWithin ▸ back levelLimit deep⟩

def richTree : ScopeTree :=
  let place : Location := ⟨"größe.cpp", ⟨1, 2⟩, .unbounded, some "/unit/function[1]", false⟩
  let outer : Qualifier := ⟨[⟨"Größe", place⟩]⟩
  let start : Expression := ⟨.literal ⟨.string, "\"a\\b\"\t"⟩, place, []⟩
  let index : Variable :=
    ⟨"index", some ⟨"vector", some outer, [.ofName "int"]⟩, .protectedInternal, some start⟩
  let receiver : Expression := ⟨.name ⟨"list", none⟩, place, []⟩
  let call : Expression :=
    ⟨.call ⟨"max", some outer, [start, ⟨.operator "+", place, []⟩], [.ofName "T"], false, true,
      some receiver⟩, place, [⟨.declaration index, place, []⟩, ⟨.type (.ofName "int"), place, []⟩]⟩
  let method : Facet :=
    ⟨"größe.cpp", false, .privateAccess,
      .methodScope ⟨[index], some (.ofName "void"), true, false, false⟩⟩
  let declared : Facet :=
    ⟨"größe.h", true, .unstated, .typeScope ⟨.interfaceType, [.ofName "Base"], true⟩⟩
  ⟨#[some ⟨.global, .cPlusPlus, [], [], none, [1, 4]⟩,
    some ⟨.named ⟨"größe", some outer, [method, declared, ⟨"", false, .unstated, .placeholder⟩]⟩,
      .cSharp, [place], [], some 0, [3]⟩,
    none,
    some ⟨.case true, .java, [place], [call], some 1, []⟩,
    some ⟨.aliasing ["N", "A"] "B", .c, [place], [], some 0, []⟩]⟩

theorem readWithin_write_richTree :
    InRange richTree.counts ∧ (encode richTree).depth ≤ levelLimit ∧
      read (write (.ofTree richTree)) = .ok (.ofTree richTree) := by
  have counted : InRange richTree.counts := by decide +kernel
  have deep : (encode richTree).depth ≤ levelLimit := by decide +kernel
  exact ⟨counted, deep, (readWithin_write rfl counted).2 deep⟩

end ScopeAtlas.Archive
