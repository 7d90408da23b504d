import ScopeAtlas.Program
import ScopeAtlas.Proofs.UnitChart

/-!
Programs do not remember how they came about. Whatever units were merged, files removed and
programs cleared, the tree of a program has the chart of the units that are still loaded. So it has
the same shape as the tree that comes from merging those units once each, in any order.
-/

namespace ScopeAtlas

open ScopeTree

structure PlainUnit where
  file : String
  tree : ScopeTree
  plain : Plain file tree

inductive Operation
  | merge (unit : PlainUnit)
  | remove (file : String)
  | clear

def Program.perform (program : Program) : Operation → Program
  | .merge unit => (program.mergeUnit unit.tree).1
  | .remove file => (program.removeFile file).1
  | .clear => program.clear

def unitsWithout (file : String) (loaded : List PlainUnit) : List PlainUnit :=
  loaded.filter fun unit => !Text.sameFolded unit.file file

def loadedAfter (loaded : List PlainUnit) : Operation → List PlainUnit
  | .merge unit => unitsWithout unit.file loaded ++ [unit]
  | .remove file => unitsWithout file loaded
  | .clear => []

noncomputable def loadedChart (loaded : List PlainUnit) : Chart :=
  (loaded.map fun unit => unitChart (fun _ => False) unit.file unit.tree).sum

/-- A program holds the loaded units: its tree has their chart, and no two are of one file. -/
structure Holds (program : Program) (loaded : List PlainUnit) : Prop where
  formed : program.tree.WellFormed
  traced : Traced program.tree.get?
  charted : ∃ label, Charted program.tree.get? label (loadedChart loaded)
  apart : loaded.Pairwise fun first second => Text.sameFolded first.file second.file = false

section Files

theorem mem_locations {tree : ScopeTree} {location : Location} :
    location ∈ tree.locations ↔
      ∃ id statement, tree.get? id = some statement ∧ location ∈ statement.locations := by
  simp only [locations, List.mem_flatMap, Array.mem_toList_iff]
  constructor
  · rintro ⟨slot, inside, member⟩
    cases slot with
    | none => simp at member
    | some statement =>
      obtain ⟨id, bound, found⟩ := Array.getElem_of_mem inside
      refine ⟨id, statement, ?_, member⟩
      simp [get?, bound, found]
  · rintro ⟨id, statement, found, member⟩
    have bound : id < tree.slots.size := lt_nextId_of_get? found
    refine ⟨some statement, ?_, member⟩
    simp only [get?, Array.getElem?_eq_getElem bound, Option.join_some] at found
    exact found ▸ Array.getElem_mem bound

theorem sortedNames_same {file : String} {names : List String} (nonempty : names ≠ [])
    (same : ∀ name ∈ names, name = file) : sortedNames names = [file] := by
  have again : insertName file [file] = [file] := by
    simp [insertName]
  have steps : ∀ rest : List String, (∀ name ∈ rest, name = file) →
      rest.foldl (fun sorted name => insertName name sorted) [file] = [file] := by
    intro rest
    induction rest with
    | nil => exact fun _ => rfl
    | cons name rest ih =>
      intro all
      rw [List.foldl_cons, all name List.mem_cons_self, again]
      exact ih fun other member => all other (List.mem_cons_of_mem _ member)
  cases names with
  | nil => exact absurd rfl nonempty
  | cons first rest =>
    rw [sortedNames, List.foldl_cons, same first List.mem_cons_self]
    exact steps rest fun other member => same other (List.mem_cons_of_mem _ member)

theorem files_of_fileTree {file : String} {unit : ScopeTree} (ofUnit : FileTree file unit) :
    unit.files = [file] := by
  apply sortedNames_same
  · obtain ⟨top, topAt, _⟩ := ofUnit.formed.top
    obtain ⟨location, member⟩ := List.exists_mem_of_ne_nil _ (ofUnit.ofFile topAt).located
    exact List.ne_nil_of_mem (List.mem_map_of_mem (mem_locations.mpr ⟨root, top, topAt, member⟩))
  · intro name member
    obtain ⟨location, inside, rfl⟩ := List.mem_map.mp member
    obtain ⟨id, statement, found, located⟩ := mem_locations.mp inside
    exact (ofUnit.ofFile found).locations location located

end Files

section Charts

variable {file : String}

theorem without_add (left right : Chart) :
    Chart.without (left + right) file = left.without file + right.without file := by
  funext route
  exact Multiset.filter_add _ _ _

theorem unitChart_without (unit : PlainUnit) :
    (unitChart (fun _ => False) unit.file unit.tree).without file =
      if Text.sameFolded unit.file file = true then 0
      else unitChart (fun _ => False) unit.file unit.tree := by
  have ofFile := unitChart_from (fun _ => False) unit.plain.fileTree
  funext route
  by_cases same : Text.sameFolded unit.file file = true
  · rw [if_pos same, Chart.without, Pi.zero_apply, Multiset.filter_eq_nil]
    intro mark member
    simp [ofFile route mark member, same]
  · rw [if_neg same, Chart.without, Multiset.filter_eq_self]
    intro mark member
    simpa [ofFile route mark member] using same

theorem loadedChart_without (loaded : List PlainUnit) :
    (loadedChart loaded).without file = loadedChart (unitsWithout file loaded) := by
  induction loaded with
  | nil =>
    funext route
    exact Multiset.filter_zero _
  | cons unit rest ih =>
    rw [loadedChart, List.map_cons, List.sum_cons, without_add, unitChart_without]
    rw [loadedChart] at ih
    rw [ih, unitsWithout, unitsWithout, List.filter_cons]
    by_cases same : Text.sameFolded unit.file file = true
    · simp [same]
    · simp [same, loadedChart]

end Charts

namespace Holds

variable {program : Program} {loaded : List PlainUnit}

theorem empty (language : Language) : Holds (.empty language) [] :=
  ⟨empty_wellFormed language, empty_traced language, ⟨_, empty_charted language⟩, .nil⟩

theorem apart_without (holds : Holds program loaded) (file : String) :
    (unitsWithout file loaded).Pairwise fun first second =>
      Text.sameFolded first.file second.file = false :=
  holds.apart.filter _

theorem without (holds : Holds program loaded) (file : String) :
    Holds (.ofTree (program.tree.removeFile file).1) (unitsWithout file loaded) := by
  obtain ⟨label, charted⟩ := holds.charted
  refine ⟨removeFile_wellFormed holds.formed holds.traced,
    removeFile_traced holds.formed holds.traced, ⟨label, ?_⟩, holds.apart_without file⟩
  change Charted (program.tree.removeFile file).1.get? _ _
  rw [get?_removeFile holds.formed holds.traced, ← loadedChart_without]
  exact remnant_charted holds.traced charted

theorem of_tree {other : Program} (holds : Holds program loaded) (same : other.tree = program.tree) :
    Holds other loaded :=
  ⟨same ▸ holds.formed, same ▸ holds.traced, same ▸ holds.charted, holds.apart⟩

theorem tree_removeFile (program : Program) (file : String) :
    (program.removeFile file).1.tree = (program.tree.removeFile file).1 := by
  unfold Program.removeFile
  split
  · rename_i same
    rw [same]
    rfl
  · rename_i same
    rw [same]

theorem tree_mergeUnit (program : Program) {file : String} {unit : ScopeTree}
    (ofUnit : FileTree file unit) :
    (program.mergeUnit unit).1.tree = (program.tree.removeFile file).1.merge unit := by
  rw [Program.mergeUnit, files_of_fileTree ofUnit]
  rfl

theorem merge (holds : Holds program loaded) (unit : PlainUnit) :
    Holds (program.perform (.merge unit)) (unitsWithout unit.file loaded ++ [unit]) := by
  have without := holds.without unit.file
  obtain ⟨label, charted⟩ := without.charted
  have ofUnit := unit.plain.fileTree
  have absent : ∀ {id statement}, (program.tree.removeFile unit.file).1.get? id = some statement →
      statement.hasLocationIn unit.file = false := by
    intro id statement found
    have cleared := (removesExactly_of_traced holds.formed holds.traced unit.file).cleared found
    simpa [Statement.hasLocationIn] using cleared.1
  have merged := tree_mergeUnit program ofUnit
  refine ⟨?_, ?_, ?_, ?_⟩
  · rw [Program.perform, merged]
    exact merge_wellFormed without.formed ofUnit.formed
  · rw [Program.perform, merged]
    exact merge_traced without.formed without.traced ofUnit
  · rw [Program.perform, merged, loadedChart, List.map_append, List.sum_append, List.map_singleton,
      List.sum_singleton]
    exact merge_charted without.formed without.traced charted unit.plain absent
  · rw [List.pairwise_append]
    refine ⟨holds.apart_without unit.file, List.pairwise_singleton _ _, ?_⟩
    intro first member second isUnit
    rw [List.mem_singleton] at isUnit
    rw [isUnit]
    simpa using (List.mem_filter.mp member).2

theorem perform (holds : Holds program loaded) (operation : Operation) :
    Holds (program.perform operation) (loadedAfter loaded operation) := by
  cases operation with
  | merge unit => exact holds.merge unit
  | remove file => exact (holds.without file).of_tree (tree_removeFile program file)
  | clear => exact (empty program.tree.language).of_tree rfl

theorem performAll (holds : Holds program loaded) (history : List Operation) :
    Holds (history.foldl Program.perform program) (history.foldl loadedAfter loaded) := by
  induction history generalizing program loaded with
  | nil => exact holds
  | cons operation rest ih => exact ih (holds.perform operation)

end Holds

theorem loadedAfter_merges {order : List PlainUnit} (apart : order.Pairwise fun first second =>
      Text.sameFolded first.file second.file = false) (earlier : List PlainUnit)
    (fresh : ∀ unit ∈ order, ∀ other ∈ earlier, Text.sameFolded other.file unit.file = false) :
    (order.map Operation.merge).foldl loadedAfter earlier = earlier ++ order := by
  induction order generalizing earlier with
  | nil => simp
  | cons unit rest ih =>
    obtain ⟨first, others⟩ := List.pairwise_cons.mp apart
    have kept : unitsWithout unit.file earlier = earlier := by
      rw [unitsWithout, List.filter_eq_self]
      intro other member
      simp [fresh unit List.mem_cons_self other member]
    rw [List.map_cons, List.foldl_cons, loadedAfter, kept, ih others]
    · simp
    · intro later laterMember other member
      rcases List.mem_append.mp member with old | new
      · exact fresh later (List.mem_cons_of_mem _ laterMember) other old
      · rw [List.mem_singleton] at new
        rw [new]
        exact first later laterMember

/-- The tree of a program has the shape of its loaded units, merged once each in any order. -/
theorem history_sameShape (language : Language) (history : List Operation)
    (order : List PlainUnit) (loaded : order.Perm (history.foldl loadedAfter [])) :
    SameShape (history.foldl Program.perform (.empty language)).tree
      ((order.map Operation.merge).foldl Program.perform (.empty language)).tree root root := by
  have past := (Holds.empty language).performAll history
  have anew := (Holds.empty language).performAll (order.map Operation.merge)
  have apart : order.Pairwise fun first second =>
      Text.sameFolded first.file second.file = false := by
    refine loaded.symm.pairwise past.apart ?_
    intro first second different
    rw [← Bool.not_eq_true] at different ⊢
    exact fun same => different (Text.sameFolded_symm same)
  rw [loadedAfter_merges apart [] (by simp), List.nil_append] at anew
  obtain ⟨pastLabel, pastCharted⟩ := past.charted
  obtain ⟨anewLabel, anewCharted⟩ := anew.charted
  have sameChart : loadedChart order = loadedChart (history.foldl loadedAfter []) :=
    (loaded.map _).sum_eq
  rw [sameChart] at anewCharted
  exact sameShape_of_charted past.formed past.traced pastCharted anew.formed anew.traced anewCharted

theorem classTree_plain (file : String) : Plain file (classTree file) := by
  have only {id : StatementId} {statement : Statement}
      (found : (classTree file).get? id = some statement) : statement.scope? = none ∨
        ∃ facet : Facet, facet.definition.isType = true ∧
          statement.scope? = some ⟨"A", none, [facet]⟩ := by
    have bound : id < 2 := lt_nextId_of_get? found
    obtain rfl | rfl := Nat.le_one_iff_eq_zero_or_eq_one.mp (Nat.lt_succ_iff.mp bound)
    · obtain rfl := Option.some.inj found
      exact .inl rfl
    · obtain rfl := Option.some.inj found
      exact .inr ⟨_, rfl, rfl⟩
  refine ⟨⟨.cPlusPlus, classUnit file, rfl, rfl⟩, ?_, ?_⟩
  · intro id statement scope facet method found scopeAt member isMethod
    rcases only found with unnamed | ⟨own, isType, named⟩
    · simp [unnamed] at scopeAt
    · rw [named, Option.some.injEq] at scopeAt
      rw [← scopeAt, List.mem_singleton] at member
      simp [← member, isMethod, Definition.isType] at isType
  · intro id statement found qualified
    rcases only found with unnamed | ⟨own, isType, named⟩
    · simp [Statement.qualifier?, unnamed] at qualified
    · simp [Statement.qualifier?, named] at qualified

def classPlainUnit (file : String) : PlainUnit := ⟨file, classTree file, classTree_plain file⟩

theorem history_sameShape_header_again :
    SameShape ([Operation.merge (classPlainUnit "a.h"), .merge (classPlainUnit "a.cpp"),
        .remove "A.H", .merge (classPlainUnit "a.h")].foldl Program.perform (.empty .cPlusPlus)).tree
      (([classPlainUnit "a.h", classPlainUnit "a.cpp"].map Operation.merge).foldl Program.perform
        (.empty .cPlusPlus)).tree root root := by
  apply history_sameShape
  have first : Text.sameFolded "a.h" "a.cpp" = false := (Text.sameFolded_toList _ _).trans rfl
  have second : Text.sameFolded "a.h" "A.H" = true := (Text.sameFolded_toList _ _).trans rfl
  have third : Text.sameFolded "a.cpp" "A.H" = false := (Text.sameFolded_toList _ _).trans rfl
  have fourth : Text.sameFolded "a.cpp" "a.h" = false := (Text.sameFolded_toList _ _).trans rfl
  have left : [Operation.merge (classPlainUnit "a.h"), .merge (classPlainUnit "a.cpp"),
      .remove "A.H", .merge (classPlainUnit "a.h")].foldl loadedAfter [] =
        [classPlainUnit "a.cpp", classPlainUnit "a.h"] := by
    simp [loadedAfter, unitsWithout, classPlainUnit, first, second, third, fourth]
  rw [left]
  exact .swap _ _ _

end ScopeAtlas
