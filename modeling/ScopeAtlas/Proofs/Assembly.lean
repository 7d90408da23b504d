import ScopeAtlas.Proofs.FileRemoval
import ScopeAtlas.Proofs.UnitOrigin

/-!
Trees as they come about: from a lone global namespace, the trees of units are merged and files
are removed, in any order. Every such tree is well formed and traced, and removing a file from it
removes exactly what the file contributed.
-/

namespace ScopeAtlas

open Markup ScopeTree SourceUnit

/-- Reached from a lone global namespace by merging the trees of units and removing files. -/
inductive Assembled (language : Language) : ScopeTree → Prop
  | start : Assembled language (.empty language)
  | merge {tree unit : ScopeTree} {unitLanguage : Language} {element : Element} :
      Assembled language tree → readAs unitLanguage element = .ok unit →
      Assembled language (tree.merge unit)
  | remove {tree : ScopeTree} (file : String) : Assembled language tree →
      Assembled language (tree.removeFile file).1

theorem Assembled.sound {language : Language} {tree : ScopeTree}
    (assembled : Assembled language tree) : tree.WellFormed ∧ Traced tree.get? := by
  induction assembled with
  | start => exact ⟨empty_wellFormed language, empty_traced language⟩
  | merge _ parsed ih =>
    obtain ⟨formed, traced⟩ := ih
    obtain ⟨file, _, ofUnit⟩ := readAs_fileTree parsed
    exact ⟨merge_wellFormed formed ofUnit.formed, merge_traced formed traced ofUnit⟩
  | remove file _ ih =>
    obtain ⟨formed, traced⟩ := ih
    exact ⟨removeFile_wellFormed formed traced, removeFile_traced formed traced⟩

/-- The second tree is the first one without what a file contributed, and the flag tells whether
the file contributed anything. -/
structure RemovesExactly (file : String) (before after : ScopeTree) (changed : Bool) : Prop where
  changed : changed = true ↔ ∃ id statement, before.get? id = some statement ∧
    ∃ location ∈ statement.locations, location.inFile file = true
  live : ∀ id, (∃ now, after.get? id = some now) ↔ id = root ∨
    ∃ statement, before.get? id = some statement ∧
      ∃ location ∈ statement.locations, location.inFile file = false
  survivor : ∀ {id now}, after.get? id = some now → ∃ statement,
    before.get? id = some statement ∧ now.parent = statement.parent ∧
      now.name? = statement.name? ∧ now.language = statement.language ∧
      now.locations = statement.locations.filter (fun location => !location.inFile file) ∧
      now.content = statement.content.filter
        (fun expression => !expression.location.inFile file) ∧
      now.kind = statement.kind.mapScope (fun scope =>
        { scope with facets := scope.facets.filter fun facet =>
          !Text.sameFolded facet.file file }) ∧
      now.children = statement.children.filter after.isLive
  kept : ∀ {id statement}, before.get? id = some statement →
    (∀ location ∈ statement.locations, location.inFile file = false →
      ∃ now, after.get? id = some now ∧ location ∈ now.locations) ∧
    (∀ expression ∈ statement.content, expression.location.inFile file = false →
      ∃ now, after.get? id = some now ∧ expression ∈ now.content) ∧
    ∀ scope, statement.scope? = some scope → ∀ facet ∈ scope.facets,
      Text.sameFolded facet.file file = false →
      ∃ now left, after.get? id = some now ∧ now.scope? = some left ∧ facet ∈ left.facets
  cleared : ∀ {id now}, after.get? id = some now →
    (∀ location ∈ now.locations, location.inFile file = false) ∧
    (∀ expression ∈ now.content, expression.location.inFile file = false) ∧
    ∀ scope, now.scope? = some scope → ∀ facet ∈ scope.facets,
      Text.sameFolded facet.file file = false

section Removal

variable {tree : ScopeTree} {file : String}

theorem survives_of_seen {id : StatementId} {statement : Statement}
    (found : tree.get? id = some statement) {other : String}
    (seen : statement.hasLocationIn other = true) (apart : Text.sameFolded other file = false) :
    tree.survives file id = true := by
  obtain ⟨location, member, inOther⟩ := Statement.hasLocationIn_iff.mp seen
  rw [survives_of_get? found, Bool.or_eq_true, List.any_eq_true]
  refine .inr ⟨location, member, ?_⟩
  rw [Location.inFile, Text.sameFolded_congr_left inOther, apart]
  rfl

theorem name?_leftover (statement : Statement) :
    (tree.leftover file statement).name? = statement.name? := by
  simp only [leftover, stripStatement, Statement.name?, Statement.scope?]
  cases statement.kind <;> rfl

theorem scope?_leftover {statement : Statement} {scope : NamedScope}
    (found : statement.scope? = some scope) :
    (tree.leftover file statement).scope? = some (scope.withoutFile file) := by
  simp only [leftover, stripStatement, Statement.scope?] at found ⊢
  cases kind : statement.kind <;> simp only [kind, StatementKind.scope?, reduceCtorEq,
    Option.some.injEq] at found
  rw [← found]
  rfl

theorem removesExactly_of_traced (formed : tree.WellFormed) (traced : Traced tree.get?)
    (file : String) :
    RemovesExactly file tree (tree.removeFile file).1 (tree.removeFile file).2 := by
  have after := get?_removeFile formed traced file
  have alive (id : StatementId) : (tree.removeFile file).1.isLive id = tree.survives file id := by
    rw [isLive, after, remnant]
    cases found : tree.get? id with
    | none => simp [survives, found]
    | some statement =>
      cases tree.survives file id with
      | false => rfl
      | true => rfl
  have stays {id : StatementId} {statement : Statement} (found : tree.get? id = some statement)
      {other : String} (seen : statement.hasLocationIn other = true)
      (apart : Text.sameFolded other file = false) :
      (tree.removeFile file).1.get? id = some (tree.leftover file statement) := by
    rw [after]
    exact remnant_of_survives found (survives_of_seen found seen apart)
  refine ⟨?_, ?_, ?_, ?_, ?_⟩
  · rw [removeFile_changed formed traced]
    simp only [Statement.hasLocationIn, List.any_eq_true]
  · intro id
    rw [after]
    constructor
    · rintro ⟨now, found⟩
      obtain ⟨survivor, statement, statementAt, _⟩ := remnant_eq_some.mp found
      rw [survives_of_get? statementAt, Bool.or_eq_true, beq_iff_eq, List.any_eq_true] at survivor
      rcases survivor with isRoot | ⟨location, member, outside⟩
      · exact .inl isRoot
      · exact .inr ⟨statement, statementAt, location, member, by simpa using outside⟩
    · rintro (rfl | ⟨statement, found, location, member, outside⟩)
      · obtain ⟨top, topAt, _⟩ := formed.top
        exact ⟨_, remnant_of_survives topAt (survives_root formed)⟩
      · exact ⟨_, remnant_of_survives found
          (survives_of_seen found (Statement.hasLocationIn_of_mem member) outside)⟩
  · intro id now found
    rw [after] at found
    obtain ⟨_, statement, statementAt, rfl⟩ := remnant_eq_some.mp found
    refine ⟨statement, statementAt, rfl, name?_leftover statement, rfl, rfl, rfl, rfl, ?_⟩
    exact List.filter_congr fun child _ => (alive child).symm
  · intro id statement found
    refine ⟨?_, ?_, ?_⟩
    · intro location member outside
      exact ⟨_, stays found (Statement.hasLocationIn_of_mem member) outside,
        List.mem_filter.mpr ⟨member, by simp [outside]⟩⟩
    · intro expression member outside
      exact ⟨_, stays found (traced.content found expression member) outside,
        List.mem_filter.mpr ⟨member, by simp [outside]⟩⟩
    · intro scope scopeAt facet member outside
      exact ⟨_, _, stays found (traced.facets found scopeAt facet member) outside,
        scope?_leftover scopeAt, List.mem_filter.mpr ⟨member, by simp [outside]⟩⟩
  · intro id now found
    rw [after] at found
    obtain ⟨_, statement, statementAt, rfl⟩ := remnant_eq_some.mp found
    refine ⟨?_, ?_, ?_⟩
    · intro location member
      simpa using (List.mem_filter.mp member).2
    · intro expression member
      simpa using (List.mem_filter.mp member).2
    · intro scope scopeAt facet member
      obtain ⟨own, _, rfl⟩ := scope?_stripStatement scopeAt
      simpa using (List.mem_filter.mp member).2

end Removal

/-- Removing a file removes exactly what the file contributed. -/
theorem removeFile_removesExactly {language : Language} {tree : ScopeTree}
    (assembled : Assembled language tree) (file : String) :
    RemovesExactly file tree (tree.removeFile file).1 (tree.removeFile file).2 :=
  removesExactly_of_traced assembled.sound.1 assembled.sound.2 file

def classUnit (file : String) : Element :=
  ⟨.make "unit" [("filename", file)] "/unit",
    [.element (.make "class" [] "/unit/class[1]")
      [.element (.make "name" [] "/unit/class[1]/name[1]") [.text "A"]]]⟩

def classTree (file : String) : ScopeTree :=
  Outline.tree .cPlusPlus
    { Location.span file ⟨1, 1⟩ .unbounded with locator := some "/unit" }
    [scopeOutline "A" none (.typeScope ⟨.classType, [], false⟩) .unstated
      { Location.span file ⟨1, 1⟩ .unbounded with locator := some "/unit/class[1]" } [] []]

theorem readAs_classUnit (file : String) :
    readAs .cPlusPlus (classUnit file) = .ok (classTree file) :=
  rfl

theorem removeFile_removesExactly_two_files :
    RemovesExactly "A.H" (((empty .cPlusPlus).merge (classTree "a.h")).merge (classTree "a.cpp"))
      ((((empty .cPlusPlus).merge (classTree "a.h")).merge (classTree "a.cpp")).removeFile "A.H").1
      ((((empty .cPlusPlus).merge (classTree "a.h")).merge (classTree "a.cpp")).removeFile "A.H").2 :=
  removeFile_removesExactly
    (.merge (.merge .start (readAs_classUnit "a.h")) (readAs_classUnit "a.cpp")) "A.H"

end ScopeAtlas
