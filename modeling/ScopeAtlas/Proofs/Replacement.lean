import ScopeAtlas.Proofs.MergeOrder
import ScopeAtlas.Proofs.Renumbering
import ScopeAtlas.Proofs.Reversal

/-!
A unit takes the place of the unit of its file that was merged before. Removing the file leads back
to the statements from before the first merge, but not to their numbers: those that the first unit
used up stay used. What the second unit finds is therefore a wide copy of what it would have found
without the first one, and to a merge that makes no difference.
-/

namespace ScopeAtlas

open Markup ScopeTree SourceUnit

section Numbers

/-! Removal empties slots and takes none away; a merge adds some. -/

theorem nextId_vacateBelow (depth : Nat) : ∀ (tree : ScopeTree) (id : StatementId),
    (vacateBelow depth tree id).nextId = tree.nextId := by
  induction depth with
  | zero => exact fun _ _ => rfl
  | succ depth ih =>
    intro tree id
    cases found : tree.get? id with
    | none => simp [vacateBelow, found]
    | some statement =>
      simp only [vacateBelow, found]
      refine List.foldlRecOn (motive := fun current => current.nextId = tree.nextId)
        statement.children (vacateBelow depth) (nextId_vacate tree id) ?_
      intro current same child _
      rw [ih, same]

theorem nextId_removeSubtree (tree : ScopeTree) (id : StatementId) :
    (tree.removeSubtree id).nextId = tree.nextId := by
  unfold removeSubtree
  by_cases isRoot : id = root
  · rw [if_pos isRoot]
  · rw [if_neg isRoot, nextId_vacateBelow, detach]
    cases tree.parent? id with
    | none => simp
    | some parent => simp

theorem nextId_removeFile (tree : ScopeTree) (file : String) :
    (tree.removeFile file).1.nextId = tree.nextId := by
  refine stripBelow_induction (fun before after => after.nextId = before.nextId)
    (fun _ => rfl) (fun _ _ _ first second => second.trans first) ?_ ?_ _ tree root
  · exact fun before id => nextId_modify before id _
  · exact nextId_removeSubtree

theorem nextId_le_merge {tree unit : ScopeTree} (formed : tree.WellFormed)
    (unitFormed : unit.WellFormed) : tree.nextId ≤ (tree.merge unit).nextId := by
  obtain ⟨top, topAt, _⟩ := unitFormed.top
  exact ((merge_run formed unitFormed topAt).beyond (firstStage_beyond tree unit top)).next

end Numbers

section Names

/-! File names that differ in case only name one file. -/

variable {left right : String}

theorem inFile_congr (same : Text.sameFolded left right = true) (location : Location) :
    location.inFile left = location.inFile right := by
  rw [Location.inFile, Location.inFile, Bool.eq_iff_iff]
  exact ⟨fun first => Text.sameFolded_trans first same,
    fun second => Text.sameFolded_trans second (Text.sameFolded_symm same)⟩

theorem stripStatement_congr (same : Text.sameFolded left right = true) :
    stripStatement left = stripStatement right := by
  have facets (file : String) : Text.sameFolded file left = Text.sameFolded file right :=
    inFile_congr same (Location.point file 0 0)
  funext statement
  simp only [stripStatement, NamedScope.withoutFile, inFile_congr same, facets]

theorem remnant_congr (same : Text.sameFolded left right = true) (tree : ScopeTree) :
    tree.remnant left = tree.remnant right := by
  have survivors : tree.survives left = tree.survives right := by
    funext id
    simp only [survives, inFile_congr same]
  have leftovers : tree.leftover left = tree.leftover right := by
    funext statement
    simp only [leftover, survivors, stripStatement_congr same]
  funext id
  simp only [remnant, survivors, leftovers]

end Names

section Again

variable {program : Program} {first second : ScopeTree} {firstFile secondFile : String}

/-- Before the second unit is merged, the statements are those that were there before the first
one, without what the file contributed earlier. -/
theorem get?_removeFile_mergeUnit (formed : program.tree.WellFormed)
    (traced : Traced program.tree.get?) (ofFirst : FileTree firstFile first)
    (same : Text.sameFolded firstFile secondFile = true) :
    ((program.mergeUnit first).1.tree.removeFile secondFile).1.get? =
      (program.tree.removeFile secondFile).1.get? := by
  have baseFormed : (program.tree.removeFile firstFile).1.WellFormed :=
    removeFile_wellFormed formed traced
  have baseTraced : Traced (program.tree.removeFile firstFile).1.get? :=
    removeFile_traced formed traced
  have absent : ∀ {id statement}, (program.tree.removeFile firstFile).1.get? id = some statement →
      statement.hasLocationIn firstFile = false := by
    intro id statement found
    have cleared := (removesExactly_of_traced formed traced firstFile).cleared found
    simpa [Statement.hasLocationIn] using cleared.1
  rw [Holds.tree_mergeUnit program ofFirst,
    get?_removeFile (merge_wellFormed baseFormed ofFirst.formed)
      (merge_traced baseFormed baseTraced ofFirst),
    ← remnant_congr same,
    remnant_of_accrued baseFormed baseTraced (merge_accrued baseFormed baseTraced ofFirst) absent,
    get?_removeFile formed traced, get?_removeFile formed traced, remnant_congr same]

theorem mergeUnit_again (formed : program.tree.WellFormed) (traced : Traced program.tree.get?)
    (ofFirst : FileTree firstFile first) (ofSecond : FileTree secondFile second)
    (same : Text.sameFolded firstFile secondFile = true) :
    ((program.mergeUnit first).1.mergeUnit second).1.tree.equivalent
      (program.mergeUnit second).1.tree = true := by
  have baseFormed : (program.tree.removeFile secondFile).1.WellFormed :=
    removeFile_wellFormed formed traced
  have firstFormed : (program.tree.removeFile firstFile).1.WellFormed :=
    removeFile_wellFormed formed traced
  have wider : (program.tree.removeFile secondFile).1.nextId ≤
      ((program.mergeUnit first).1.tree.removeFile secondFile).1.nextId := by
    have grown := nextId_le_merge firstFormed ofFirst.formed
    rw [nextId_removeFile] at grown
    rwa [nextId_removeFile, nextId_removeFile, Holds.tree_mergeUnit program ofFirst]
  obtain ⟨width, next⟩ := Nat.exists_eq_add_of_le wider
  rw [Holds.tree_mergeUnit _ ofSecond, Holds.tree_mergeUnit _ ofSecond]
  exact (merge_renumbered baseFormed (get?_removeFile_mergeUnit formed traced ofFirst same) next
    ofSecond.formed).equivalent (merge_wellFormed baseFormed ofSecond.formed)

end Again

inductive Program.Reachable (language : Language) : Program → Prop
  | start : Reachable language (.empty language)
  | merge {program : Program} {unit : ScopeTree} {unitLanguage : Language} {element : Element} :
      Reachable language program → readAs unitLanguage element = .ok unit →
      Reachable language (program.mergeUnit unit).1
  | remove {program : Program} (file : String) : Reachable language program →
      Reachable language (program.removeFile file).1

theorem Program.Reachable.assembled {language : Language} {program : Program}
    (reachable : Reachable language program) : Assembled language program.tree := by
  induction reachable with
  | start => exact .start
  | merge _ parsed ih =>
    obtain ⟨file, _, ofUnit⟩ := readAs_fileTree parsed
    rw [Holds.tree_mergeUnit _ ofUnit]
    exact .merge (.remove file ih) parsed
  | remove file _ ih =>
    rw [Holds.tree_removeFile]
    exact .remove file ih

/-- An update replaces: whatever a unit of the same file was merged before, the tree is the one that
the last unit alone gives. In particular merging a unit twice is merging it once. -/
theorem mergeUnit_replaces {language firstLanguage secondLanguage : Language} {program : Program}
    {first second : ScopeTree} {firstElement secondElement : Element}
    {firstFile secondFile : String} (reachable : program.Reachable language)
    (firstParsed : readAs firstLanguage firstElement = .ok first)
    (firstNamed : firstElement.filename? = some firstFile)
    (secondParsed : readAs secondLanguage secondElement = .ok second)
    (secondNamed : secondElement.filename? = some secondFile)
    (same : Text.sameFolded firstFile secondFile = true) :
    ((program.mergeUnit first).1.mergeUnit second).1.tree.equivalent
        (program.mergeUnit second).1.tree = true ∧
      ((program.mergeUnit first).1.mergeUnit first).1.tree.equivalent
        (program.mergeUnit first).1.tree = true := by
  obtain ⟨formed, traced⟩ := reachable.assembled.sound
  obtain ⟨file, named, ofFirst⟩ := readAs_fileTree firstParsed
  obtain rfl : file = firstFile := Option.some.inj (named.symm.trans firstNamed)
  obtain ⟨other, otherNamed, ofSecond⟩ := readAs_fileTree secondParsed
  obtain rfl : other = secondFile := Option.some.inj (otherNamed.symm.trans secondNamed)
  exact ⟨mergeUnit_again formed traced ofFirst ofSecond same,
    mergeUnit_again formed traced ofFirst ofFirst (Text.sameFolded_refl file)⟩

theorem mergeUnit_replaces_member_by_class :
    let program := ((Program.empty .cPlusPlus).mergeUnit (classTree "a.h")).1
    let first := treeOf (innerMemberUnit "a.cpp")
    let second := classTree "A.cpp"
    ((program.mergeUnit first).1.mergeUnit second).1.tree.equivalent
        (program.mergeUnit second).1.tree = true ∧
      ((program.mergeUnit first).1.mergeUnit first).1.tree.equivalent
        (program.mergeUnit first).1.tree = true := by
  intro program first second
  have reachable : program.Reachable .cPlusPlus := .merge .start (readAs_classUnit "a.h")
  have firstParsed : readAs .cPlusPlus (innerMemberUnit "a.cpp") = .ok first := rfl
  have secondParsed : readAs .cPlusPlus (classUnit "A.cpp") = .ok second := readAs_classUnit "A.cpp"
  have firstNamed : (innerMemberUnit "a.cpp").filename? = some "a.cpp" := rfl
  have secondNamed : (classUnit "A.cpp").filename? = some "A.cpp" := rfl
  have same : Text.sameFolded "a.cpp" "A.cpp" = true := (Text.sameFolded_toList _ _).trans rfl
  exact mergeUnit_replaces reachable firstParsed firstNamed secondParsed secondNamed same

end ScopeAtlas
