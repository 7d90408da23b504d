import ScopeAtlas.Proofs.Assembly
import ScopeAtlas.ScopeTree.Equality

/-!
Removing a file takes back the merge of its tree. During a merge every statement that was there
keeps what it had and gains only entries of the file and children with new numbers, and every new
statement was seen in the file alone. So removing the file leads back to the tree before.
-/

namespace ScopeAtlas

open Markup ScopeTree SourceUnit

/-- A view that has grown out of a tree by what one file contributes. -/
structure Accrued (tree : ScopeTree) (file : String) (view : View) : Prop where
  kept : ∀ {id statement}, tree.get? id = some statement → ∃ after extra, view id = some after ∧
    after.children = statement.children ++ extra ∧ (∀ child ∈ extra, tree.nextId ≤ child) ∧
    stripStatement file after = { stripStatement file statement with children := after.children }
  added : ∀ {id after}, view id = some after → tree.get? id = none →
    ∀ location ∈ after.locations, location.file = file

structure Beyond (bound : Nat) (stage : Stage) : Prop where
  waiting : ∀ id ∈ stage.waiting, bound ≤ id
  next : bound ≤ stage.tree.nextId

section Steps

variable {file : String} {stage next : Stage}

theorem Step.settled_cases (step : Step stage next) (layout : Layout stage)
    (tracing : Tracing file stage) :
    next.tree.settled next.waiting = stage.tree.settled stage.waiting ∨
    (∃ target change, next.tree.settled next.waiting =
        (stage.tree.settled stage.waiting).enrich target change ∧
      ∀ statement, Gains file statement (change statement)) ∨
    ∃ id parent leaf, next.tree.settled next.waiting =
        (stage.tree.settled stage.waiting).grow id parent leaf ∧
      OfFile file leaf ∧ stage.tree.settled stage.waiting id = none ∧
      (id ∈ stage.waiting ∨ id = stage.tree.nextId) := by
  have effect := step.effect layout
  generalize next.tree.settled next.waiting = view at *
  cases effect with
  | none => exact .inl rfl
  | @marked scope segment path child existing brought =>
    have segmentFile := (tracing.paths _ brought segment List.mem_cons_self).1
    exact .inr (.inl ⟨existing, markWith segment, rfl, gains_markWith segmentFile⟩)
  | @sprouted scope segment path child language brought =>
    have segmentFile := (tracing.paths _ brought segment List.mem_cons_self).1
    have vacant : stage.tree.settled stage.waiting stage.tree.nextId = none := by
      simp [settled, get?_eq_none_of_nextId_le]
    exact .inr (.inr ⟨_, scope, _, rfl, ofFile_placeholder segmentFile language, vacant, .inr rfl⟩)
  | @absorbed scope child existing statement waits partner found =>
    have ofFile := tracing.waiting child waits statement found
    exact .inr (.inl ⟨existing, fun own => absorbStatement own statement, rfl,
      fun _ => gains_absorb ofFile fun _ => isSome_scope?_of_partner partner found⟩)
  | @hung scope child statement waits found =>
    have vacant : stage.tree.settled stage.waiting child = none := by simp [settled, waits]
    exact .inr (.inr ⟨child, scope, statement, rfl, tracing.waiting child waits statement found,
      vacant, .inl waits⟩)

theorem Step.beyond {bound : Nat} (step : Step stage next) (outside : Beyond bound stage) :
    Beyond bound next := by
  cases step with
  | reorder _ => exact ⟨outside.waiting, outside.next⟩
  | free _ => exact ⟨outside.waiting, by simpa [dropQualifier] using outside.next⟩
  | mark _ => exact ⟨outside.waiting, by simpa using outside.next⟩
  | sprout language _ =>
    refine ⟨outside.waiting, Nat.le_trans outside.next ?_⟩
    simp [add, attach]
  | fold _ _ _ =>
    exact ⟨fun id member => outside.waiting id (List.mem_of_mem_erase member),
      by simpa using outside.next⟩
  | hang _ _ _ =>
    exact ⟨fun id member => outside.waiting id (List.mem_of_mem_erase member),
      by simpa [attach] using outside.next⟩

theorem Run.beyond {bound : Nat} {last : Stage} (run : Run stage last)
    (outside : Beyond bound stage) : Beyond bound last := by
  induction run with
  | refl => exact outside
  | tail _ step ih => exact step.beyond ih

theorem firstStage_beyond (tree unit : ScopeTree) (top : Statement) :
    Beyond tree.nextId (firstStage tree unit top) := by
  constructor
  · intro id member
    obtain ⟨inner, _, rfl, _⟩ := mem_firstStage_waiting.mp member
    exact Nat.le_add_left _ _
  · simp [firstStage]

end Steps

section Accrual

variable {tree : ScopeTree} {file : String} {view : View}

theorem Accrued.enrich (accrued : Accrued tree file view) {target : StatementId}
    {change : Statement → Statement}
    (gains : ∀ before, view target = some before → Gains file before (change before)) :
    Accrued tree file (view.enrich target change) := by
  constructor
  · intro id statement found
    obtain ⟨after, extra, afterAt, children, new, stripped⟩ := accrued.kept found
    by_cases same : id = target
    · subst same
      have gained := gains after afterAt
      refine ⟨change after, extra, View.enrich_self afterAt, ?_, new, ?_⟩
      · rw [gained.children, children]
      · rw [gained.stripStatement_eq, stripped, gained.children]
    · exact ⟨after, extra, (View.enrich_other same).trans afterAt, children, new, stripped⟩
  · intro id after found vacant location member
    obtain ⟨before, beforeAt, ⟨rfl, rfl⟩ | ⟨_, rfl⟩⟩ := View.enrich_eq_some found
    · obtain ⟨extra, same, _, allOf⟩ := (gains before beforeAt).locations
      rw [same] at member
      rcases List.mem_append.mp member with old | gained
      · exact accrued.added beforeAt vacant location old
      · exact allOf location gained
    · exact accrued.added beforeAt vacant location member

theorem Accrued.grow (accrued : Accrued tree file view) {id parent : StatementId}
    {leaf : Statement} (ofFile : OfFile file leaf) (vacant : view id = none)
    (new : tree.nextId ≤ id) : Accrued tree file (view.grow id parent leaf) := by
  constructor
  · intro other statement found
    obtain ⟨after, extra, afterAt, children, newExtra, stripped⟩ := accrued.kept found
    have notLeaf : other ≠ id := by
      rintro rfl
      simp [vacant] at afterAt
    by_cases isParent : other = parent
    · subst isParent
      refine ⟨_, extra ++ [id], View.grow_parent afterAt notLeaf, ?_, ?_, ?_⟩
      · simp [children]
      · intro child member
        rcases List.mem_append.mp member with old | last
        · exact newExtra child old
        · rw [List.mem_singleton] at last
          rwa [last]
      · simp only [stripStatement, Statement.mk.injEq] at stripped ⊢
        simp [stripped]
    · exact ⟨after, extra, (View.grow_other notLeaf isParent).trans afterAt, children, newExtra,
        stripped⟩
  · intro other after found absent location member
    rcases View.grow_eq_some found with ⟨_, rfl⟩ | ⟨_, before, beforeAt, ⟨_, rfl⟩ | ⟨_, rfl⟩⟩
    · exact ofFile.locations location member
    · exact accrued.added beforeAt absent location member
    · exact accrued.added beforeAt absent location member

theorem Run.accrued {stage last : Stage} (run : Run stage last) (layout : Layout stage)
    (tracing : Tracing file stage) (beyond : Beyond tree.nextId stage)
    (accrued : Accrued tree file (stage.tree.settled stage.waiting)) :
    Accrued tree file (last.tree.settled last.waiting) := by
  induction run with
  | refl => exact accrued
  | tail run step ih =>
    have outside := Run.beyond run beyond
    rcases step.settled_cases (Run.layout run layout) (Run.tracing run layout tracing) with
      same | ⟨target, change, same, gains⟩ | ⟨id, parent, leaf, same, ofFile, vacant, new⟩
    · rwa [same]
    · rw [same]
      exact ih.enrich fun statement _ => gains statement
    · rw [same]
      refine ih.grow ofFile vacant ?_
      rcases new with waits | isNext
      · exact outside.waiting id waits
      · exact isNext ▸ outside.next

theorem merge_accrued {unit : ScopeTree} (formed : tree.WellFormed) (traced : Traced tree.get?)
    (ofUnit : FileTree file unit) : Accrued tree file (tree.merge unit).get? := by
  obtain ⟨top, topAt, _⟩ := ofUnit.formed.top
  have start : Accrued tree file tree.get? := by
    constructor
    · intro id statement found
      exact ⟨statement, [], found, by simp, by simp, rfl⟩
    · intro id after found vacant
      simp [vacant] at found
  have accrued := (merge_run formed ofUnit.formed topAt).accrued
    (firstStage_layout formed ofUnit.formed topAt)
    (firstStage_tracing formed traced ofUnit topAt) (firstStage_beyond tree unit top) (by
      rw [firstStage_settled formed top]
      exact start.enrich (gains_firstStage traced ofUnit topAt))
  rwa [settled_nil] at accrued

theorem remnant_of_accrued {merged : ScopeTree} (formed : tree.WellFormed)
    (traced : Traced tree.get?) (accrued : Accrued tree file merged.get?)
    (absent : ∀ {id statement}, tree.get? id = some statement →
      statement.hasLocationIn file = false) : merged.remnant file = tree.get? := by
  have alive {id : StatementId} {statement : Statement} (found : tree.get? id = some statement) :
      merged.survives file id = true := by
    obtain ⟨after, _, afterAt, _, _, stripped⟩ := accrued.kept found
    by_cases isRoot : id = root
    · rw [survives_of_get? afterAt, isRoot]
      rfl
    · rw [survives_eq_of_ne_root afterAt isRoot, stripped,
        traced.stripStatement_eq found (absent found)]
      simpa using traced.located found isRoot
  have gone {id : StatementId} (vacant : tree.get? id = none) : merged.survives file id = false := by
    cases afterAt : merged.get? id with
    | none => simp [survives, afterAt]
    | some after =>
      have notRoot : id ≠ root := by
        rintro rfl
        obtain ⟨top, topAt, _⟩ := formed.top
        simp [vacant] at topAt
      rw [survives_eq_of_ne_root afterAt notRoot]
      simp only [stripStatement, Bool.not_eq_false', List.isEmpty_iff, List.filter_eq_nil_iff]
      intro location member
      simp [Location.inFile, accrued.added afterAt vacant location member]
  funext id
  cases found : tree.get? id with
  | none => exact remnant_of_not_survives (gone found)
  | some statement =>
    obtain ⟨after, extra, afterAt, children, new, stripped⟩ := accrued.kept found
    rw [remnant_of_survives afterAt (alive found), leftover, stripped,
      traced.stripStatement_eq found (absent found), children, List.filter_append]
    have own : statement.children.filter (merged.survives file) = statement.children := by
      rw [List.filter_eq_self]
      intro child member
      obtain ⟨below, belowAt, _⟩ := formed.linked found member
      exact alive belowAt
    have others : extra.filter (merged.survives file) = [] := by
      rw [List.filter_eq_nil_iff]
      intro child member
      simp [gone (get?_eq_none_of_nextId_le (new child member))]
    rw [own, others, List.append_nil]

end Accrual

theorem equivalent_of_get? {left right : ScopeTree} (formed : left.WellFormed)
    (same : right.get? = left.get?) : left.equivalent right = true := by
  have levels : ∀ (depth : Nat) (id : StatementId) (statement : Statement),
      left.get? id = some statement → left.nextId ≤ depth + View.depth left.get? id →
      equalBelow left right depth id id = true := by
    intro depth
    induction depth with
    | zero =>
      intro id statement found enough
      rw [Nat.zero_add] at enough
      exact absurd (formed.depth_lt found) (Nat.not_lt.mpr enough)
    | succ depth ih =>
      intro id statement found enough
      simp only [equalBelow, same, found, sameStatement, beq_self_eq_true, Bool.and_self,
        Bool.true_and, List.all_eq_true]
      rintro pair member
      rw [List.zip, List.zipWith_self] at member
      obtain ⟨child, childMember, rfl⟩ := List.mem_map.mp member
      obtain ⟨below, belowAt, _⟩ := formed.linked found childMember
      apply ih child below belowAt
      rwa [formed.depth_child found childMember, Nat.add_comm _ 1, ← Nat.add_assoc]
  obtain ⟨top, topAt, _⟩ := formed.top
  exact levels _ root top topAt (Nat.le_trans (Nat.le_succ _) (Nat.le_add_right _ _))

/-- Removing a file after merging its tree leads back to the tree before. -/
theorem removeFile_merge {language unitLanguage : Language} {tree unit : ScopeTree}
    {element : Element} {file : String} (assembled : Assembled language tree)
    (parsed : readAs unitLanguage element = .ok unit) (named : element.filename? = some file)
    (absent : ∀ id statement, tree.get? id = some statement →
      ∀ location ∈ statement.locations, location.inFile file = false) :
    ((tree.merge unit).removeFile file).1.equivalent tree = true ∧
      ∀ id statement, tree.get? id = some statement →
        ((tree.merge unit).removeFile file).1.get? id = some statement := by
  obtain ⟨formed, traced⟩ := assembled.sound
  obtain ⟨file', named', ofUnit⟩ := readAs_fileTree parsed
  obtain rfl : file' = file := Option.some.inj (named'.symm.trans named)
  have mergedFormed := merge_wellFormed formed ofUnit.formed
  have mergedTraced := merge_traced formed traced ofUnit
  have restored : ((tree.merge unit).removeFile file').1.get? = tree.get? := by
    rw [get?_removeFile mergedFormed mergedTraced]
    refine remnant_of_accrued formed traced (merge_accrued formed traced ofUnit) ?_
    intro id statement found
    simpa [Statement.hasLocationIn] using absent id statement found
  refine ⟨?_, fun id statement found => by rw [restored, found]⟩
  exact equivalent_of_get? (removeFile_wellFormed mergedFormed mergedTraced) restored.symm

theorem removeFile_merge_two_files :
    ((((empty .cPlusPlus).merge (classTree "a.h")).merge (classTree "a.cpp")).removeFile
        "a.cpp").1.equivalent ((empty .cPlusPlus).merge (classTree "a.h")) = true ∧
      ∀ id statement, ((empty .cPlusPlus).merge (classTree "a.h")).get? id = some statement →
        ((((empty .cPlusPlus).merge (classTree "a.h")).merge (classTree "a.cpp")).removeFile
          "a.cpp").1.get? id = some statement := by
  have assembled : Assembled .cPlusPlus ((empty .cPlusPlus).merge (classTree "a.h")) :=
    .merge .start (readAs_classUnit "a.h")
  have unchanged : (((empty .cPlusPlus).merge (classTree "a.h")).removeFile "a.cpp").2 = false := by
    decide +kernel
  refine removeFile_merge assembled (readAs_classUnit "a.cpp") rfl ?_
  intro id statement found location member
  by_contra seen
  have changed := (removeFile_changed assembled.sound.1 assembled.sound.2).mpr
    ⟨id, statement, found, Statement.hasLocationIn_iff.mpr
      ⟨location, member, by simpa [Location.inFile] using seen⟩⟩
  simp [unchanged] at changed

end ScopeAtlas
