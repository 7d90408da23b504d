import Mathlib.Algebra.BigOperators.Group.Finset.Basic
import ScopeAtlas.Proofs.OneTree
import ScopeAtlas.Proofs.Plotting

/-!
A merge loses nothing and makes up nothing. At every stage the entries of all live statements,
those that the segments of the errands will leave and those that the pending qualifiers of what
waits will leave add up to the same multiset: the ledger. At the end nothing waits, and the ledger
is what the merged tree holds.
-/

namespace ScopeAtlas

namespace ScopeTree

def gathered {α : Type} (tree : ScopeTree) (part : Statement → List α) : List α :=
  tree.slots.toList.flatMap fun slot => (slot.map part).getD []

theorem locations_eq_gathered (tree : ScopeTree) :
    tree.locations = tree.gathered Statement.locations := rfl

def pendingAt (tree : ScopeTree) (id : StatementId) : List Segment :=
  ((tree.get? id).map Statement.pendingPath).getD []

section Gathered

variable {α : Type} {tree other : ScopeTree} {part : Statement → List α}

theorem gathered_eq_flatMap : tree.gathered part =
    (List.range tree.nextId).flatMap fun id => ((tree.get? id).map part).getD [] := by
  rw [gathered, slots_toList, List.flatMap_map]

theorem coe_flatMap_range (parts : Nat → List α) (count : Nat) :
    (((List.range count).flatMap parts : List α) : Multiset α) =
      ∑ index ∈ Finset.range count, (parts index : Multiset α) := by
  induction count with
  | zero => rfl
  | succ count ih =>
    rw [List.range_succ, List.flatMap_append, ← Multiset.coe_add, ih, Finset.sum_range_succ]
    simp

theorem gathered_exchange {after : ScopeTree} {id : StatementId} (inside : id < tree.nextId)
    (sameSize : after.nextId = tree.nextId)
    (kept : ∀ other, other ≠ id → after.get? other = tree.get? other) :
    (after.gathered part : Multiset α) + (((tree.get? id).map part).getD [] : List α) =
      (tree.gathered part : Multiset α) + (((after.get? id).map part).getD [] : List α) := by
  have member : id ∈ Finset.range tree.nextId := Finset.mem_range.mpr inside
  simp only [gathered_eq_flatMap, coe_flatMap_range, sameSize]
  rw [← Finset.add_sum_erase _ (fun id => ((((tree.get? id).map part).getD [] : List α) : Multiset α))
      member,
    ← Finset.add_sum_erase _ (fun id => ((((after.get? id).map part).getD [] : List α) : Multiset α))
      member]
  have others : ∑ other ∈ (Finset.range tree.nextId).erase id,
      ((((after.get? other).map part).getD [] : List α) : Multiset α) =
        ∑ other ∈ (Finset.range tree.nextId).erase id,
          ((((tree.get? other).map part).getD [] : List α) : Multiset α) := by
    refine Finset.sum_congr rfl fun other rest => ?_
    rw [kept other (Finset.mem_erase.mp rest).1]
  rw [others]
  abel

theorem gathered_modify_gain {id : StatementId} {statement : Statement}
    (found : tree.get? id = some statement) (change : Statement → Statement) {gained : Multiset α}
    (gain : (part (change statement) : Multiset α) = part statement + gained) :
    ((tree.modify id change).gathered part : Multiset α) = tree.gathered part + gained := by
  have exchanged := @gathered_exchange α tree part (tree.modify id change) id
    (lt_nextId_of_get? found) (nextId_modify ..) (by
      intro other different
      rw [get?_modify, if_neg (Ne.symm different)])
  simp only [get?_modify, found, if_true, Option.map_some, Option.getD_some, gain] at exchanged
  rw [add_left_comm, add_comm] at exchanged
  exact add_left_cancel exchanged

theorem gathered_vacate {id : StatementId} {statement : Statement}
    (found : tree.get? id = some statement) :
    ((tree.vacate id).gathered part : Multiset α) + part statement = tree.gathered part := by
  have exchanged := @gathered_exchange α tree part (tree.vacate id) id
    (lt_nextId_of_get? found) (nextId_vacate ..) (by
      intro other different
      rw [get?_vacate, if_neg (Ne.symm different)])
  simpa [get?_vacate, found] using exchanged

theorem gathered_modify_same (id : StatementId) {change : Statement → Statement}
    (same : ∀ statement, part (change statement) = part statement) :
    (tree.modify id change).gathered part = tree.gathered part := by
  rw [gathered_eq_flatMap, gathered_eq_flatMap, nextId_modify]
  apply List.flatMap_congr
  intro other _
  rw [get?_modify]
  split
  · cases tree.get? other with
    | none => rfl
    | some statement => simp [same]
  · rfl

theorem gathered_store (statement : Statement) : (tree.store statement).gathered part =
    tree.gathered part ++ part { statement with parent := none } := by
  simp [gathered, store]

theorem gathered_attach (unlinked : ∀ statement parent children,
      part { statement with parent, children } = part statement) (scope child : StatementId) :
    (tree.attach scope child).gathered part = tree.gathered part := by
  have parentOnly (statement : Statement) (parent : Option StatementId) :
      part { statement with parent } = part statement :=
    unlinked statement parent statement.children
  have childrenOnly (statement : Statement) (children : List StatementId) :
      part { statement with children } = part statement :=
    unlinked statement statement.parent children
  rw [attach, gathered_modify_same scope fun statement => childrenOnly statement _,
    gathered_modify_same child fun statement => parentOnly statement _]

theorem gathered_append (unshifted : ∀ statement, part (shiftStatement tree.nextId statement) =
      part statement) :
    (tree.append other).gathered part = tree.gathered part ++ other.gathered part := by
  simp only [gathered, append, Array.toList_append, Array.toList_map, List.flatMap_append,
    List.flatMap_map]
  congr 1
  apply List.flatMap_congr
  intro slot _
  cases slot with
  | none => rfl
  | some statement => exact unshifted statement

theorem gathered_eq_flatMap_ids : tree.gathered part =
    tree.ids.flatMap fun id => ((tree.get? id).map part).getD [] := by
  rw [gathered_eq_flatMap, ids]
  change (List.range tree.nextId).flatMap _ = ((List.range tree.nextId).filter _).flatMap _
  induction List.range tree.nextId with
  | nil => rfl
  | cons id rest ih =>
    rw [List.flatMap_cons, ih]
    by_cases live : tree.isLive id = true
    · rw [List.filter_cons_of_pos live, List.flatMap_cons]
    · have vacant : tree.get? id = none := by simpa [isLive] using live
      simp [live, vacant]

end Gathered

end ScopeTree

open ScopeTree

def trail (path : List Segment) : Multiset Mark := ↑(path.flatMap segmentMarks)

/-- The entries at a stage, those still to be left by segments included. -/
def Stage.ledger (stage : Stage) : Multiset Mark :=
  stage.tree.gathered Statement.marks + (stage.pending.map fun errand => trail errand.path).sum +
    (stage.waiting.map fun id => trail (stage.tree.pendingAt id)).sum

section Ledger

variable {tree : ScopeTree} {pending : List Errand} {waiting : List StatementId}

theorem trail_nil : trail [] = 0 := rfl

theorem trail_cons (segment : Segment) (path : List Segment) :
    trail (segment :: path) = segmentMarks segment + trail path := by
  rw [trail, List.flatMap_cons, ← Multiset.coe_add]
  rfl

theorem sum_trail_errands (target : StatementId) (children : List StatementId) :
    ((errands target children ++ pending).map fun errand => trail errand.path).sum =
      (pending.map fun errand => trail errand.path).sum := by
  simp [errands, Function.comp_def, trail_nil]

theorem sum_pending_congr {after : ScopeTree}
    (kept : ∀ id ∈ waiting, after.get? id = tree.get? id) :
    (waiting.map fun id => trail (after.pendingAt id)).sum =
      (waiting.map fun id => trail (tree.pendingAt id)).sum := by
  congr 1
  apply List.map_congr_left
  intro id member
  rw [pendingAt, kept id member, pendingAt]

theorem sum_pending_erase {child : StatementId} (waits : child ∈ waiting) :
    trail (tree.pendingAt child) +
        ((waiting.erase child).map fun id => trail (tree.pendingAt id)).sum =
      (waiting.map fun id => trail (tree.pendingAt id)).sum :=
  List.sum_map_erase (fun id => trail (tree.pendingAt id)) waits

theorem pendingAt_of_unqualified {id : StatementId} (plain : tree.isQualified id = false) :
    tree.pendingAt id = [] := by
  rw [isQualified_eq, Option.isSome_eq_false_iff, Option.isNone_iff_eq_none] at plain
  cases found : tree.get? id with
  | none => simp [pendingAt, found]
  | some statement =>
    rw [scope?_of_get? found] at plain
    simp [pendingAt, found, pendingPath_of_unqualified plain]

theorem Step.ledger {stage next : Stage} (step : Step stage next) (layout : Layout stage) :
    next.ledger = stage.ledger := by
  cases step with
  | @reorder tree pending others waiting permuted =>
    simp only [Stage.ledger, (permuted.map fun errand => trail errand.path).sum_eq]
  | @free tree target child rest waiting qualifier pendingQualifier =>
    have waits : child ∈ waiting := layout.head_waits
    have marks : (tree.dropQualifier child).gathered Statement.marks =
        tree.gathered Statement.marks :=
      gathered_modify_same child fun _ => marks_dropQualifier
    have before : tree.pendingAt child = qualifier.segments := by
      rw [scope?, Option.bind_assoc] at pendingQualifier
      obtain ⟨statement, found, own⟩ := Option.bind_eq_some_iff.mp pendingQualifier
      have qualified : statement.qualifier? = some qualifier := own
      simp [pendingAt, found, Statement.pendingPath, qualified]
    have after : (tree.dropQualifier child).pendingAt child = [] :=
      pendingAt_of_unqualified (isQualified_dropQualifier child)
    have others := @sum_pending_congr tree (waiting.erase child) (tree.dropQualifier child) (by
      intro id member
      have notChild : id ≠ child := by
        rintro rfl
        exact layout.distinct.not_mem_erase member
      simp [get?_dropQualifier, notChild])
    simp only [Stage.ledger, marks, List.map_cons, List.sum_cons]
    rw [← sum_pending_erase waits, ← sum_pending_erase waits, others, before, after, trail_nil]
    abel
  | @mark tree scope segment path child rest waiting existing found =>
    obtain ⟨scopeFree, _⟩ := layout.head_settled
    obtain ⟨listed, own, ownScope, _⟩ := containerChild?_eq_some found
    obtain ⟨free, statement, statementAt⟩ := layout.child_settled scopeFree listed
    rw [scope?_of_get? statementAt] at ownScope
    have marks := gathered_modify_gain statementAt (markWith segment) (marks_markWith ownScope)
    have kept := sum_pending_congr fun id member =>
      @get?_modify_waiting tree waiting existing id free member (markWith segment)
    simp only [Stage.ledger, List.map_cons, List.sum_cons, trail_cons, marks, kept]
    abel
  | @sprout tree scope segment path child rest waiting language found =>
    obtain ⟨scopeFree, _⟩ := layout.head_settled
    have marks : ((tree.add scope (placeholder segment language)).gathered Statement.marks :
        Multiset Mark) = tree.gathered Statement.marks + segmentMarks segment := by
      rw [add, gathered_attach (fun _ _ _ => rfl), gathered_store, ← Multiset.coe_add]
      rfl
    have kept := sum_pending_congr fun id member =>
      get?_add_waiting scopeFree layout.waiting_lt member (placeholder segment language)
    simp only [Stage.ledger, List.map_cons, List.sum_cons, trail_cons, marks, kept]
    abel
  | @fold tree scope child rest waiting existing statement partner found plain =>
    have waits : child ∈ waiting := layout.head_waits
    obtain ⟨scopeFree, _⟩ := layout.head_settled
    obtain ⟨listed, ownScope, incomingScope, ownAt, incomingAt, _⟩ := partner?_eq_some partner
    obtain ⟨free, own, ownFound⟩ := layout.child_settled scopeFree listed
    rw [scope?_of_get? ownFound] at ownAt
    rw [scope?_of_get? found] at incomingAt
    have different : child ≠ existing := by
      rintro rfl
      exact free waits
    have ownLeft : (tree.vacate child).get? existing = some own := by
      rw [get?_vacate, if_neg different, ownFound]
    have marks := (gathered_modify_gain ownLeft (fun own => absorbStatement own statement)
      (marks_absorb ownAt incomingAt)).trans (gathered_vacate found)
    have kept := sum_pending_congr fun id member => @get?_fold_waiting tree waiting child existing
      id layout.distinct free member fun own => absorbStatement own statement
    simp only [Stage.ledger, marks, sum_trail_errands, kept]
    rw [← sum_pending_erase waits, pendingAt_of_unqualified plain]
    simp [trail_nil]
  | @hang tree scope child rest waiting statement partner found plain =>
    have waits : child ∈ waiting := layout.head_waits
    obtain ⟨scopeFree, _⟩ := layout.head_settled
    have marks : ((tree.modify child fun own =>
        { own with parent := none, children := [] }).attach scope child).gathered Statement.marks =
          tree.gathered Statement.marks := by
      rw [gathered_attach fun _ _ _ => rfl]
      exact gathered_modify_same child fun _ => rfl
    have kept := sum_pending_congr fun id member =>
      @get?_hang_waiting tree waiting child scope id layout.distinct scopeFree member
    simp only [Stage.ledger, marks, sum_trail_errands, kept]
    rw [← sum_pending_erase waits, pendingAt_of_unqualified plain]
    simp [trail_nil]

theorem Run.ledger {stage last : Stage} (run : Run stage last) (layout : Layout stage) :
    last.ledger = stage.ledger := by
  induction run with
  | refl => rfl
  | tail before step ih => exact (step.ledger (Run.layout before layout)).trans ih

end Ledger

section Merged

variable {tree other : ScopeTree}

theorem marks_shiftStatement (offset : Nat) (statement : Statement) :
    (shiftStatement offset statement).marks = statement.marks := rfl

theorem firstStage_marks (formed : tree.WellFormed) {own top : Statement}
    (ownAt : tree.get? root = some own) (ownGlobal : own.kind = .global)
    (topAt : other.get? root = some top) (topGlobal : top.kind = .global) :
    ((firstStage tree other top).tree.gathered Statement.marks : Multiset Mark) =
      tree.gathered Statement.marks + other.gathered Statement.marks := by
  have positive := root_lt_nextId formed
  have topShifted : (tree.append other).get? tree.nextId = some (shiftStatement tree.nextId top) := by
    rw [get?_append, if_neg (Nat.lt_irrefl _), Nat.sub_self]
    change (other.get? root).map _ = _
    rw [topAt, Option.map_some]
  have ownLeft : ((tree.append other).vacate tree.nextId).get? root = some own := by
    rw [get?_vacate, if_neg (Nat.ne_of_gt positive), get?_append, if_pos positive, ownAt]
  have absorbed := gathered_modify_gain ownLeft
    (fun own => absorbStatement own (shiftStatement tree.nextId top))
    (marks_absorb_global ownGlobal topGlobal)
  rw [gathered_vacate topShifted, gathered_append (marks_shiftStatement tree.nextId),
    ← Multiset.coe_add] at absorbed
  exact absorbed

theorem firstStage_pending (formed : tree.WellFormed) (top : Statement) :
    ((firstStage tree other top).waiting.map fun id =>
      trail ((firstStage tree other top).tree.pendingAt id)).sum =
        ((innerIds other).map fun id => trail (other.pendingAt id)).sum := by
  have unshifted : ∀ id ∈ innerIds other,
      (firstStage tree other top).tree.pendingAt (id + tree.nextId) = other.pendingAt id := by
    intro id member
    rw [innerIds, List.mem_filter, bne_iff_ne] at member
    obtain ⟨statement, found⟩ := exists_of_mem_ids member.1
    simp only [pendingAt, firstStage_get?_waiting formed member.2 found, found]
    rfl
  have waiting : (firstStage tree other top).waiting = (innerIds other).map (· + tree.nextId) := rfl
  rw [waiting, List.map_map]
  congr 1
  apply List.map_congr_left
  intro id member
  simp only [Function.comp_def, unshifted id member]

theorem sum_pending_inner {top : Statement} (topAt : other.get? root = some top)
    (topGlobal : top.kind = .global) :
    ((innerIds other).map fun id => trail (other.pendingAt id)).sum =
      trail (other.gathered Statement.pendingPath) := by
  have bare : other.pendingAt root = [] := by
    simp [pendingAt, topAt, Statement.pendingPath, Statement.qualifier?, Statement.scope?, topGlobal,
      StatementKind.scope?]
  have spread (numbers : List StatementId) :
      trail (numbers.flatMap other.pendingAt) =
        (numbers.map fun id => trail (other.pendingAt id)).sum := by
    induction numbers with
    | nil => rfl
    | cons id rest ih =>
      rw [List.flatMap_cons, List.map_cons, List.sum_cons, ← ih, trail, List.flatMap_append,
        ← Multiset.coe_add]
      rfl
  have rootFirst := ((ids_perm_root topAt).map fun id => trail (other.pendingAt id)).sum_eq
  rw [List.map_cons, List.sum_cons, bare, trail_nil, zero_add] at rootFirst
  rw [← rootFirst, gathered_eq_flatMap_ids, ← spread]
  rfl

/-- The entries of a merged tree are those of both trees and those that the pending qualifiers of
the incoming tree leave behind. -/
theorem merge_marks (formed : tree.WellFormed) (otherFormed : other.WellFormed)
    {own top : Statement} (ownAt : tree.get? root = some own) (ownGlobal : own.kind = .global)
    (topAt : other.get? root = some top) (topGlobal : top.kind = .global) :
    ((tree.merge other).gathered Statement.marks).Perm
      (tree.gathered Statement.marks ++ other.gathered Statement.marks ++
        (other.gathered Statement.pendingPath).flatMap segmentMarks) := by
  have balanced := (merge_run formed otherFormed topAt).ledger
    (firstStage_layout formed otherFormed topAt)
  have brought : ((firstStage tree other top).pending.map fun errand => trail errand.path).sum = 0 := by
    have nothing := @sum_trail_errands [] root (shiftStatement tree.nextId top).children
    rwa [List.append_nil] at nothing
  simp only [Stage.ledger, List.map_nil, List.sum_nil, add_zero, brought,
    firstStage_marks formed ownAt ownGlobal topAt topGlobal, firstStage_pending formed,
    sum_pending_inner topAt topGlobal] at balanced
  rw [← Multiset.coe_eq_coe, balanced, trail, Multiset.coe_add, Multiset.coe_add]

end Merged

/-! Statements without a name keep their number, and all they hold. -/

def Statement.unlinked (statement : Statement) : Statement :=
  { statement with parent := none, children := [] }

theorem unlinked_eq_iff {now statement : Statement} : now.unlinked = statement.unlinked ↔
    now.kind = statement.kind ∧ now.language = statement.language ∧
      now.locations = statement.locations ∧ now.content = statement.content := by
  simp [Statement.unlinked]

theorem Step.unnamed_kept {stage next : Stage} (step : Step stage next) {id : StatementId}
    {statement : Statement} (found : stage.tree.get? id = some statement)
    (unnamed : statement.scope? = none) :
    ∃ now, next.tree.get? id = some now ∧ now.unlinked = statement.unlinked := by
  have apart {tree : ScopeTree} (here : tree.get? id = some statement) {existing : StatementId}
      {scope : NamedScope} (scopeAt : tree.scope? existing = some scope) : existing ≠ id := by
    rintro rfl
    rw [scope?_of_get? here, unnamed] at scopeAt
    simp at scopeAt
  have linked {tree : ScopeTree} {now : Statement} (here : tree.get? id = some now)
      (scope child : StatementId) : ∃ later, (tree.attach scope child).get? id = some later ∧
        later.unlinked = now.unlinked := by
    rw [get?_attach, here]
    refine ⟨_, rfl, ?_⟩
    split
    · split
      · rfl
      · rfl
    · split
      · rfl
      · rfl
  cases step with
  | @reorder tree pending others waiting permuted => exact ⟨statement, found, rfl⟩
  | @free tree target child rest waiting qualifier pendingQualifier =>
    obtain ⟨scope, scopeAt, _⟩ := Option.bind_eq_some_iff.mp pendingQualifier
    refine ⟨statement, ?_, rfl⟩
    simp only [dropQualifier, get?_modify, if_neg (apart found scopeAt)]
    exact found
  | @mark tree scope segment path child rest waiting existing container =>
    obtain ⟨_, own, ownAt, _⟩ := containerChild?_eq_some container
    refine ⟨statement, ?_, rfl⟩
    rw [get?_modify, if_neg (apart found ownAt)]
    exact found
  | @sprout tree scope segment path child rest waiting language missing =>
    have inside : id ≠ tree.nextId := Nat.ne_of_lt (lt_nextId_of_get? found)
    have stored : (tree.store (placeholder segment language)).get? id = some statement := by
      rw [get?_store, if_neg inside]
      exact found
    exact linked stored scope tree.nextId
  | @fold tree scope child rest waiting existing incoming partner incomingAt plain =>
    obtain ⟨_, own, added, ownAt, addedAt, _⟩ := partner?_eq_some partner
    refine ⟨statement, ?_, rfl⟩
    rw [get?_modify, if_neg (apart found ownAt), get?_vacate, if_neg (apart found addedAt)]
    exact found
  | @hang tree scope child rest waiting incoming partner incomingAt plain =>
    by_cases isChild : child = id
    · have bared : (tree.modify child fun own =>
          { own with parent := none, children := [] }).get? id = some statement.unlinked := by
        rw [get?_modify, if_pos isChild, found, Option.map_some]
        rfl
      obtain ⟨later, laterAt, same⟩ := linked bared scope child
      exact ⟨later, laterAt, same⟩
    · have kept : (tree.modify child fun own =>
          { own with parent := none, children := [] }).get? id = some statement := by
        rw [get?_modify, if_neg isChild]
        exact found
      exact linked kept scope child

theorem Run.unnamed_kept {stage last : Stage} (run : Run stage last) {id : StatementId}
    {statement : Statement} (found : stage.tree.get? id = some statement)
    (unnamed : statement.scope? = none) :
    ∃ now, last.tree.get? id = some now ∧ now.unlinked = statement.unlinked := by
  induction run with
  | refl => exact ⟨statement, found, rfl⟩
  | tail _ step ih =>
    obtain ⟨middle, middleAt, same⟩ := ih
    have sameKind := (unlinked_eq_iff.mp same).1
    have stillUnnamed : middle.scope? = none := by
      rw [Statement.scope?, sameKind]
      exact unnamed
    obtain ⟨now, nowAt, sameNow⟩ := step.unnamed_kept middleAt stillUnnamed
    exact ⟨now, nowAt, sameNow.trans same⟩

/-! The entries of one sort. -/

def Mark.location? : Mark → Option Location
  | .seen location => some location
  | .holds _ | .spoken _ => none

def Mark.expression? : Mark → Option Expression
  | .holds expression => some expression
  | .seen _ | .spoken _ => none

def Mark.facet? : Mark → Option Facet
  | .spoken facet => some facet
  | .seen _ | .holds _ => none

section Sorts

variable {tree : ScopeTree}

theorem filterMap_gathered {α β : Type} {part : Statement → List α} (select : α → Option β) :
    (tree.gathered part).filterMap select =
      tree.gathered fun statement => (part statement).filterMap select := by
  rw [gathered, List.filterMap_flatMap, gathered]
  apply List.flatMap_congr
  intro slot _
  cases slot with
  | none => rfl
  | some statement => rfl

theorem gathered_locations :
    (tree.gathered Statement.marks).filterMap Mark.location? = tree.locations := by
  rw [filterMap_gathered, locations_eq_gathered]
  congr 1
  funext statement
  simp [Statement.marks, List.filterMap_append, List.filterMap_map, Function.comp_def, Mark.location?]

theorem gathered_content :
    (tree.gathered Statement.marks).filterMap Mark.expression? = tree.gathered Statement.content := by
  rw [filterMap_gathered]
  congr 1
  funext statement
  simp [Statement.marks, List.filterMap_append, List.filterMap_map, Function.comp_def,
    Mark.expression?]

theorem gathered_facets :
    (tree.gathered Statement.marks).filterMap Mark.facet? = tree.gathered Statement.facets := by
  rw [filterMap_gathered]
  congr 1
  funext statement
  simp [Statement.marks, List.filterMap_append, List.filterMap_map, Function.comp_def, Mark.facet?]

theorem segments_locations (path : List Segment) :
    (path.flatMap segmentMarks).filterMap Mark.location? =
      path.map fun segment => segment.location.asReference true := by
  induction path with
  | nil => rfl
  | cons segment path ih =>
    rw [List.flatMap_cons, List.filterMap_append, ih]
    rfl

theorem segments_expressions (path : List Segment) :
    (path.flatMap segmentMarks).filterMap Mark.expression? = [] := by
  induction path with
  | nil => rfl
  | cons segment path ih =>
    rw [List.flatMap_cons, List.filterMap_append, ih]
    rfl

theorem segments_facets (path : List Segment) :
    (path.flatMap segmentMarks).filterMap Mark.facet? =
      path.map fun segment => segmentFacet (segment.location.asReference true) := by
  induction path with
  | nil => rfl
  | cons segment path ih =>
    rw [List.flatMap_cons, List.filterMap_append, ih]
    rfl

end Sorts

/-- A merge loses nothing and doubles nothing: expressions, locations and facets are those of both
trees, with one reference for every segment of a pending qualifier, and every statement of the
incoming tree that has no name is there with all it held. -/
theorem merge_conserves {tree other : ScopeTree} (formed : tree.WellFormed)
    (otherFormed : other.WellFormed) {own top : Statement} (ownAt : tree.get? root = some own)
    (ownGlobal : own.kind = .global) (topAt : other.get? root = some top)
    (topGlobal : top.kind = .global) :
    ((tree.merge other).gathered Statement.content).Perm
      (tree.gathered Statement.content ++ other.gathered Statement.content) ∧
    (tree.merge other).locations.Perm
      (tree.locations ++ other.locations ++ (other.gathered Statement.pendingPath).map
        fun segment => segment.location.asReference true) ∧
    ((tree.merge other).gathered Statement.facets).Perm
      (tree.gathered Statement.facets ++ other.gathered Statement.facets ++
        (other.gathered Statement.pendingPath).map
          fun segment => segmentFacet (segment.location.asReference true)) ∧
    ∀ id statement, other.get? id = some statement → id ≠ root → statement.scope? = none →
      ∃ now, (tree.merge other).get? (id + tree.nextId) = some now ∧
        now.kind = statement.kind ∧ now.language = statement.language ∧
        now.locations = statement.locations ∧ now.content = statement.content := by
  have marks := merge_marks formed otherFormed ownAt ownGlobal topAt topGlobal
  refine ⟨?_, ?_, ?_, ?_⟩
  · have expressions := marks.filterMap Mark.expression?
    simpa only [List.filterMap_append, gathered_content, segments_expressions, List.append_nil]
      using expressions
  · have locations := marks.filterMap Mark.location?
    simpa only [List.filterMap_append, gathered_locations, segments_locations] using locations
  · have facets := marks.filterMap Mark.facet?
    simpa only [List.filterMap_append, gathered_facets, segments_facets] using facets
  · intro id statement found notRoot unnamed
    obtain ⟨now, nowAt, same⟩ := (merge_run formed otherFormed topAt).unnamed_kept
      (firstStage_get?_waiting formed notRoot found) unnamed
    exact ⟨now, nowAt, unlinked_eq_iff.mp same⟩

theorem merge_conserves_member_and_return :
    let tree := classTree "a.h"
    let other := (memberTree "a.cpp").add 1 (.detached .return .cPlusPlus [.point "a.cpp" 1 8] [])
    (tree.merge other).locations.Perm (tree.locations ++ other.locations ++
        [(Location.point "a.cpp" 1 1).asReference true]) ∧
      ∃ now, (tree.merge other).get? (2 + 2) = some now ∧ now.kind = .return := by
  intro tree other
  obtain ⟨_, _, ofUnit⟩ := readAs_fileTree (readAs_classUnit "a.h")
  have otherFormed : other.WellFormed := (memberTree_wellFormed "a.cpp").add rfl rfl
  have conserved := merge_conserves ofUnit.formed otherFormed rfl rfl rfl rfl
  obtain ⟨now, nowAt, kind, _⟩ := conserved.2.2.2 2 _ rfl (by decide) rfl
  exact ⟨conserved.2.1, now, nowAt, kind⟩

end ScopeAtlas
