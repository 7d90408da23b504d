import Mathlib.Data.List.Nodup
import Mathlib.Data.List.Perm.Basic
import Mathlib.Logic.Relation
import ScopeAtlas.Proofs.Links
import ScopeAtlas.ScopeTree.Merge

/-!
Merging as a machine of small steps. A stage of a merge is the tree so far, the statements that
still wait to be placed, and the errands that are left: each errand brings one waiting statement
below a target, along the segments of a qualifier that are still to be followed.

What does not wait is settled. `Layout` says that the settled statements are a well formed view
and that every waiting statement is brought by exactly one errand or is the child of exactly one
waiting statement. Every step keeps it, and what a step does to the settled statements is one of
the two changes of `View`.
-/

namespace ScopeAtlas

/-- Brings a waiting statement below a target, along a path of segments. -/
structure Errand where
  target : StatementId
  path : List Segment
  child : StatementId

structure Stage where
  tree : ScopeTree
  pending : List Errand
  waiting : List StatementId

namespace ScopeTree

def settled (tree : ScopeTree) (waiting : List StatementId) : View :=
  fun id => if id ∈ waiting then none else tree.get? id

def markWith (segment : Segment) (statement : Statement) : Statement :=
  let location := segment.location.asReference true
  { statement with
    locations := statement.locations ++ [location]
    kind := statement.kind.mapScope fun named => named.addFacet (segmentFacet location) }

def placeholder (segment : Segment) (language : Language) : Statement :=
  let location := segment.location.asReference true
  .detached (.named (.ofFacet segment.name none (segmentFacet location))) language [location] []

def pathStart (tree : ScopeTree) (target : StatementId) : List Segment → StatementId
  | [] => target
  | first :: _ => tree.qualifierStart target first.name

def errands (target : StatementId) (children : List StatementId) : List Errand :=
  children.map fun child => ⟨target, [], child⟩

end ScopeTree

open ScopeTree

/-- One step of a merge. -/
inductive Step : Stage → Stage → Prop
  | reorder {tree pending others waiting} : pending.Perm others →
      Step ⟨tree, pending, waiting⟩ ⟨tree, others, waiting⟩
  | free {tree target child rest waiting qualifier} :
      (tree.scope? child).bind NamedScope.qualifier = some qualifier →
      Step ⟨tree, ⟨target, [], child⟩ :: rest, waiting⟩
        ⟨tree.dropQualifier child,
          ⟨(tree.dropQualifier child).pathStart target qualifier.segments, qualifier.segments,
            child⟩ :: rest, waiting⟩
  | mark {tree scope segment path child rest waiting existing} :
      tree.containerChild? scope segment.name = some existing →
      Step ⟨tree, ⟨scope, segment :: path, child⟩ :: rest, waiting⟩
        ⟨tree.modify existing (markWith segment), ⟨existing, path, child⟩ :: rest, waiting⟩
  | sprout {tree scope segment path child rest waiting} (language : Language) :
      tree.containerChild? scope segment.name = none →
      Step ⟨tree, ⟨scope, segment :: path, child⟩ :: rest, waiting⟩
        ⟨tree.add scope (placeholder segment language), ⟨tree.nextId, path, child⟩ :: rest, waiting⟩
  | fold {tree scope child rest waiting existing statement} :
      tree.partner? scope child = some existing → tree.get? child = some statement →
      tree.isQualified child = false →
      Step ⟨tree, ⟨scope, [], child⟩ :: rest, waiting⟩
        ⟨(tree.vacate child).modify existing fun own => absorbStatement own statement,
          errands existing statement.children ++ rest, waiting.erase child⟩
  | hang {tree scope child rest waiting statement} :
      tree.partner? scope child = none → tree.get? child = some statement →
      tree.isQualified child = false →
      Step ⟨tree, ⟨scope, [], child⟩ :: rest, waiting⟩
        ⟨(tree.modify child fun own => { own with parent := none, children := [] }).attach scope child,
          errands child statement.children ++ rest, waiting.erase child⟩

/-- What holds at every stage of a merge. -/
structure Layout (stage : Stage) : Prop where
  formed : (stage.tree.settled stage.waiting).WellFormed
  live : ∀ id ∈ stage.waiting, ∃ statement, stage.tree.get? id = some statement
  distinct : stage.waiting.Nodup
  covered : (stage.pending.map Errand.child ++
    stage.waiting.flatMap stage.tree.children).Perm stage.waiting
  targets : ∀ errand ∈ stage.pending, ∃ statement,
    stage.tree.settled stage.waiting errand.target = some statement

namespace ScopeTree

section Settled

variable {tree : ScopeTree} {waiting : List StatementId}

theorem settled_of_not_mem {id : StatementId} (free : id ∉ waiting) :
    tree.settled waiting id = tree.get? id := by
  simp [settled, free]

theorem settled_eq_some {id : StatementId} {statement : Statement} :
    tree.settled waiting id = some statement ↔
      id ∉ waiting ∧ tree.get? id = some statement := by
  by_cases member : id ∈ waiting
  · simp [settled, member]
  · simp [settled, member]

theorem settled_nil : tree.settled [] = tree.get? := by
  funext id
  simp [settled]

theorem children_of_get? {id : StatementId} {statement : Statement}
    (found : tree.get? id = some statement) : tree.children id = statement.children := by
  simp [children, found]

theorem exists_of_mem_children {id child : StatementId} (member : child ∈ tree.children id) :
    ∃ statement, tree.get? id = some statement ∧ child ∈ statement.children := by
  cases found : tree.get? id with
  | none => simp [children, found] at member
  | some statement =>
    rw [children_of_get? found] at member
    exact ⟨statement, rfl, member⟩

theorem scope?_of_get? {id : StatementId} {statement : Statement}
    (found : tree.get? id = some statement) : tree.scope? id = statement.scope? := by
  simp [scope?, found]

theorem get?_attach (scope child id : StatementId) :
    (tree.attach scope child).get? id =
      (((tree.get? id).map fun own => if id = child then { own with parent := some scope } else own).map
        fun own => if id = scope then { own with children := own.children ++ [child] } else own) := by
  simp only [attach, get?_modify]
  by_cases isScope : scope = id
  · by_cases isChild : child = id
    · simp [isScope, isChild, Function.comp_def]
    · simp [isScope, isChild, Ne.symm isChild]
  · by_cases isChild : child = id
    · simp [isScope, isChild, Ne.symm isScope, Function.comp_def]
    · simp [isScope, isChild, Ne.symm isScope, Ne.symm isChild]

theorem get?_dropQualifier (child id : StatementId) :
    (tree.dropQualifier child).get? id = (tree.get? id).map fun own =>
      if id = child then
        { own with kind := own.kind.mapScope fun named => { named with qualifier := none } }
      else own := by
  simp only [dropQualifier, get?_modify]
  by_cases isChild : child = id
  · simp [isChild]
  · simp [isChild, Ne.symm isChild]

theorem children_dropQualifier (child id : StatementId) :
    (tree.dropQualifier child).children id = tree.children id := by
  simp only [children, get?_dropQualifier]
  cases tree.get? id with
  | none => rfl
  | some statement =>
    simp only [Option.map_some, Option.getD_some]
    split
    · rfl
    · rfl

theorem parent?_dropQualifier (child id : StatementId) :
    (tree.dropQualifier child).parent? id = tree.parent? id := by
  simp only [parent?, get?_dropQualifier]
  cases tree.get? id with
  | none => rfl
  | some statement =>
    simp only [Option.map_some, Option.bind_some]
    split
    · rfl
    · rfl

theorem settled_dropQualifier {child : StatementId} (member : child ∈ waiting) :
    (tree.dropQualifier child).settled waiting = tree.settled waiting := by
  funext id
  by_cases waits : id ∈ waiting
  · simp [settled, waits]
  · have other : id ≠ child := by
      rintro rfl
      exact waits member
    simp [settled, waits, get?_dropQualifier, other]

/-! What a step does to the settled part leaves alone what still waits. -/

theorem get?_modify_waiting {existing id : StatementId} (free : existing ∉ waiting)
    (member : id ∈ waiting) (change : Statement → Statement) :
    (tree.modify existing change).get? id = tree.get? id := by
  have other : existing ≠ id := by
    rintro rfl
    exact free member
  rw [get?_modify, if_neg other]

theorem get?_add_waiting {scope id : StatementId} (free : scope ∉ waiting)
    (bounded : ∀ id ∈ waiting, id < tree.nextId) (member : id ∈ waiting) (statement : Statement) :
    (tree.add scope statement).get? id = tree.get? id := by
  have notScope : id ≠ scope := by
    rintro rfl
    exact free member
  have notNew : id ≠ tree.nextId := Nat.ne_of_lt (bounded id member)
  simp [add, get?_attach, get?_store, notScope, notNew]

theorem get?_fold_waiting {child existing id : StatementId} (distinct : waiting.Nodup)
    (free : existing ∉ waiting) (member : id ∈ waiting.erase child)
    (change : Statement → Statement) :
    ((tree.vacate child).modify existing change).get? id = tree.get? id := by
  have notChild : child ≠ id := by
    rintro rfl
    exact distinct.not_mem_erase member
  rw [get?_modify_waiting free (List.mem_of_mem_erase member), get?_vacate, if_neg notChild]

theorem get?_hang_waiting {child scope id : StatementId} (distinct : waiting.Nodup)
    (free : scope ∉ waiting) (member : id ∈ waiting.erase child) :
    ((tree.modify child fun own => { own with parent := none, children := [] }).attach scope
      child).get? id = tree.get? id := by
  have notScope : id ≠ scope := by
    rintro rfl
    exact free (List.mem_of_mem_erase member)
  have notChild : id ≠ child := by
    rintro rfl
    exact distinct.not_mem_erase member
  simp [get?_attach, get?_modify, notScope, notChild, Ne.symm notChild]

theorem settled_modify {existing : StatementId} (free : existing ∉ waiting)
    (change : Statement → Statement) :
    (tree.modify existing change).settled waiting =
      (tree.settled waiting).enrich existing change := by
  funext id
  by_cases waits : id ∈ waiting
  · have other : id ≠ existing := by
      rintro rfl
      exact free waits
    simp [settled, View.enrich, waits, other]
  · by_cases same : id = existing
    · subst same
      simp [settled, View.enrich, free, get?_modify]
    · simp [settled, View.enrich, waits, get?_modify, same, Ne.symm same]

theorem settled_add {scope : StatementId} (statement : Statement) (free : scope ∉ waiting)
    (bounded : ∀ id ∈ waiting, id < tree.nextId) (inside : scope < tree.nextId)
    (bare : statement.children = []) :
    (tree.add scope statement).settled waiting =
      (tree.settled waiting).grow tree.nextId scope statement := by
  funext id
  simp only [settled, View.grow, add, get?_attach, get?_store]
  by_cases isNew : id = tree.nextId
  · have notWaiting : id ∉ waiting := by
      intro waits
      exact Nat.ne_of_lt (bounded id waits) isNew
    have notScope : tree.nextId ≠ scope := Nat.ne_of_gt inside
    simp only [isNew, if_true, Option.map_some] at notWaiting ⊢
    simp [notWaiting, notScope, bare]
  · by_cases waits : id ∈ waiting
    · have notScope : id ≠ scope := by
        rintro rfl
        exact free waits
      simp [waits, isNew, notScope]
    · by_cases isScope : id = scope
      · subst isScope
        simp [free, isNew]
      · simp [waits, isNew, isScope]

theorem settled_fold {child existing : StatementId} (distinct : waiting.Nodup)
    (waits : child ∈ waiting) (free : existing ∉ waiting) (change : Statement → Statement) :
    ((tree.vacate child).modify existing change).settled (waiting.erase child) =
      (tree.settled waiting).enrich existing change := by
  have different : existing ≠ child := by
    rintro rfl
    exact free waits
  have stillFree : existing ∉ waiting.erase child := fun member => free (List.mem_of_mem_erase member)
  rw [settled_modify stillFree]
  congr 1
  funext id
  by_cases isChild : id = child
  · subst isChild
    simp [settled, get?_vacate, waits, distinct.not_mem_erase]
  · simp [settled, get?_vacate, Ne.symm isChild, List.mem_erase_of_ne isChild]

theorem settled_hang {child scope : StatementId} {statement : Statement}
    (distinct : waiting.Nodup) (waits : child ∈ waiting) (free : scope ∉ waiting)
    (found : tree.get? child = some statement) :
    ((tree.modify child fun own => { own with parent := none, children := [] }).attach scope
      child).settled (waiting.erase child) =
      (tree.settled waiting).grow child scope statement := by
  have different : child ≠ scope := by
    rintro rfl
    exact free waits
  funext id
  simp only [settled, View.grow, get?_attach, get?_modify]
  by_cases isChild : id = child
  · subst isChild
    simp [distinct.not_mem_erase, found, different]
  · by_cases isScope : id = scope
    · subst isScope
      simp [List.mem_erase_of_ne isChild, free, isChild, Ne.symm isChild]
    · simp [List.mem_erase_of_ne isChild, isChild, Ne.symm isChild, isScope]

end Settled

section Lookup

variable {tree : ScopeTree}

theorem partner?_eq_some {scope child existing : StatementId}
    (found : tree.partner? scope child = some existing) :
    existing ∈ tree.children scope ∧ ∃ own incoming, tree.scope? existing = some own ∧
      tree.scope? child = some incoming ∧ own.sameIdentity incoming = true := by
  unfold partner? at found
  split at found
  · simp at found
  · rename_i incoming incomingAt
    refine ⟨List.mem_of_find?_eq_some found, ?_⟩
    have accepted := List.find?_some found
    rw [Bool.and_eq_true] at accepted
    cases ownAt : tree.scope? existing with
    | none => simp [ownAt] at accepted
    | some own =>
      rw [ownAt] at accepted
      exact ⟨own, incoming, rfl, incomingAt, accepted.2⟩

theorem partner?_eq_none {scope child candidate : StatementId} {own incoming : NamedScope}
    (missing : tree.partner? scope child = none) (listed : candidate ∈ tree.children scope)
    (different : candidate ≠ child) (ownAt : tree.scope? candidate = some own)
    (incomingAt : tree.scope? child = some incoming) : own.sameIdentity incoming = false := by
  simp only [partner?, incomingAt] at missing
  have refused := List.find?_eq_none.mp missing candidate listed
  simpa [different, ownAt] using refused

theorem containerChild?_eq_some {scope existing : StatementId} {name : String}
    (found : tree.containerChild? scope name = some existing) :
    existing ∈ tree.children scope ∧ ∃ own, tree.scope? existing = some own ∧
      own.name = name ∧ own.qualifier = none ∧ own.isContainer = true := by
  unfold containerChild? at found
  refine ⟨List.mem_of_find?_eq_some found, ?_⟩
  have accepted := List.find?_some found
  cases ownAt : tree.scope? existing with
  | none => simp [ownAt] at accepted
  | some own =>
    rw [ownAt] at accepted
    simp only [Bool.and_eq_true, beq_iff_eq, Option.isNone_iff_eq_none] at accepted
    exact ⟨own, rfl, accepted.1.1, accepted.1.2, accepted.2⟩

theorem containerChild?_eq_none {scope child : StatementId} {name : String} {own : NamedScope}
    (missing : tree.containerChild? scope name = none) (listed : child ∈ tree.children scope)
    (ownAt : tree.scope? child = some own) (placed : own.qualifier = none)
    (holds : own.isContainer = true) : own.name ≠ name := by
  intro same
  have refused := List.find?_eq_none.mp missing child listed
  simp [ownAt, same, placed, holds] at refused

theorem forall_mem_climb {property : StatementId → Prop}
    (upward : ∀ id parent, property id → tree.parent? id = some parent → property parent) :
    ∀ (bound : Nat) (from? : Option StatementId), (∀ id ∈ from?, property id) →
      ∀ level ∈ tree.climb bound from?, property level := by
  intro bound
  induction bound with
  | zero => simp [climb]
  | succ bound ih =>
    intro from? start level member
    cases from? with
    | none => simp [climb] at member
    | some id =>
      have here := start id rfl
      rw [climb] at member
      rcases List.mem_cons.mp member with same | above
      · exact same ▸ here
      · exact ih (tree.parent? id) (fun parent parentAt => upward id parent here parentAt) level above

theorem pathStart_induction (property : StatementId → Prop) {target : StatementId}
    (upward : ∀ id parent, property id → tree.parent? id = some parent → property parent)
    (here : property target) (path : List Segment) : property (tree.pathStart target path) := by
  cases path with
  | nil => exact here
  | cons first rest =>
    simp only [pathStart, qualifierStart]
    cases found : (tree.lineage target).find? fun level =>
        (tree.containerChild? level first.name).isSome with
    | none => exact here
    | some level =>
      have member := List.mem_of_find?_eq_some found
      unfold lineage at member
      split at member
      · exact forall_mem_climb upward _ _ (by simpa using here) level member
      · simp at member

end Lookup

end ScopeTree

namespace Layout

open ScopeTree

variable {tree : ScopeTree} {pending rest : List Errand} {waiting : List StatementId}

theorem child_waits (layout : Layout ⟨tree, pending, waiting⟩) {errand : Errand}
    (member : errand ∈ pending) : errand.child ∈ waiting :=
  layout.covered.subset (List.mem_append_left _ (List.mem_map_of_mem member))

theorem head_waits {errand : Errand} (layout : Layout ⟨tree, errand :: rest, waiting⟩) :
    errand.child ∈ waiting :=
  layout.child_waits List.mem_cons_self

theorem below_waits (layout : Layout ⟨tree, pending, waiting⟩) {id child : StatementId}
    (waits : id ∈ waiting) (member : child ∈ tree.children id) : child ∈ waiting :=
  layout.covered.subset (List.mem_append_right _ (List.mem_flatMap.mpr ⟨id, waits, member⟩))

theorem head_apart {errand : Errand} (layout : Layout ⟨tree, errand :: rest, waiting⟩) :
    ∀ other ∈ rest, other.child ≠ errand.child := by
  have distinct := layout.covered.nodup_iff.mpr layout.distinct
  have errands := (List.nodup_append.mp distinct).1
  rw [List.map_cons, List.nodup_cons] at errands
  intro other member same
  exact errands.1 (same ▸ List.mem_map_of_mem member)

theorem head_not_below {errand : Errand} (layout : Layout ⟨tree, errand :: rest, waiting⟩)
    {id : StatementId} (waits : id ∈ waiting) : errand.child ∉ tree.children id := by
  have distinct := layout.covered.nodup_iff.mpr layout.distinct
  intro listed
  exact (List.nodup_append.mp distinct).2.2 errand.child (by simp) errand.child
    (List.mem_flatMap.mpr ⟨id, waits, listed⟩) rfl

theorem waiting_lt (layout : Layout ⟨tree, pending, waiting⟩) :
    ∀ id ∈ waiting, id < tree.nextId := by
  intro id member
  obtain ⟨statement, found⟩ := layout.live id member
  exact lt_nextId_of_get? found

theorem target_settled (layout : Layout ⟨tree, pending, waiting⟩) {errand : Errand}
    (member : errand ∈ pending) :
    errand.target ∉ waiting ∧ ∃ statement, tree.get? errand.target = some statement := by
  obtain ⟨statement, found⟩ := layout.targets errand member
  obtain ⟨free, found⟩ := settled_eq_some.mp found
  exact ⟨free, statement, found⟩

theorem head_settled {errand : Errand} (layout : Layout ⟨tree, errand :: rest, waiting⟩) :
    errand.target ∉ waiting ∧ ∃ statement, tree.get? errand.target = some statement :=
  layout.target_settled List.mem_cons_self

theorem child_settled (layout : Layout ⟨tree, pending, waiting⟩) {scope child : StatementId}
    (free : scope ∉ waiting) (member : child ∈ tree.children scope) :
    child ∉ waiting ∧ ∃ statement, tree.get? child = some statement := by
  obtain ⟨above, found, listed⟩ := exists_of_mem_children member
  have aboveAt : tree.settled waiting scope = some above := settled_eq_some.mpr ⟨free, found⟩
  obtain ⟨below, belowAt, _⟩ := layout.formed.linked aboveAt listed
  obtain ⟨childFree, belowFound⟩ := settled_eq_some.mp belowAt
  exact ⟨childFree, below, belowFound⟩

theorem parent_settled (layout : Layout ⟨tree, pending, waiting⟩) {id parent : StatementId}
    {statement : Statement} (found : tree.settled waiting id = some statement)
    (parentAt : statement.parent = some parent) :
    ∃ above, tree.settled waiting parent = some above := by
  obtain ⟨above, aboveAt, _⟩ := layout.formed.exists_parent found parentAt
  exact ⟨above, aboveAt⟩

theorem pathStart_settled (layout : Layout ⟨tree, pending, waiting⟩) {target : StatementId}
    (targetAt : ∃ statement, tree.settled waiting target = some statement) (child : StatementId)
    (path : List Segment) : ∃ statement,
      tree.settled waiting ((tree.dropQualifier child).pathStart target path) = some statement := by
  apply pathStart_induction (fun id => ∃ statement, tree.settled waiting id = some statement) _
    targetAt
  rintro id parent ⟨statement, found⟩ parentAt
  rw [parent?_dropQualifier] at parentAt
  obtain ⟨free, foundHere⟩ := settled_eq_some.mp found
  simp only [parent?, foundHere, Option.bind_some] at parentAt
  exact layout.parent_settled found parentAt

theorem restage (layout : Layout ⟨tree, pending, waiting⟩) {changed : ScopeTree}
    {others : List Errand} (formed : (changed.settled waiting).WellFormed)
    (kept : ∀ id ∈ waiting, ∃ statement, changed.get? id = some statement ∧
      statement.children = tree.children id)
    (carried : others.map Errand.child = pending.map Errand.child)
    (targets : ∀ errand ∈ others, ∃ statement,
      changed.settled waiting errand.target = some statement) :
    Layout ⟨changed, others, waiting⟩ := by
  refine ⟨formed, ?_, layout.distinct, ?_, targets⟩
  · intro id member
    obtain ⟨statement, found, _⟩ := kept id member
    exact ⟨statement, found⟩
  · have sameChildren : waiting.flatMap changed.children = waiting.flatMap tree.children := by
      apply List.flatMap_congr
      intro id member
      obtain ⟨statement, found, children⟩ := kept id member
      rw [children_of_get? found, children]
    simp only [carried, sameChildren]
    exact layout.covered

theorem placed {child scope : StatementId} {statement : Statement}
    (layout : Layout ⟨tree, ⟨scope, [], child⟩ :: rest, waiting⟩) {changed : ScopeTree}
    {target : StatementId} (found : tree.get? child = some statement)
    (formed : (changed.settled (waiting.erase child)).WellFormed)
    (kept : ∀ id ∈ waiting.erase child, changed.get? id = tree.get? id)
    (lives : ∀ id, (∃ own, tree.settled waiting id = some own) →
      ∃ own, changed.settled (waiting.erase child) id = some own)
    (targetAt : ∃ own, changed.settled (waiting.erase child) target = some own) :
    Layout ⟨changed, errands target statement.children ++ rest, waiting.erase child⟩ := by
  have waits : child ∈ waiting := layout.head_waits
  refine ⟨formed, ?_, layout.distinct.erase child, ?_, ?_⟩
  · intro id member
    rw [kept id member]
    exact layout.live id (List.mem_of_mem_erase member)
  · have sameChildren : (waiting.erase child).flatMap changed.children =
        (waiting.erase child).flatMap tree.children := by
      apply List.flatMap_congr
      intro id member
      simp only [children, kept id member]
    have split : waiting.Perm (child :: waiting.erase child) := List.perm_cons_erase waits
    -- The errand's own statement goes away on both sides of `covered`; its children stay.
    have counted := (layout.covered.trans split)
    simp only [List.map_cons, List.cons_append] at counted
    have counted := ((split.flatMap_right tree.children).append_left
      (rest.map Errand.child)).symm.trans counted.cons_inv
    rw [List.flatMap_cons, children_of_get? found] at counted
    simp only [errands, List.map_append, List.map_map, sameChildren]
    refine List.Perm.trans ?_ counted
    simp only [Function.comp_def, List.map_id']
    rw [← List.append_assoc]
    exact List.Perm.append_right _ List.perm_append_comm
  · intro errand member
    rcases List.mem_append.mp member with new | old
    · obtain ⟨grandchild, _, rfl⟩ := List.mem_map.mp new
      exact targetAt
    · exact lives errand.target (layout.targets errand (by simp [old]))

end Layout

theorem keepsLinks_markWith (segment : Segment) : View.KeepsLinks (markWith segment) :=
  ⟨fun _ => rfl, fun _ => rfl⟩

theorem keepsLinks_absorb (incoming : Statement) :
    View.KeepsLinks fun own => absorbStatement own incoming :=
  ⟨fun _ => rfl, fun _ => rfl⟩

theorem Step.layout {stage next : Stage} (step : Step stage next) (layout : Layout stage) :
    Layout next := by
  cases step with
  | @reorder tree pending others waiting permuted =>
    refine ⟨layout.formed, layout.live, layout.distinct, ?_, ?_⟩
    · exact ((permuted.map Errand.child).symm.append_right _).trans layout.covered
    · exact fun errand member => layout.targets errand (permuted.symm.subset member)
  | @free tree target child rest waiting qualifier pendingQualifier =>
    have waits : child ∈ waiting := layout.head_waits
    apply layout.restage
    · rw [settled_dropQualifier waits]
      exact layout.formed
    · intro id member
      obtain ⟨statement, found⟩ := layout.live id member
      have live : ∃ own, (tree.dropQualifier child).get? id = some own := by
        simp [get?_dropQualifier, found]
      obtain ⟨own, ownAt⟩ := live
      exact ⟨own, ownAt, by rw [← children_of_get? ownAt, children_dropQualifier]⟩
    · rfl
    · intro errand member
      rw [settled_dropQualifier waits]
      rcases List.mem_cons.mp member with rfl | later
      · exact layout.pathStart_settled
          (layout.targets ⟨target, [], child⟩ List.mem_cons_self) child qualifier.segments
      · exact layout.targets errand (List.mem_cons_of_mem _ later)
  | @mark tree scope segment path child rest waiting existing found =>
    obtain ⟨scopeFree, _⟩ := layout.head_settled
    obtain ⟨free, own, ownAt⟩ := layout.child_settled scopeFree (containerChild?_eq_some found).1
    have settledAfter := @settled_modify tree waiting existing free (markWith segment)
    have lives (id : StatementId) (alive : ∃ own, tree.settled waiting id = some own) :
        ∃ own, (tree.modify existing (markWith segment)).settled waiting id = some own := by
      obtain ⟨before, beforeAt⟩ := alive
      obtain ⟨after, afterAt, _⟩ := View.exists_enrich existing (keepsLinks_markWith segment) beforeAt
      exact ⟨after, by rw [settledAfter, afterAt]⟩
    apply layout.restage
    · rw [settledAfter]
      exact layout.formed.enrich (keepsLinks_markWith segment)
    · intro id member
      obtain ⟨statement, statementAt⟩ := layout.live id member
      refine ⟨statement, ?_, (children_of_get? statementAt).symm⟩
      rw [get?_modify_waiting free member, statementAt]
    · rfl
    · intro errand member
      rcases List.mem_cons.mp member with rfl | later
      · exact lives existing ⟨own, settled_eq_some.mpr ⟨free, ownAt⟩⟩
      · exact lives errand.target (layout.targets errand (List.mem_cons_of_mem _ later))
  | @sprout tree scope segment path child rest waiting language found =>
    obtain ⟨scopeFree, above, aboveAt⟩ := layout.head_settled
    have bounded := layout.waiting_lt
    have inside := lt_nextId_of_get? aboveAt
    have settledAfter := settled_add (placeholder segment language) scopeFree bounded inside rfl
    have vacant : tree.settled waiting tree.nextId = none := by
      simp [settled, get?_eq_none_of_nextId_le]
    have aboveSettled : tree.settled waiting scope = some above :=
      settled_eq_some.mpr ⟨scopeFree, aboveAt⟩
    apply layout.restage
    · rw [settledAfter]
      exact layout.formed.grow vacant aboveSettled
    · intro id member
      obtain ⟨statement, statementAt⟩ := layout.live id member
      refine ⟨statement, ?_, (children_of_get? statementAt).symm⟩
      rw [get?_add_waiting scopeFree bounded member, statementAt]
    · rfl
    · intro errand member
      rw [settledAfter]
      rcases List.mem_cons.mp member with rfl | later
      · exact ⟨_, View.grow_self⟩
      · obtain ⟨before, beforeAt⟩ := layout.targets errand (List.mem_cons_of_mem _ later)
        obtain ⟨after, afterAt, _⟩ := View.exists_grow scope (placeholder segment language) vacant beforeAt
        exact ⟨after, afterAt⟩
  | @fold tree scope child rest waiting existing statement partner found plain =>
    have waits : child ∈ waiting := layout.head_waits
    obtain ⟨scopeFree, _⟩ := layout.head_settled
    obtain ⟨free, own, ownAt⟩ := layout.child_settled scopeFree (partner?_eq_some partner).1
    have settledAfter := @settled_fold tree waiting child existing layout.distinct waits free
      fun own => absorbStatement own statement
    have lives (id : StatementId) (alive : ∃ own, tree.settled waiting id = some own) :
        ∃ own, ((tree.vacate child).modify existing fun own => absorbStatement own statement).settled
          (waiting.erase child) id = some own := by
      obtain ⟨before, beforeAt⟩ := alive
      obtain ⟨after, afterAt, _⟩ := View.exists_enrich existing (keepsLinks_absorb statement) beforeAt
      exact ⟨after, by rw [settledAfter, afterAt]⟩
    apply layout.placed found
    · rw [settledAfter]
      exact layout.formed.enrich (keepsLinks_absorb statement)
    · exact fun id member => get?_fold_waiting layout.distinct free member _
    · exact lives
    · exact lives existing ⟨own, settled_eq_some.mpr ⟨free, ownAt⟩⟩
  | @hang tree scope child rest waiting statement partner found plain =>
    have waits : child ∈ waiting := layout.head_waits
    obtain ⟨scopeFree, above, aboveAt⟩ := layout.head_settled
    have settledAfter := settled_hang layout.distinct waits scopeFree found
    have vacant : tree.settled waiting child = none := by
      simp [settled, waits]
    apply layout.placed found
    · rw [settledAfter]
      exact layout.formed.grow vacant (settled_eq_some.mpr ⟨scopeFree, aboveAt⟩)
    · exact fun id member => get?_hang_waiting layout.distinct scopeFree member
    · rintro id ⟨before, beforeAt⟩
      rw [settledAfter]
      obtain ⟨after, afterAt, _⟩ := View.exists_grow scope statement vacant beforeAt
      exact ⟨after, afterAt⟩
    · rw [settledAfter]
      exact ⟨_, View.grow_self⟩

/-- What one step can do to the settled statements. -/
inductive Effect (stage : Stage) : View → Prop
  | none : Effect stage (stage.tree.settled stage.waiting)
  | marked {scope segment path child existing} :
      ⟨scope, segment :: path, child⟩ ∈ stage.pending →
      Effect stage ((stage.tree.settled stage.waiting).enrich existing (markWith segment))
  | sprouted {scope segment path child} (language : Language) :
      ⟨scope, segment :: path, child⟩ ∈ stage.pending →
      Effect stage ((stage.tree.settled stage.waiting).grow stage.tree.nextId scope
        (placeholder segment language))
  | absorbed {scope child existing statement} : child ∈ stage.waiting →
      stage.tree.partner? scope child = some existing → stage.tree.get? child = some statement →
      Effect stage ((stage.tree.settled stage.waiting).enrich existing fun own =>
        absorbStatement own statement)
  | hung {scope child statement} : child ∈ stage.waiting →
      stage.tree.get? child = some statement →
      Effect stage ((stage.tree.settled stage.waiting).grow child scope statement)

theorem Step.effect {stage next : Stage} (step : Step stage next) (layout : Layout stage) :
    Effect stage (next.tree.settled next.waiting) := by
  cases step with
  | reorder _ => exact .none
  | @free tree _ _ _ waiting _ _ =>
    rw [@settled_dropQualifier tree waiting _ layout.head_waits]
    exact .none
  | @mark tree _ segment _ _ _ waiting existing found =>
    obtain ⟨scopeFree, _⟩ := layout.head_settled
    obtain ⟨free, _⟩ := layout.child_settled scopeFree (containerChild?_eq_some found).1
    rw [@settled_modify tree waiting existing free (markWith segment)]
    exact .marked List.mem_cons_self
  | @sprout tree scope segment _ _ _ waiting language _ =>
    obtain ⟨scopeFree, above, aboveAt⟩ := layout.head_settled
    rw [@settled_add tree waiting scope (placeholder segment language) scopeFree layout.waiting_lt
      (lt_nextId_of_get? aboveAt) rfl]
    exact .sprouted language List.mem_cons_self
  | @fold tree scope child _ waiting existing statement partner found _ =>
    obtain ⟨scopeFree, _⟩ := layout.head_settled
    obtain ⟨free, _⟩ := layout.child_settled scopeFree (partner?_eq_some partner).1
    rw [@settled_fold tree waiting child existing layout.distinct layout.head_waits free]
    exact .absorbed layout.head_waits partner found
  | @hang tree scope child _ waiting statement _ found _ =>
    obtain ⟨scopeFree, _⟩ := layout.head_settled
    rw [settled_hang layout.distinct layout.head_waits scopeFree found]
    exact .hung layout.head_waits found

def Run : Stage → Stage → Prop := Relation.ReflTransGen Step

theorem Run.layout {stage last : Stage} (run : Run stage last) (layout : Layout stage) :
    Layout last := by
  induction run with
  | refl => exact layout
  | tail _ step ih => exact step.layout ih

end ScopeAtlas
