import ScopeAtlas.Proofs.Placement

/-!
A merge is a run of small steps. The bound on the levels of `placeAll` is never met: what waits
has a rank that grows from a statement to its children and stays below the bound.

The main statement is `merge_run`: the merge of well formed trees is a run from the first stage,
in which only the roots have been folded together, to a stage where nothing waits.
-/

namespace ScopeAtlas

open ScopeTree

structure Ranked (rank : StatementId → Nat) (bound : Nat) (tree : ScopeTree)
    (waiting : List StatementId) : Prop where
  below : ∀ id ∈ waiting, rank id < bound
  inner : ∀ id ∈ waiting, ∀ child ∈ tree.children id, rank id < rank child

/-- Some errands have been done by steps, and whatever still waits is as it was. -/
def Processed (tree : ScopeTree) (done rest : List Errand) (waiting : List StatementId)
    (after : ScopeTree) : Prop :=
  ∃ left, Run ⟨tree, done ++ rest, waiting⟩ ⟨after, rest, left⟩ ∧
    ∀ id ∈ left, id ∈ waiting ∧ id ∉ done.map Errand.child ∧ after.get? id = tree.get? id

/-- A way to place statements that needs at most `depth` levels. -/
def Places (rank : StatementId → Nat) (bound depth : Nat)
    (placer : ScopeTree → StatementId → List StatementId → ScopeTree) : Prop :=
  ∀ tree target children rest waiting, Layout ⟨tree, errands target children ++ rest, waiting⟩ →
    Ranked rank bound tree waiting → (∀ child ∈ children, bound ≤ depth + rank child) →
    Processed tree (errands target children) rest waiting (placer tree target children)

variable {rank : StatementId → Nat} {bound depth : Nat} {tree : ScopeTree}
  {rest : List Errand} {waiting : List StatementId}

theorem Ranked.mono (ranked : Ranked rank bound tree waiting) {after : ScopeTree}
    {left : List StatementId} (inside : ∀ id ∈ left, id ∈ waiting)
    (kept : ∀ id ∈ left, after.children id = tree.children id) : Ranked rank bound after left := by
  refine ⟨fun id member => ranked.below id (inside id member), ?_⟩
  intro id member child childMember
  rw [kept id member] at childMember
  exact ranked.inner id (inside id member) child childMember

theorem Ranked.after (ranked : Ranked rank bound tree waiting) {after : ScopeTree}
    {left : List StatementId} (kept : ∀ id ∈ left, id ∈ waiting ∧ after.get? id = tree.get? id) :
    Ranked rank bound after left := by
  apply ranked.mono fun id member => (kept id member).1
  intro id member
  simp only [children, (kept id member).2]

theorem Ranked.eq_nil (ranked : Ranked rank bound tree waiting)
    (layout : Layout ⟨tree, [], waiting⟩) : waiting = [] := by
  have absent : ∀ level id, rank id = level → id ∉ waiting := by
    intro level
    induction level using Nat.strongRecOn with
    | ind level ih =>
      intro id same member
      have listed := layout.covered.symm.subset member
      rw [List.map_nil, List.nil_append, List.mem_flatMap] at listed
      obtain ⟨parent, parentMember, childMember⟩ := listed
      have lower := ranked.inner parent parentMember id childMember
      exact ih (rank parent) (same ▸ lower) parent rfl parentMember
  exact List.eq_nil_iff_forall_not_mem.mpr fun id => absent (rank id) id rfl

theorem Processed.nothing : Processed tree [] rest waiting tree :=
  ⟨waiting, .refl, fun id member => ⟨member, by simp, rfl⟩⟩

theorem Processed.append (first second : List Errand) {middle after : ScopeTree}
    (layout : Layout ⟨tree, first ++ second ++ rest, waiting⟩)
    (ranked : Ranked rank bound tree waiting)
    (start : Processed tree first (second ++ rest) waiting middle)
    (next : ∀ left, Layout ⟨middle, second ++ rest, left⟩ → Ranked rank bound middle left →
      (∀ id ∈ left, middle.get? id = tree.get? id) → Processed middle second rest left after) :
    Processed tree (first ++ second) rest waiting after := by
  obtain ⟨left, run, kept⟩ := start
  rw [List.append_assoc] at layout
  have layoutNext := run.layout layout
  have rankedNext := ranked.after fun id member => ⟨(kept id member).1, (kept id member).2.2⟩
  obtain ⟨last, runNext, keptNext⟩ := next left layoutNext rankedNext
    fun id member => (kept id member).2.2
  refine ⟨last, ?_, ?_⟩
  · rw [List.append_assoc]
    exact run.trans runNext
  · intro id member
    obtain ⟨inLeft, notSecond, sameAfter⟩ := keptNext id member
    obtain ⟨inWaiting, notFirst, same⟩ := kept id inLeft
    refine ⟨inWaiting, ?_, sameAfter.trans same⟩
    simp [notFirst, notSecond]

theorem Processed.reorder {done others : List Errand} {after : ScopeTree}
    (permuted : done.Perm others) (processed : Processed tree others rest waiting after) :
    Processed tree done rest waiting after := by
  obtain ⟨left, run, kept⟩ := processed
  refine ⟨left, .head (.reorder (permuted.append_right rest)) run, ?_⟩
  intro id member
  obtain ⟨inWaiting, notOthers, same⟩ := kept id member
  exact ⟨inWaiting, fun inDone => notOthers ((permuted.map Errand.child).subset inDone), same⟩

theorem Processed.descend {placer : ScopeTree → StatementId → List StatementId → ScopeTree}
    (places : Places rank bound depth placer) {scope target child : StatementId}
    {statement : Statement} {changed : ScopeTree}
    (layout : Layout ⟨tree, ⟨scope, [], child⟩ :: rest, waiting⟩)
    (ranked : Ranked rank bound tree waiting) (found : tree.get? child = some statement)
    (enough : bound ≤ depth + 1 + rank child)
    (step : Step ⟨tree, ⟨scope, [], child⟩ :: rest, waiting⟩
      ⟨changed, errands target statement.children ++ rest, waiting.erase child⟩)
    (kept : ∀ id ∈ waiting.erase child, changed.get? id = tree.get? id) :
    Processed tree [⟨scope, [], child⟩] rest waiting
      (placer changed target statement.children) := by
  have rankedNext : Ranked rank bound changed (waiting.erase child) :=
    ranked.after fun id member => ⟨List.mem_of_mem_erase member, kept id member⟩
  obtain ⟨left, run, keptNext⟩ := places changed target statement.children rest
    (waiting.erase child) (step.layout layout) rankedNext (by
      intro grandchild member
      rw [← children_of_get? found] at member
      have lower := ranked.inner child layout.head_waits grandchild member
      omega)
  refine ⟨left, .head step run, ?_⟩
  intro id member
  obtain ⟨inErased, _, same⟩ := keptNext id member
  refine ⟨List.mem_of_mem_erase inErased, ?_, same.trans (kept id inErased)⟩
  simp only [List.map_cons, List.map_nil, List.mem_singleton]
  rintro rfl
  exact layout.distinct.not_mem_erase inErased

theorem placeChild_processed {placer : ScopeTree → StatementId → List StatementId → ScopeTree}
    (places : Places rank bound depth placer) {scope child : StatementId}
    (layout : Layout ⟨tree, ⟨scope, [], child⟩ :: rest, waiting⟩)
    (ranked : Ranked rank bound tree waiting) (plain : tree.isQualified child = false)
    (enough : bound ≤ depth + 1 + rank child) :
    Processed tree [⟨scope, [], child⟩] rest waiting (placeChild placer tree scope child) := by
  obtain ⟨statement, found⟩ := layout.live child layout.head_waits
  obtain ⟨scopeFree, _⟩ := layout.head_settled
  unfold placeChild
  cases partner : tree.partner? scope child with
  | some existing =>
    obtain ⟨free, _⟩ := layout.child_settled scopeFree (partner?_eq_some partner).1
    have different : existing ≠ child := by
      rintro rfl
      exact free layout.head_waits
    simp only [foldInto, if_neg different, found]
    apply Processed.descend places layout ranked found enough (.fold partner found plain)
    exact fun id member => get?_fold_waiting layout.distinct free member _
  | none =>
    simp only [found]
    apply Processed.descend places layout ranked found enough (.hang partner found plain)
    exact fun id member => get?_hang_waiting layout.distinct scopeFree member

theorem enterSegment_of_some {scope existing : StatementId} {segment : Segment}
    (found : tree.containerChild? scope segment.name = some existing) (language : Language) :
    tree.enterSegment scope segment language =
      (tree.modify existing (markWith segment), existing) := by
  simp only [enterSegment, found]
  rfl

theorem enterSegment_of_none {scope : StatementId} {segment : Segment}
    (missing : tree.containerChild? scope segment.name = none) (language : Language) :
    tree.enterSegment scope segment language =
      (tree.add scope (placeholder segment language), tree.nextId) := by
  simp only [enterSegment, missing]
  rfl

theorem enterSegments_run {scope child : StatementId} {path : List Segment} (language : Language)
    (layout : Layout ⟨tree, ⟨scope, path, child⟩ :: rest, waiting⟩) :
    Run ⟨tree, ⟨scope, path, child⟩ :: rest, waiting⟩
      ⟨(tree.enterSegments scope language path).1,
        ⟨(tree.enterSegments scope language path).2, [], child⟩ :: rest, waiting⟩ ∧
      ∀ id ∈ waiting, (tree.enterSegments scope language path).1.get? id = tree.get? id := by
  induction path generalizing tree scope with
  | nil => exact ⟨.refl, fun _ _ => rfl⟩
  | cons segment path ih =>
    obtain ⟨scopeFree, above, aboveAt⟩ := layout.head_settled
    cases found : tree.containerChild? scope segment.name with
    | some existing =>
      have step : Step ⟨tree, ⟨scope, segment :: path, child⟩ :: rest, waiting⟩ _ := .mark found
      obtain ⟨run, kept⟩ := ih (step.layout layout)
      simp only [enterSegments, enterSegment_of_some found]
      refine ⟨.head step run, ?_⟩
      intro id member
      obtain ⟨free, _⟩ := layout.child_settled scopeFree (containerChild?_eq_some found).1
      rw [kept id member, get?_modify_waiting free member]
    | none =>
      have step : Step ⟨tree, ⟨scope, segment :: path, child⟩ :: rest, waiting⟩ _ :=
        .sprout language found
      obtain ⟨run, kept⟩ := ih (step.layout layout)
      simp only [enterSegments, enterSegment_of_none found]
      refine ⟨.head step run, ?_⟩
      intro id member
      rw [kept id member, get?_add_waiting scopeFree layout.waiting_lt member]

theorem isQualified_eq {id : StatementId} :
    tree.isQualified id = ((tree.scope? id).bind NamedScope.qualifier).isSome := by
  unfold isQualified
  cases tree.scope? id with
  | none => rfl
  | some scope => rfl

theorem isQualified_congr {after : ScopeTree} {id : StatementId}
    (same : after.get? id = tree.get? id) : after.isQualified id = tree.isQualified id := by
  simp only [isQualified, scope?, same]

theorem isQualified_dropQualifier (child : StatementId) :
    (tree.dropQualifier child).isQualified child = false := by
  simp only [isQualified, scope?, get?_dropQualifier, if_true]
  cases tree.get? child with
  | none => rfl
  | some statement =>
    simp only [Option.map_some, Option.bind_some, Statement.scope?]
    cases statement.kind <;> rfl

theorem placeEntered_processed {placer : ScopeTree → StatementId → List StatementId → ScopeTree}
    (places : Places rank bound depth placer) (language : Language) {start child : StatementId}
    {path : List Segment} (arrived : Layout ⟨tree, ⟨start, path, child⟩ :: rest, waiting⟩)
    (ranked : Ranked rank bound tree waiting) (plain : tree.isQualified child = false)
    (enough : bound ≤ depth + 1 + rank child) :
    Processed tree [⟨start, path, child⟩] rest waiting
      (placeChild placer (tree.enterSegments start language path).1
        (tree.enterSegments start language path).2 child) := by
  obtain ⟨entering, kept⟩ := enterSegments_run language arrived
  have plainEntered : (tree.enterSegments start language path).1.isQualified child = false := by
    rw [isQualified_congr (kept child arrived.head_waits), plain]
  obtain ⟨left, placing, keptLast⟩ := placeChild_processed places (entering.layout arrived)
    (ranked.after fun id member => ⟨member, kept id member⟩) plainEntered enough
  refine ⟨left, entering.trans placing, ?_⟩
  intro id member
  obtain ⟨waits, notDone, same⟩ := keptLast id member
  exact ⟨waits, notDone, same.trans (kept id waits)⟩

theorem Processed.free {scope start child : StatementId} {path : List Segment} {after : ScopeTree}
    (step : Step ⟨tree, ⟨scope, [], child⟩ :: rest, waiting⟩
      ⟨tree.dropQualifier child, ⟨start, path, child⟩ :: rest, waiting⟩)
    (processed : Processed (tree.dropQualifier child) [⟨start, path, child⟩] rest waiting after) :
    Processed tree [⟨scope, [], child⟩] rest waiting after := by
  obtain ⟨left, run, kept⟩ := processed
  refine ⟨left, .head step run, ?_⟩
  intro id member
  obtain ⟨waits, notDone, same⟩ := kept id member
  have notChild : id ≠ child := by simpa using notDone
  refine ⟨waits, notDone, ?_⟩
  rw [same]
  simp [get?_dropQualifier, notChild]

theorem Ranked.dropQualifier (ranked : Ranked rank bound tree waiting) (child : StatementId) :
    Ranked rank bound (tree.dropQualifier child) waiting :=
  ranked.mono (fun _ member => member) fun id _ => children_dropQualifier child id

theorem placeQualified_processed {placer : ScopeTree → StatementId → List StatementId → ScopeTree}
    (places : Places rank bound depth placer) {scope child : StatementId}
    (layout : Layout ⟨tree, ⟨scope, [], child⟩ :: rest, waiting⟩)
    (ranked : Ranked rank bound tree waiting) (enough : bound ≤ depth + 1 + rank child) :
    Processed tree [⟨scope, [], child⟩] rest waiting (placeQualified placer tree scope child) := by
  unfold placeQualified
  cases pendingQualifier : (tree.scope? child).bind NamedScope.qualifier with
  | none =>
    have plain : tree.isQualified child = false := by
      rw [isQualified_eq, pendingQualifier]
      rfl
    exact placeChild_processed places layout ranked plain enough
  | some qualifier =>
    have step : Step ⟨tree, ⟨scope, [], child⟩ :: rest, waiting⟩ _ := .free pendingQualifier
    have freed := step.layout layout
    have rankedFreed := ranked.dropQualifier child
    have plain := @isQualified_dropQualifier tree child
    simp only
    cases path : qualifier.segments with
    | nil =>
      rw [path] at step freed
      exact .free step (placeChild_processed places freed rankedFreed plain enough)
    | cons first others =>
      rw [path] at step freed
      exact .free step (placeEntered_processed places _ freed rankedFreed plain enough)

theorem foldl_processed {place : ScopeTree → StatementId → ScopeTree} {target : StatementId}
    (ready : ScopeTree → StatementId → Prop)
    (stable : ∀ before after id, after.get? id = before.get? id → ready before id → ready after id)
    (each : ∀ tree child rest waiting, Layout ⟨tree, ⟨target, [], child⟩ :: rest, waiting⟩ →
      Ranked rank bound tree waiting → ready tree child → bound ≤ depth + 1 + rank child →
      Processed tree [⟨target, [], child⟩] rest waiting (place tree child))
    (children : List StatementId) :
    ∀ tree rest waiting, Layout ⟨tree, errands target children ++ rest, waiting⟩ →
      Ranked rank bound tree waiting →
      (∀ child ∈ children, ready tree child ∧ bound ≤ depth + 1 + rank child) →
      Processed tree (errands target children) rest waiting (children.foldl place tree) := by
  induction children with
  | nil => exact fun tree rest waiting _ _ _ => .nothing
  | cons child others ih =>
    intro tree rest waiting layout ranked enough
    have first := enough child List.mem_cons_self
    refine Processed.append [⟨target, [], child⟩] (errands target others)
      layout ranked (each tree child _ waiting layout ranked first.1 first.2) ?_
    intro left layoutNext rankedNext same
    apply ih (place tree child) rest left layoutNext rankedNext
    intro later member
    have brought : (⟨target, [], later⟩ : Errand) ∈ errands target others ++ rest :=
      List.mem_append_left _ (List.mem_map.mpr ⟨later, member, rfl⟩)
    have waits : later ∈ left := layoutNext.child_waits brought
    obtain ⟨readyBefore, enoughLater⟩ := enough later (List.mem_cons_of_mem _ member)
    exact ⟨stable tree _ later (same later waits) readyBefore, enoughLater⟩

theorem errands_sorted (tree : ScopeTree) (target : StatementId) (children : List StatementId) :
    (errands target children).Perm
      (errands target (children.filter fun child => !tree.isQualified child) ++
        errands target (children.filter tree.isQualified)) := by
  simp only [errands, ← List.map_append]
  exact (List.perm_append_comm.trans
    (List.filter_append_perm tree.isQualified children)).symm.map _

theorem placeAll_places (depth : Nat) : Places rank bound depth (placeAll depth) := by
  induction depth with
  | zero =>
    intro tree target children rest waiting layout ranked enough
    cases children with
    | nil => exact .nothing
    | cons child others =>
      have waits : child ∈ waiting := layout.head_waits
      have below := ranked.below child waits
      have reached := enough child List.mem_cons_self
      omega
  | succ depth ih =>
    intro tree target children rest waiting layout ranked enough
    have sorted := errands_sorted tree target children
    apply Processed.reorder sorted
    have layoutSorted := (Step.reorder (sorted.append_right rest)).layout layout
    unfold placeAll
    apply Processed.append _ _ layoutSorted ranked
    · apply foldl_processed (fun tree child => tree.isQualified child = false)
      · intro before after id same plain
        rw [isQualified_congr same, plain]
      · exact fun tree child rest waiting layout ranked plain enough =>
          placeChild_processed ih layout ranked plain enough
      · rwa [← List.append_assoc]
      · exact ranked
      · intro child member
        have kept := List.mem_filter.mp member
        exact ⟨by simpa using kept.2, enough child kept.1⟩
    · intro left layoutNext rankedNext same
      apply foldl_processed fun _ _ => True
      · exact fun _ _ _ _ _ => trivial
      · exact fun tree child rest waiting layout ranked _ enough =>
          placeQualified_processed ih layout ranked enough
      · exact layoutNext
      · exact rankedNext
      · exact fun child member => ⟨trivial, enough child (List.mem_filter.mp member).1⟩

/-! The first stage of a merge: the roots are folded together and everything else waits. -/

section FirstStage

variable {other : ScopeTree}

theorem nodup_ids (tree : ScopeTree) : tree.ids.Nodup :=
  List.nodup_range.filter _

theorem mem_ids_of_get? {id : StatementId} {statement : Statement}
    (found : tree.get? id = some statement) : id ∈ tree.ids := by
  simp [mem_ids, isLive, found]

theorem exists_of_mem_ids {id : StatementId} (member : id ∈ tree.ids) :
    ∃ statement, tree.get? id = some statement := by
  rw [mem_ids, isLive] at member
  exact Option.isSome_iff_exists.mp member

def innerIds (tree : ScopeTree) : List StatementId :=
  tree.ids.filter fun id => id != root

theorem ids_perm_root {top : Statement} (topAt : tree.get? root = some top) :
    tree.ids.Perm (root :: innerIds tree) := by
  have split := List.filter_append_perm (fun id => id == root) tree.ids
  have onlyRoot : tree.ids.filter (fun id => id == root) = [root] := by
    rw [List.filter_beq, List.count_eq_one_of_mem (nodup_ids tree) (mem_ids_of_get? topAt)]
    rfl
  rw [onlyRoot] at split
  exact split.symm

theorem flatMap_children_perm (formed : tree.WellFormed) :
    (tree.ids.flatMap tree.children).Perm (innerIds tree) := by
  rw [List.perm_ext_iff_of_nodup]
  · intro id
    simp only [innerIds, List.mem_flatMap, List.mem_filter, bne_iff_ne]
    constructor
    · rintro ⟨parent, parentMember, member⟩
      obtain ⟨above, aboveAt⟩ := exists_of_mem_ids parentMember
      rw [children_of_get? aboveAt] at member
      obtain ⟨below, belowAt, _⟩ := formed.linked aboveAt member
      exact ⟨mem_ids_of_get? belowAt, formed.child_ne_root aboveAt member⟩
    · rintro ⟨member, notRoot⟩
      obtain ⟨statement, found⟩ := exists_of_mem_ids member
      obtain ⟨parent, above, _, aboveAt, listed⟩ := formed.listed found notRoot
      exact ⟨parent, mem_ids_of_get? aboveAt, by rwa [children_of_get? aboveAt]⟩
  · rw [List.nodup_flatMap]
    refine ⟨?_, (nodup_ids tree).imp_of_mem ?_⟩
    · intro id member
      obtain ⟨statement, found⟩ := exists_of_mem_ids member
      rw [children_of_get? found]
      exact formed.unrepeated found
    · intro first second firstMember secondMember different child inFirst inSecond
      obtain ⟨one, oneAt⟩ := exists_of_mem_ids firstMember
      obtain ⟨two, twoAt⟩ := exists_of_mem_ids secondMember
      rw [children_of_get? oneAt] at inFirst
      rw [children_of_get? twoAt] at inSecond
      obtain ⟨below, belowAt, parentAt⟩ := formed.linked oneAt inFirst
      have parentAt' := formed.parent_of_child twoAt inSecond belowAt
      rw [parentAt, Option.some.injEq] at parentAt'
      exact different parentAt'
  · exact (nodup_ids tree).filter _

def firstStage (tree other : ScopeTree) (top : Statement) : Stage :=
  ⟨((tree.append other).vacate tree.nextId).modify root fun own =>
      absorbStatement own (shiftStatement tree.nextId top),
    errands root (shiftStatement tree.nextId top).children,
    (innerIds other).map (· + tree.nextId)⟩

theorem mem_firstStage_waiting {top : Statement} {id : StatementId} :
    id ∈ (firstStage tree other top).waiting ↔
      ∃ inner, inner ≠ root ∧ id = inner + tree.nextId ∧
        ∃ statement, other.get? inner = some statement := by
  simp only [firstStage, innerIds, List.mem_map, List.mem_filter, bne_iff_ne]
  constructor
  · rintro ⟨inner, ⟨member, notRoot⟩, rfl⟩
    exact ⟨inner, notRoot, rfl, exists_of_mem_ids member⟩
  · rintro ⟨inner, notRoot, rfl, statement, found⟩
    exact ⟨inner, ⟨mem_ids_of_get? found, notRoot⟩, rfl⟩

theorem root_lt_nextId (formed : tree.WellFormed) : root < tree.nextId := by
  obtain ⟨top, topAt, _⟩ := formed.top
  exact lt_nextId_of_get? topAt

theorem firstStage_get?_waiting (formed : tree.WellFormed) {top statement : Statement}
    {inner : StatementId} (notRoot : inner ≠ root) (found : other.get? inner = some statement) :
    (firstStage tree other top).tree.get? (inner + tree.nextId) =
      some (shiftStatement tree.nextId statement) := by
  have positive := root_lt_nextId formed
  have notTop : root ≠ inner + tree.nextId := by
    intro same
    rw [same] at positive
    exact Nat.not_lt.mpr (Nat.le_add_left _ _) positive
  have notVacated : tree.nextId ≠ inner + tree.nextId := by
    intro same
    exact notRoot (Nat.add_eq_right.mp same.symm)
  have beyond : ¬inner + tree.nextId < tree.nextId := Nat.not_lt.mpr (Nat.le_add_left _ _)
  simp only [firstStage, get?_modify, if_neg notTop, get?_vacate, if_neg notVacated, get?_append,
    if_neg beyond]
  have lowered : inner + tree.nextId - tree.nextId = inner := Nat.add_sub_cancel _ _
  rw [lowered, found]
  rfl

theorem firstStage_settled (formed : tree.WellFormed) (top : Statement) :
    (firstStage tree other top).tree.settled (firstStage tree other top).waiting =
      View.enrich tree.get? root fun own =>
        absorbStatement own (shiftStatement tree.nextId top) := by
  have positive := root_lt_nextId formed
  funext id
  by_cases own : id < tree.nextId
  · have notWaiting : id ∉ (firstStage tree other top).waiting := by
      intro waits
      obtain ⟨inner, _, same, _⟩ := mem_firstStage_waiting.mp waits
      rw [same] at own
      exact Nat.not_lt.mpr (Nat.le_add_left _ _) own
    have notVacated : tree.nextId ≠ id := Nat.ne_of_gt own
    rw [settled_of_not_mem notWaiting]
    simp only [firstStage, get?_modify, get?_vacate, if_neg notVacated, get?_append, if_pos own,
      View.enrich]
    by_cases isRoot : id = root
    · simp [isRoot]
    · simp [isRoot, Ne.symm isRoot]
  · have notRoot : id ≠ root := by
      rintro rfl
      exact own positive
    have absent : tree.get? id = none := get?_eq_none_of_nextId_le (Nat.le_of_not_lt own)
    rw [View.enrich_other notRoot, absent]
    by_cases waits : id ∈ (firstStage tree other top).waiting
    · simp [settled, waits]
    · rw [settled_of_not_mem waits]
      simp only [firstStage, get?_modify, if_neg (Ne.symm notRoot), get?_vacate, get?_append,
        if_neg own]
      by_cases vacated : tree.nextId = id
      · simp [vacated]
      · simp only [if_neg vacated, Option.map_eq_none_iff]
        cases found : other.get? (id - tree.nextId) with
        | none => rfl
        | some statement =>
          have reached : tree.nextId ≤ id := Nat.le_of_not_lt own
          have inner : id - tree.nextId ≠ root := by
            intro isRoot
            exact vacated (Nat.le_antisymm reached (Nat.sub_eq_zero_iff_le.mp isRoot))
          exact absurd (mem_firstStage_waiting.mpr ⟨id - tree.nextId, inner,
            (Nat.sub_add_cancel reached).symm, statement, found⟩) waits

theorem firstStage_children (formed : tree.WellFormed) (top : Statement) {inner : StatementId}
    (member : inner ∈ innerIds other) :
    (firstStage tree other top).tree.children (inner + tree.nextId) =
      (other.children inner).map (· + tree.nextId) := by
  simp only [innerIds, List.mem_filter, bne_iff_ne] at member
  obtain ⟨statement, found⟩ := exists_of_mem_ids member.1
  rw [children_of_get? (firstStage_get?_waiting formed member.2 found), children_of_get? found]
  rfl

theorem firstStage_layout (formed : tree.WellFormed) (otherFormed : other.WellFormed)
    {top : Statement} (topAt : other.get? root = some top) :
    Layout (firstStage tree other top) := by
  refine ⟨?_, ?_, ?_, ?_, ?_⟩
  · rw [firstStage_settled formed top]
    exact View.WellFormed.enrich formed (keepsLinks_absorb _)
  · intro id member
    obtain ⟨inner, notRoot, rfl, statement, found⟩ := mem_firstStage_waiting.mp member
    exact ⟨_, firstStage_get?_waiting formed notRoot found⟩
  · exact ((nodup_ids other).filter _).map fun first second same => Nat.add_right_cancel same
  · have rootFirst := ids_perm_root topAt
    have raised : (firstStage tree other top).waiting.flatMap
        (firstStage tree other top).tree.children =
          ((innerIds other).flatMap other.children).map (· + tree.nextId) := by
      simp only [firstStage, List.flatMap_map, List.map_flatMap]
      apply List.flatMap_congr
      intro inner member
      exact firstStage_children formed top member
    rw [raised]
    have brought : (firstStage tree other top).pending.map Errand.child =
        (other.children root).map (· + tree.nextId) := by
      rw [children_of_get? topAt]
      simp [firstStage, errands, shiftStatement, Function.comp_def]
    rw [brought, ← List.map_append]
    apply List.Perm.map
    have listed := flatMap_children_perm otherFormed
    exact (rootFirst.flatMap_right other.children).symm.trans listed
  · intro errand member
    obtain ⟨child, _, rfl⟩ := List.mem_map.mp member
    rw [firstStage_settled formed top]
    obtain ⟨own, ownAt, _⟩ := formed.top
    exact ⟨_, View.enrich_self ownAt⟩

theorem merge_eq (formed : tree.WellFormed) {top : Statement} (topAt : other.get? root = some top) :
    tree.merge other = placeAll ((tree.append other).nextId + 1) (firstStage tree other top).tree
      root (shiftStatement tree.nextId top).children := by
  have positive := root_lt_nextId formed
  have different : root ≠ tree.nextId := Nat.ne_of_lt positive
  have rootAt : (tree.append other).get? tree.nextId = some (shiftStatement tree.nextId top) := by
    rw [get?_append, if_neg (Nat.lt_irrefl _), Nat.sub_self]
    change (other.get? root).map _ = _
    rw [topAt]
    rfl
  simp only [merge, foldInto, if_neg different, rootAt]
  rfl

theorem firstStage_ranked (formed : tree.WellFormed) (otherFormed : other.WellFormed)
    (top : Statement) : Ranked (fun id => View.depth other.get? (id - tree.nextId))
      (tree.append other).nextId (firstStage tree other top).tree
      (firstStage tree other top).waiting := by
  constructor
  · intro id member
    obtain ⟨inner, _, rfl, statement, found⟩ := mem_firstStage_waiting.mp member
    have bound := otherFormed.depth_lt found
    rw [nextId_append]
    have lowered : inner + tree.nextId - tree.nextId = inner := Nat.add_sub_cancel _ _
    rw [lowered]
    exact Nat.lt_of_lt_of_le bound (Nat.le_add_left _ _)
  · intro id member child childMember
    obtain ⟨inner, notRoot, rfl, statement, found⟩ := mem_firstStage_waiting.mp member
    rw [children_of_get? (firstStage_get?_waiting formed notRoot found)] at childMember
    obtain ⟨innerChild, innerMember, rfl⟩ := List.mem_map.mp childMember
    have deeper := otherFormed.depth_child found innerMember
    simp only [Nat.add_sub_cancel]
    omega

/-- The merge of well formed trees is a run that ends when nothing waits. -/
theorem merge_run (formed : tree.WellFormed) (otherFormed : other.WellFormed)
    {top : Statement} (topAt : other.get? root = some top) :
    Run (firstStage tree other top) ⟨tree.merge other, [], []⟩ := by
  have layout := firstStage_layout formed otherFormed topAt
  have ranked := firstStage_ranked formed otherFormed top
  obtain ⟨left, run, kept⟩ := placeAll_places ((tree.append other).nextId + 1)
    (firstStage tree other top).tree root (shiftStatement tree.nextId top).children []
    (firstStage tree other top).waiting (by rw [List.append_nil]; exact layout) ranked
    (fun child _ => Nat.le_trans (Nat.le_succ _) (Nat.le_add_right _ _))
  rw [List.append_nil, ← merge_eq formed topAt] at run
  rw [← merge_eq formed topAt] at kept
  have nothing : left = [] :=
    (ranked.after fun id member => ⟨(kept id member).1, (kept id member).2.2⟩).eq_nil
      (run.layout layout)
  exact nothing ▸ run

theorem merge_wellFormed (formed : tree.WellFormed) (otherFormed : other.WellFormed) :
    (tree.merge other).WellFormed := by
  obtain ⟨top, topAt, _⟩ := otherFormed.top
  have layout := (merge_run formed otherFormed topAt).layout
    (firstStage_layout formed otherFormed topAt)
  have wellFormed := layout.formed
  rwa [settled_nil] at wellFormed

end FirstStage

end ScopeAtlas
