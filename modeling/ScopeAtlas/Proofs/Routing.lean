import Mathlib.Algebra.BigOperators.Group.List.Basic
import Mathlib.Data.List.Find
import Mathlib.Data.List.Infix
import Mathlib.Data.Multiset.OrderedMonoid
import ScopeAtlas.Proofs.Plotting

/-!
Where the statements of a unit arrive. A qualifier is followed from the nearest scope around it
that has a container of its first name. As long as that scope stays the same while the unit is
merged, every statement has a route that is known from the beginning. Then the chart so far, what
the segments still to be followed will leave and what the waiting statements hold always add up to
the same chart, so in the end the chart has grown by the chart of the unit.
-/

namespace ScopeAtlas

open ScopeTree

/-! The loads of a stage: what is still to be added to the chart. -/

def errandLoad (label : StatementId → Route) (pending : List Errand) : Chart :=
  (pending.map fun errand => segmentChart (label errand.target) errand.path).sum

def waitingLoad (tree : ScopeTree) (start route : StatementId → Route)
    (waiting : List StatementId) : Chart :=
  (waiting.map fun id => ((tree.get? id).map (Statement.burden (start id) (route id))).getD 0).sum

section Loads

variable {label start route : StatementId → Route} {tree after : ScopeTree}
  {waiting : List StatementId} {pending : List Errand}

theorem errandLoad_cons (errand : Errand) : errandLoad label (errand :: pending) =
    segmentChart (label errand.target) errand.path + errandLoad label pending := by
  simp [errandLoad]

theorem errandLoad_errands (target : StatementId) (children : List StatementId) :
    errandLoad label (errands target children ++ pending) = errandLoad label pending := by
  induction children with
  | nil => rfl
  | cons child rest ih =>
    rw [← ih, errands, List.map_cons, List.cons_append, errandLoad_cons, segmentChart_nil, zero_add]
    rfl

theorem errandLoad_congr {other : StatementId → Route}
    (same : ∀ errand ∈ pending, other errand.target = label errand.target) :
    errandLoad other pending = errandLoad label pending := by
  unfold errandLoad
  congr 1
  apply List.map_congr_left
  intro errand member
  rw [same errand member]

theorem waitingLoad_congr (same : ∀ id ∈ waiting, after.get? id = tree.get? id) :
    waitingLoad after start route waiting = waitingLoad tree start route waiting := by
  unfold waitingLoad
  congr 1
  apply List.map_congr_left
  intro id member
  rw [same id member]

theorem waitingLoad_erase {child : StatementId} {statement : Statement} (waits : child ∈ waiting)
    (found : tree.get? child = some statement) : statement.burden (start child) (route child) +
      waitingLoad tree start route (waiting.erase child) = waitingLoad tree start route waiting := by
  have split := List.sum_map_erase
    (fun id => ((tree.get? id).map (Statement.burden (start id) (route id))).getD 0) waits
  simpa [waitingLoad, found] using split

theorem burden_of_unqualified {statement : Statement} (free : statement.qualifier? = none)
    (start route : Route) : statement.burden start route = Pi.single route ↑statement.marks := by
  rw [Statement.burden, pendingPath_of_unqualified free, segmentChart_nil, zero_add]

end Loads

open Classical in
/-- Where a path is followed from: the nearest scope at or around the base that has a container of
the first name, or else the base. -/
noncomputable def startRoute (known : Route → Prop) (base : Route) : List Segment → Route
  | [] => base
  | first :: _ => (base.inits.reverse.find? fun level => known (level ++ containers [first])).getD base

section Starts

theorem startRoute_nil {known : Route → Prop} (path : List Segment) :
    startRoute known [] path = [] := by
  cases path with
  | nil => rfl
  | cons first others =>
    rw [startRoute, List.inits, List.reverse_singleton, List.find?_singleton]
    split
    · rfl
    · rfl

theorem find?_getD_steady {α : Type} [DecidableEq α] {first second : α → Bool} {items : List α}
    {default : α} (more : ∀ item, first item = true → second item = true)
    (each : ∀ item ∈ items, second item = true →
      (items.find? fun other => first other || other == item).getD default =
        (items.find? first).getD default) :
    (items.find? second).getD default = (items.find? first).getD default := by
  induction items with
  | nil => rfl
  | cons item rest ih =>
    by_cases inFirst : first item = true
    · rw [List.find?_cons_of_pos inFirst, List.find?_cons_of_pos (more item inFirst)]
    · by_cases inSecond : second item = true
      · have same := each item List.mem_cons_self inSecond
        rw [List.find?_cons_of_pos (by simp)] at same
        rw [List.find?_cons_of_pos inSecond]
        exact same
      · rw [List.find?_cons_of_neg inFirst, List.find?_cons_of_neg inSecond]
        apply ih
        intro other member found
        have same := each other (List.mem_cons_of_mem _ member) found
        have different : item ≠ other := by
          rintro rfl
          exact inSecond found
        rwa [List.find?_cons_of_neg (by simp [inFirst, different]),
          List.find?_cons_of_neg inFirst] at same

theorem mem_of_mem_startRoute {known : Route → Prop} {base : Route} {path : List Segment} {key : Key}
    (member : key ∈ startRoute known base path) : key ∈ base := by
  cases path with
  | nil => exact member
  | cons first others =>
    rw [startRoute] at member
    generalize found : base.inits.reverse.find? _ = nearest at member
    cases nearest with
    | none => exact member
    | some level =>
      have listed := List.mem_of_find?_eq_some found
      rw [List.mem_reverse, List.mem_inits] at listed
      exact listed.subset member

theorem startRoute_eq_base {known : Route → Prop} {base : Route} {path : List Segment}
    (nowhere : ∀ first others outer key inner, path = first :: others →
      base = outer ++ key :: inner → ¬known (outer ++ containers [first])) :
    startRoute known base path = base := by
  cases path with
  | nil => rfl
  | cons first others =>
    rw [startRoute]
    generalize found : base.inits.reverse.find? _ = nearest
    cases nearest with
    | none => rfl
    | some level =>
      have listed := List.mem_of_find?_eq_some found
      have known := List.find?_some found
      rw [List.mem_reverse, List.mem_inits] at listed
      obtain ⟨inner, isBase⟩ := listed
      cases inner with
      | nil =>
        rw [List.append_nil] at isBase
        exact isBase
      | cons key inner =>
        exact absurd (by simpa using known) (nowhere first others level key inner rfl isBase.symm)

theorem startRoute_steady {known present : Route → Prop} {base : Route} {path : List Segment}
    (more : ∀ route, known route → present route)
    (each : ∀ level inner first others, base = level ++ inner → path = first :: others →
      present (level ++ containers [first]) →
      startRoute (fun other => known other ∨ other = level ++ containers [first]) base path =
        startRoute known base path) :
    startRoute present base path = startRoute known base path := by
  cases path with
  | nil => rfl
  | cons first others =>
    refine find?_getD_steady ?_ ?_
    · intro level isKnown
      simpa using more _ (by simpa using isKnown)
    · intro level listed found
      rw [List.mem_reverse, List.mem_inits] at listed
      obtain ⟨inner, isBase⟩ := listed
      have same := each level inner first others isBase.symm rfl (by simpa using found)
      rw [← startRoute, ← same, startRoute]
      congr 1
      apply List.find?_congr
      intro other _
      rw [Bool.eq_iff_iff]
      simp

end Starts

/-- What stays the same during the merge of a unit: the file and the number of its root, the scopes
that its statements are written in, from where their qualifiers are followed and where they arrive,
the routes that are known from the beginning and the chart that there will be in the end. -/
structure Itinerary where
  file : String
  offset : Nat
  base : StatementId → Route
  start : StatementId → Route
  route : StatementId → Route
  known : Route → Prop
  total : Chart

def Steady (known : Route → Prop) (total : Chart) (base : Route) (path : List Segment)
    (start : Route) : Prop :=
  ∀ present : Route → Prop, (∀ route, known route → present route) →
    (∀ route, present route → total route ≠ 0) → startRoute present base path = start

/-- At a stage of the merge of a unit: the chart so far and the loads add up to the total, what waits
lies along its routes, and every errand leads along the route of its statement. -/
structure Plotted (plan : Itinerary) (stage : Stage) (label : StatementId → Route)
    (chart : Chart) : Prop where
  mapped : Mapped plan.file plan.offset (· = plan.file) stage label chart
  below : ∀ id ∈ stage.waiting, ∀ statement, stage.tree.get? id = some statement →
    ∀ child ∈ statement.children, ∀ inner, stage.tree.get? child = some inner →
      plan.base child = plan.route id ∧ (inner.qualifier? = none →
        plan.base child ++ [inner.key plan.file (child - plan.offset)] = plan.route child)
  steady : ∀ id ∈ stage.waiting, ∀ statement, stage.tree.get? id = some statement →
    statement.qualifier? ≠ none →
      Steady plan.known plan.total (plan.base id) statement.pendingPath (plan.start id) ∧
        plan.start id ++ containers statement.pendingPath ++
          [statement.key plan.file (id - plan.offset)] = plan.route id
  known : ∀ route, plan.known route → chart route ≠ 0
  balance : chart + errandLoad label stage.pending +
    waitingLoad stage.tree plan.start plan.route stage.waiting = plan.total
  heading : ∀ errand ∈ stage.pending, ∀ statement, stage.tree.get? errand.child = some statement →
    (statement.qualifier? = none → label errand.target ++ containers errand.path ++
        [statement.key plan.file (errand.child - plan.offset)] = plan.route errand.child) ∧
      (statement.qualifier? ≠ none →
        errand.path = [] ∧ label errand.target = plan.base errand.child)

section Start

variable {tree : ScopeTree} {pending : List Errand} {waiting : List StatementId}
  {label : StatementId → Route} {chart : Chart}

theorem Traced.marks_ne_zero {view : View} (traced : Traced view) {id : StatementId}
    {statement : Statement} (found : view id = some statement) (notRoot : id ≠ root) :
    (statement.marks : Multiset Mark) ≠ 0 := by
  have located := traced.located found notRoot
  simp [Statement.marks, located]

theorem climb_labels (layout : Layout ⟨tree, pending, waiting⟩)
    (charted : Charted (tree.settled waiting) label chart) (bound : Nat) :
    ∀ {id statement}, tree.settled waiting id = some statement →
      View.depth (tree.settled waiting) id < bound →
      (tree.climb bound (some id)).map label = (label id).inits.reverse := by
  induction bound with
  | zero => exact fun _ impossible => absurd impossible (Nat.not_lt_zero _)
  | succ bound ih =>
    intro id statement found high
    have parent : tree.parent? id = statement.parent := by
      rw [parent?, (settled_eq_some.mp found).2, Option.bind_some]
    rw [climb, List.map_cons, parent]
    by_cases isRoot : id = root
    · obtain ⟨top, topAt, topParent⟩ := layout.formed.top
      rw [isRoot, topAt, Option.some.injEq] at found
      rw [isRoot, ← found, topParent, charted.top]
      cases bound with
      | zero => rfl
      | succ bound => rfl
    · obtain ⟨parent, above, parentAt, aboveAt, member⟩ := layout.formed.listed found isRoot
      obtain ⟨key, longer, _⟩ := charted.inner found parentAt
      have deeper : View.depth (tree.settled waiting) id =
          View.depth (tree.settled waiting) parent + 1 :=
        layout.formed.depth_child aboveAt member
      rw [parentAt, ih aboveAt (by omega), longer, List.inits_append]
      simp

theorem lineage_labels (layout : Layout ⟨tree, pending, waiting⟩)
    (charted : Charted (tree.settled waiting) label chart) {target : StatementId}
    {statement : Statement} (targetAt : tree.settled waiting target = some statement) :
    (tree.lineage target).map label = (label target).inits.reverse := by
  have live : tree.isLive target = true := by
    simp [isLive, (settled_eq_some.mp targetAt).2]
  have bounded : ∀ id, (tree.settled waiting id).isSome → id < tree.climbBound := by
    intro id present
    obtain ⟨own, ownAt⟩ := Option.isSome_iff_exists.mp present
    exact Nat.lt_succ_of_lt (lt_nextId_of_get? (settled_eq_some.mp ownAt).2)
  rw [lineage, if_pos live]
  exact climb_labels layout charted _ targetAt (layout.formed.depth_lt bounded targetAt)

theorem lineage_settled (layout : Layout ⟨tree, pending, waiting⟩) {target : StatementId}
    {statement : Statement} (targetAt : tree.settled waiting target = some statement) :
    ∀ level ∈ tree.lineage target, ∃ own, tree.settled waiting level = some own := by
  intro level member
  unfold lineage at member
  split at member
  · refine @forall_mem_climb tree (fun level => ∃ own, tree.settled waiting level = some own)
      ?_ _ _ ?_ level member
    · rintro id parent ⟨own, ownAt⟩ parentAt
      rw [parent?, (settled_eq_some.mp ownAt).2, Option.bind_some] at parentAt
      exact layout.parent_settled ownAt parentAt
    · rintro id isTarget
      obtain rfl := Option.some.inj isTarget
      exact ⟨statement, targetAt⟩
  · simp at member

theorem containerChild?_isSome_iff (layout : Layout ⟨tree, pending, waiting⟩)
    (traced : Traced (tree.settled waiting)) (charted : Charted (tree.settled waiting) label chart)
    {level : StatementId} {statement : Statement}
    (levelAt : tree.settled waiting level = some statement) {segment : Segment}
    (nonempty : segment.name ≠ "") : (tree.containerChild? level segment.name).isSome = true ↔
      chart (label level ++ containers [segment]) ≠ 0 := by
  constructor
  · intro offered
    obtain ⟨existing, existingAt⟩ := Option.isSome_iff_exists.mp offered
    obtain ⟨listed, named, namedAt, name, _, holds⟩ := containerChild?_eq_some existingAt
    have stands := (entity?_eq_container nonempty).mpr ⟨name, holds⟩
    obtain ⟨below, belowAt, scopeAt, _, labelled, _⟩ := Mapped.label_of_child layout traced
      charted (settled_eq_some.mp levelAt).1 listed namedAt stands
    have notRoot : existing ≠ root := by
      rintro rfl
      simp [Statement.scope?, traced.top belowAt, StatementKind.scope?] at scopeAt
    have same : label existing = label level ++ containers [segment] := labelled
    rw [← same, charted.marks belowAt]
    exact traced.marks_ne_zero belowAt notRoot
  · intro here
    obtain ⟨child, below, childAt, longer⟩ := charted.covered here
    obtain ⟨listed, own, ownAt, placed, stands, _⟩ :=
      Mapped.child_of_label layout traced charted levelAt childAt longer
    obtain ⟨name, holds⟩ := (entity?_eq_container nonempty).mp stands
    by_contra missing
    rw [Bool.not_eq_true, Option.isSome_eq_false_iff, Option.isNone_iff_eq_none] at missing
    exact containerChild?_eq_none missing listed ownAt placed holds name

theorem label_pathStart (layout : Layout ⟨tree, pending, waiting⟩)
    (traced : Traced (tree.settled waiting)) (charted : Charted (tree.settled waiting) label chart)
    {target : StatementId} {statement : Statement}
    (targetAt : tree.settled waiting target = some statement) {path : List Segment}
    (nonempty : ∀ segment ∈ path, segment.name ≠ "") : label (tree.pathStart target path) =
      startRoute (fun route => chart route ≠ 0) (label target) path := by
  cases path with
  | nil => rfl
  | cons first others =>
    rw [pathStart, qualifierStart, startRoute, ← lineage_labels layout charted targetAt,
      List.find?_map, Option.getD_map]
    congr 2
    apply List.find?_congr
    intro level member
    obtain ⟨own, ownAt⟩ := lineage_settled layout targetAt level member
    rw [Bool.eq_iff_iff, containerChild?_isSome_iff layout traced charted ownAt
      (nonempty first List.mem_cons_self)]
    simp

end Start

namespace Plotted

variable {plan : Itinerary} {tree : ScopeTree} {rest : List Errand} {waiting : List StatementId}
  {label : StatementId → Route} {chart : Chart}

theorem startRoute_eq {stage : Stage} (plotted : Plotted plan stage label chart) {base start : Route}
    {path : List Segment} (steady : Steady plan.known plan.total base path start) :
    startRoute (fun route => chart route ≠ 0) base path = start := by
  refine steady _ plotted.known ?_
  intro route present empty
  rw [← plotted.balance, Pi.add_apply, Pi.add_apply, add_eq_zero, add_eq_zero] at empty
  exact present empty.1.1

theorem reorder {pending others : List Errand} (permuted : pending.Perm others)
    (plotted : Plotted plan ⟨tree, pending, waiting⟩ label chart) :
    Plotted plan ⟨tree, others, waiting⟩ label chart := by
  refine ⟨⟨rfl, plotted.mapped.beyond, plotted.mapped.typed, plotted.mapped.charted,
    plotted.mapped.owned⟩, plotted.below, plotted.steady, plotted.known, ?_, ?_⟩
  · have same : errandLoad label others = errandLoad label pending :=
      ((permuted.map _).sum_eq).symm
    rw [same]
    exact plotted.balance
  · exact fun errand member => plotted.heading errand (permuted.symm.subset member)

theorem free {target child : StatementId} {qualifier : Qualifier}
    (layout : Layout ⟨tree, ⟨target, [], child⟩ :: rest, waiting⟩)
    (tracing : Tracing plan.file ⟨tree, ⟨target, [], child⟩ :: rest, waiting⟩)
    (pendingQualifier : (tree.scope? child).bind NamedScope.qualifier = some qualifier)
    (plotted : Plotted plan ⟨tree, ⟨target, [], child⟩ :: rest, waiting⟩ label chart) :
    Plotted plan ⟨tree.dropQualifier child,
      ⟨(tree.dropQualifier child).pathStart target qualifier.segments, qualifier.segments,
        child⟩ :: rest, waiting⟩ label chart := by
  have waits := layout.head_waits
  obtain ⟨statement, found⟩ := layout.live child waits
  have stated : statement.qualifier? = some qualifier := by
    rw [scope?_of_get? found] at pendingQualifier
    exact pendingQualifier
  have path : statement.pendingPath = qualifier.segments := by
    simp [Statement.pendingPath, stated]
  have qualified : statement.qualifier? ≠ none := by simp [stated]
  have atBase : label target = plan.base child :=
    ((plotted.heading _ List.mem_cons_self statement found).2 qualified).2
  obtain ⟨steady, leads⟩ := plotted.steady child waits statement found qualified
  have step : Step ⟨tree, ⟨target, [], child⟩ :: rest, waiting⟩ _ := .free pendingQualifier
  have sameSettled := @settled_dropQualifier tree waiting child waits
  have mapped : Mapped plan.file plan.offset (· = plan.file) ⟨tree.dropQualifier child,
      ⟨(tree.dropQualifier child).pathStart target qualifier.segments, qualifier.segments,
        child⟩ :: rest, waiting⟩ label chart :=
    plotted.mapped.free layout
  have starts : label ((tree.dropQualifier child).pathStart target qualifier.segments) =
      plan.start child := by
    obtain ⟨above, aboveAt⟩ := layout.targets _ List.mem_cons_self
    rw [← sameSettled] at aboveAt
    have nonempty : ∀ segment ∈ qualifier.segments, segment.name ≠ "" := by
      intro segment member
      obtain ⟨scope, scopeAt, qualifierAt⟩ := Option.bind_eq_some_iff.mp stated
      exact ((tracing.waiting child waits statement found).segments scope qualifier scopeAt
        qualifierAt segment member).2
    rw [label_pathStart (step.layout layout) (sameSettled ▸ tracing.traced) mapped.charted aboveAt
      nonempty, atBase, ← path]
    exact plotted.startRoute_eq steady
  have origin {id : StatementId} {now : Statement}
      (nowAt : (tree.dropQualifier child).get? id = some now) : ∃ before,
        tree.get? id = some before ∧ now.children = before.children ∧
          (id = child ∧ now.qualifier? = none ∨ id ≠ child ∧ now = before) := by
    rw [get?_dropQualifier, Option.map_eq_some_iff] at nowAt
    obtain ⟨before, beforeAt, changed⟩ := nowAt
    refine ⟨before, beforeAt, ?_⟩
    by_cases isChild : id = child
    · rw [if_pos isChild] at changed
      rw [← changed]
      exact ⟨rfl, .inl ⟨isChild, qualifier?_dropQualifier⟩⟩
    · rw [if_neg isChild] at changed
      rw [changed]
      exact ⟨rfl, .inr ⟨isChild, rfl⟩⟩
  have others : ∀ id ∈ waiting.erase child,
      (tree.dropQualifier child).get? id = tree.get? id := by
    intro id member
    have notChild : id ≠ child := by
      rintro rfl
      exact layout.distinct.not_mem_erase member
    simp [get?_dropQualifier, notChild]
  have freed : (tree.dropQualifier child).get? child = some { statement with
      kind := statement.kind.mapScope fun named => { named with qualifier := none } } := by
    simp [get?_dropQualifier, found]
  refine ⟨mapped, ?_, ?_, plotted.known, ?_, ?_⟩
  · intro id member now nowAt inner innerMember below belowAt
    obtain ⟨before, beforeAt, sameChildren, _⟩ := origin nowAt
    rw [sameChildren] at innerMember
    obtain ⟨innerBefore, innerBeforeAt, _, ⟨rfl, _⟩ | ⟨_, rfl⟩⟩ := origin belowAt
    · rw [← children_of_get? beforeAt] at innerMember
      exact absurd innerMember (layout.head_not_below member)
    · exact plotted.below id member before beforeAt inner innerMember below innerBeforeAt
  · intro id member now nowAt nowQualified
    obtain ⟨before, beforeAt, _, ⟨_, free⟩ | ⟨_, rfl⟩⟩ := origin nowAt
    · exact absurd free nowQualified
    · exact plotted.steady id member now beforeAt nowQualified
  · have balance := plotted.balance
    rw [← waitingLoad_erase waits found, errandLoad_cons, segmentChart_nil, Statement.burden,
      path] at balance
    rw [← waitingLoad_erase waits freed, errandLoad_cons, waitingLoad_congr others,
      Statement.burden, pendingPath_of_unqualified qualifier?_dropQualifier, segmentChart_nil,
      marks_dropQualifier, starts, ← balance]
    abel
  · intro errand member now nowAt
    rcases List.mem_cons.mp member with rfl | later
    · rw [freed, Option.some.injEq] at nowAt
      subst nowAt
      rw [key_dropQualifier, starts, ← leads, path]
      exact ⟨fun _ => rfl, fun still => absurd qualifier?_dropQualifier still⟩
    · have notChild : errand.child ≠ child := layout.head_apart errand later
      simp only [get?_dropQualifier, if_neg notChild, Option.map_id'] at nowAt
      exact plotted.heading errand (List.mem_cons_of_mem _ later) now nowAt

theorem carry {pending others : List Errand} {after : ScopeTree} {left : List StatementId}
    {relabelled : StatementId → Route} {route : Route} {marks : List Mark}
    (plotted : Plotted plan ⟨tree, pending, waiting⟩ label chart)
    (layoutNext : Layout ⟨after, others, left⟩)
    (kept : ∀ id ∈ left, id ∈ waiting ∧ after.get? id = tree.get? id)
    (mapped : Mapped plan.file plan.offset (· = plan.file) ⟨after, others, left⟩ relabelled
      (chart + Pi.single route ↑marks))
    (balance : chart + Pi.single route ↑marks + errandLoad relabelled others +
      waitingLoad after plan.start plan.route left = plan.total)
    (heading : ∀ errand ∈ others, ∀ statement, tree.get? errand.child = some statement →
      (statement.qualifier? = none → relabelled errand.target ++ containers errand.path ++
          [statement.key plan.file (errand.child - plan.offset)] = plan.route errand.child) ∧
        (statement.qualifier? ≠ none →
          errand.path = [] ∧ relabelled errand.target = plan.base errand.child)) :
    Plotted plan ⟨after, others, left⟩ relabelled (chart + Pi.single route ↑marks) := by
  refine ⟨mapped, ?_, ?_, ?_, balance, ?_⟩
  · intro id member statement found child childMember inner innerAt
    have childWaits : child ∈ left := by
      apply layoutNext.below_waits member
      rwa [children_of_get? found]
    rw [(kept id member).2] at found
    rw [(kept child childWaits).2] at innerAt
    exact plotted.below id (kept id member).1 statement found child childMember inner innerAt
  · intro id member statement found
    rw [(kept id member).2] at found
    exact plotted.steady id (kept id member).1 statement found
  · intro other isKnown empty
    rw [Pi.add_apply, add_eq_zero] at empty
    exact plotted.known other isKnown empty.1
  · intro errand member statement found
    rw [(kept _ (layoutNext.child_waits member)).2] at found
    exact heading errand member statement found

theorem enter {scope inner child : StatementId} {segment : Segment} {path : List Segment}
    {after : ScopeTree} {relabelled : StatementId → Route}
    (plotted : Plotted plan ⟨tree, ⟨scope, segment :: path, child⟩ :: rest, waiting⟩ label chart)
    (layoutNext : Layout ⟨after, ⟨inner, path, child⟩ :: rest, waiting⟩)
    (unchanged : ∀ id ∈ waiting, after.get? id = tree.get? id)
    (mapped : Mapped plan.file plan.offset (· = plan.file)
      ⟨after, ⟨inner, path, child⟩ :: rest, waiting⟩ relabelled
      (chart + Pi.single (label scope ++ containers [segment]) ↑(segmentMarks segment)))
    (there : relabelled inner = label scope ++ containers [segment])
    (others : ∀ errand ∈ rest, relabelled errand.target = label errand.target) :
    Plotted plan ⟨after, ⟨inner, path, child⟩ :: rest, waiting⟩ relabelled
      (chart + Pi.single (label scope ++ containers [segment]) ↑(segmentMarks segment)) := by
  refine plotted.carry layoutNext (fun id waits => ⟨waits, unchanged id waits⟩) mapped ?_ ?_
  · have balance := plotted.balance
    rw [errandLoad_cons, segmentChart] at balance
    rw [errandLoad_cons, waitingLoad_congr unchanged, there, errandLoad_congr others, ← balance]
    abel
  · intro errand member statement found
    rcases List.mem_cons.mp member with rfl | later
    · obtain ⟨leads, fromBase⟩ := plotted.heading _ List.mem_cons_self statement found
      refine ⟨?_, fun qualified => absurd (fromBase qualified).1 (by simp)⟩
      intro free
      rw [← leads free, there]
      simp [containers]
    · rw [others errand later]
      exact plotted.heading errand (List.mem_cons_of_mem _ later) statement found

theorem place {scope target child : StatementId} {statement : Statement} {after : ScopeTree}
    {relabelled : StatementId → Route}
    (layout : Layout ⟨tree, ⟨scope, [], child⟩ :: rest, waiting⟩)
    (found : tree.get? child = some statement) (plain : tree.isQualified child = false)
    (plotted : Plotted plan ⟨tree, ⟨scope, [], child⟩ :: rest, waiting⟩ label chart)
    (layoutNext : Layout ⟨after, errands target statement.children ++ rest, waiting.erase child⟩)
    (unchanged : ∀ id ∈ waiting.erase child, after.get? id = tree.get? id)
    (mapped : Mapped plan.file plan.offset (· = plan.file)
      ⟨after, errands target statement.children ++ rest, waiting.erase child⟩ relabelled
      (chart + Pi.single (label scope ++ [statement.key plan.file (child - plan.offset)])
        ↑statement.marks))
    (there : relabelled target =
      label scope ++ [statement.key plan.file (child - plan.offset)])
    (others : ∀ errand ∈ rest, relabelled errand.target = label errand.target) :
    Plotted plan ⟨after, errands target statement.children ++ rest, waiting.erase child⟩ relabelled
      (chart + Pi.single (label scope ++ [statement.key plan.file (child - plan.offset)])
        ↑statement.marks) := by
  have waits := layout.head_waits
  have free := Mapped.unqualified_of_plain found plain
  have arrives : label scope ++ [statement.key plan.file (child - plan.offset)] =
      plan.route child := by
    obtain ⟨leads, _⟩ := plotted.heading _ List.mem_cons_self statement found
    simpa [containers] using leads free
  refine plotted.carry layoutNext
    (fun id inside => ⟨List.mem_of_mem_erase inside, unchanged id inside⟩) mapped ?_ ?_
  · have balance := plotted.balance
    rw [errandLoad_cons, segmentChart_nil, ← waitingLoad_erase waits found,
      burden_of_unqualified free] at balance
    rw [errandLoad_errands, waitingLoad_congr unchanged, errandLoad_congr others, arrives, ← balance]
    abel
  · intro errand member now nowAt
    rcases List.mem_append.mp member with new | old
    · obtain ⟨inner, innerMember, rfl⟩ := List.mem_map.mp new
      obtain ⟨base, leads⟩ := plotted.below child waits statement found inner innerMember now nowAt
      have atBase : relabelled target = plan.base inner := by rw [there, arrives, base]
      refine ⟨?_, fun _ => ⟨rfl, atBase⟩⟩
      intro innerFree
      rw [← leads innerFree, atBase]
      simp [containers]
    · rw [others errand old]
      exact plotted.heading errand (List.mem_cons_of_mem _ old) now nowAt

theorem update_target {pending : List Errand} (label : StatementId → Route)
    (layout : Layout ⟨tree, pending, waiting⟩) {id : StatementId}
    (vacant : tree.settled waiting id = none) (fresh : Route) :
    ∀ errand ∈ pending, Function.update label id fresh errand.target = label errand.target := by
  intro errand member
  obtain ⟨statement, found⟩ := layout.targets errand member
  apply Function.update_of_ne
  intro same
  rw [← same, found] at vacant
  simp at vacant

end Plotted

section Steps

variable {plan : Itinerary}

theorem Step.plotted {stage next : Stage} (step : Step stage next) (layout : Layout stage)
    (tracing : Tracing plan.file stage) {label : StatementId → Route} {chart : Chart}
    (plotted : Plotted plan stage label chart) :
    ∃ relabelled grown, Plotted plan next relabelled grown := by
  have layoutNext := step.layout layout
  cases step with
  | reorder permuted => exact ⟨label, chart, plotted.reorder permuted⟩
  | free pendingQualifier => exact ⟨label, chart, plotted.free layout tracing pendingQualifier⟩
  | @mark tree scope segment path child rest waiting existing found =>
    obtain ⟨scopeFree, _⟩ := layout.head_settled
    obtain ⟨free, _⟩ := layout.child_settled scopeFree (containerChild?_eq_some found).1
    obtain ⟨there, mapped⟩ := plotted.mapped.mark layout tracing found
    exact ⟨_, _, plotted.enter layoutNext (fun id waits => get?_modify_waiting free waits _) mapped
      there fun _ _ => rfl⟩
  | @sprout tree scope segment path child rest waiting language missing =>
    obtain ⟨scopeFree, _⟩ := layout.head_settled
    have vacant : tree.settled waiting tree.nextId = none := by
      simp [settled, get?_eq_none_of_nextId_le]
    have others := Plotted.update_target label layout vacant (label scope ++ containers [segment])
    exact ⟨_, _, plotted.enter layoutNext
      (fun id waits => get?_add_waiting scopeFree layout.waiting_lt waits _)
      (plotted.mapped.sprout language layout tracing missing) (Function.update_self ..)
      fun errand later => others errand (List.mem_cons_of_mem _ later)⟩
  | @fold tree scope child rest waiting existing statement partner found plain =>
    obtain ⟨scopeFree, _⟩ := layout.head_settled
    obtain ⟨free, _⟩ := layout.child_settled scopeFree (partner?_eq_some partner).1
    obtain ⟨there, mapped⟩ := plotted.mapped.fold layout tracing partner found
    exact ⟨_, _, plotted.place layout found plain layoutNext
      (fun id inside => get?_fold_waiting layout.distinct free inside _) mapped there
      fun _ _ => rfl⟩
  | @hang tree scope child rest waiting statement partner found plain =>
    obtain ⟨scopeFree, _⟩ := layout.head_settled
    have vacant : tree.settled waiting child = none := by simp [settled, layout.head_waits]
    have others := Plotted.update_target label layout vacant (label scope ++
      [statement.key plan.file (child - plan.offset)])
    exact ⟨_, _, plotted.place layout found plain layoutNext
      (fun id inside => get?_hang_waiting layout.distinct scopeFree inside)
      (plotted.mapped.hang layout tracing partner found plain) (Function.update_self ..)
      fun errand later => others errand (List.mem_cons_of_mem _ later)⟩

theorem Run.plotted {stage last : Stage} (run : Run stage last) (layout : Layout stage)
    (tracing : Tracing plan.file stage) (start : ∃ label chart, Plotted plan stage label chart) :
    ∃ label chart, Plotted plan last label chart := by
  induction run with
  | refl => exact start
  | tail run step ih =>
    obtain ⟨label, chart, plotted⟩ := ih
    exact step.plotted (Run.layout run layout) (Run.tracing run layout tracing) plotted

end Steps

end ScopeAtlas
