import Mathlib.Algebra.BigOperators.Pi
import ScopeAtlas.Proofs.Routing

/-!
The chart of a unit. The route of a statement in a unit goes through its parents, or through the
containers of its qualifier, which is followed from the nearest scope that is known to have the
first one. Merging a typed unit into a tree in which its file was not seen adds the chart of the
unit to the chart of the tree, if that scope stays the same during the merge; in a plain unit it
always does.
-/

namespace ScopeAtlas

open Markup ScopeTree SourceUnit

/-- The tree of a unit in which every parameter of a method has a type and every scope with a
pending qualifier stands directly below the global namespace. -/
structure Plain (file : String) (unit : ScopeTree) : Prop where
  parsed : ∃ language element, readAs language element = .ok unit ∧ element.filename? = some file
  typed : ∀ {id statement scope facet method}, unit.get? id = some statement →
    statement.scope? = some scope → facet ∈ scope.facets →
    facet.definition = .methodScope method → ∀ parameter ∈ method.parameters,
      parameter.type.isSome
  outer : ∀ {id statement}, unit.get? id = some statement → statement.qualifier? ≠ none →
    statement.parent = some root

structure TypedTree (file : String) (unit : ScopeTree) : Prop where
  parsed : ∃ language element, readAs language element = .ok unit ∧ element.filename? = some file
  typed : ∀ {id statement scope facet method}, unit.get? id = some statement →
    statement.scope? = some scope → facet ∈ scope.facets →
    facet.definition = .methodScope method → ∀ parameter ∈ method.parameters,
      parameter.type.isSome

noncomputable def routeWithin (known : Route → Prop) (file : String) (unit : ScopeTree) :
    Nat → StatementId → Route
  | 0, _ => []
  | levels + 1, id =>
    match unit.get? id with
    | none => []
    | some statement => match statement.parent with
      | none => []
      | some parent =>
        startRoute known (routeWithin known file unit levels parent) statement.pendingPath ++
          containers statement.pendingPath ++ [statement.key file id]

/-- The route of a statement of a unit. -/
noncomputable def unitRoute (known : Route → Prop) (file : String) (unit : ScopeTree)
    (id : StatementId) : Route :=
  routeWithin known file unit (View.depth unit.get? id) id

noncomputable def unitBase (known : Route → Prop) (file : String) (unit : ScopeTree)
    (id : StatementId) : Route :=
  match unit.parent? id with
  | none => []
  | some parent => unitRoute known file unit parent

noncomputable def unitStart (known : Route → Prop) (file : String) (unit : ScopeTree)
    (id : StatementId) : Route :=
  startRoute known (unitBase known file unit id)
    (((unit.get? id).map Statement.pendingPath).getD [])

noncomputable def unitChart (known : Route → Prop) (file : String) (unit : ScopeTree) : Chart :=
  waitingLoad unit (unitStart known file unit) (unitRoute known file unit) unit.ids

def SteadyIn (known : Route → Prop) (total : Chart) (file : String) (unit : ScopeTree) : Prop :=
  ∀ id statement, unit.get? id = some statement →
    Steady known total (unitBase known file unit id) statement.pendingPath
      (unitStart known file unit id)

theorem SteadyIn.mono {known : Route → Prop} {total part : Chart} {file : String} {unit : ScopeTree}
    (less : ∀ route, part route ≠ 0 → total route ≠ 0) (steady : SteadyIn known total file unit) :
    SteadyIn known part file unit := by
  intro id statement found present more within
  exact steady id statement found present more fun route here => less route (within route here)

section Routes

variable {known : Route → Prop} {file : String} {unit : ScopeTree}

theorem Plain.typedTree (plain : Plain file unit) : TypedTree file unit :=
  ⟨plain.parsed, plain.typed⟩

theorem TypedTree.fileTree (typed : TypedTree file unit) : FileTree file unit := by
  obtain ⟨language, element, parsed, named⟩ := typed.parsed
  obtain ⟨other, named', ofUnit⟩ := readAs_fileTree parsed
  obtain rfl : other = file := Option.some.inj (named'.symm.trans named)
  exact ofUnit

theorem Plain.fileTree (plain : Plain file unit) : FileTree file unit :=
  plain.typedTree.fileTree

theorem unitRoute_root (formed : unit.WellFormed) : unitRoute known file unit root = [] := by
  rw [unitRoute, formed.depth_root, routeWithin]

theorem unitBase_child (formed : unit.WellFormed) {id child : StatementId} {statement : Statement}
    (found : unit.get? id = some statement) (member : child ∈ statement.children) :
    unitBase known file unit child = unitRoute known file unit id := by
  obtain ⟨inner, childAt, parentAt⟩ := formed.linked found member
  simp [unitBase, parent?, childAt, parentAt]

theorem unitRoute_child (formed : unit.WellFormed) {id child : StatementId}
    {statement inner : Statement} (found : unit.get? id = some statement)
    (member : child ∈ statement.children) (childAt : unit.get? child = some inner) :
    unitRoute known file unit child = unitStart known file unit child ++
      containers inner.pendingPath ++ [inner.key file child] := by
  have parentAt := formed.parent_of_child found member childAt
  rw [unitStart, unitBase_child formed found member, unitRoute, formed.depth_child found member,
    routeWithin]
  simp only [childAt, parentAt, Option.map_some, Option.getD_some]
  rfl

theorem unitStart_of_unqualified {id : StatementId} {statement : Statement}
    (found : unit.get? id = some statement) (free : statement.qualifier? = none) :
    unitStart known file unit id = unitBase known file unit id := by
  simp [unitStart, found, pendingPath_of_unqualified free, startRoute]

theorem unitRoute_ne_nil (formed : unit.WellFormed) {id : StatementId} {statement : Statement}
    (found : unit.get? id = some statement) (notRoot : id ≠ root) :
    unitRoute known file unit id ≠ [] := by
  obtain ⟨parent, above, _, aboveAt, listed⟩ := formed.listed found notRoot
  rw [unitRoute_child formed aboveAt listed found]
  simp

theorem TypedTree.entity_typed (typed : TypedTree file unit) {id : StatementId}
    {statement : Statement} (found : unit.get? id = some statement) {entity : Entity}
    (stands : statement.entity? = some entity) : entity.Typed := by
  rw [Statement.entity?, Option.bind_eq_some_iff] at stands
  obtain ⟨scope, scopeAt, stands⟩ := stands
  obtain ⟨facet, facets, _⟩ := (typed.fileTree.ofFile found).facet scope scopeAt
  have inside : facet ∈ scope.facets := by simp [facets]
  rw [← (typed.fileTree.ofFile found).agree scopeAt facet inside] at stands
  rcases entity?_cases stands with ⟨method, isMethod, rfl⟩ | ⟨_, _, rfl⟩
  · intro untyped
    obtain ⟨parameter, member, missing⟩ := List.mem_map.mp untyped
    have stated := typed.typed found scopeAt inside isMethod parameter member
    simp only [Option.map_eq_none_iff] at missing
    simp [missing] at stated
  · trivial

theorem Plain.steady (plain : Plain file unit) (total : Chart) :
    SteadyIn known total file unit := by
  intro id statement found present _ _
  rw [unitStart, found, Option.map_some, Option.getD_some]
  cases stated : statement.qualifier? with
  | none => simp [pendingPath_of_unqualified stated, startRoute]
  | some qualifier =>
    have base : unitBase known file unit id = [] := by
      simp only [unitBase, parent?, found, Option.bind_some, plain.outer found (by simp [stated])]
      exact unitRoute_root plain.fileTree.formed
    rw [base, startRoute_nil, startRoute_nil]

end Routes

section FirstStage

variable {known : Route → Prop} {file : String} {tree unit : ScopeTree} {top : Statement}
  {label : StatementId → Route} {chart : Chart}

theorem firstStage_mapped (formed : tree.WellFormed) (traced : Traced tree.get?)
    (charted : Charted tree.get? label chart) (typed : TypedTree file unit) {offset : Nat}
    (beyond : offset ≤ tree.nextId) {own : String → Prop} (mine : own file)
    (owned : ∀ {id statement start kind place number}, own place →
      tree.get? id = some statement → label id = start ++ [.single kind place number] →
      id = number + offset)
    (topAt : unit.get? root = some top) :
    Mapped file offset own (firstStage tree unit top) label
      (chart + Pi.single (label root) ↑top.marks) := by
  have isGlobal := typed.fileTree.top topAt
  obtain ⟨first, firstAt, _⟩ := formed.top
  have settled := @firstStage_settled tree unit formed top
  refine ⟨mine, ?_, ?_, ?_, ?_⟩
  · intro id member
    obtain ⟨inner, _, rfl, _⟩ := mem_firstStage_waiting.mp member
    exact Nat.le_trans beyond (Nat.le_add_left _ _)
  · intro id member statement found entity stands
    obtain ⟨inner, notRoot, rfl, before, beforeAt⟩ := mem_firstStage_waiting.mp member
    rw [firstStage_get?_waiting formed notRoot beforeAt, Option.some.injEq] at found
    subst found
    exact typed.entity_typed beforeAt stands
  · rw [settled]
    refine charted.enrich firstAt (keepsLinks_absorb _) ?_ ?_
    · exact marks_absorb_global (traced.top firstAt) isGlobal
    · exact fun key _ inner => absurd charted.top inner
  · intro id statement start kind place number isOwn found isSingle
    rw [settled] at found
    obtain ⟨before, beforeAt, _⟩ := View.enrich_eq_some found
    exact owned isOwn beforeAt isSingle

theorem unitChart_eq (formed : tree.WellFormed) (ofUnit : FileTree file unit)
    (topAt : unit.get? root = some top) : unitChart known file unit =
      Pi.single [] ↑top.marks + waitingLoad (firstStage tree unit top).tree
        (fun id => unitStart known file unit (id - tree.nextId))
        (fun id => unitRoute known file unit (id - tree.nextId)) (firstStage tree unit top).waiting := by
  have free : top.qualifier? = none := by
    simp [Statement.qualifier?, Statement.scope?, ofUnit.top topAt, StatementKind.scope?]
  have waits : waitingLoad (firstStage tree unit top).tree
      (fun id => unitStart known file unit (id - tree.nextId))
      (fun id => unitRoute known file unit (id - tree.nextId)) (firstStage tree unit top).waiting =
        waitingLoad unit (unitStart known file unit) (unitRoute known file unit) (innerIds unit) := by
    have each : ∀ inner ∈ innerIds unit,
        (((firstStage tree unit top).tree.get? (inner + tree.nextId)).map (Statement.burden
          (unitStart known file unit (inner + tree.nextId - tree.nextId))
          (unitRoute known file unit (inner + tree.nextId - tree.nextId)))).getD 0 =
            ((unit.get? inner).map (Statement.burden (unitStart known file unit inner)
              (unitRoute known file unit inner))).getD 0 := by
      intro inner member
      simp only [innerIds, List.mem_filter, bne_iff_ne] at member
      obtain ⟨statement, found⟩ := exists_of_mem_ids member.1
      have lowered : inner + tree.nextId - tree.nextId = inner := Nat.add_sub_cancel _ _
      rw [firstStage_get?_waiting formed member.2 found, found, lowered]
      rfl
    rw [waitingLoad, waitingLoad, ← List.map_congr_left each]
    simp only [firstStage, List.map_map]
    rfl
  rw [waits, unitChart, waitingLoad, ((ids_perm_root topAt).map _).sum_eq, List.map_cons,
    List.sum_cons, topAt, Option.map_some, Option.getD_some, burden_of_unqualified free,
    unitRoute_root ofUnit.formed]
  rfl

noncomputable def itinerary (known : Route → Prop) (file : String) (tree unit : ScopeTree)
    (chart : Chart) : Itinerary :=
  ⟨file, tree.nextId, fun id => unitBase known file unit (id - tree.nextId),
    fun id => unitStart known file unit (id - tree.nextId),
    fun id => unitRoute known file unit (id - tree.nextId), known, chart + unitChart known file unit⟩

theorem firstStage_plotted (formed : tree.WellFormed) (traced : Traced tree.get?)
    (charted : Charted tree.get? label chart) (typed : TypedTree file unit)
    (absent : ∀ {id statement}, tree.get? id = some statement →
      statement.hasLocationIn file = false)
    (given : ∀ route, known route → chart route ≠ 0)
    (steady : SteadyIn known (chart + unitChart known file unit) file unit)
    (topAt : unit.get? root = some top) :
    Plotted (itinerary known file tree unit chart) (firstStage tree unit top) label
      (chart + Pi.single (label root) ↑top.marks) := by
  have ofUnit := typed.fileTree
  have lowered (number : Nat) : number + tree.nextId - tree.nextId = number :=
    Nat.add_sub_cancel _ _
  refine ⟨?_, ?_, ?_, ?_, ?_, ?_⟩
  · refine firstStage_mapped formed traced charted typed (Nat.le_refl _) rfl ?_ topAt
    intro id statement start kind place number isOwn found isSingle
    subst isOwn
    rcases charted.last_key formed found with ⟨_, empty⟩ | ⟨route, key, longer, fits⟩
    · simp [empty] at isSingle
    · rw [longer] at isSingle
      obtain rfl := List.singleton_inj.mp (List.append_inj' isSingle rfl).2
      have notRoot : id ≠ root := by
        rintro rfl
        rw [charted.top] at longer
        simp at longer
      obtain ⟨location, member⟩ := List.exists_mem_of_ne_nil _ (traced.located found notRoot)
      have seen := Statement.hasLocationIn_of_mem member
      rw [fits.2.1 location member] at seen
      exact absurd seen (by simp [absent found])
  · intro id member statement found child childMember inner innerAt
    obtain ⟨own, notRoot, rfl, before, beforeAt⟩ := mem_firstStage_waiting.mp member
    rw [firstStage_get?_waiting formed notRoot beforeAt, Option.some.injEq] at found
    subst found
    obtain ⟨ownChild, ownMember, rfl⟩ := List.mem_map.mp childMember
    obtain ⟨below, belowAt, _⟩ := ofUnit.formed.linked beforeAt ownMember
    rw [firstStage_get?_waiting formed (ofUnit.formed.child_ne_root beforeAt ownMember) belowAt,
      Option.some.injEq] at innerAt
    subst innerAt
    simp only [itinerary, lowered]
    refine ⟨unitBase_child ofUnit.formed beforeAt ownMember, fun free => ?_⟩
    have free : below.qualifier? = none := free
    rw [unitRoute_child ofUnit.formed beforeAt ownMember belowAt,
      unitStart_of_unqualified belowAt free, pendingPath_of_unqualified free, containers,
      List.map_nil, List.append_nil]
    rfl
  · intro id member statement found _
    obtain ⟨own, notRoot, rfl, before, beforeAt⟩ := mem_firstStage_waiting.mp member
    rw [firstStage_get?_waiting formed notRoot beforeAt, Option.some.injEq] at found
    subst found
    simp only [itinerary, lowered]
    refine ⟨steady own before beforeAt, ?_⟩
    obtain ⟨parent, above, _, aboveAt, listed⟩ := ofUnit.formed.listed beforeAt notRoot
    rw [unitRoute_child ofUnit.formed aboveAt listed beforeAt]
    rfl
  · intro route isKnown empty
    rw [Pi.add_apply, add_eq_zero] at empty
    exact given route isKnown empty.1
  · have nothing : errandLoad label (firstStage tree unit top).pending = 0 := by
      have loads := @errandLoad_errands label [] root (shiftStatement tree.nextId top).children
      rwa [List.append_nil] at loads
    simp only [itinerary]
    rw [nothing, charted.top, unitChart_eq formed ofUnit topAt]
    abel
  · intro errand member statement found
    obtain ⟨child, childMember, rfl⟩ := List.mem_map.mp member
    obtain ⟨own, ownMember, rfl⟩ := List.mem_map.mp childMember
    obtain ⟨below, belowAt, _⟩ := ofUnit.formed.linked topAt ownMember
    rw [firstStage_get?_waiting formed (ofUnit.formed.child_ne_root topAt ownMember) belowAt,
      Option.some.injEq] at found
    subst found
    have base := @unitBase_child known file unit ofUnit.formed _ _ _ topAt ownMember
    rw [unitRoute_root ofUnit.formed] at base
    simp only [itinerary, lowered]
    rw [charted.top, base]
    refine ⟨fun free => ?_, fun _ => ⟨trivial, rfl⟩⟩
    have free : below.qualifier? = none := free
    rw [unitRoute_child ofUnit.formed topAt ownMember belowAt, unitStart_of_unqualified belowAt free,
      base, pendingPath_of_unqualified free]
    rfl

theorem merge_steady (formed : tree.WellFormed) (traced : Traced tree.get?)
    (charted : Charted tree.get? label chart) (typed : TypedTree file unit)
    (absent : ∀ {id statement}, tree.get? id = some statement →
      statement.hasLocationIn file = false)
    (given : ∀ route, known route → chart route ≠ 0)
    (steady : SteadyIn known (chart + unitChart known file unit) file unit) :
    ∃ relabelled, Charted (tree.merge unit).get? relabelled (chart + unitChart known file unit) := by
  have ofUnit := typed.fileTree
  obtain ⟨top, topAt, _⟩ := ofUnit.formed.top
  obtain ⟨relabelled, grown, plotted⟩ := (merge_run formed ofUnit.formed topAt).plotted
    (firstStage_layout formed ofUnit.formed topAt)
    (firstStage_tracing formed traced ofUnit topAt)
    ⟨label, _, firstStage_plotted formed traced charted typed absent given steady topAt⟩
  have charted := plotted.mapped.charted
  have balance := plotted.balance
  simp only [itinerary, errandLoad, waitingLoad, List.map_nil, List.sum_nil, add_zero] at balance
  rw [settled_nil, balance] at charted
  exact ⟨relabelled, charted⟩

/-- Merging a plain unit of a file that was not seen adds the chart of the unit. -/
theorem merge_charted (formed : tree.WellFormed) (traced : Traced tree.get?)
    (charted : Charted tree.get? label chart) (plain : Plain file unit)
    (absent : ∀ {id statement}, tree.get? id = some statement →
      statement.hasLocationIn file = false) :
    ∃ relabelled, Charted (tree.merge unit).get? relabelled
      (chart + unitChart (fun _ => False) file unit) :=
  merge_steady formed traced charted plain.typedTree absent (fun _ impossible => impossible.elim)
    (plain.steady _)

end FirstStage

def Chart.From (file : String) (chart : Chart) : Prop :=
  ∀ route, ∀ mark ∈ chart route, mark.file = file

namespace Chart.From

variable {file : String}

theorem zero : Chart.From file 0 := by
  intro route mark member
  simp at member

theorem add {left right : Chart} (first : Chart.From file left) (second : Chart.From file right) :
    Chart.From file (left + right) := by
  intro route mark member
  rw [Pi.add_apply, Multiset.mem_add] at member
  rcases member with inLeft | inRight
  · exact first route mark inLeft
  · exact second route mark inRight

theorem single {route : Route} {marks : List Mark} (all : ∀ mark ∈ marks, mark.file = file) :
    Chart.From file (Pi.single route ↑marks) := by
  intro other mark member
  by_cases same : other = route
  · subst same
    rw [Pi.single_eq_same, Multiset.mem_coe] at member
    exact all mark member
  · rw [Pi.single_eq_of_ne same] at member
    simp at member

theorem sum {charts : List Chart} (each : ∀ chart ∈ charts, Chart.From file chart) :
    Chart.From file charts.sum := by
  induction charts with
  | nil => exact zero
  | cons chart rest ih =>
    rw [List.sum_cons]
    exact (each chart List.mem_cons_self).add
      (ih fun other member => each other (List.mem_cons_of_mem _ member))

theorem segmentChart {path : List Segment} (all : ∀ segment ∈ path, segment.location.file = file)
    (route : Route) : Chart.From file (segmentChart route path) := by
  induction path generalizing route with
  | nil => exact zero
  | cons segment rest ih =>
    have here := all segment List.mem_cons_self
    rw [ScopeAtlas.segmentChart]
    refine add (single ?_) (ih (fun other member => all other (List.mem_cons_of_mem _ member)) _)
    intro mark member
    simp only [segmentMarks, List.mem_cons, List.not_mem_nil, or_false] at member
    rcases member with rfl | rfl
    · exact here
    · exact here

theorem burden {statement : Statement} (ofFile : OfFile file statement) (base route : Route) :
    Chart.From file (statement.burden base route) := by
  refine add (segmentChart ?_ base) (single ?_)
  · intro segment member
    unfold Statement.pendingPath at member
    cases stated : statement.qualifier? with
    | none => simp [stated] at member
    | some qualifier =>
      rw [stated] at member
      rw [Statement.qualifier?, Option.bind_eq_some_iff] at stated
      obtain ⟨scope, scopeAt, qualifierAt⟩ := stated
      exact (ofFile.segments scope qualifier scopeAt qualifierAt segment member).1
  · intro mark member
    simp only [Statement.marks, List.mem_append, List.mem_map] at member
    rcases member with (⟨location, inside, rfl⟩ | ⟨expression, inside, rfl⟩) | ⟨facet, inside, rfl⟩
    · exact ofFile.locations location inside
    · exact ofFile.content expression inside
    · cases scopeAt : statement.scope? with
      | none => simp [facets_of_unnamed scopeAt] at inside
      | some scope =>
        obtain ⟨only, facets, facetFile⟩ := ofFile.facet scope scopeAt
        rw [facets_of_scope? scopeAt, facets, List.mem_singleton] at inside
        rw [inside]
        exact facetFile

end Chart.From

theorem unitChart_from (known : Route → Prop) {file : String} {unit : ScopeTree}
    (ofUnit : FileTree file unit) : Chart.From file (unitChart known file unit) := by
  refine .sum ?_
  intro chart member
  obtain ⟨id, inside, rfl⟩ := List.mem_map.mp member
  obtain ⟨statement, found⟩ := exists_of_mem_ids inside
  rw [found]
  exact .burden (ofUnit.ofFile found) _ _

theorem segmentChart_ne_zero {start route : Route} {path : List Segment}
    (present : segmentChart start path route ≠ 0) :
    path ≠ [] ∧ ∃ key inner, route = start ++ key :: inner := by
  induction path generalizing start with
  | nil => exact absurd rfl present
  | cons segment rest ih =>
    refine ⟨by simp, ?_⟩
    rw [segmentChart, Pi.add_apply, Ne, add_eq_zero, not_and_or] at present
    rcases present with here | further
    · by_cases same : route = start ++ containers [segment]
      · exact ⟨_, [], same⟩
      · exact absurd (Pi.single_eq_of_ne same _) here
    · obtain ⟨_, key, inner, longer⟩ := ih further
      exact ⟨_, key :: inner, by rw [longer, List.append_assoc]; rfl⟩

theorem unitChart_top {known : Route → Prop} {file : String} {unit : ScopeTree}
    (formed : unit.WellFormed) {key : Key} (present : unitChart known file unit [key] ≠ 0) :
    ∃ id statement, unit.get? id = some statement ∧
      (statement.parent = some root ∧ statement.key file id = key ∨
        statement.pendingPath ≠ [] ∧ unitStart known file unit id = []) := by
  rw [unitChart, waitingLoad, Pi.list_sum_apply] at present
  obtain ⟨_, member, held⟩ := List.exists_mem_ne_zero_of_sum_ne_zero present
  rw [List.map_map, List.mem_map] at member
  obtain ⟨id, inside, rfl⟩ := member
  obtain ⟨statement, found⟩ := exists_of_mem_ids inside
  refine ⟨id, statement, found, ?_⟩
  rw [Function.comp_apply, found, Option.map_some, Option.getD_some, Statement.burden,
    Pi.add_apply, Ne, add_eq_zero, not_and_or] at held
  rcases held with passed | arrived
  · obtain ⟨qualified, next, inner, longer⟩ := segmentChart_ne_zero passed
    refine .inr ⟨qualified, ?_⟩
    cases start : unitStart known file unit id with
    | nil => rfl
    | cons first rest => simp [start] at longer
  · have route : [key] = unitRoute known file unit id := by
      by_contra different
      exact arrived (Pi.single_eq_of_ne different _)
    have notRoot : id ≠ root := by
      rintro rfl
      simp [unitRoute_root formed] at route
    obtain ⟨parent, above, parentAt, aboveAt, listed⟩ := formed.listed found notRoot
    rw [unitRoute_child formed aboveAt listed found] at route
    cases path : statement.pendingPath with
    | cons first rest =>
      have short := congrArg List.length route
      simp only [path, containers, List.length_append, List.length_map, List.length_cons,
        List.length_nil] at short
      omega
    | nil =>
      rw [path, containers, List.map_nil, List.append_nil, unitStart, found, Option.map_some,
        Option.getD_some, path, startRoute, unitBase_child formed aboveAt listed] at route
      have ends : [] = unitRoute known file unit parent ∧ [key] = [statement.key file id] :=
        List.append_inj' route rfl
      refine .inl ⟨?_, (List.singleton_inj.mp ends.2).symm⟩
      by_contra elsewhere
      have inner : parent ≠ root := by
        rintro rfl
        exact elsewhere parentAt
      exact unitRoute_ne_nil formed aboveAt inner ends.1.symm

end ScopeAtlas
