import ScopeAtlas.Proofs.History

/-!
The order in which units are merged. A qualifier is followed from the nearest scope around it that
has a container of its first name at that moment, so a merge in between can move the place where it
starts. The order does not matter as long as no name that one of the units brings would move the
start of a qualifier of one of them.
-/

namespace ScopeAtlas

open Markup ScopeTree SourceUnit

structure TypedUnit where
  file : String
  tree : ScopeTree
  typed : TypedTree file tree

inductive TypedAssembled (language : Language) : ScopeTree → Prop
  | start : TypedAssembled language (.empty language)
  | merge {tree : ScopeTree} (unit : TypedUnit) : TypedAssembled language tree →
      TypedAssembled language (tree.merge unit.tree)
  | remove {tree : ScopeTree} (file : String) : TypedAssembled language tree →
      TypedAssembled language (tree.removeFile file).1

inductive ScopeTree.Leads (tree : ScopeTree) : Route → StatementId → Prop
  | root : Leads tree [] root
  | child {route parent child entity} : Leads tree route parent →
      child ∈ tree.children parent → (tree.get? child).bind Statement.entity? = some entity →
      Leads tree (route ++ [.named entity]) child

def ScopeTree.Knows (tree : ScopeTree) (route : Route) : Prop :=
  ∃ id, id ≠ root ∧ tree.Leads route id

noncomputable def unitsChart (known : Route → Prop) (units : List TypedUnit) : Chart :=
  (units.map fun unit => unitChart known unit.file unit.tree).sum

/-- If one route of one of the units were known beside what the tree knows, the qualifiers of the
units would still be followed from where the tree alone has them followed from. -/
def Unshadowed (tree : ScopeTree) (units : List TypedUnit) : Prop :=
  ∀ unit ∈ units, ∀ id statement, unit.tree.get? id = some statement →
    ∀ route, unitsChart tree.Knows units route ≠ 0 →
      startRoute (fun other => tree.Knows other ∨ other = route)
          (unitBase tree.Knows unit.file unit.tree id) statement.pendingPath =
        unitStart tree.Knows unit.file unit.tree id

def ScopeTree.mergeAll (tree : ScopeTree) (units : List TypedUnit) : ScopeTree :=
  units.foldl (fun merged unit => merged.merge unit.tree) tree

section Assembled

variable {language : Language} {tree : ScopeTree}

theorem TypedAssembled.assembled (typed : TypedAssembled language tree) :
    Assembled language tree := by
  induction typed with
  | start => exact .start
  | merge unit _ ih =>
    obtain ⟨_, _, parsed, _⟩ := unit.typed.parsed
    exact .merge ih parsed
  | remove file _ ih => exact .remove file ih

theorem TypedAssembled.charted (typed : TypedAssembled language tree) :
    ∃ label chart, Charted tree.get? label chart ∧
      ∀ {id statement start kind place number}, tree.get? id = some statement →
        label id = start ++ [.single kind place number] → id = number := by
  induction typed with
  | start =>
    refine ⟨_, _, empty_charted language, ?_⟩
    intro id statement start kind place number _ isSingle
    simp at isSingle
  | @merge tree unit before ih =>
    obtain ⟨label, chart, charted, numbered⟩ := ih
    obtain ⟨formed, traced⟩ := before.assembled.sound
    have ofUnit := unit.typed.fileTree
    obtain ⟨top, topAt, _⟩ := ofUnit.formed.top
    have first : Mapped unit.file 0 (fun _ => True) (firstStage tree unit.tree top) label _ :=
      firstStage_mapped formed traced charted unit.typed (Nat.zero_le _) trivial
        (fun _ found isSingle => numbered found isSingle) topAt
    obtain ⟨relabelled, grown, mapped⟩ := (merge_run formed ofUnit.formed topAt).mapped
      (firstStage_layout formed ofUnit.formed topAt)
      (firstStage_tracing formed traced ofUnit topAt) ⟨label, _, first⟩
    have charted := mapped.charted
    rw [settled_nil] at charted
    refine ⟨relabelled, grown, charted, ?_⟩
    intro id statement start kind place number found isSingle
    rw [← settled_nil] at found
    exact mapped.owned trivial found isSingle
  | @remove tree file before ih =>
    obtain ⟨label, chart, charted, numbered⟩ := ih
    obtain ⟨formed, traced⟩ := before.assembled.sound
    refine ⟨label, chart.without file, ?_, ?_⟩
    · rw [get?_removeFile formed traced]
      exact remnant_charted traced charted
    · intro id statement start kind place number found isSingle
      rw [get?_removeFile formed traced] at found
      obtain ⟨_, own, ownAt, _⟩ := remnant_eq_some.mp found
      exact numbered ownAt isSingle

end Assembled

section Leading

variable {tree : ScopeTree} {label : StatementId → Route} {chart : Chart}

theorem ScopeTree.Leads.label_eq (formed : tree.WellFormed) (traced : Traced tree.get?)
    (charted : Charted tree.get? label chart) {route : Route} {id : StatementId}
    (leads : tree.Leads route id) : label id = route := by
  induction leads with
  | root => exact charted.top
  | @child route parent child entity _ member named ih =>
    obtain ⟨statement, found, stands⟩ := Option.bind_eq_some_iff.mp named
    obtain ⟨above, aboveAt, listed⟩ := exists_of_mem_children member
    obtain ⟨key, longer, fits⟩ :=
      charted.inner found (formed.parent_of_child aboveAt listed found)
    obtain ⟨scope, scopeAt, scopeStands⟩ := Option.bind_eq_some_iff.mp stands
    obtain ⟨rfl, _⟩ := fits.eq_named scopeAt (traced.facets_ne_nil found scopeAt) scopeStands
    rw [longer, ih]

theorem ScopeTree.Knows.chart_ne_zero (formed : tree.WellFormed) (traced : Traced tree.get?)
    (charted : Charted tree.get? label chart) {route : Route} (knows : tree.Knows route) :
    chart route ≠ 0 := by
  obtain ⟨id, notRoot, leads⟩ := knows
  rw [← leads.label_eq formed traced charted]
  cases leads with
  | root => exact absurd rfl notRoot
  | child _ _ named =>
    obtain ⟨statement, found, _⟩ := Option.bind_eq_some_iff.mp named
    rw [charted.marks found]
    exact traced.marks_ne_zero found notRoot

theorem leads_label (formed : tree.WellFormed) (traced : Traced tree.get?)
    (charted : Charted tree.get? label chart) {id : StatementId} {statement : Statement}
    (found : tree.get? id = some statement)
    (named : ∀ kind place number, Key.single kind place number ∉ label id) :
    tree.Leads (label id) id := by
  refine formed.downward (fun id _ => (∀ kind place number, Key.single kind place number ∉ label id) →
    tree.Leads (label id) id) ?_ ?_ found named
  · intro top _ _
    rw [charted.top]
    exact .root
  · intro id statement parent above found _ parentAt aboveAt climbs named
    obtain ⟨key, longer, fits⟩ := charted.inner found parentAt
    rw [longer] at named ⊢
    cases key with
    | single kind place number => exact absurd (by simp) (named kind place number)
    | named entity =>
      obtain ⟨scope, scopeAt, _, stands, _⟩ :=
        fits.of_named fun scope scopeAt => traced.facets_ne_nil found scopeAt
      refine .child (climbs ?_) ?_ ?_
      · exact fun kind place number member =>
          named kind place number (List.mem_append_left _ member)
      · rw [children_of_get? aboveAt]
        exact formed.mem_of_parent found parentAt aboveAt
      · rw [found, Option.bind_some, entity?_of_scope? scopeAt, stands]

theorem seen_of_single (formed : tree.WellFormed) (traced : Traced tree.get?)
    (charted : Charted tree.get? label chart) {id : StatementId} {statement : Statement}
    (found : tree.get? id = some statement) {kind : StatementKind} {place : String} {number : Nat}
    (member : Key.single kind place number ∈ label id) :
    ∃ other own, tree.get? other = some own ∧ own.hasLocationIn place = true := by
  refine formed.downward (fun id _ => Key.single kind place number ∈ label id →
    ∃ other own, tree.get? other = some own ∧ own.hasLocationIn place = true) ?_ ?_ found member
  · intro top _ member
    simp [charted.top] at member
  · intro id statement parent above found notRoot parentAt _ climbs member
    obtain ⟨key, longer, fits⟩ := charted.inner found parentAt
    rw [longer] at member
    rcases List.mem_append.mp member with upper | last
    · exact climbs upper
    · rw [List.mem_singleton] at last
      subst last
      obtain ⟨location, located⟩ := List.exists_mem_of_ne_nil _ (traced.located found notRoot)
      refine ⟨id, statement, found, ?_⟩
      rw [← fits.2.1 location located]
      exact Statement.hasLocationIn_of_mem located

theorem single_mem_unitRoute {known : Route → Prop} {file : String} {unit : ScopeTree}
    {id : StatementId} {kind : StatementKind} {place : String} {number : Nat}
    (member : Key.single kind place number ∈ unitRoute known file unit id) : place = file := by
  have levels : ∀ (count : Nat) (id : StatementId),
      Key.single kind place number ∈ routeWithin known file unit count id → place = file := by
    intro count
    induction count with
    | zero => simp [routeWithin]
    | succ count ih =>
      intro id member
      rw [routeWithin] at member
      split at member
      · simp at member
      · split at member
        · simp at member
        · simp only [List.mem_append, List.mem_singleton, containers, List.mem_map] at member
          rcases member with (upper | ⟨segment, _, impossible⟩) | last
          · exact ih _ (mem_of_mem_startRoute upper)
          · simp at impossible
          · exact (key_eq_single last.symm).1
  exact levels _ id member

theorem single_mem_unitBase {known : Route → Prop} {file : String} {unit : ScopeTree}
    {id : StatementId} {kind : StatementKind} {place : String} {number : Nat}
    (member : Key.single kind place number ∈ unitBase known file unit id) : place = file := by
  unfold unitBase at member
  split at member
  · simp at member
  · exact single_mem_unitRoute member

end Leading

def Chart.Lacks (file : String) (chart : Chart) : Prop :=
  ∀ route, ∀ mark ∈ chart route, Text.sameFolded mark.file file = false

namespace Chart.Lacks

variable {file : String} {tree : ScopeTree} {label : StatementId → Route} {chart : Chart}

theorem add {left right : Chart} (first : Chart.Lacks file left) (second : Chart.Lacks file right) :
    Chart.Lacks file (left + right) := by
  intro route mark member
  rw [Pi.add_apply, Multiset.mem_add] at member
  rcases member with inLeft | inRight
  · exact first route mark inLeft
  · exact second route mark inRight

theorem of_from {other : String} (ofOther : Chart.From other chart)
    (apart : Text.sameFolded other file = false) : Chart.Lacks file chart := by
  intro route mark member
  rw [ofOther route mark member]
  exact apart

theorem of_absent (traced : Traced tree.get?) (charted : Charted tree.get? label chart)
    (absent : ∀ location ∈ tree.locations, location.inFile file = false) :
    Chart.Lacks file chart := by
  intro route mark member
  have some : chart route ≠ 0 := by
    intro empty
    simp [empty] at member
  obtain ⟨id, statement, found, rfl⟩ := charted.covered some
  rw [charted.marks found, Multiset.mem_coe] at member
  have seen := traced.seen_mark found member
  rw [Statement.hasLocationIn, List.any_eq_true] at seen
  obtain ⟨location, located, same⟩ := seen
  have outside := absent location (mem_locations.mpr ⟨id, statement, found, located⟩)
  rw [Location.inFile, Text.sameFolded_congr_left same] at outside
  exact outside

theorem absent (lacks : Chart.Lacks file chart) (charted : Charted tree.get? label chart)
    {id : StatementId} {statement : Statement} (found : tree.get? id = some statement) :
    statement.hasLocationIn file = false := by
  rw [Statement.hasLocationIn, List.any_eq_false]
  intro location located
  rw [Bool.not_eq_true]
  refine lacks (label id) (.seen location) ?_
  rw [charted.marks found, Multiset.mem_coe]
  simp [Statement.marks, located]

end Chart.Lacks

section Merging

variable {known : Route → Prop} {tree : ScopeTree} {chart total : Chart} {units : List TypedUnit}

theorem unitsChart_cons (unit : TypedUnit) (rest : List TypedUnit) :
    unitsChart known (unit :: rest) =
      unitChart known unit.file unit.tree + unitsChart known rest := by
  simp [unitsChart]

/-- Merging units of files that were not seen adds their charts, if the qualifiers are followed
from the same scopes throughout. -/
theorem mergeAll_charted (formed : tree.WellFormed) (traced : Traced tree.get?)
    (charted : ∃ label, Charted tree.get? label chart)
    (given : ∀ route, known route → chart route ≠ 0)
    (steady : ∀ unit ∈ units, SteadyIn known total unit.file unit.tree)
    (within : ∀ route, (chart + unitsChart known units) route ≠ 0 → total route ≠ 0)
    (apart : units.Pairwise fun first second => Text.sameFolded first.file second.file = false)
    (absent : ∀ unit ∈ units, Chart.Lacks unit.file chart) :
    (tree.mergeAll units).WellFormed ∧ Traced (tree.mergeAll units).get? ∧
      ∃ label, Charted (tree.mergeAll units).get? label (chart + unitsChart known units) := by
  induction units generalizing tree chart with
  | nil =>
    rw [unitsChart, List.map_nil, List.sum_nil, add_zero]
    exact ⟨formed, traced, charted⟩
  | cons unit rest ih =>
    obtain ⟨label, labelled⟩ := charted
    obtain ⟨first, others⟩ := List.pairwise_cons.mp apart
    have ofUnit := unit.typed.fileTree
    rw [unitsChart_cons, ← add_assoc] at within ⊢
    have soFar : SteadyIn known (chart + unitChart known unit.file unit.tree) unit.file
        unit.tree := by
      refine (steady unit List.mem_cons_self).mono fun route present => within route ?_
      rw [Pi.add_apply, Ne, add_eq_zero]
      exact fun empty => present empty.1
    have lacks := absent unit List.mem_cons_self
    refine ih (merge_wellFormed formed ofUnit.formed) (merge_traced formed traced ofUnit)
      (merge_steady formed traced labelled unit.typed (lacks.absent labelled) given soFar) ?_ ?_
      within others ?_
    · intro route isKnown empty
      rw [Pi.add_apply, add_eq_zero] at empty
      exact given route isKnown empty.1
    · exact fun later member => steady later (List.mem_cons_of_mem _ member)
    · intro later member
      exact (absent later (List.mem_cons_of_mem _ member)).add
        (.of_from (unitChart_from known ofUnit) (first later member))

theorem Unshadowed.steady {label : StatementId → Route} (formed : tree.WellFormed)
    (traced : Traced tree.get?) (charted : Charted tree.get? label chart)
    (unshadowed : Unshadowed tree units) (absent : ∀ unit ∈ units, Chart.Lacks unit.file chart) :
    ∀ unit ∈ units,
      SteadyIn tree.Knows (chart + unitsChart tree.Knows units) unit.file unit.tree := by
  intro unit inside id statement found present more within
  have start : unitStart tree.Knows unit.file unit.tree id =
      startRoute tree.Knows (unitBase tree.Knows unit.file unit.tree id) statement.pendingPath := by
    rw [unitStart, found, Option.map_some, Option.getD_some]
  rw [start]
  refine startRoute_steady more ?_
  intro level inner first others isBase isPath isPresent
  have some := within _ isPresent
  rw [Pi.add_apply, Ne, add_eq_zero, not_and_or] at some
  rcases some with inTree | inUnits
  · obtain ⟨other, own, ownAt, labelled⟩ := charted.covered inTree
    have named : ∀ kind place number, Key.single kind place number ∉ label other := by
      intro kind place number member
      obtain ⟨seen, seenStatement, seenAt, located⟩ :=
        seen_of_single formed traced charted ownAt member
      rw [labelled, List.mem_append] at member
      rcases member with upper | last
      · have inBase : Key.single kind place number ∈
            unitBase tree.Knows unit.file unit.tree id := by
          rw [isBase]
          exact List.mem_append_left _ upper
        rw [single_mem_unitBase inBase, (absent unit inside).absent charted seenAt] at located
        simp at located
      · simp [containers] at last
    have knows : tree.Knows (level ++ containers [first]) := by
      refine ⟨other, ?_, labelled ▸ leads_label formed traced charted ownAt named⟩
      rintro rfl
      simp [charted.top, containers] at labelled
    congr 1
    funext route
    rw [eq_iff_iff, or_iff_left_iff_imp]
    rintro rfl
    exact knows
  · rw [← start]
    exact unshadowed unit inside id statement found _ inUnits

theorem mergeAll_sameShape {language : Language} (typed : TypedAssembled language tree)
    {others : List TypedUnit} (permuted : units.Perm others)
    (apart : units.Pairwise fun first second => Text.sameFolded first.file second.file = false)
    (absent : ∀ unit ∈ units, ∀ location ∈ tree.locations, location.inFile unit.file = false)
    (unshadowed : Unshadowed tree units) :
    SameShape (tree.mergeAll units) (tree.mergeAll others) root root := by
  obtain ⟨formed, traced⟩ := typed.assembled.sound
  obtain ⟨label, chart, charted, _⟩ := typed.charted
  have lacks : ∀ unit ∈ units, Chart.Lacks unit.file chart :=
    fun unit member => .of_absent traced charted (absent unit member)
  have steady := unshadowed.steady formed traced charted lacks
  have given : ∀ route, tree.Knows route → chart route ≠ 0 :=
    fun route knows => knows.chart_ne_zero formed traced charted
  have apartToo : others.Pairwise fun first second =>
      Text.sameFolded first.file second.file = false := by
    refine permuted.pairwise apart ?_
    intro first second different
    rw [← Bool.not_eq_true] at different ⊢
    exact fun same => different (Text.sameFolded_symm same)
  have sameChart : unitsChart tree.Knows others = unitsChart tree.Knows units :=
    ((permuted.map _).sum_eq).symm
  obtain ⟨leftFormed, leftTraced, leftLabel, left⟩ := mergeAll_charted formed traced
    ⟨label, charted⟩ given steady (fun _ present => present) apart lacks
  obtain ⟨rightFormed, rightTraced, rightLabel, right⟩ := mergeAll_charted formed traced
    ⟨label, charted⟩ given (fun unit member => steady unit (permuted.symm.subset member))
    (fun _ present => sameChart ▸ present) apartToo
    (fun unit member => lacks unit (permuted.symm.subset member))
  rw [sameChart] at right
  exact sameShape_of_charted leftFormed leftTraced left rightFormed rightTraced right

end Merging

section Checks

def Statement.isTyped (statement : Statement) : Bool :=
  statement.facets.all fun facet => match facet.definition with
    | .methodScope method => method.parameters.all fun parameter => parameter.type.isSome
    | _ => true

theorem typedTree_of_check {file : String} {unit : ScopeTree} {language : Language}
    {element : Element} (parsed : readAs language element = .ok unit)
    (named : element.filename? = some file)
    (checked : unit.ids.all fun id => (unit.get? id).all Statement.isTyped) :
    TypedTree file unit := by
  refine ⟨⟨language, element, parsed, named⟩, ?_⟩
  intro id statement scope facet method found scopeAt member isMethod
  have each := List.all_eq_true.mp checked id (mem_ids_of_get? found)
  rw [found, Option.all_some, Statement.isTyped, facets_of_scope? scopeAt] at each
  have own := List.all_eq_true.mp each facet member
  rw [isMethod] at own
  exact List.all_eq_true.mp own

theorem unshadowed_of_nowhere {tree : ScopeTree} {units : List TypedUnit}
    (nowhere : ∀ unit ∈ units, ∀ id statement first others outer key inner,
      unit.tree.get? id = some statement → statement.pendingPath = first :: others →
      unitBase tree.Knows unit.file unit.tree id = outer ++ key :: inner →
      ¬tree.Knows (outer ++ containers [first]) ∧
        unitsChart tree.Knows units (outer ++ containers [first]) = 0) :
    Unshadowed tree units := by
  intro unit inside id statement found route present
  have away := fun first others outer key inner =>
    nowhere unit inside id statement first others outer key inner found
  rw [unitStart, found, Option.map_some, Option.getD_some, startRoute_eq_base, startRoute_eq_base]
  · exact fun first others outer key inner path longer =>
      (away first others outer key inner path longer).1
  · intro first others outer key inner path longer
    obtain ⟨unknown, empty⟩ := away first others outer key inner path longer
    rintro (knows | rfl)
    · exact unknown knows
    · exact present empty

theorem not_knows_of_bare {tree : ScopeTree} (bare : tree.children root = []) (route : Route) :
    ¬tree.Knows route := by
  rintro ⟨id, notRoot, leads⟩
  apply notRoot
  clear notRoot
  induction leads with
  | root => rfl
  | child _ member _ ih =>
    rw [ih, bare] at member
    simp at member

theorem SameShape.length_below {left right : ScopeTree} (depth : Nat) {first second : StatementId}
    (same : SameShape left right first second) :
    (left.below depth first).length = (right.below depth second).length := by
  induction depth generalizing first second with
  | zero => rfl
  | succ depth ih =>
    obtain ⟨pairs, firstAt, secondAt, _, _, _, leftChildren, rightChildren, below⟩ := same
    have each : pairs.map (fun pair => (left.below depth pair.1).length + 1) =
        pairs.map (fun pair => (right.below depth pair.2).length + 1) :=
      List.map_congr_left fun pair member => by rw [ih (below pair member)]
    have leftSum := (leftChildren.map fun child => (left.below depth child).length + 1).sum_eq
    have rightSum := (rightChildren.map fun child => (right.below depth child).length + 1).sum_eq
    rw [List.map_map] at leftSum rightSum
    simp only [ScopeTree.below, children_of_get? firstAt, children_of_get? secondAt,
      List.length_flatMap, List.length_cons]
    rw [← leftSum, ← rightSum]
    exact congrArg List.sum each

end Checks

def scopeNode (tag name locator : String) (body : List Node) : Node :=
  .element (.make tag [] locator)
    [.element (.make "name" [] (locator ++ "/name[1]")) [.text name],
      .element (.make "block" [] (locator ++ "/block[1]")) body]

def innerClassUnit (file : String) : Element :=
  ⟨.make "unit" [("filename", file)] "/unit",
    [scopeNode "namespace" "M" "/unit/namespace[1]"
      [scopeNode "class" "A" "/unit/namespace[1]/block[1]/class[1]"
        [.element (.make "function_decl" [] "/unit/namespace[1]/block[1]/class[1]/block[1]/function_decl[1]")
          [.element (.make "name" [] "/unit/namespace[1]/block[1]/class[1]/block[1]/function_decl[1]/name[1]")
            [.text "f"]]]]]⟩

def innerMemberUnit (file : String) : Element :=
  ⟨.make "unit" [("filename", file)] "/unit",
    [scopeNode "namespace" "M" "/unit/namespace[1]"
      [.element (.make "function" [] "/unit/namespace[1]/block[1]/function[1]")
        [.element (.make "name" [] "/unit/namespace[1]/block[1]/function[1]/name[1]")
          [.element (.make "name" [] "/unit/namespace[1]/block[1]/function[1]/name[1]/name[1]") [.text "A"],
            .element (.make "operator" [] "/unit/namespace[1]/block[1]/function[1]/name[1]/operator[1]") [.text "::"],
            .element (.make "name" [] "/unit/namespace[1]/block[1]/function[1]/name[1]/name[2]") [.text "f"]]]]]⟩

def treeOf (unit : Element) : ScopeTree :=
  (readAs .cPlusPlus unit).toOption.getD (.empty .cPlusPlus)

def classTyped (file : String) : TypedUnit := ⟨file, classTree file, (classTree_plain file).typedTree⟩

def innerClass : TypedUnit where
  file := "m.h"
  tree := treeOf (innerClassUnit "m.h")
  typed := @typedTree_of_check _ _ .cPlusPlus (innerClassUnit "m.h") rfl rfl (by decide +kernel)

def innerMember : TypedUnit where
  file := "m.cpp"
  tree := treeOf (innerMemberUnit "m.cpp")
  typed := @typedTree_of_check _ _ .cPlusPlus (innerMemberUnit "m.cpp") rfl rfl (by decide +kernel)

def bareTree : ScopeTree := (((empty .cPlusPlus).merge (classTree "t.h")).removeFile "t.h").1

theorem bareTree_typed : TypedAssembled .cPlusPlus bareTree :=
  .remove "t.h" (.merge (classTyped "t.h") .start)

theorem innerMember_base (known : Route → Prop) :
    unitBase known innerMember.file innerMember.tree 2 = [.named (.container "M")] := by
  have formed := innerMember.typed.fileTree.formed
  have space : (innerMember.tree.get? 1).map
      (fun own => (own.qualifier?.isNone, own.key innerMember.file 1)) =
        some (true, .named (.container "M")) := by decide +kernel
  obtain ⟨top, topAt, listed⟩ :=
    exists_of_mem_children (show 1 ∈ innerMember.tree.children root by decide +kernel)
  obtain ⟨own, ownAt, inside⟩ :=
    exists_of_mem_children (show 2 ∈ innerMember.tree.children 1 by decide +kernel)
  rw [ownAt, Option.map_some, Option.some.injEq, Prod.mk.injEq, Option.isNone_iff_eq_none] at space
  rw [unitBase_child formed ownAt inside, unitRoute_child formed topAt listed ownAt,
    unitStart_of_unqualified ownAt space.1, unitBase_child formed topAt listed,
    unitRoute_root formed, pendingPath_of_unqualified space.1, space.2]
  rfl

theorem innerClass_unqualified : ∀ id ∈ innerClass.tree.ids, ∀ own ∈ innerClass.tree.get? id,
    own.pendingPath = [] ∧
      (own.parent = some root → own.key innerClass.file id ≠ .named (.container "A")) := by
  decide +kernel

theorem innerMember_qualified : ∀ id ∈ innerMember.tree.ids, ∀ own ∈ innerMember.tree.get? id,
    (own.pendingPath = [] ∨ id = 2 ∧ own.pendingPath.map Segment.name = ["A"]) ∧
      (own.parent = some root → own.key innerMember.file id ≠ .named (.container "A")) := by
  decide +kernel

theorem bareTree_unshadowed : Unshadowed bareTree [innerClass, innerMember] := by
  have unknown : ∀ route, ¬bareTree.Knows route := not_knows_of_bare (by decide +kernel)
  have inClass : unitChart bareTree.Knows innerClass.file innerClass.tree
      [.named (.container "A")] = 0 := by
    by_contra present
    obtain ⟨id, own, ownAt, ⟨parentAt, key⟩ | ⟨qualified, _⟩⟩ :=
      unitChart_top innerClass.typed.fileTree.formed present
    · exact (innerClass_unqualified id (mem_ids_of_get? ownAt) own ownAt).2 parentAt key
    · exact qualified (innerClass_unqualified id (mem_ids_of_get? ownAt) own ownAt).1
  have inMember : unitChart bareTree.Knows innerMember.file innerMember.tree
      [.named (.container "A")] = 0 := by
    by_contra present
    obtain ⟨id, own, ownAt, ⟨parentAt, key⟩ | ⟨qualified, start⟩⟩ :=
      unitChart_top innerMember.typed.fileTree.formed present
    · exact (innerMember_qualified id (mem_ids_of_get? ownAt) own ownAt).2 parentAt key
    · obtain ⟨rfl, _⟩ := (innerMember_qualified id (mem_ids_of_get? ownAt) own
        ownAt).1.resolve_left qualified
      rw [unitStart, startRoute_eq_base fun _ _ _ _ _ _ _ => unknown _, innerMember_base] at start
      simp at start
  apply unshadowed_of_nowhere
  intro unit member id statement first others outer key inner found path longer
  refine ⟨unknown _, ?_⟩
  rcases List.mem_pair.mp member with rfl | rfl
  · simp [(innerClass_unqualified id (mem_ids_of_get? found) statement found).1] at path
  · obtain ⟨rfl, names⟩ := (innerMember_qualified id (mem_ids_of_get? found) statement
      found).1.resolve_left (by simp [path])
    rw [path, List.map_cons, List.cons.injEq] at names
    have isTop : outer = [] := by
      rw [innerMember_base] at longer
      cases outer with
      | nil => rfl
      | cons next rest => simp at longer
    rw [isTop, List.nil_append, containers, List.map_singleton, names.1]
    simp [unitsChart, inClass, inMember]

/-- Two typed units of different files that were not seen can be merged in either order. -/
theorem merge_order_sameShape {language : Language} {tree : ScopeTree}
    (typed : TypedAssembled language tree) (header implementation : TypedUnit)
    (apart : Text.sameFolded header.file implementation.file = false)
    (absent : ∀ location ∈ tree.locations, location.inFile header.file = false ∧
      location.inFile implementation.file = false)
    (unshadowed : Unshadowed tree [header, implementation]) :
    SameShape ((tree.merge header.tree).merge implementation.tree)
      ((tree.merge implementation.tree).merge header.tree) root root := by
  refine mergeAll_sameShape typed (.swap implementation header []) (by simpa using apart) ?_
    unshadowed
  intro unit member location located
  rcases List.mem_pair.mp member with rfl | rfl
  · exact (absent location located).1
  · exact (absent location located).2

theorem merge_order_sameShape_class_removed :
    Unshadowed bareTree [innerClass, innerMember] ∧
      SameShape ((bareTree.merge innerClass.tree).merge innerMember.tree)
        ((bareTree.merge innerMember.tree).merge innerClass.tree) root root :=
  ⟨bareTree_unshadowed, merge_order_sameShape bareTree_typed innerClass innerMember
    (by decide +kernel) (by decide +kernel) bareTree_unshadowed⟩

/-- When the class `A` outside the namespace comes first and the one inside last, the member
defined in between goes to the one outside. -/
theorem merge_order_outer_class :
    let tree := (empty .cPlusPlus).merge (classTree "t.h")
    TypedAssembled .cPlusPlus tree ∧
      Text.sameFolded innerClass.file innerMember.file = false ∧
      (∀ location ∈ tree.locations, location.inFile innerClass.file = false ∧
        location.inFile innerMember.file = false) ∧
      ¬SameShape ((tree.merge innerClass.tree).merge innerMember.tree)
        ((tree.merge innerMember.tree).merge innerClass.tree) root root := by
  intro tree
  refine ⟨.merge (classTyped "t.h") .start, by decide +kernel, by decide +kernel, ?_⟩
  intro same
  exact absurd (same.length_below 3) (by decide +kernel)

end ScopeAtlas
