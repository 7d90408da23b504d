import Mathlib.Tactic.Abel
import ScopeAtlas.Proofs.Chart

/-!
What the steps of a merge do to the chart of a tree. Following a segment adds the entries of the
segment one key further down, and placing a statement adds what it holds at the end of its way.
Each step is told with the new labels and the new chart, so a merge of typed statements always
leaves a charted tree.
-/

namespace ScopeAtlas

open ScopeTree

def containers (path : List Segment) : Route :=
  path.map fun segment => .named (.container segment.name)

def segmentMarks (segment : Segment) : List Mark :=
  let location := segment.location.asReference true
  [.seen location, .spoken (segmentFacet location)]

def segmentChart : Route → List Segment → Chart
  | _, [] => 0
  | route, segment :: rest =>
    Pi.single (route ++ containers [segment]) ↑(segmentMarks segment) +
      segmentChart (route ++ containers [segment]) rest

namespace Statement

def qualifier? (statement : Statement) : Option Qualifier :=
  statement.scope?.bind NamedScope.qualifier

def pendingPath (statement : Statement) : List Segment :=
  (statement.qualifier?.map Qualifier.segments).getD []

def entity? (statement : Statement) : Option Entity :=
  statement.scope?.bind NamedScope.entity?

def key (file : String) (number : Nat) (statement : Statement) : Key :=
  match statement.entity? with
  | some entity => .named entity
  | none => .single statement.kind.bare file number

/-- What a statement adds to a chart when it is placed at a route, its segments followed down from
a base. -/
def burden (base route : Route) (statement : Statement) : Chart :=
  segmentChart base statement.pendingPath + Pi.single route ↑statement.marks

end Statement

section Parts

variable {file : String} {statement : Statement}

theorem segmentChart_nil (route : Route) : segmentChart route [] = 0 := rfl

theorem key_eq_named {number : Nat} {entity : Entity}
    (isKey : statement.key file number = .named entity) : statement.entity? = some entity := by
  unfold Statement.key at isKey
  split at isKey
  · rename_i stands
    rw [stands, Key.named.inj isKey]
  · simp at isKey

theorem key_eq_single {number own : Nat} {kind : StatementKind} {place : String}
    (isKey : statement.key file number = .single kind place own) : place = file ∧ own = number := by
  unfold Statement.key at isKey
  split at isKey
  · simp at isKey
  · rw [Key.single.injEq] at isKey
    exact ⟨isKey.2.1.symm, isKey.2.2.symm⟩

theorem pendingPath_of_unqualified (free : statement.qualifier? = none) :
    statement.pendingPath = [] := by
  simp [Statement.pendingPath, free]

theorem key_dropQualifier (number : Nat) : Statement.key file number
    { statement with kind := statement.kind.mapScope fun named => { named with qualifier := none } } =
      statement.key file number := by
  simp only [Statement.key, Statement.entity?, Statement.scope?, StatementKind.bare]
  cases statement.kind <;> rfl

theorem marks_dropQualifier : Statement.marks
    { statement with kind := statement.kind.mapScope fun named => { named with qualifier := none } } =
      statement.marks := by
  simp only [Statement.marks, Statement.facets, Statement.scope?]
  cases statement.kind <;> rfl

theorem qualifier?_dropQualifier : Statement.qualifier?
    { statement with kind := statement.kind.mapScope fun named => { named with qualifier := none } } =
      none := by
  simp only [Statement.qualifier?, Statement.scope?]
  cases statement.kind <;> rfl

theorem entity?_dropQualifier : Statement.entity?
    { statement with kind := statement.kind.mapScope fun named => { named with qualifier := none } } =
      statement.entity? := by
  simp only [Statement.entity?, Statement.scope?]
  cases statement.kind <;> rfl

theorem Traced.facets_ne_nil {view : View} (traced : Traced view) {id : StatementId}
    (found : view id = some statement) {scope : NamedScope}
    (scopeAt : statement.scope? = some scope) : scope.facets ≠ [] := by
  have notRoot : id ≠ root := by
    rintro rfl
    simp [Statement.scope?, traced.top found, StatementKind.scope?] at scopeAt
  obtain ⟨location, member⟩ := List.exists_mem_of_ne_nil _ (traced.located found notRoot)
  obtain ⟨facet, facetMember, _⟩ := traced.spoken found scopeAt location member
  exact List.ne_nil_of_mem facetMember

theorem Key.Fits.eq_named {key : Key} (fits : key.Fits statement) {scope : NamedScope}
    {entity : Entity} (scopeAt : statement.scope? = some scope) (spoken : scope.facets ≠ [])
    (stands : scope.entity? = some entity) : key = .named entity ∧ entity.Typed := by
  cases key with
  | named other =>
    obtain ⟨typed, own, kind, _, _, agree⟩ := fits
    obtain rfl : own = scope := by
      rw [kind_of_scope? scopeAt, StatementKind.named.injEq] at kind
      exact kind.symm
    rw [entity?_of_facets spoken agree, Option.some.injEq] at stands
    exact ⟨stands ▸ rfl, stands ▸ typed⟩
  | single kind place number =>
    rw [entity?_of_facets spoken (fits.2.2 scope scopeAt).2] at stands
    simp at stands

theorem Key.Fits.of_named {entity : Entity} (fits : (Key.named entity).Fits statement)
    (spoken : ∀ scope, statement.scope? = some scope → scope.facets ≠ []) :
    ∃ scope, statement.scope? = some scope ∧ scope.qualifier = none ∧
      scope.entity? = some entity ∧ entity.Typed := by
  obtain ⟨typed, scope, kind, _, free, agree⟩ := fits
  have scopeAt : statement.scope? = some scope := by simp [Statement.scope?, kind, StatementKind.scope?]
  exact ⟨scope, scopeAt, free, entity?_of_facets (spoken scope scopeAt) agree, typed⟩

theorem OfFile.agree (ofFile : OfFile file statement) {scope : NamedScope}
    (scopeAt : statement.scope? = some scope) :
    ∀ facet ∈ scope.facets, facet.definition.entity? scope.name = scope.entity? := by
  obtain ⟨only, facets, _⟩ := ofFile.facet scope scopeAt
  have stands : scope.entity? = only.definition.entity? scope.name :=
    entity?_of_facets (by simp [facets]) (by simp [facets])
  intro facet member
  rw [facets, List.mem_singleton] at member
  rw [member, stands]

theorem entity?_of_scope? {scope : NamedScope} (scopeAt : statement.scope? = some scope) :
    statement.entity? = scope.entity? := by
  simp [Statement.entity?, scopeAt]

theorem qualifier?_of_scope? {scope : NamedScope} (scopeAt : statement.scope? = some scope) :
    statement.qualifier? = scope.qualifier := by
  simp [Statement.qualifier?, scopeAt]

theorem OfFile.fits_key (ofFile : OfFile file statement) (free : statement.qualifier? = none)
    (typed : ∀ entity, statement.entity? = some entity → entity.Typed) (number : Nat) :
    (statement.key file number).Fits statement := by
  unfold Statement.key
  cases stands : statement.entity? with
  | some entity =>
    have entityTyped := typed entity stands
    rw [Statement.entity?, Option.bind_eq_some_iff] at stands
    obtain ⟨scope, scopeAt, entityAt⟩ := stands
    rw [qualifier?_of_scope? scopeAt] at free
    refine ⟨entityTyped, scope, kind_of_scope? scopeAt, (name_of_entity? entityAt).symm, free, ?_⟩
    exact fun facet member => (ofFile.agree scopeAt facet member).trans entityAt
  | none =>
    refine ⟨rfl, ofFile.locations, ?_⟩
    intro scope scopeAt
    rw [qualifier?_of_scope? scopeAt] at free
    rw [entity?_of_scope? scopeAt] at stands
    exact ⟨free, fun facet member => (ofFile.agree scopeAt facet member).trans stands⟩

theorem marks_absorb {own incoming : Statement} {first second : NamedScope}
    (ownScope : own.scope? = some first) (incomingScope : incoming.scope? = some second) :
    ((absorbStatement own incoming).marks : Multiset Mark) = own.marks + incoming.marks := by
  have facets : (absorbStatement own incoming).facets = own.facets ++ incoming.facets := by
    simp [Statement.facets, Statement.scope?, absorbStatement, kind_of_scope? ownScope,
      kind_of_scope? incomingScope, StatementKind.scope?, NamedScope.absorb]
  simp only [Statement.marks, facets, List.map_append, ← Multiset.coe_add]
  simp only [absorbStatement, List.map_append, ← Multiset.coe_add]
  abel

theorem marks_absorb_global {own incoming : Statement} (ownGlobal : own.kind = .global)
    (incomingGlobal : incoming.kind = .global) :
    ((absorbStatement own incoming).marks : Multiset Mark) = own.marks + incoming.marks := by
  simp only [Statement.marks, Statement.facets, Statement.scope?, absorbStatement, ownGlobal,
    incomingGlobal, StatementKind.scope?, Option.map_none, Option.getD_none, List.map_nil,
    List.append_nil, List.map_append, ← Multiset.coe_add]
  abel

theorem marks_markWith {segment : Segment} {own : Statement} {scope : NamedScope}
    (ownScope : own.scope? = some scope) :
    ((markWith segment own).marks : Multiset Mark) = own.marks + segmentMarks segment := by
  have facets : (markWith segment own).facets =
      own.facets ++ [segmentFacet (segment.location.asReference true)] := by
    simp [Statement.facets, Statement.scope?, markWith, kind_of_scope? ownScope,
      StatementKind.scope?, StatementKind.mapScope, NamedScope.addFacet]
  have marks : (segmentMarks segment : Multiset Mark) =
      ([.seen (segment.location.asReference true)] : List Mark) +
        ([.spoken (segmentFacet (segment.location.asReference true))] : List Mark) := rfl
  rw [marks]
  simp only [Statement.marks, facets, List.map_append, ← Multiset.coe_add]
  simp only [markWith, List.map_append, List.map_cons, List.map_nil, ← Multiset.coe_add]
  abel

theorem Key.Fits.markWith {key : Key} {segment : Segment} {scope : NamedScope}
    (fits : key.Fits statement) (scopeAt : statement.scope? = some scope)
    (spoken : scope.facets ≠ []) (nonempty : segment.name ≠ "")
    (stands : scope.entity? = some (.container segment.name)) :
    key.Fits (markWith segment statement) := by
  obtain ⟨rfl, _⟩ := fits.eq_named scopeAt spoken stands
  obtain ⟨typed, own, kind, name, free, agree⟩ := fits
  refine ⟨typed, own.addFacet (segmentFacet (segment.location.asReference true)), ?_, name, free, ?_⟩
  · simp [ScopeTree.markWith, kind, StatementKind.mapScope]
  · intro facet member
    rcases List.mem_append.mp member with old | new
    · exact agree facet old
    · rw [List.mem_singleton] at new
      rw [new]
      change (if own.name = "" then none else some (Entity.container own.name)) = _
      rw [name]
      exact if_neg nonempty

theorem Key.Fits.absorb {key : Key} {incoming : Statement} {scope added : NamedScope}
    {entity : Entity} (fits : key.Fits statement) (scopeAt : statement.scope? = some scope)
    (spoken : scope.facets ≠ []) (stands : scope.entity? = some entity)
    (ofFile : OfFile file incoming) (addedAt : incoming.scope? = some added)
    (addedStands : added.entity? = some entity) :
    key.Fits (absorbStatement statement incoming) := by
  obtain ⟨rfl, _⟩ := fits.eq_named scopeAt spoken stands
  obtain ⟨typed, own, kind, name, free, agree⟩ := fits
  refine ⟨typed, own.absorb added, ?_, name, free, ?_⟩
  · simp [absorbStatement, kind, kind_of_scope? addedAt]
  · intro facet member
    rcases List.mem_append.mp member with old | new
    · exact agree facet old
    · have sameName : own.name = added.name := name.trans (name_of_entity? addedStands)
      change facet.definition.entity? own.name = _
      rw [sameName, ofFile.agree addedAt facet new, addedStands]

end Parts

/-- At a stage of the merge of a file's tree: what is settled has a chart, what waits is typed, and
whatever stands for no entity and comes from a file of one's own is told by its number. -/
structure Mapped (file : String) (offset : Nat) (own : String → Prop) (stage : Stage)
    (label : StatementId → Route) (chart : Chart) : Prop where
  mine : own file
  beyond : ∀ id ∈ stage.waiting, offset ≤ id
  typed : ∀ id ∈ stage.waiting, ∀ statement, stage.tree.get? id = some statement →
    ∀ entity, statement.entity? = some entity → entity.Typed
  charted : Charted (stage.tree.settled stage.waiting) label chart
  owned : ∀ {id statement start kind place number}, own place →
    stage.tree.settled stage.waiting id = some statement →
    label id = start ++ [.single kind place number] → id = number + offset

namespace Mapped

variable {file : String} {offset : Nat} {own : String → Prop} {tree : ScopeTree}
  {rest : List Errand} {waiting : List StatementId} {label : StatementId → Route} {chart : Chart}

theorem enriched {pending others : List Errand} {after : ScopeTree} {left : List StatementId}
    {target : StatementId} {change : Statement → Statement} {grown : Chart}
    (mapped : Mapped file offset own ⟨tree, pending, waiting⟩ label chart)
    (kept : ∀ id ∈ left, id ∈ waiting ∧ after.get? id = tree.get? id)
    (settledAfter : after.settled left = (tree.settled waiting).enrich target change)
    (charted : Charted ((tree.settled waiting).enrich target change) label grown) :
    Mapped file offset own ⟨after, others, left⟩ label grown := by
  refine ⟨mapped.mine, fun id member => mapped.beyond id (kept id member).1, ?_, ?_, ?_⟩
  · intro id member statement found
    rw [(kept id member).2] at found
    exact mapped.typed id (kept id member).1 statement found
  · rw [settledAfter]
    exact charted
  · intro id statement start kind place number isOwn found isSingle
    rw [settledAfter] at found
    obtain ⟨before, beforeAt, _⟩ := View.enrich_eq_some found
    exact mapped.owned isOwn beforeAt isSingle

theorem grown {pending others : List Errand} {after : ScopeTree} {left : List StatementId}
    {id parent : StatementId} {leaf : Statement} {key : Key} {larger : Chart}
    (mapped : Mapped file offset own ⟨tree, pending, waiting⟩ label chart)
    (kept : ∀ id ∈ left, id ∈ waiting ∧ after.get? id = tree.get? id)
    (settledAfter : after.settled left = (tree.settled waiting).grow id parent leaf)
    (charted : Charted ((tree.settled waiting).grow id parent leaf)
      (Function.update label id (label parent ++ [key])) larger)
    (numbered : ∀ kind place number, key = .single kind place number → id = number + offset) :
    Mapped file offset own ⟨after, others, left⟩
      (Function.update label id (label parent ++ [key])) larger := by
  refine ⟨mapped.mine, fun id member => mapped.beyond id (kept id member).1, ?_, ?_, ?_⟩
  · intro id member statement found
    rw [(kept id member).2] at found
    exact mapped.typed id (kept id member).1 statement found
  · rw [settledAfter]
    exact charted
  · intro other statement start kind place number isOwn found isSingle
    rw [settledAfter] at found
    rcases View.grow_eq_some found with ⟨rfl, _⟩ | ⟨notLeaf, before, beforeAt, _⟩
    · rw [Function.update_self] at isSingle
      exact numbered kind place number (List.singleton_inj.mp (List.append_inj' isSingle rfl).2)
    · rw [Function.update_of_ne notLeaf] at isSingle
      exact mapped.owned isOwn beforeAt isSingle

theorem free {target child : StatementId} {others : List Errand}
    (layout : Layout ⟨tree, ⟨target, [], child⟩ :: rest, waiting⟩)
    (mapped : Mapped file offset own ⟨tree, ⟨target, [], child⟩ :: rest, waiting⟩ label chart) :
    Mapped file offset own ⟨tree.dropQualifier child, others, waiting⟩ label chart := by
  have sameSettled := @settled_dropQualifier tree waiting child layout.head_waits
  refine ⟨mapped.mine, mapped.beyond, ?_, ?_, ?_⟩
  · intro id member statement found entity stands
    rw [get?_dropQualifier, Option.map_eq_some_iff] at found
    obtain ⟨before, beforeAt, changed⟩ := found
    refine mapped.typed id member before beforeAt entity ?_
    rw [← stands, ← changed]
    split
    · exact entity?_dropQualifier.symm
    · rfl
  · rw [sameSettled]
    exact mapped.charted
  · rw [sameSettled]
    exact mapped.owned

theorem label_of_child {pending : List Errand} (layout : Layout ⟨tree, pending, waiting⟩)
    (traced : Traced (tree.settled waiting)) (charted : Charted (tree.settled waiting) label chart)
    {scope existing : StatementId} (scopeFree : scope ∉ waiting)
    (member : existing ∈ tree.children scope) {own : NamedScope} {entity : Entity}
    (ownAt : tree.scope? existing = some own) (stands : own.entity? = some entity) :
    ∃ statement, tree.settled waiting existing = some statement ∧ statement.scope? = some own ∧
      own.facets ≠ [] ∧ label existing = label scope ++ [.named entity] ∧ entity.Typed := by
  obtain ⟨free, statement, found⟩ := layout.child_settled scopeFree member
  have settledAt : tree.settled waiting existing = some statement := settled_eq_some.mpr ⟨free, found⟩
  rw [scope?_of_get? found] at ownAt
  have spoken := traced.facets_ne_nil settledAt ownAt
  obtain ⟨above, aboveAt, listed⟩ := exists_of_mem_children member
  have parentAt := layout.formed.parent_of_child (settled_eq_some.mpr ⟨scopeFree, aboveAt⟩) listed
    settledAt
  obtain ⟨key, longer, fits⟩ := charted.inner settledAt parentAt
  obtain ⟨rfl, typed⟩ := fits.eq_named ownAt spoken stands
  exact ⟨statement, settledAt, ownAt, spoken, longer, typed⟩

theorem child_of_label {pending : List Errand} (layout : Layout ⟨tree, pending, waiting⟩)
    (traced : Traced (tree.settled waiting)) (charted : Charted (tree.settled waiting) label chart)
    {scope other : StatementId} {above statement : Statement} {entity : Entity}
    (aboveAt : tree.settled waiting scope = some above)
    (otherAt : tree.settled waiting other = some statement)
    (longer : label other = label scope ++ [.named entity]) :
    other ∈ tree.children scope ∧ ∃ own, tree.scope? other = some own ∧ own.qualifier = none ∧
      own.entity? = some entity ∧ entity.Typed := by
  obtain ⟨member, fits⟩ := charted.child_of_label layout.formed aboveAt otherAt longer
  obtain ⟨own, scopeAt, free, stands, typed⟩ :=
    fits.of_named fun scope scopeAt => traced.facets_ne_nil otherAt scopeAt
  rw [children_of_get? (settled_eq_some.mp aboveAt).2]
  refine ⟨member, own, ?_, free, stands, typed⟩
  rw [scope?_of_get? (settled_eq_some.mp otherAt).2, scopeAt]

theorem mark {scope child existing : StatementId} {segment : Segment} {path : List Segment}
    (layout : Layout ⟨tree, ⟨scope, segment :: path, child⟩ :: rest, waiting⟩)
    (tracing : Tracing file ⟨tree, ⟨scope, segment :: path, child⟩ :: rest, waiting⟩)
    (found : tree.containerChild? scope segment.name = some existing)
    (mapped : Mapped file offset own ⟨tree, ⟨scope, segment :: path, child⟩ :: rest, waiting⟩
      label chart) :
    label existing = label scope ++ containers [segment] ∧
      Mapped file offset own
        ⟨tree.modify existing (markWith segment), ⟨existing, path, child⟩ :: rest, waiting⟩ label
        (chart + Pi.single (label scope ++ containers [segment]) ↑(segmentMarks segment)) := by
  obtain ⟨scopeFree, _⟩ := layout.head_settled
  obtain ⟨member, named, namedAt, name, _, holds⟩ := containerChild?_eq_some found
  have nonempty := (tracing.paths _ List.mem_cons_self segment List.mem_cons_self).2
  have stands := (entity?_eq_container nonempty).mpr ⟨name, holds⟩
  obtain ⟨statement, settledAt, scopeAt, spoken, longer, _⟩ :=
    label_of_child layout tracing.traced mapped.charted scopeFree member namedAt stands
  have labelled : label existing = label scope ++ containers [segment] := longer
  have free := (settled_eq_some.mp settledAt).1
  refine ⟨labelled, mapped.enriched ?_ (settled_modify free (markWith segment)) ?_⟩
  · exact fun id waits => ⟨waits, get?_modify_waiting free waits _⟩
  · rw [← labelled]
    exact mapped.charted.enrich settledAt (keepsLinks_markWith segment) (marks_markWith scopeAt)
      fun key fits _ => fits.markWith scopeAt spoken nonempty stands

theorem sprout {scope child : StatementId} {segment : Segment} {path : List Segment}
    (language : Language) (layout : Layout ⟨tree, ⟨scope, segment :: path, child⟩ :: rest, waiting⟩)
    (tracing : Tracing file ⟨tree, ⟨scope, segment :: path, child⟩ :: rest, waiting⟩)
    (missing : tree.containerChild? scope segment.name = none)
    (mapped : Mapped file offset own ⟨tree, ⟨scope, segment :: path, child⟩ :: rest, waiting⟩
      label chart) :
    Mapped file offset own
      ⟨tree.add scope (placeholder segment language), ⟨tree.nextId, path, child⟩ :: rest, waiting⟩
      (Function.update label tree.nextId (label scope ++ containers [segment]))
      (chart + Pi.single (label scope ++ containers [segment]) ↑(segmentMarks segment)) := by
  obtain ⟨scopeFree, above, aboveAt⟩ := layout.head_settled
  have aboveSettled : tree.settled waiting scope = some above :=
    settled_eq_some.mpr ⟨scopeFree, aboveAt⟩
  have nonempty := (tracing.paths _ List.mem_cons_self segment List.mem_cons_self).2
  have vacant : tree.settled waiting tree.nextId = none := by
    simp [settled, get?_eq_none_of_nextId_le]
  have fresh : ∀ other statement, tree.settled waiting other = some statement →
      label other ≠ label scope ++ [.named (.container segment.name)] := by
    intro other statement otherAt longer
    obtain ⟨member, named, namedAt, free, stands, _⟩ :=
      child_of_label layout tracing.traced mapped.charted aboveSettled otherAt longer
    obtain ⟨name, holds⟩ := (entity?_eq_container nonempty).mp stands
    exact containerChild?_eq_none missing member namedAt free holds name
  have fits : (Key.named (.container segment.name)).Fits (placeholder segment language) := by
    refine ⟨trivial, _, rfl, rfl, rfl, ?_⟩
    intro facet member
    rw [NamedScope.ofFacet, List.mem_singleton] at member
    rw [member]
    exact if_neg nonempty
  refine mapped.grown ?_ (settled_add (placeholder segment language) scopeFree layout.waiting_lt
    (lt_nextId_of_get? aboveAt) rfl) ?_ (by simp)
  · exact fun id waits => ⟨waits, get?_add_waiting scopeFree layout.waiting_lt waits _⟩
  · exact mapped.charted.grow layout.formed vacant aboveSettled fits fresh

theorem unqualified_of_plain {child : StatementId} {statement : Statement}
    (found : tree.get? child = some statement) (plain : tree.isQualified child = false) :
    statement.qualifier? = none := by
  rw [isQualified_eq, scope?_of_get? found, Option.isSome_eq_false_iff,
    Option.isNone_iff_eq_none] at plain
  exact plain

theorem fold {scope child existing : StatementId} {statement : Statement}
    (layout : Layout ⟨tree, ⟨scope, [], child⟩ :: rest, waiting⟩)
    (tracing : Tracing file ⟨tree, ⟨scope, [], child⟩ :: rest, waiting⟩)
    (partner : tree.partner? scope child = some existing) (found : tree.get? child = some statement)
    (mapped : Mapped file offset own ⟨tree, ⟨scope, [], child⟩ :: rest, waiting⟩ label chart) :
    label existing = label scope ++ [statement.key file (child - offset)] ∧
      Mapped file offset own
        ⟨(tree.vacate child).modify existing fun own => absorbStatement own statement,
          errands existing statement.children ++ rest, waiting.erase child⟩ label
        (chart + Pi.single (label scope ++ [statement.key file (child - offset)])
          ↑statement.marks) := by
  have waits := layout.head_waits
  obtain ⟨scopeFree, _⟩ := layout.head_settled
  have ofFile := tracing.waiting child waits statement found
  obtain ⟨member, named, added, namedAt, addedAt, paired⟩ := partner?_eq_some partner
  rw [scope?_of_get? found] at addedAt
  obtain ⟨namedFree, addedFree⟩ := sameIdentity_free paired
  have incomingTyped : ∀ entity, added.entity? = some entity → entity.Typed := by
    intro entity stands
    rw [← entity?_of_scope? addedAt] at stands
    exact mapped.typed child waits statement found entity stands
  obtain ⟨entity, stands, addedStands⟩ := (sameIdentity_iff namedFree addedFree
    (fun entity stands => (label_of_child layout tracing.traced mapped.charted scopeFree member
      namedAt stands).choose_spec.2.2.2.2) incomingTyped).mp paired
  obtain ⟨before, settledAt, scopeAt, spoken, longer, _⟩ :=
    label_of_child layout tracing.traced mapped.charted scopeFree member namedAt stands
  have labelled : label existing = label scope ++ [statement.key file (child - offset)] := by
    rw [longer, Statement.key, entity?_of_scope? addedAt, addedStands]
  have free := (settled_eq_some.mp settledAt).1
  refine ⟨labelled, mapped.enriched ?_ (settled_fold layout.distinct waits free
    fun own => absorbStatement own statement) ?_⟩
  · exact fun id inside => ⟨List.mem_of_mem_erase inside,
      get?_fold_waiting layout.distinct free inside _⟩
  · rw [← labelled]
    exact mapped.charted.enrich settledAt (keepsLinks_absorb statement)
      (marks_absorb scopeAt addedAt)
      fun key fits _ => fits.absorb scopeAt spoken stands ofFile addedAt addedStands

theorem hang {scope child : StatementId} {statement : Statement}
    (layout : Layout ⟨tree, ⟨scope, [], child⟩ :: rest, waiting⟩)
    (tracing : Tracing file ⟨tree, ⟨scope, [], child⟩ :: rest, waiting⟩)
    (partner : tree.partner? scope child = none) (found : tree.get? child = some statement)
    (plain : tree.isQualified child = false)
    (mapped : Mapped file offset own ⟨tree, ⟨scope, [], child⟩ :: rest, waiting⟩ label chart) :
    Mapped file offset own
      ⟨(tree.modify child fun own => { own with parent := none, children := [] }).attach scope child,
        errands child statement.children ++ rest, waiting.erase child⟩
      (Function.update label child (label scope ++ [statement.key file (child - offset)]))
      (chart + Pi.single (label scope ++ [statement.key file (child - offset)])
        ↑statement.marks) := by
  have waits := layout.head_waits
  obtain ⟨scopeFree, above, aboveAt⟩ := layout.head_settled
  have aboveSettled : tree.settled waiting scope = some above :=
    settled_eq_some.mpr ⟨scopeFree, aboveAt⟩
  have ofFile := tracing.waiting child waits statement found
  have free := unqualified_of_plain found plain
  have typed := mapped.typed child waits statement found
  have vacant : tree.settled waiting child = none := by simp [settled, waits]
  have numbered : child = child - offset + offset :=
    (Nat.sub_add_cancel (mapped.beyond child waits)).symm
  have fresh : ∀ other settled, tree.settled waiting other = some settled →
      label other ≠ label scope ++ [statement.key file (child - offset)] := by
    intro other settled otherAt longer
    cases key : statement.key file (child - offset) with
    | single kind place number =>
      obtain ⟨rfl, rfl⟩ := key_eq_single key
      rw [key] at longer
      rw [mapped.owned mapped.mine otherAt longer, ← numbered, vacant] at otherAt
      simp at otherAt
    | named entity =>
      rw [key] at longer
      obtain ⟨member, existing, existingAt, existingFree, stands, entityTyped⟩ :=
        child_of_label layout tracing.traced mapped.charted aboveSettled otherAt longer
      have addedStands := key_eq_named key
      rw [Statement.entity?, Option.bind_eq_some_iff] at addedStands
      obtain ⟨added, addedAt, addedStands⟩ := addedStands
      rw [qualifier?_of_scope? addedAt] at free
      have paired : existing.sameIdentity added = true := by
        refine (sameIdentity_iff existingFree free ?_ ?_).mpr ⟨entity, stands, addedStands⟩
        · intro found isFound
          rw [stands, Option.some.injEq] at isFound
          exact isFound ▸ entityTyped
        · intro found isFound
          rw [addedStands, Option.some.injEq] at isFound
          exact isFound ▸ entityTyped
      have different : other ≠ child := by
        rintro rfl
        simp [vacant] at otherAt
      rw [← scope?_of_get? found] at addedAt
      rw [partner?_eq_none partner member different existingAt addedAt] at paired
      simp at paired
  refine mapped.grown ?_ (settled_hang layout.distinct waits scopeFree found) ?_ ?_
  · exact fun id inside => ⟨List.mem_of_mem_erase inside,
      get?_hang_waiting layout.distinct scopeFree inside⟩
  · exact mapped.charted.grow layout.formed vacant aboveSettled (ofFile.fits_key free typed _) fresh
  · intro kind place number isKey
    rwa [(key_eq_single isKey).2]

end Mapped

section Steps

variable {file : String} {offset : Nat} {own : String → Prop}

theorem Step.mapped {stage next : Stage} (step : Step stage next) (layout : Layout stage)
    (tracing : Tracing file stage) {label : StatementId → Route} {chart : Chart}
    (mapped : Mapped file offset own stage label chart) :
    ∃ relabelled grown, Mapped file offset own next relabelled grown := by
  cases step with
  | reorder permuted => exact ⟨label, chart, mapped.mine, mapped.beyond, mapped.typed,
      mapped.charted, mapped.owned⟩
  | free pendingQualifier => exact ⟨label, chart, mapped.free layout⟩
  | mark found => exact ⟨_, _, (mapped.mark layout tracing found).2⟩
  | sprout language missing => exact ⟨_, _, mapped.sprout language layout tracing missing⟩
  | fold partner found plain => exact ⟨_, _, (mapped.fold layout tracing partner found).2⟩
  | hang partner found plain => exact ⟨_, _, mapped.hang layout tracing partner found plain⟩

/-- A merge of typed statements leaves a charted tree, wherever their qualifiers lead. -/
theorem Run.mapped {stage last : Stage} (run : Run stage last) (layout : Layout stage)
    (tracing : Tracing file stage)
    (start : ∃ label chart, Mapped file offset own stage label chart) :
    ∃ label chart, Mapped file offset own last label chart := by
  induction run with
  | refl => exact start
  | tail run step ih =>
    obtain ⟨label, chart, mapped⟩ := ih
    exact step.mapped (Run.layout run layout) (Run.tracing run layout tracing) mapped

end Steps

end ScopeAtlas
