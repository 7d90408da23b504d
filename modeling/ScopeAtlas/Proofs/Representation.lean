import Mathlib.Data.List.Forall2
import ScopeAtlas.Proofs.Chart

/-!
How named scopes are kept. Every place that contributed to a scope left one facet and one location,
in the same order; a scope is a method everywhere or nowhere; its qualifier has been followed; and
of the containers of one parent no two share a name. Merging the tree of a unit and removing a file
both keep this, so it holds in every assembled tree.
-/

namespace ScopeAtlas

open Markup ScopeTree SourceUnit

def Facet.LeftAt (facet : Facet) (location : Location) : Prop :=
  facet.file = location.file ∧ facet.isReference = location.isReference

structure Faceted (statement : Statement) (scope : NamedScope) : Prop where
  spoken : scope.facets ≠ []
  paired : List.Forall₂ Facet.LeftAt scope.facets statement.locations
  uniform : (∀ facet ∈ scope.facets, facet.definition.isContainer = true) ∨
    ∀ facet ∈ scope.facets, facet.definition.isContainer = false
  placed : scope.qualifier = none

/-- Every scope is faceted, and containers of one parent that share a name are one. -/
structure Represented (view : View) : Prop where
  faceted : ∀ {id statement scope}, view id = some statement → statement.scope? = some scope →
    Faceted statement scope
  apart : ∀ {id other statement another scope next}, view id = some statement →
    view other = some another → statement.scope? = some scope → another.scope? = some next →
    statement.parent = another.parent → scope.isContainer = true → next.isContainer = true →
    scope.name = next.name → scope.name ≠ "" → id = other

section Facets

variable {statement : Statement} {scope : NamedScope}

theorem isContainer_of_facets {holds : Bool} (spoken : scope.facets ≠ [])
    (all : ∀ facet ∈ scope.facets, facet.definition.isContainer = holds) :
    scope.isContainer = holds := by
  obtain ⟨facet, member, same⟩ := exists_definition spoken
  rw [NamedScope.isContainer, same, all facet member]

theorem Faceted.agree (faceted : Faceted statement scope) :
    ∀ facet ∈ scope.facets, facet.definition.isContainer = scope.isContainer := by
  intro facet member
  rcases faceted.uniform with all | none
  · rw [isContainer_of_facets faceted.spoken all, all facet member]
  · rw [isContainer_of_facets faceted.spoken none, none facet member]

theorem uniform_of_agree {facets : List Facet} {holds : Bool}
    (agree : ∀ facet ∈ facets, facet.definition.isContainer = holds) :
    (∀ facet ∈ facets, facet.definition.isContainer = true) ∨
      ∀ facet ∈ facets, facet.definition.isContainer = false := by
  cases holds with
  | true => exact .inl agree
  | false => exact .inr agree

theorem Faceted.gain (faceted : Faceted statement scope) {after : Statement} {facets : List Facet}
    {locations : List Location} (seen : after.locations = statement.locations ++ locations)
    (paired : List.Forall₂ Facet.LeftAt facets locations)
    (sorted : ∀ facet ∈ facets, facet.definition.isContainer = scope.isContainer) :
    Faceted after { scope with facets := scope.facets ++ facets } ∧
      NamedScope.isContainer { scope with facets := scope.facets ++ facets } =
        scope.isContainer := by
  have spoken : scope.facets ++ facets ≠ [] := by simp [faceted.spoken]
  have agree : ∀ facet ∈ scope.facets ++ facets,
      facet.definition.isContainer = scope.isContainer := by
    intro facet member
    rcases List.mem_append.mp member with old | new
    · exact faceted.agree facet old
    · exact sorted facet new
  refine ⟨⟨spoken, ?_, uniform_of_agree agree, faceted.placed⟩, isContainer_of_facets spoken agree⟩
  rw [seen]
  exact List.rel_append faceted.paired paired

theorem Faceted.markWith (faceted : Faceted statement scope) (holds : scope.isContainer = true)
    (segment : Segment) :
    Faceted (markWith segment statement)
        (scope.addFacet (segmentFacet (segment.location.asReference true))) ∧
      (scope.addFacet (segmentFacet (segment.location.asReference true))).isContainer =
        scope.isContainer := by
  refine faceted.gain rfl (.cons ⟨rfl, rfl⟩ .nil) ?_
  intro facet member
  rw [List.mem_singleton] at member
  rw [member, holds]
  rfl

theorem Faceted.absorb (faceted : Faceted statement scope) {incoming : Statement}
    {added : NamedScope} (incomingFaceted : Faceted incoming added)
    (sort : added.isContainer = scope.isContainer) :
    Faceted (absorbStatement statement incoming) (scope.absorb added) ∧
      (scope.absorb added).isContainer = scope.isContainer := by
  refine faceted.gain rfl incomingFaceted.paired ?_
  intro facet member
  rw [incomingFaceted.agree facet member, sort]

theorem OfFile.faceted {file : String} (ofFile : OfFile file statement)
    (scopeAt : statement.scope? = some scope) (placed : scope.qualifier = none) :
    Faceted statement scope := by
  obtain ⟨facet, facets, facetFile⟩ := ofFile.facet scope scopeAt
  obtain ⟨location, locations, flags⟩ := ofFile.paired scope scopeAt
  have locationFile : location.file = file := ofFile.locations location (by simp [locations])
  refine ⟨by simp [facets], ?_, ?_, placed⟩
  · rw [facets, locations]
    refine .cons ⟨facetFile.trans locationFile.symm, flags facet (by simp [facets])⟩ .nil
  · have same : ∀ other ∈ scope.facets,
        other.definition.isContainer = facet.definition.isContainer := by
      intro other member
      rw [facets, List.mem_singleton] at member
      rw [member]
    exact uniform_of_agree same

theorem Faceted.of_parts (faceted : Faceted statement scope) {after : Statement}
    (locations : after.locations = statement.locations) : Faceted after scope :=
  ⟨faceted.spoken, locations ▸ faceted.paired, faceted.uniform, faceted.placed⟩

theorem Faceted.leftover (faceted : Faceted statement scope) {file : String}
    (left : (stripStatement file statement).locations ≠ []) (tree : ScopeTree) :
    Faceted (tree.leftover file statement) (scope.withoutFile file) ∧
      (scope.withoutFile file).isContainer = scope.isContainer := by
  have paired : List.Forall₂ Facet.LeftAt (scope.withoutFile file).facets
      (stripStatement file statement).locations := by
    refine List.rel_filter ?_ faceted.paired
    intro facet location leftAt
    simp [Location.inFile, leftAt.1]
  have spoken : (scope.withoutFile file).facets ≠ [] := by
    intro nothing
    rw [nothing] at paired
    exact left (List.forall₂_nil_left_iff.mp paired)
  have agree : ∀ facet ∈ (scope.withoutFile file).facets,
      facet.definition.isContainer = scope.isContainer :=
    fun facet member => faceted.agree facet (List.mem_of_mem_filter member)
  exact ⟨⟨spoken, paired, uniform_of_agree agree, faceted.placed⟩,
    isContainer_of_facets spoken agree⟩

end Facets

namespace Represented

variable {view : View}

theorem refine (represented : Represented view) {after : View}
    (before? : ∀ {id statement scope}, after id = some statement →
      statement.scope? = some scope → ∃ before own, view id = some before ∧
        before.scope? = some own ∧ statement.parent = before.parent ∧ scope.name = own.name ∧
        scope.isContainer = own.isContainer ∧ Faceted statement scope) : Represented after := by
  constructor
  · intro id statement scope found scopeAt
    obtain ⟨_, _, _, _, _, _, _, faceted⟩ := before? found scopeAt
    exact faceted
  · intro id other statement another scope next found otherFound scopeAt nextAt siblings holds
      nextHolds names nonempty
    obtain ⟨first, own, firstAt, ownAt, parent, name, sort, _⟩ := before? found scopeAt
    obtain ⟨second, its, secondAt, itsAt, itsParent, itsName, itsSort, _⟩ :=
      before? otherFound nextAt
    rw [parent, itsParent] at siblings
    rw [sort] at holds
    rw [itsSort] at nextHolds
    rw [name, itsName] at names
    rw [name] at nonempty
    exact represented.apart firstAt secondAt ownAt itsAt siblings holds nextHolds names nonempty

theorem enrich (represented : Represented view) {target : StatementId}
    {change : Statement → Statement} (keeps : View.KeepsLinks change)
    (refined : ∀ before scope, view target = some before → (change before).scope? = some scope →
      ∃ own, before.scope? = some own ∧ scope.name = own.name ∧
        scope.isContainer = own.isContainer ∧ Faceted (change before) scope) :
    Represented (view.enrich target change) := by
  apply represented.refine
  intro id statement scope found scopeAt
  obtain ⟨before, beforeAt, ⟨rfl, rfl⟩ | ⟨_, rfl⟩⟩ := View.enrich_eq_some found
  · obtain ⟨own, ownAt, name, sort, faceted⟩ := refined before scope beforeAt scopeAt
    exact ⟨before, own, beforeAt, ownAt, keeps.parent before, name, sort, faceted⟩
  · exact ⟨statement, scope, beforeAt, scopeAt, rfl, rfl, rfl,
      represented.faceted beforeAt scopeAt⟩

theorem grow (represented : Represented view) {id parent : StatementId} {leaf : Statement}
    (faceted : ∀ scope, leaf.scope? = some scope → Faceted leaf scope)
    (fresh : ∀ other another scope next, view other = some another →
      another.parent = some parent → leaf.scope? = some scope → another.scope? = some next →
      scope.isContainer = true → next.isContainer = true → scope.name = next.name →
      scope.name = "") :
    Represented (view.grow id parent leaf) := by
  have before? {other : StatementId} {statement : Statement}
      (found : view.grow id parent leaf other = some statement) :
      (other = id ∧ statement.parent = some parent ∧ statement.scope? = leaf.scope? ∧
          statement.locations = leaf.locations) ∨
        ∃ before, view other = some before ∧ statement.parent = before.parent ∧
          statement.scope? = before.scope? ∧ statement.locations = before.locations := by
    rcases View.grow_eq_some found with ⟨same, rfl⟩ | ⟨_, before, beforeAt, ⟨_, rfl⟩ | ⟨_, rfl⟩⟩
    · exact .inl ⟨same, rfl, rfl, rfl⟩
    · exact .inr ⟨before, beforeAt, rfl, rfl, rfl⟩
    · exact .inr ⟨statement, beforeAt, rfl, rfl, rfl⟩
  constructor
  · intro other statement scope found scopeAt
    rcases before? found with ⟨_, _, sameScope, locations⟩ | ⟨before, beforeAt, _, sameScope, locations⟩
    · exact (faceted scope (sameScope ▸ scopeAt)).of_parts locations
    · exact (represented.faceted beforeAt (sameScope ▸ scopeAt)).of_parts locations
  · intro first second statement another scope next found otherFound scopeAt nextAt siblings holds
      nextHolds names nonempty
    rcases before? found with ⟨isLeaf, parentAt, sameScope, _⟩ | ⟨before, beforeAt, parentAt, sameScope, _⟩
    · rcases before? otherFound with ⟨otherLeaf, _⟩ | ⟨other, otherAt, otherParent, otherScope, _⟩
      · rw [isLeaf, otherLeaf]
      · rw [parentAt, otherParent] at siblings
        exact absurd (fresh second other scope next otherAt siblings.symm (sameScope ▸ scopeAt)
          (otherScope ▸ nextAt) holds nextHolds names) nonempty
    · rcases before? otherFound with ⟨_, otherParent, otherScope, _⟩ | ⟨other, otherAt, otherParent, otherScope, _⟩
      · rw [parentAt, otherParent] at siblings
        rw [names] at nonempty
        exact absurd (fresh first before next scope beforeAt siblings (otherScope ▸ nextAt)
          (sameScope ▸ scopeAt) nextHolds holds names.symm) nonempty
      · rw [parentAt, otherParent] at siblings
        exact represented.apart beforeAt otherAt (sameScope ▸ scopeAt) (otherScope ▸ nextAt)
          siblings holds nextHolds names nonempty

end Represented

theorem isContainer_of_sameIdentity {own incoming : NamedScope}
    (paired : own.sameIdentity incoming = true) : incoming.isContainer = own.isContainer := by
  obtain ⟨ownPlaced, incomingPlaced⟩ := sameIdentity_free paired
  obtain ⟨_, ⟨first, second, firstAt, secondAt, _⟩ | ⟨holds, incomingHolds, _⟩⟩ :=
    (sameIdentity_eq ownPlaced incomingPlaced).mp paired
  · simp [NamedScope.isContainer, firstAt, secondAt, Definition.isContainer]
  · exact incomingHolds.trans holds.symm

theorem scope?_markWith {segment : Segment} {statement : Statement} {own : NamedScope}
    (ownAt : statement.scope? = some own) : (markWith segment statement).scope? =
      some (own.addFacet (segmentFacet (segment.location.asReference true))) := by
  simp [Statement.scope?, markWith, kind_of_scope? ownAt, StatementKind.scope?,
    StatementKind.mapScope]

theorem scope?_absorbStatement {statement incoming : Statement} {own added : NamedScope}
    (ownAt : statement.scope? = some own) (addedAt : incoming.scope? = some added) :
    (absorbStatement statement incoming).scope? = some (own.absorb added) := by
  simp [Statement.scope?, absorbStatement, kind_of_scope? ownAt, kind_of_scope? addedAt,
    StatementKind.scope?]

theorem Step.represented {file : String} {stage next : Stage} (step : Step stage next)
    (layout : Layout stage) (tracing : Tracing file stage)
    (represented : Represented (stage.tree.settled stage.waiting)) :
    Represented (next.tree.settled next.waiting) := by
  cases step with
  | reorder permuted => exact represented
  | free pendingQualifier => rwa [settled_dropQualifier layout.head_waits]
  | @mark tree scope segment path child rest waiting existing found =>
    obtain ⟨scopeFree, _⟩ := layout.head_settled
    obtain ⟨listed, own, ownAt, _, _, holds⟩ := containerChild?_eq_some found
    obtain ⟨free, _⟩ := layout.child_settled scopeFree listed
    rw [settled_modify free]
    refine represented.enrich (keepsLinks_markWith segment) ?_
    intro before after beforeAt afterAt
    have here := (settled_eq_some.mp beforeAt).2
    rw [scope?_of_get? here] at ownAt
    rw [scope?_markWith ownAt, Option.some.injEq] at afterAt
    have gained := (represented.faceted beforeAt ownAt).markWith holds segment
    exact ⟨own, ownAt, afterAt ▸ rfl, afterAt ▸ gained.2, afterAt ▸ gained.1⟩
  | @sprout tree scope segment path child rest waiting language found =>
    obtain ⟨scopeFree, above, aboveAt⟩ := layout.head_settled
    have segmentFile := (tracing.paths _ List.mem_cons_self segment List.mem_cons_self).1
    rw [settled_add _ scopeFree layout.waiting_lt (lt_nextId_of_get? aboveAt) rfl]
    refine represented.grow ?_ ?_
    · intro leaf leafAt
      have ofFile := ofFile_placeholder segmentFile language
      refine ofFile.faceted leafAt ?_
      obtain rfl := Option.some.inj leafAt
      rfl
    · intro other another leaf sibling anotherAt parentAt leafAt siblingAt _ holds names
      obtain rfl := Option.some.inj leafAt
      have aboveSettled : tree.settled waiting scope = some above :=
        settled_eq_some.mpr ⟨scopeFree, aboveAt⟩
      have listed := layout.formed.mem_of_parent anotherAt parentAt aboveSettled
      rw [← children_of_get? aboveAt] at listed
      have placed := (represented.faceted anotherAt siblingAt).placed
      rw [← scope?_of_get? (settled_eq_some.mp anotherAt).2] at siblingAt
      exact absurd names.symm (containerChild?_eq_none found listed siblingAt placed holds)
  | @fold tree scope child rest waiting existing statement partner found plain =>
    obtain ⟨scopeFree, _⟩ := layout.head_settled
    obtain ⟨listed, own, added, ownAt, addedAt, paired⟩ := partner?_eq_some partner
    obtain ⟨free, _⟩ := layout.child_settled scopeFree listed
    have ofFile := tracing.waiting child layout.head_waits statement found
    rw [scope?_of_get? found] at addedAt
    have incoming := ofFile.faceted addedAt (sameIdentity_free paired).2
    rw [settled_fold layout.distinct layout.head_waits free]
    refine represented.enrich (keepsLinks_absorb statement) ?_
    intro before after beforeAt afterAt
    have here := (settled_eq_some.mp beforeAt).2
    rw [scope?_of_get? here] at ownAt
    rw [scope?_absorbStatement ownAt addedAt, Option.some.injEq] at afterAt
    have gained := (represented.faceted beforeAt ownAt).absorb incoming
      (isContainer_of_sameIdentity paired)
    exact ⟨own, ownAt, afterAt ▸ rfl, afterAt ▸ gained.2, afterAt ▸ gained.1⟩
  | @hang tree scope child rest waiting statement partner found plain =>
    have waits := layout.head_waits
    obtain ⟨scopeFree, above, aboveAt⟩ := layout.head_settled
    have ofFile := tracing.waiting child waits statement found
    have placed (scope : NamedScope) (scopeAt : statement.scope? = some scope) :
        scope.qualifier = none := by
      rw [isQualified_eq, scope?_of_get? found, scopeAt] at plain
      simpa using plain
    rw [settled_hang layout.distinct waits scopeFree found]
    refine represented.grow ?_ ?_
    · exact fun leaf leafAt => ofFile.faceted leafAt (placed leaf leafAt)
    · intro other another leaf sibling anotherAt parentAt leafAt siblingAt leafHolds holds names
      by_contra nonempty
      have aboveSettled : tree.settled waiting scope = some above :=
        settled_eq_some.mpr ⟨scopeFree, aboveAt⟩
      have listed := layout.formed.mem_of_parent anotherAt parentAt aboveSettled
      rw [← children_of_get? aboveAt] at listed
      have siblingPlaced := (represented.faceted anotherAt siblingAt).placed
      obtain ⟨otherFree, otherAt⟩ := settled_eq_some.mp anotherAt
      have different : other ≠ child := by
        rintro rfl
        exact otherFree waits
      have paired := (sameIdentity_eq siblingPlaced (placed leaf leafAt)).mpr
        ⟨names.symm, .inr ⟨holds, leafHolds, names ▸ nonempty⟩⟩
      rw [← scope?_of_get? otherAt] at siblingAt
      rw [← scope?_of_get? found] at leafAt
      rw [partner?_eq_none partner listed different siblingAt leafAt] at paired
      simp at paired

theorem Run.represented {file : String} {stage last : Stage} (run : Run stage last)
    (layout : Layout stage) (tracing : Tracing file stage)
    (represented : Represented (stage.tree.settled stage.waiting)) :
    Represented (last.tree.settled last.waiting) := by
  induction run with
  | refl => exact represented
  | tail run step ih =>
    exact step.represented (Run.layout run layout) (Run.tracing run layout tracing) ih

section Operations

variable {tree unit : ScopeTree} {file : String}

theorem merge_represented (formed : tree.WellFormed) (traced : Traced tree.get?)
    (represented : Represented tree.get?) (ofUnit : FileTree file unit) :
    Represented (tree.merge unit).get? := by
  obtain ⟨top, topAt, _⟩ := ofUnit.formed.top
  have first : Represented ((firstStage tree unit top).tree.settled
      (firstStage tree unit top).waiting) := by
    rw [firstStage_settled formed top]
    refine represented.enrich (keepsLinks_absorb _) ?_
    intro before scope beforeAt scopeAt
    simp [Statement.scope?, absorbStatement, traced.top beforeAt, StatementKind.scope?] at scopeAt
  have last := (merge_run formed ofUnit.formed topAt).represented
    (firstStage_layout formed ofUnit.formed topAt) (firstStage_tracing formed traced ofUnit topAt)
    first
  rwa [settled_nil] at last

theorem removeFile_represented (formed : tree.WellFormed) (traced : Traced tree.get?)
    (represented : Represented tree.get?) : Represented (tree.removeFile file).1.get? := by
  rw [get?_removeFile formed traced]
  apply represented.refine
  intro id statement scope found scopeAt
  obtain ⟨alive, before, beforeAt, rfl⟩ := remnant_eq_some.mp found
  obtain ⟨own, ownAt, rfl⟩ := scope?_stripStatement scopeAt
  have notRoot : id ≠ root := by
    rintro rfl
    simp [Statement.scope?, traced.top beforeAt, StatementKind.scope?] at ownAt
  have left : (stripStatement file before).locations ≠ [] := by
    rw [survives_eq_of_ne_root beforeAt notRoot] at alive
    simpa using alive
  obtain ⟨faceted, sort⟩ := (represented.faceted beforeAt ownAt).leftover left tree
  exact ⟨before, own, beforeAt, ownAt, rfl, rfl, sort, faceted⟩

theorem empty_represented (language : Language) : Represented (empty language).get? := by
  constructor
  · intro id statement scope found scopeAt
    rw [(get?_single found).2] at scopeAt
    simp [Statement.detached, Statement.scope?, StatementKind.scope?] at scopeAt
  · intro id other statement another scope next found _ scopeAt
    rw [(get?_single found).2] at scopeAt
    simp [Statement.detached, Statement.scope?, StatementKind.scope?] at scopeAt

end Operations

/-- In every assembled tree the named scopes are kept as they should be. -/
theorem assembled_represented {language : Language} {tree : ScopeTree}
    (assembled : Assembled language tree) : Represented tree.get? := by
  induction assembled with
  | start => exact empty_represented language
  | merge before parsed ih =>
    obtain ⟨formed, traced⟩ := before.sound
    obtain ⟨file, _, ofUnit⟩ := readAs_fileTree parsed
    exact merge_represented formed traced ih ofUnit
  | remove file before ih => exact removeFile_represented before.sound.1 before.sound.2 ih

theorem assembled_represented_header_removed :
    Represented ((((empty .cPlusPlus).merge (classTree "a.h")).merge
      (classTree "a.cpp")).removeFile "a.h").1.get? :=
  assembled_represented
    (.remove "a.h" (.merge (.merge .start (readAs_classUnit "a.h")) (readAs_classUnit "a.cpp")))

end ScopeAtlas
