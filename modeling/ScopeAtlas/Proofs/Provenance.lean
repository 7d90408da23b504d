import ScopeAtlas.Proofs.MergeSteps
import ScopeAtlas.ScopeTree.Removal

/-!
Which file each part of a tree comes from. A view is traced when every file that was seen at a
statement was also seen at its parent, and when the files of the expressions and facets of a
statement are those of its locations. Merging a tree in which everything comes from one file
keeps a view traced.
-/

namespace ScopeAtlas

namespace Text

theorem sameFolded_iff {left right : String} :
    sameFolded left right = true ↔ foldAscii left = foldAscii right := by
  simp [sameFolded]

theorem sameFolded_toList (left right : String) :
    sameFolded left right = (left.toList.map Char.toLower == right.toList.map Char.toLower) := by
  rw [Bool.eq_iff_iff, sameFolded_iff, beq_iff_eq, foldAscii, foldAscii, ← String.toList_inj,
    String.toList_map, String.toList_map]

@[simp]
theorem sameFolded_refl (text : String) : sameFolded text text = true :=
  sameFolded_iff.mpr rfl

theorem sameFolded_symm {left right : String} (same : sameFolded left right = true) :
    sameFolded right left = true :=
  sameFolded_iff.mpr (sameFolded_iff.mp same).symm

theorem sameFolded_trans {first second third : String} (left : sameFolded first second = true)
    (right : sameFolded second third = true) : sameFolded first third = true :=
  sameFolded_iff.mpr ((sameFolded_iff.mp left).trans (sameFolded_iff.mp right))

theorem sameFolded_congr_left {left right : String} (same : sameFolded left right = true)
    (other : String) : sameFolded left other = sameFolded right other := by
  rw [Bool.eq_iff_iff]
  exact ⟨sameFolded_trans (sameFolded_symm same), sameFolded_trans same⟩

end Text

namespace Statement

theorem hasLocationIn_iff {statement : Statement} {file : String} :
    statement.hasLocationIn file = true ↔
      ∃ location ∈ statement.locations, Text.sameFolded location.file file = true := by
  simp [hasLocationIn, Location.inFile]

theorem hasLocationIn_of_mem {statement : Statement} {location : Location}
    (member : location ∈ statement.locations) : statement.hasLocationIn location.file = true :=
  hasLocationIn_iff.mpr ⟨location, member, Text.sameFolded_refl _⟩

theorem hasLocationIn_congr {statement : Statement} {left right : String}
    (same : Text.sameFolded left right = true) (seen : statement.hasLocationIn left = true) :
    statement.hasLocationIn right = true := by
  obtain ⟨location, member, inLeft⟩ := hasLocationIn_iff.mp seen
  exact hasLocationIn_iff.mpr ⟨location, member, Text.sameFolded_trans inLeft same⟩

end Statement

structure OfFile (file : String) (statement : Statement) : Prop where
  locations : ∀ location ∈ statement.locations, location.file = file
  located : statement.locations ≠ []
  content : ∀ expression ∈ statement.content, expression.location.file = file
  facet : ∀ scope, statement.scope? = some scope →
    ∃ facet : Facet, scope.facets = [facet] ∧ facet.file = file
  paired : ∀ scope, statement.scope? = some scope → ∃ location,
    statement.locations = [location] ∧ ∀ facet ∈ scope.facets,
      facet.isReference = location.isReference
  segments : ∀ scope qualifier, statement.scope? = some scope → scope.qualifier = some qualifier →
    ∀ segment ∈ qualifier.segments, segment.location.file = file ∧ segment.name ≠ ""

structure Gains (file : String) (before after : Statement) : Prop where
  parent : after.parent = before.parent
  children : after.children = before.children
  language : after.language = before.language
  locations : ∃ extra, after.locations = before.locations ++ extra ∧ extra ≠ [] ∧
    ∀ location ∈ extra, location.file = file
  content : ∃ extra, after.content = before.content ++ extra ∧
    ∀ expression ∈ extra, expression.location.file = file
  kind : ∃ extra : List Facet,
    after.kind = before.kind.mapScope (fun scope => { scope with facets := scope.facets ++ extra }) ∧
      (before.scope?.isSome → extra ≠ []) ∧ ∀ facet ∈ extra, facet.file = file

/-- Every file seen at a statement was seen at its parent, and what a statement holds comes from
the files that it was seen in. -/
structure Traced (view : View) : Prop where
  top : ∀ {statement}, view ScopeTree.root = some statement → statement.kind = .global
  located : ∀ {id statement}, view id = some statement → id ≠ ScopeTree.root →
    statement.locations ≠ []
  upward : ∀ {id parent statement above}, view id = some statement →
    statement.parent = some parent → view parent = some above →
    ∀ location ∈ statement.locations, above.hasLocationIn location.file = true
  content : ∀ {id statement}, view id = some statement →
    ∀ expression ∈ statement.content, statement.hasLocationIn expression.location.file = true
  facets : ∀ {id statement scope}, view id = some statement → statement.scope? = some scope →
    ∀ facet ∈ scope.facets, statement.hasLocationIn facet.file = true
  spoken : ∀ {id statement scope}, view id = some statement → statement.scope? = some scope →
    ∀ location ∈ statement.locations, ∃ facet ∈ scope.facets,
      Text.sameFolded facet.file location.file = true

open ScopeTree

section Gains

variable {file : String} {before after : Statement}

theorem Gains.hasLocationIn (gains : Gains file before after) {other : String}
    (seen : before.hasLocationIn other = true) : after.hasLocationIn other = true := by
  obtain ⟨extra, same, _⟩ := gains.locations
  obtain ⟨location, member, inFile⟩ := Statement.hasLocationIn_iff.mp seen
  exact Statement.hasLocationIn_iff.mpr ⟨location, by simp [same, member], inFile⟩

theorem Gains.hasLocationIn_file (gains : Gains file before after) :
    after.hasLocationIn file = true := by
  obtain ⟨extra, same, someExtra, allOf⟩ := gains.locations
  obtain ⟨location, member⟩ := List.exists_mem_of_ne_nil extra someExtra
  refine Statement.hasLocationIn_iff.mpr ⟨location, by simp [same, member], ?_⟩
  rw [allOf location member, Text.sameFolded_refl]

theorem Gains.scope? (gains : Gains file before after) {scope : NamedScope}
    (found : after.scope? = some scope) : ∃ own extra, before.scope? = some own ∧
      scope = { own with facets := own.facets ++ extra } ∧ extra ≠ [] ∧
        ∀ facet ∈ extra, facet.file = file := by
  obtain ⟨extra, kind, someExtra, allOf⟩ := gains.kind
  cases ownKind : before.kind <;>
    simp only [Statement.scope?, kind, ownKind, StatementKind.mapScope, StatementKind.scope?,
      reduceCtorEq, Option.some.injEq] at found
  rename_i own
  have named : before.scope? = some own := by simp [Statement.scope?, ownKind, StatementKind.scope?]
  exact ⟨own, extra, named, found.symm, someExtra (by simp [named]), allOf⟩

theorem gains_markWith {segment : Segment} (ofFile : segment.location.file = file)
    (before : Statement) : Gains file before (markWith segment before) := by
  refine ⟨rfl, rfl, rfl, ⟨_, rfl, by simp, ?_⟩, ⟨[], by simp [markWith], by simp⟩,
    ⟨_, rfl, by simp, ?_⟩⟩
  · intro location member
    rw [List.mem_singleton] at member
    rw [member]
    exact ofFile
  · intro facet member
    rw [List.mem_singleton] at member
    rw [member]
    exact ofFile

theorem gains_absorb {incoming : Statement} (ofFile : OfFile file incoming)
    (paired : before.scope?.isSome → incoming.scope?.isSome) :
    Gains file before (absorbStatement before incoming) := by
  refine ⟨rfl, rfl, rfl, ⟨_, rfl, ofFile.located, ofFile.locations⟩, ⟨_, rfl, ofFile.content⟩, ?_⟩
  cases ownKind : before.kind with
  | named own =>
    obtain ⟨added, addedAt⟩ := Option.isSome_iff_exists.mp
      (paired (by simp [Statement.scope?, ownKind, StatementKind.scope?]))
    have incomingKind : incoming.kind = .named added := by
      cases kind : incoming.kind <;>
        simp only [Statement.scope?, kind, StatementKind.scope?, reduceCtorEq,
          Option.some.injEq] at addedAt
      rw [addedAt]
    obtain ⟨facet, facets, facetFile⟩ := ofFile.facet added addedAt
    refine ⟨added.facets, ?_, by simp [facets], by simp [facets, facetFile]⟩
    simp [absorbStatement, ownKind, incomingKind, StatementKind.mapScope, NamedScope.absorb]
  | _ =>
    refine ⟨[], ?_, ?_, by simp⟩
    · simp [absorbStatement, ownKind, StatementKind.mapScope]
    · simp [Statement.scope?, ownKind, StatementKind.scope?]

theorem Gains.stripStatement_eq (gains : Gains file before after) :
    stripStatement file after = stripStatement file before := by
  obtain ⟨locations, sameLocations, _, locationFiles⟩ := gains.locations
  obtain ⟨content, sameContent, contentFiles⟩ := gains.content
  obtain ⟨facets, sameKind, _, facetFiles⟩ := gains.kind
  have noLocation : locations.filter (fun location => !location.inFile file) = [] := by
    rw [List.filter_eq_nil_iff]
    intro location member
    simp [Location.inFile, locationFiles location member]
  have noContent : content.filter (fun expression => !expression.location.inFile file) = [] := by
    rw [List.filter_eq_nil_iff]
    intro expression member
    simp [Location.inFile, contentFiles expression member]
  have noFacet : facets.filter (fun facet => !Text.sameFolded facet.file file) = [] := by
    rw [List.filter_eq_nil_iff]
    intro facet member
    simp [facetFiles facet member]
  have kind : after.kind.mapScope (fun scope => scope.withoutFile file) =
      before.kind.mapScope fun scope => scope.withoutFile file := by
    rw [sameKind]
    cases before.kind <;>
      simp [StatementKind.mapScope, NamedScope.withoutFile, List.filter_append, noFacet]
  simp only [stripStatement, sameLocations, sameContent, List.filter_append, noLocation, noContent,
    List.append_nil, kind, gains.parent, gains.children, gains.language]

end Gains

namespace Traced

variable {view : View} {file : String} {target : StatementId} {change : Statement → Statement}

theorem seen_above (traced : Traced view) {id parent : StatementId} {statement above : Statement}
    (found : view id = some statement) (parentAt : statement.parent = some parent)
    (aboveAt : view parent = some above) {file : String}
    (seen : statement.hasLocationIn file = true) : above.hasLocationIn file = true := by
  obtain ⟨location, member, inFile⟩ := Statement.hasLocationIn_iff.mp seen
  exact Statement.hasLocationIn_congr inFile (traced.upward found parentAt aboveAt location member)

theorem enrich (traced : Traced view)
    (gains : ∀ before, view target = some before → Gains file before (change before))
    (seenAbove : ∀ before parent above, view target = some before →
      before.parent = some parent → view parent = some above → above.hasLocationIn file = true) :
    Traced (view.enrich target change) := by
  have origin {id : StatementId} {statement : Statement}
      (found : view.enrich target change id = some statement) : ∃ before,
        view id = some before ∧ (statement = before ∨ id = target ∧ Gains file before statement) := by
    obtain ⟨before, beforeAt, ⟨same, rfl⟩ | ⟨_, rfl⟩⟩ := View.enrich_eq_some found
    · exact ⟨before, beforeAt, .inr ⟨same, gains before (same ▸ beforeAt)⟩⟩
    · exact ⟨statement, beforeAt, .inl rfl⟩
  have still {id : StatementId} {before statement : Statement} {other : String}
      (cases : statement = before ∨ id = target ∧ Gains file before statement)
      (seen : before.hasLocationIn other = true) : statement.hasLocationIn other = true := by
    rcases cases with rfl | ⟨_, gained⟩
    · exact seen
    · exact gained.hasLocationIn seen
  constructor
  · intro statement found
    obtain ⟨before, beforeAt, rfl | ⟨_, gained⟩⟩ := origin found
    · exact traced.top beforeAt
    · obtain ⟨extra, kind, _⟩ := gained.kind
      rw [kind, traced.top beforeAt]
      rfl
  · intro id statement found notRoot
    obtain ⟨before, beforeAt, rfl | ⟨_, gained⟩⟩ := origin found
    · exact traced.located beforeAt notRoot
    · obtain ⟨extra, same, someExtra, _⟩ := gained.locations
      simp [same, someExtra]
  · intro id parent statement above found parentAt aboveAt location member
    obtain ⟨aboveBefore, aboveBeforeAt, aboveCases⟩ := origin aboveAt
    apply still aboveCases
    obtain ⟨before, beforeAt, rfl | ⟨rfl, gained⟩⟩ := origin found
    · exact traced.upward beforeAt parentAt aboveBeforeAt location member
    · obtain ⟨extra, same, _, allOf⟩ := gained.locations
      rw [same] at member
      rw [gained.parent] at parentAt
      rcases List.mem_append.mp member with old | new
      · exact traced.upward beforeAt parentAt aboveBeforeAt location old
      · rw [allOf location new]
        exact seenAbove before parent aboveBefore beforeAt parentAt aboveBeforeAt
  · intro id statement found expression member
    obtain ⟨before, beforeAt, rfl | ⟨_, gained⟩⟩ := origin found
    · exact traced.content beforeAt expression member
    · obtain ⟨extra, same, allOf⟩ := gained.content
      rw [same] at member
      rcases List.mem_append.mp member with old | new
      · exact gained.hasLocationIn (traced.content beforeAt expression old)
      · rw [allOf expression new]
        exact gained.hasLocationIn_file
  · intro id statement scope found scopeAt facet member
    obtain ⟨before, beforeAt, rfl | ⟨_, gained⟩⟩ := origin found
    · exact traced.facets beforeAt scopeAt facet member
    · obtain ⟨own, extra, ownAt, rfl, _, allOf⟩ := gained.scope? scopeAt
      rcases List.mem_append.mp member with old | new
      · exact gained.hasLocationIn (traced.facets beforeAt ownAt facet old)
      · rw [allOf facet new]
        exact gained.hasLocationIn_file
  · intro id statement scope found scopeAt location member
    obtain ⟨before, beforeAt, rfl | ⟨_, gained⟩⟩ := origin found
    · exact traced.spoken beforeAt scopeAt location member
    · obtain ⟨own, extra, ownAt, rfl, someExtra, allOf⟩ := gained.scope? scopeAt
      obtain ⟨extraLocations, same, _, locationFiles⟩ := gained.locations
      rw [same] at member
      rcases List.mem_append.mp member with old | new
      · obtain ⟨facet, facetMember, sameFile⟩ := traced.spoken beforeAt ownAt location old
        exact ⟨facet, by simp [facetMember], sameFile⟩
      · obtain ⟨facet, facetMember⟩ := List.exists_mem_of_ne_nil extra someExtra
        refine ⟨facet, by simp [facetMember], ?_⟩
        rw [allOf facet facetMember, locationFiles location new, Text.sameFolded_refl]

theorem grow (traced : Traced view) (formed : view.WellFormed) {id parent : StatementId}
    {leaf above : Statement} (vacant : view id = none) (aboveAt : view parent = some above)
    (ofFile : OfFile file leaf) (seen : above.hasLocationIn file = true) :
    Traced (view.grow id parent leaf) := by
  have different : parent ≠ id := by
    rintro rfl
    simp [vacant] at aboveAt
  have notRoot : id ≠ root := by
    rintro rfl
    obtain ⟨top, topAt, _⟩ := formed.top
    simp [vacant] at topAt
  have origin {other : StatementId} {statement : Statement}
      (found : view.grow id parent leaf other = some statement) :
      (other = id ∧ statement = { leaf with parent := some parent, children := [] }) ∨
        ∃ before children, view other = some before ∧
          statement = { before with children := children } := by
    rcases View.grow_eq_some found with leafCase | ⟨_, before, beforeAt, ⟨_, rfl⟩ | ⟨_, rfl⟩⟩
    · exact .inl leafCase
    · exact .inr ⟨before, _, beforeAt, rfl⟩
    · exact .inr ⟨statement, statement.children, beforeAt, rfl⟩
  have seenInLeaf {other : String} (same : other = file) : Statement.hasLocationIn
      { leaf with parent := some parent, children := [] } other = true := by
    obtain ⟨location, member⟩ := List.exists_mem_of_ne_nil leaf.locations ofFile.located
    refine Statement.hasLocationIn_iff.mpr ⟨location, member, ?_⟩
    rw [ofFile.locations location member, same, Text.sameFolded_refl]
  constructor
  · intro statement found
    rcases origin found with ⟨same, _⟩ | ⟨before, children, beforeAt, rfl⟩
    · exact absurd same.symm notRoot
    · have isGlobal := traced.top beforeAt
      exact isGlobal
  · intro other statement found otherNotRoot
    rcases origin found with ⟨_, rfl⟩ | ⟨before, children, beforeAt, rfl⟩
    · exact ofFile.located
    · have someLocation := traced.located beforeAt otherNotRoot
      exact someLocation
  · intro other upper statement upperStatement found parentAt upperAt location member
    rcases origin found with ⟨_, rfl⟩ | ⟨before, children, beforeAt, rfl⟩
    · obtain rfl : parent = upper := by simpa using parentAt
      rw [View.grow_parent aboveAt different, Option.some.injEq] at upperAt
      rw [ofFile.locations location member, ← upperAt]
      exact seen
    · rcases origin upperAt with ⟨rfl, _⟩ | ⟨upperBefore, _, upperBeforeAt, rfl⟩
      · obtain ⟨above, aboveAt, _⟩ := formed.exists_parent beforeAt parentAt
        simp [vacant] at aboveAt
      · exact traced.upward beforeAt parentAt upperBeforeAt location member
  · intro other statement found expression member
    rcases origin found with ⟨_, rfl⟩ | ⟨before, children, beforeAt, rfl⟩
    · exact seenInLeaf (ofFile.content expression member)
    · exact traced.content beforeAt expression member
  · intro other statement scope found scopeAt facet member
    rcases origin found with ⟨_, rfl⟩ | ⟨before, children, beforeAt, rfl⟩
    · obtain ⟨only, facets, facetFile⟩ := ofFile.facet scope scopeAt
      rw [facets, List.mem_singleton] at member
      exact seenInLeaf (by rw [member, facetFile])
    · exact traced.facets beforeAt scopeAt facet member
  · intro other statement scope found scopeAt location member
    rcases origin found with ⟨_, rfl⟩ | ⟨before, children, beforeAt, rfl⟩
    · obtain ⟨only, facets, facetFile⟩ := ofFile.facet scope scopeAt
      refine ⟨only, by simp [facets], ?_⟩
      rw [facetFile, ofFile.locations location member, Text.sameFolded_refl]
    · exact traced.spoken beforeAt scopeAt location member

end Traced

/-- At a stage of the merge of one file's tree: what waits comes from the file, the targets of the
errands were seen in it, and what is settled is traced. -/
structure Tracing (file : String) (stage : Stage) : Prop where
  traced : Traced (stage.tree.settled stage.waiting)
  waiting : ∀ id ∈ stage.waiting, ∀ statement, stage.tree.get? id = some statement →
    OfFile file statement
  paths : ∀ errand ∈ stage.pending, ∀ segment ∈ errand.path,
    segment.location.file = file ∧ segment.name ≠ ""
  targets : ∀ errand ∈ stage.pending, ∀ statement,
    stage.tree.settled stage.waiting errand.target = some statement →
      statement.hasLocationIn file = true

theorem scope?_dropped {kind : StatementKind} {scope : NamedScope}
    (found : (kind.mapScope fun named => { named with qualifier := none }).scope? = some scope) :
    ∃ own, kind.scope? = some own ∧ scope = { own with qualifier := none } := by
  cases kind <;> simp only [StatementKind.mapScope, StatementKind.scope?, reduceCtorEq,
    Option.some.injEq] at found
  exact ⟨_, rfl, found.symm⟩

theorem OfFile.dropQualifier {file : String} {statement : Statement}
    (ofFile : OfFile file statement) : OfFile file { statement with
      kind := statement.kind.mapScope fun named => { named with qualifier := none } } := by
  refine ⟨ofFile.locations, ofFile.located, ofFile.content, ?_, ?_, ?_⟩
  · intro scope found
    obtain ⟨own, ownAt, rfl⟩ := scope?_dropped found
    exact ofFile.facet own ownAt
  · intro scope found
    obtain ⟨own, ownAt, rfl⟩ := scope?_dropped found
    exact ofFile.paired own ownAt
  · intro scope qualifier found pendingQualifier
    obtain ⟨own, _, rfl⟩ := scope?_dropped found
    simp at pendingQualifier

theorem ofFile_placeholder {file : String} {segment : Segment}
    (ofFile : segment.location.file = file) (language : Language) :
    OfFile file (placeholder segment language) := by
  refine ⟨?_, by simp [placeholder, Statement.detached], by simp [placeholder, Statement.detached],
    ?_, ?_, ?_⟩
  · intro location member
    simp only [placeholder, Statement.detached, List.mem_singleton] at member
    rw [member]
    exact ofFile
  · intro scope found
    simp only [placeholder, Statement.detached, Statement.scope?, StatementKind.scope?,
      Option.some.injEq] at found
    rw [← found]
    exact ⟨_, rfl, ofFile⟩
  · intro scope found
    simp only [placeholder, Statement.detached, Statement.scope?, StatementKind.scope?,
      Option.some.injEq] at found
    rw [← found]
    refine ⟨_, rfl, ?_⟩
    intro facet member
    obtain rfl := List.mem_singleton.mp member
    rfl
  · intro scope qualifier found pendingQualifier
    simp only [placeholder, Statement.detached, Statement.scope?, StatementKind.scope?,
      Option.some.injEq] at found
    simp [← found, NamedScope.ofFacet] at pendingQualifier

section Tracing

variable {file : String}

theorem isSome_scope?_of_partner {tree : ScopeTree} {scope child existing : StatementId}
    {statement : Statement} (partner : tree.partner? scope child = some existing)
    (found : tree.get? child = some statement) : statement.scope?.isSome := by
  obtain ⟨_, own, incoming, _, incomingAt, _⟩ := partner?_eq_some partner
  rw [scope?_of_get? found] at incomingAt
  simp [incomingAt]

theorem Tracing.seen_above_child {tree : ScopeTree} {pending : List Errand}
    {waiting : List StatementId} (layout : Layout ⟨tree, pending, waiting⟩)
    {scope existing : StatementId} (scopeFree : scope ∉ waiting)
    (member : existing ∈ tree.children scope)
    (seen : ∀ statement, tree.settled waiting scope = some statement →
      statement.hasLocationIn file = true)
    (before : Statement) (parent : StatementId) (above : Statement)
    (beforeAt : tree.settled waiting existing = some before)
    (parentAt : before.parent = some parent) (aboveAt : tree.settled waiting parent = some above) :
    above.hasLocationIn file = true := by
  obtain ⟨own, found, listed⟩ := exists_of_mem_children member
  have ownAt : tree.settled waiting scope = some own := settled_eq_some.mpr ⟨scopeFree, found⟩
  have parentAt' := layout.formed.parent_of_child ownAt listed beforeAt
  rw [parentAt, Option.some.injEq] at parentAt'
  subst parentAt'
  exact seen above aboveAt

def HandedOn (first : Errand) (rest : List Errand) (target : StatementId)
    (pending : List Errand) : Prop :=
  ∀ errand ∈ pending,
    (errand.target = target ∧ ∀ segment ∈ errand.path, segment ∈ first.path) ∨ errand ∈ rest

theorem handedOn_path {scope target child : StatementId} {segment : Segment} {path : List Segment}
    {rest : List Errand} :
    HandedOn ⟨scope, segment :: path, child⟩ rest target (⟨target, path, child⟩ :: rest) := by
  intro errand member
  rcases List.mem_cons.mp member with rfl | later
  · exact .inl ⟨rfl, fun segment inPath => List.mem_cons_of_mem _ inPath⟩
  · exact .inr later

theorem handedOn_errands {first : Errand} {rest : List Errand} {target : StatementId}
    {children : List StatementId} : HandedOn first rest target (errands target children ++ rest) := by
  intro errand member
  rcases List.mem_append.mp member with new | old
  · obtain ⟨_, _, rfl⟩ := List.mem_map.mp new
    exact .inl ⟨rfl, by simp⟩
  · exact .inr old

namespace Tracing

variable {tree : ScopeTree} {first : Errand} {rest : List Errand} {waiting : List StatementId}
  {next : Stage} {target : StatementId}

theorem step (tracing : Tracing file ⟨tree, first :: rest, waiting⟩)
    (traced : Traced (next.tree.settled next.waiting))
    (unchanged : ∀ id ∈ next.waiting, id ∈ waiting ∧ next.tree.get? id = tree.get? id)
    (handed : HandedOn first rest target next.pending)
    (seen : ∀ id statement, next.tree.settled next.waiting id = some statement →
      id = target ∨ (∀ before, tree.settled waiting id = some before →
        before.hasLocationIn file = true) → statement.hasLocationIn file = true) :
    Tracing file next := by
  refine ⟨traced, ?_, ?_, ?_⟩
  · intro id member statement found
    obtain ⟨waits, same⟩ := unchanged id member
    exact tracing.waiting id waits statement (same ▸ found)
  · intro errand member segment inPath
    rcases handed errand member with ⟨_, within⟩ | old
    · exact tracing.paths first List.mem_cons_self segment (within segment inPath)
    · exact tracing.paths errand (List.mem_cons_of_mem _ old) segment inPath
  · intro errand member statement found
    refine seen errand.target statement found ?_
    rcases handed errand member with ⟨here, _⟩ | old
    · exact .inl here
    · exact .inr (tracing.targets errand (List.mem_cons_of_mem _ old))

theorem enriched (tracing : Tracing file ⟨tree, first :: rest, waiting⟩)
    {change : Statement → Statement}
    (after : next.tree.settled next.waiting = (tree.settled waiting).enrich target change)
    (unchanged : ∀ id ∈ next.waiting, id ∈ waiting ∧ next.tree.get? id = tree.get? id)
    (handed : HandedOn first rest target next.pending)
    (gains : ∀ before, Gains file before (change before))
    (seenAbove : ∀ before parent above, tree.settled waiting target = some before →
      before.parent = some parent → tree.settled waiting parent = some above →
        above.hasLocationIn file = true) :
    Tracing file next := by
  refine tracing.step ?_ unchanged handed ?_
  · rw [after]
    exact tracing.traced.enrich (fun before _ => gains before) seenAbove
  · rw [after]
    intro id statement found cases
    obtain ⟨before, beforeAt, ⟨_, rfl⟩ | ⟨other, rfl⟩⟩ := View.enrich_eq_some found
    · exact (gains before).hasLocationIn_file
    · rcases cases with same | seen
      · exact absurd same other
      · exact seen statement beforeAt

theorem grown (tracing : Tracing file ⟨tree, first :: rest, waiting⟩)
    (layout : Layout ⟨tree, first :: rest, waiting⟩) {scope : StatementId} {above leaf : Statement}
    (after : next.tree.settled next.waiting = (tree.settled waiting).grow target scope leaf)
    (unchanged : ∀ id ∈ next.waiting, id ∈ waiting ∧ next.tree.get? id = tree.get? id)
    (handed : HandedOn first rest target next.pending)
    (vacant : tree.settled waiting target = none)
    (aboveAt : tree.settled waiting scope = some above) (ofFile : OfFile file leaf)
    (seenAbove : above.hasLocationIn file = true) : Tracing file next := by
  refine tracing.step ?_ unchanged handed ?_
  · rw [after]
    exact tracing.traced.grow layout.formed vacant aboveAt ofFile seenAbove
  · rw [after]
    intro id statement found cases
    rcases View.grow_eq_some found with ⟨_, rfl⟩ | ⟨notLeaf, before, beforeAt, change⟩
    · obtain ⟨location, locationMember⟩ := List.exists_mem_of_ne_nil _ ofFile.located
      refine Statement.hasLocationIn_iff.mpr ⟨location, locationMember, ?_⟩
      exact ofFile.locations location locationMember ▸ Text.sameFolded_refl _
    · have seen : before.hasLocationIn file = true := by
        rcases cases with same | seen
        · exact absurd same notLeaf
        · exact seen before beforeAt
      rcases change with ⟨_, rfl⟩ | ⟨_, rfl⟩
      · exact seen
      · exact seen

theorem freed {child : StatementId} {qualifier : Qualifier}
    (layout : Layout ⟨tree, ⟨target, [], child⟩ :: rest, waiting⟩)
    (tracing : Tracing file ⟨tree, ⟨target, [], child⟩ :: rest, waiting⟩)
    (pendingQualifier : (tree.scope? child).bind NamedScope.qualifier = some qualifier) :
    Tracing file ⟨tree.dropQualifier child,
      ⟨(tree.dropQualifier child).pathStart target qualifier.segments, qualifier.segments,
        child⟩ :: rest, waiting⟩ := by
  have waits := layout.head_waits
  have sameSettled : (tree.dropQualifier child).settled waiting = tree.settled waiting :=
    settled_dropQualifier waits
  refine ⟨?_, ?_, ?_, ?_⟩
  · simp only [sameSettled]
    exact tracing.traced
  · intro id member statement found
    simp only [get?_dropQualifier, Option.map_eq_some_iff] at found
    obtain ⟨own, ownAt, changed⟩ := found
    have ofFile := tracing.waiting id member own ownAt
    split at changed
    · rw [← changed]
      exact ofFile.dropQualifier
    · rwa [← changed]
  · intro errand member segment inPath
    rcases List.mem_cons.mp member with rfl | later
    · obtain ⟨own, ownAt⟩ := layout.live child waits
      rw [scope?_of_get? ownAt, Option.bind_eq_some_iff] at pendingQualifier
      obtain ⟨scope, scopeAt, qualifierAt⟩ := pendingQualifier
      exact (tracing.waiting child waits own ownAt).segments scope qualifier scopeAt qualifierAt
        segment inPath
    · exact tracing.paths errand (List.mem_cons_of_mem _ later) segment inPath
  · simp only [sameSettled]
    intro errand member
    rcases List.mem_cons.mp member with rfl | later
    · have start := tracing.targets _ List.mem_cons_self
      have live := layout.targets _ List.mem_cons_self
      refine (pathStart_induction (fun id => (∃ statement, tree.settled waiting id = some statement) ∧
        ∀ statement, tree.settled waiting id = some statement →
          statement.hasLocationIn file = true) ?_ ⟨live, start⟩ qualifier.segments).2
      rintro id parent ⟨⟨statement, found⟩, seen⟩ parentAt
      rw [parent?_dropQualifier] at parentAt
      simp only [parent?, (settled_eq_some.mp found).2, Option.bind_some] at parentAt
      refine ⟨layout.parent_settled found parentAt, ?_⟩
      exact fun above aboveAt =>
        tracing.traced.seen_above found parentAt aboveAt (seen statement found)
    · exact tracing.targets errand (List.mem_cons_of_mem _ later)

end Tracing

theorem Step.tracing {stage next : Stage} (step : Step stage next) (layout : Layout stage)
    (tracing : Tracing file stage) : Tracing file next := by
  cases step with
  | @reorder tree pending others waiting permuted =>
    refine ⟨tracing.traced, tracing.waiting, ?_, ?_⟩
    · exact fun errand member => tracing.paths errand (permuted.symm.subset member)
    · exact fun errand member => tracing.targets errand (permuted.symm.subset member)
  | @free tree target child rest waiting qualifier pendingQualifier =>
    exact Tracing.freed layout tracing pendingQualifier
  | @mark tree scope segment path child rest waiting existing found =>
    obtain ⟨scopeFree, _⟩ := layout.head_settled
    have listed := (containerChild?_eq_some found).1
    obtain ⟨free, own, ownAt⟩ := layout.child_settled scopeFree listed
    have segmentFile := (tracing.paths _ List.mem_cons_self segment List.mem_cons_self).1
    exact tracing.enriched (settled_modify free (markWith segment))
      (fun id waits => ⟨waits, get?_modify_waiting free waits _⟩) handedOn_path
      (gains_markWith segmentFile)
      (Tracing.seen_above_child layout scopeFree listed (tracing.targets _ List.mem_cons_self))
  | @sprout tree scope segment path child rest waiting language found =>
    obtain ⟨scopeFree, above, aboveAt⟩ := layout.head_settled
    have bounded := layout.waiting_lt
    have segmentFile := (tracing.paths _ List.mem_cons_self segment List.mem_cons_self).1
    have vacant : tree.settled waiting tree.nextId = none := by
      simp [settled, get?_eq_none_of_nextId_le]
    have aboveSettled : tree.settled waiting scope = some above :=
      settled_eq_some.mpr ⟨scopeFree, aboveAt⟩
    exact tracing.grown layout
      (settled_add (placeholder segment language) scopeFree bounded (lt_nextId_of_get? aboveAt) rfl)
      (fun id waits => ⟨waits, get?_add_waiting scopeFree bounded waits _⟩) handedOn_path vacant
      aboveSettled (ofFile_placeholder segmentFile language)
      (tracing.targets _ List.mem_cons_self above aboveSettled)
  | @fold tree scope child rest waiting existing statement partner found plain =>
    have waits := layout.head_waits
    obtain ⟨scopeFree, _⟩ := layout.head_settled
    have listed := (partner?_eq_some partner).1
    obtain ⟨free, own, ownAt⟩ := layout.child_settled scopeFree listed
    have ofFile := tracing.waiting child waits statement found
    exact tracing.enriched (settled_fold layout.distinct waits free _)
      (fun id inside => ⟨List.mem_of_mem_erase inside,
        get?_fold_waiting layout.distinct free inside _⟩) handedOn_errands
      (fun before => gains_absorb ofFile fun _ => isSome_scope?_of_partner partner found)
      (Tracing.seen_above_child layout scopeFree listed (tracing.targets _ List.mem_cons_self))
  | @hang tree scope child rest waiting statement partner found plain =>
    have waits := layout.head_waits
    obtain ⟨scopeFree, above, aboveAt⟩ := layout.head_settled
    have aboveSettled : tree.settled waiting scope = some above :=
      settled_eq_some.mpr ⟨scopeFree, aboveAt⟩
    exact tracing.grown layout (settled_hang layout.distinct waits scopeFree found)
      (fun id inside => ⟨List.mem_of_mem_erase inside,
        get?_hang_waiting layout.distinct scopeFree inside⟩) handedOn_errands
      (by simp [settled, waits]) aboveSettled (tracing.waiting child waits statement found)
      (tracing.targets _ List.mem_cons_self above aboveSettled)

theorem Run.tracing {stage last : Stage} (run : Run stage last) (layout : Layout stage)
    (tracing : Tracing file stage) : Tracing file last := by
  induction run with
  | refl => exact tracing
  | tail run step ih => exact step.tracing (Run.layout run layout) ih

end Tracing

structure FileTree (file : String) (unit : ScopeTree) : Prop where
  formed : unit.WellFormed
  ofFile : ∀ {id statement}, unit.get? id = some statement → OfFile file statement
  top : ∀ {statement}, unit.get? root = some statement → statement.kind = .global

theorem OfFile.shift {file : String} {statement : Statement} (ofFile : OfFile file statement)
    (offset : Nat) : OfFile file (shiftStatement offset statement) :=
  ⟨ofFile.locations, ofFile.located, ofFile.content, ofFile.facet, ofFile.paired, ofFile.segments⟩

theorem gains_firstStage {file : String} {tree unit : ScopeTree} {top : Statement}
    (traced : Traced tree.get?) (ofUnit : FileTree file unit)
    (topAt : unit.get? root = some top) (before : Statement)
    (beforeAt : tree.get? root = some before) :
    Gains file before (absorbStatement before (shiftStatement tree.nextId top)) := by
  apply gains_absorb ((ofUnit.ofFile topAt).shift _)
  simp [Statement.scope?, traced.top beforeAt, StatementKind.scope?]

theorem firstStage_tracing {file : String} {tree unit : ScopeTree} {top : Statement}
    (formed : tree.WellFormed) (traced : Traced tree.get?) (ofUnit : FileTree file unit)
    (topAt : unit.get? root = some top) : Tracing file (firstStage tree unit top) := by
  have gains := gains_firstStage traced ofUnit topAt
  refine ⟨?_, ?_, ?_, ?_⟩
  · rw [firstStage_settled formed top]
    apply traced.enrich gains
    intro before parent above beforeAt parentAt
    obtain ⟨own, ownAt, ownParent⟩ := formed.top
    rw [beforeAt, Option.some.injEq] at ownAt
    simp [ownAt, ownParent] at parentAt
  · intro id member statement found
    obtain ⟨inner, notRoot, rfl, own, ownAt⟩ := mem_firstStage_waiting.mp member
    rw [firstStage_get?_waiting formed notRoot ownAt, Option.some.injEq] at found
    exact found ▸ (ofUnit.ofFile ownAt).shift _
  · intro errand member segment inPath
    obtain ⟨_, _, rfl⟩ := List.mem_map.mp member
    simp at inPath
  · intro errand member statement found
    obtain ⟨_, _, rfl⟩ := List.mem_map.mp member
    rw [firstStage_settled formed top] at found
    obtain ⟨before, beforeAt, ⟨_, rfl⟩ | ⟨other, _⟩⟩ := View.enrich_eq_some found
    · exact (gains before beforeAt).hasLocationIn_file
    · exact absurd rfl other

/-- A traced tree stays traced when the tree of a file is merged into it. -/
theorem merge_traced {file : String} {tree unit : ScopeTree} (formed : tree.WellFormed)
    (traced : Traced tree.get?) (ofUnit : FileTree file unit) :
    Traced (tree.merge unit).get? := by
  obtain ⟨top, topAt, _⟩ := ofUnit.formed.top
  have tracing := (merge_run formed ofUnit.formed topAt).tracing
    (firstStage_layout formed ofUnit.formed topAt)
    (firstStage_tracing formed traced ofUnit topAt)
  have last := tracing.traced
  rwa [settled_nil] at last

theorem empty_traced (language : Language) : Traced (empty language).get? := by
  constructor
  · intro statement found
    rw [(get?_single found).2]
    rfl
  · intro id statement found notRoot
    exact absurd (get?_single found).1 notRoot
  · intro id parent statement above found parentAt
    rw [(get?_single found).2] at parentAt
    simp [Statement.detached] at parentAt
  · intro id statement found expression member
    rw [(get?_single found).2] at member
    simp [Statement.detached] at member
  · intro id statement scope found scopeAt
    rw [(get?_single found).2] at scopeAt
    simp [Statement.detached, Statement.scope?, StatementKind.scope?] at scopeAt
  · intro id statement scope found scopeAt
    rw [(get?_single found).2] at scopeAt
    simp [Statement.detached, Statement.scope?, StatementKind.scope?] at scopeAt

end ScopeAtlas
