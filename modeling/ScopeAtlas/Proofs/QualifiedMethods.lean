import ScopeAtlas.Proofs.CallQueries
import ScopeAtlas.Proofs.CurrentIndex

/-!
Finding a method again by the qualified name that is shown for it. Names are taken from every named
statement above the method, while the lookup goes through the inventory, which knows the global
namespace and the containers with a name; so it is the parent of a method that decides.

A method always has a name of its own: units leave out methods without one, and merging never folds
scopes without names into each other.

Main statement: `mem_findMethods_qualifiedName_iff`.
-/

namespace ScopeAtlas

open Markup ScopeTree SourceUnit

/-! ### Methods have names -/

/-- A scope without a name is a container wherever it is written. -/
def Entitled (statement : Statement) : Prop :=
  ∀ scope, statement.scope? = some scope → scope.name = "" →
    ∀ facet ∈ scope.facets, facet.definition.isContainer = true

def AllEntitled (tree : ScopeTree) : Prop :=
  ∀ id statement, tree.get? id = some statement → Entitled statement

section Statements

variable {statement : Statement}

theorem Entitled.congr (entitled : Entitled statement) {after : Statement}
    (same : after.scope? = statement.scope?) : Entitled after := by
  intro scope scopeAt
  exact entitled scope (same ▸ scopeAt)

theorem Entitled.name_ne_empty (entitled : Entitled statement) {scope : NamedScope}
    {method : MethodDefinition} (scopeAt : statement.scope? = some scope)
    (defined : scope.definition = .methodScope method) : scope.name ≠ "" := by
  intro blank
  have spoken : scope.facets ≠ [] := by
    intro silent
    simp [NamedScope.definition, NamedScope.primary?, silent, Facet.foremost?] at defined
  obtain ⟨facet, member, same⟩ := exists_definition spoken
  have container := entitled scope scopeAt blank facet member
  rw [← same, defined] at container
  simp [Definition.isContainer] at container

theorem Entitled.mapScope (entitled : Entitled statement) {change : NamedScope → NamedScope}
    {after : Statement} (kind : after.kind = statement.kind.mapScope change)
    (names : ∀ own, (change own).name = own.name)
    (facets : ∀ own, ∀ facet ∈ (change own).facets,
      facet ∈ own.facets ∨ facet.definition.isContainer = true) : Entitled after := by
  intro scope scopeAt blank facet member
  cases own : statement.kind with
  | named before =>
    rw [Statement.scope?, kind, own] at scopeAt
    obtain rfl : change before = scope := Option.some.inj scopeAt
    rw [names] at blank
    rcases facets before facet member with old | container
    · exact entitled before (by simp [Statement.scope?, own, StatementKind.scope?]) blank facet old
    · exact container
  | _ => simp [Statement.scope?, kind, own, StatementKind.mapScope, StatementKind.scope?] at scopeAt

theorem Entitled.absorb (entitled : Entitled statement) {incoming : Statement}
    {own added : NamedScope} (ownAt : statement.scope? = some own)
    (addedAt : incoming.scope? = some added) (paired : own.sameIdentity added = true) :
    Entitled (absorbStatement statement incoming) := by
  intro scope scopeAt blank
  rw [scope?_absorbStatement ownAt addedAt, Option.some.injEq] at scopeAt
  subst scopeAt
  obtain ⟨ownFree, addedFree⟩ := sameIdentity_free paired
  obtain ⟨_, ⟨method, _, defined, _⟩ | ⟨_, _, nonempty⟩⟩ := (sameIdentity_eq ownFree addedFree).mp paired
  · exact absurd (show own.name = "" from blank) (entitled.name_ne_empty ownAt defined)
  · exact absurd (show own.name = "" from blank) nonempty

theorem entitled_placeholder (segment : Segment) (language : Language) :
    Entitled (placeholder segment language) := by
  intro scope scopeAt _ facet member
  obtain rfl := Option.some.inj scopeAt
  rw [List.mem_singleton.mp member]
  rfl

end Statements

namespace AllEntitled

variable {tree : ScopeTree}

theorem modify (all : AllEntitled tree) {id : StatementId} {change : Statement → Statement}
    (keeps : ∀ own, tree.get? id = some own → Entitled own → Entitled (change own)) :
    AllEntitled (tree.modify id change) := by
  intro other statement found
  rw [get?_modify] at found
  split at found
  next same =>
    obtain ⟨own, ownAt, rfl⟩ := Option.map_eq_some_iff.mp found
    rw [← same] at ownAt
    exact keeps own ownAt (all id own ownAt)
  next => exact all other statement found

theorem relink (all : AllEntitled tree) (id : StatementId) {change : Statement → Statement}
    (same : ∀ own, (change own).scope? = own.scope?) : AllEntitled (tree.modify id change) :=
  all.modify fun own _ entitled => entitled.congr (same own)

theorem vacate (all : AllEntitled tree) (id : StatementId) : AllEntitled (tree.vacate id) := by
  intro other statement found
  rw [get?_vacate] at found
  split at found
  · simp at found
  · exact all other statement found

theorem attach (all : AllEntitled tree) (parent child : StatementId) :
    AllEntitled (tree.attach parent child) := by
  refine (all.relink child ?_).relink parent ?_
  · exact fun _ => rfl
  · exact fun _ => rfl

theorem add (all : AllEntitled tree) (parent : StatementId) {leaf : Statement}
    (entitled : Entitled leaf) : AllEntitled (tree.add parent leaf) := by
  refine AllEntitled.attach (fun other statement found => ?_) parent tree.nextId
  rw [get?_store] at found
  split at found
  · obtain rfl := Option.some.inj found
    exact entitled.congr rfl
  · exact all other statement found

theorem append (all : AllEntitled tree) {other : ScopeTree} (others : AllEntitled other) :
    AllEntitled (tree.append other) := by
  intro id statement found
  rw [get?_append] at found
  split at found
  · exact all id statement found
  · obtain ⟨before, beforeAt, rfl⟩ := Option.map_eq_some_iff.mp found
    exact (others _ before beforeAt).congr rfl

end AllEntitled

theorem Step.entitled {stage next : Stage} (step : Step stage next)
    (all : AllEntitled stage.tree) : AllEntitled next.tree := by
  cases step with
  | reorder _ => exact all
  | free _ =>
    exact all.modify fun _ _ entitled =>
      entitled.mapScope rfl (fun _ => rfl) fun _ _ member => .inl member
  | mark _ =>
    refine all.modify fun _ _ entitled => entitled.mapScope rfl (fun _ => rfl) ?_
    intro own facet member
    rcases List.mem_append.mp member with old | new
    · exact .inl old
    · exact .inr (by rw [List.mem_singleton.mp new]; rfl)
  | sprout language _ => exact all.add _ (entitled_placeholder _ language)
  | @fold tree scope child rest waiting existing statement partner found _ =>
    obtain ⟨_, own, added, ownAt, addedAt, paired⟩ := partner?_eq_some partner
    refine (all.vacate child).modify fun before beforeAt entitled => ?_
    rw [get?_vacate] at beforeAt
    split at beforeAt
    · simp at beforeAt
    · rw [scope?_of_get? beforeAt] at ownAt
      rw [scope?_of_get? found] at addedAt
      exact entitled.absorb ownAt addedAt paired
  | @hang tree scope child rest waiting statement _ _ _ =>
    refine (all.relink child ?_).attach scope child
    exact fun _ => rfl

theorem Run.entitled {stage last : Stage} (run : Run stage last) (all : AllEntitled stage.tree) :
    AllEntitled last.tree := by
  induction run with
  | refl => exact all
  | tail _ step ih => exact step.entitled ih

theorem merge_entitled {tree unit : ScopeTree} (formed : tree.WellFormed) (all : AllEntitled tree)
    (unitFormed : unit.WellFormed) (unitAll : AllEntitled unit)
    (isGlobal : ∀ {top}, unit.get? root = some top → top.kind = .global) :
    AllEntitled (tree.merge unit) := by
  obtain ⟨top, topAt, _⟩ := unitFormed.top
  refine Run.entitled (merge_run formed unitFormed topAt) ?_
  refine ((all.append unitAll).vacate _).modify fun own _ entitled => entitled.congr ?_
  simp only [absorbStatement, shiftStatement, isGlobal topAt, Statement.scope?]
  cases own.kind with
  | _ => rfl

theorem removeFile_entitled {tree : ScopeTree} (formed : tree.WellFormed) (traced : Traced tree.get?)
    (all : AllEntitled tree) (file : String) : AllEntitled (tree.removeFile file).1 := by
  intro id statement found
  rw [get?_removeFile formed traced] at found
  obtain ⟨_, before, beforeAt, rfl⟩ := remnant_eq_some.mp found
  refine (all id before beforeAt).mapScope rfl (fun _ => rfl) fun own facet member => ?_
  exact .inl (List.mem_of_mem_filter member)

theorem Assembled.entitled {language : Language} {tree : ScopeTree}
    (assembled : Assembled language tree) : AllEntitled tree := by
  induction assembled with
  | start =>
    intro id statement found scope scopeAt
    rw [(get?_single found).2] at scopeAt
    simp [Statement.detached, Statement.scope?, StatementKind.scope?] at scopeAt
  | merge before parsed ih =>
    obtain ⟨_, _, ofUnit⟩ := readAs_unitTree parsed
    exact merge_entitled before.sound.1 ih ofUnit.formed
      (fun id statement found => (ofUnit.readFrom found).titled) ofUnit.top
  | remove file before ih => exact removeFile_entitled before.sound.1 before.sound.2 ih file

/-! ### Splitting a qualified name -/

def Separable (name : String) : Prop :=
  '.' ∉ name.toList ∧ ':' ∉ name.toList ∧ Text.trim name = name

instance (name : String) : Decidable (Separable name) :=
  inferInstanceAs (Decidable (_ ∧ _ ∧ _))

theorem splitOnP_join {parts : List String} (separable : ∀ part ∈ parts, Separable part)
    (inhabited : parts ≠ []) :
    (".".intercalate parts).toList.splitOnP (fun letter => letter == '.' || letter == ':') =
      parts.map String.toList := by
  induction parts with
  | nil => exact absurd rfl inhabited
  | cons first rest ih =>
    obtain ⟨noPoint, noColon, _⟩ := separable first List.mem_cons_self
    have whole : ∀ letter ∈ first.toList, (letter == '.' || letter == ':') = false := by
      intro letter member
      simp only [Bool.or_eq_false_iff, beq_eq_false_iff_ne]
      exact ⟨fun same => noPoint (same ▸ member), fun same => noColon (same ▸ member)⟩
    cases rest with
    | nil => rw [String.intercalate_singleton, List.splitOnP_eq_singleton whole, List.map_singleton]
    | cons second others =>
      have later := ih (fun part member => separable part (List.mem_cons_of_mem _ member)) (by simp)
      rw [String.intercalate_cons_cons, String.toList_append, String.toList_append,
        List.append_assoc]
      exact (List.splitOnP_append_cons_of_forall_mem whole '.' rfl _).trans
        (congrArg (first.toList :: ·) later)

theorem nameParts_join {parts : List String} (separable : ∀ part ∈ parts, Separable part)
    (nonempty : ∀ part ∈ parts, part ≠ "") : Program.nameParts (".".intercalate parts) = parts := by
  by_cases nothing : parts = []
  · subst nothing
    rfl
  · rw [Program.nameParts, pieces_eq_splitOnP, splitOnP_join separable nothing, List.map_map]
    have trimmed : parts.map ((fun piece => Text.trim (String.ofList piece)) ∘ String.toList) =
        parts := by
      refine (List.map_congr_left fun part member => ?_).trans (List.map_id parts)
      simp [(separable part member).2.2]
    rw [trimmed, List.filter_eq_self]
    intro part member
    simpa using nonempty part member

/-! ### The parent decides -/

def methodOwners (tree : ScopeTree) : List String → List StatementId
  | [] => [root]
  | owner => (Inventory.build tree).lookupParts owner

section Lookup

variable {tree : ScopeTree} {id : StatementId}

theorem nonempty_of_mem_qualifiedParts {part : String} (member : part ∈ tree.qualifiedParts id) :
    part ≠ "" := by
  rw [qualifiedParts, List.mem_reverse, List.mem_filter] at member
  simpa using member.2

theorem lookupParts_qualifiedParts (formed : tree.WellFormed) (notRoot : id ≠ root) :
    id ∈ (Inventory.build tree).lookupParts (tree.qualifiedParts id) ↔
      ∃ name, Titled tree id name := by
  have parts : (tree.qualifiedParts id).filter (fun part => part != "") = tree.qualifiedParts id := by
    rw [List.filter_eq_self]
    intro part member
    simpa using nonempty_of_mem_qualifiedParts member
  rw [Inventory.lookupParts, parts, lookup_build, List.mem_filter, Option.any_eq_true]
  simp only [entryOf?_eq_some, beq_iff_eq]
  constructor
  · rintro ⟨_, entry, ⟨name, titled, _⟩, _⟩
    exact ⟨name, titled⟩
  · rintro ⟨name, titled⟩
    obtain ⟨statement, _, found, _⟩ := titled.get?
    refine ⟨(mem_descendants_root formed).mpr ⟨by simp [isLive, found], notRoot⟩, _,
      ⟨name, titled, rfl⟩, rfl⟩

theorem qualifiedParts_root (formed : tree.WellFormed) (bare : tree.scope? root = none) :
    tree.qualifiedParts root = [] := by
  have unnamed : tree.name? root = none := by
    have same := congrArg (Option.map NamedScope.name) bare
    rwa [ScopeTree.scope?, Option.map_bind] at same
  simp [qualifiedParts, lineage_root formed, unnamed]

theorem Titled.mem_qualifiedParts {name : String} (titled : Titled tree id name) :
    name ∈ tree.qualifiedParts id := by
  obtain ⟨statement, _, found, _⟩ := titled.get?
  have own : id ∈ tree.lineage id := mem_lineage_self (by simp [isLive, found])
  rw [qualifiedParts, List.mem_reverse, List.mem_filter, List.mem_filterMap]
  exact ⟨⟨id, own, titled.name?⟩, by simpa using titled.nonempty⟩

theorem parent?_of_mem_children (formed : tree.WellFormed) {parent : StatementId}
    (member : id ∈ tree.children parent) : tree.parent? id = some parent := by
  obtain ⟨above, aboveAt, listed⟩ := exists_of_mem_children member
  obtain ⟨below, belowAt, parentAt⟩ := formed.linked aboveAt listed
  simp [parent?, belowAt, parentAt]

theorem mem_methodOwners_iff (formed : tree.WellFormed) (bare : tree.scope? root = none) :
    id ∈ methodOwners tree (tree.qualifiedParts id) ↔ Addressed tree id := by
  cases parts : tree.qualifiedParts id with
  | nil =>
    rw [methodOwners, List.mem_singleton]
    constructor
    · exact .inl
    · rintro (isRoot | ⟨name, titled⟩)
      · exact isRoot
      · have member := titled.mem_qualifiedParts
        simp [parts] at member
  | cons first rest =>
    have notRoot : id ≠ root := by
      rintro rfl
      simp [qualifiedParts_root formed bare] at parts
    rw [methodOwners, ← parts, lookupParts_qualifiedParts formed notRoot]
    · exact ⟨.inr, fun addressed => addressed.resolve_left notRoot⟩
    · simp

end Lookup

theorem Program.Reachable.current {language : Language} {program : Program}
    (reachable : program.Reachable language) : program.Current := by
  induction reachable with
  | start => exact current_ofTree _
  | merge _ _ _ => exact current_ofTree _
  | remove file _ ih => exact ih.removeFile file

theorem findMethods_of_parts {program : Program} (current : program.Current) {question name : String}
    {front : List String} (split : Program.nameParts question = front ++ [name]) :
    program.findMethods question =
      ((methodOwners program.tree front).flatMap fun owner =>
        program.tree.namedChildren owner name).filter fun id => (program.tree.method? id).isSome := by
  rw [Program.findMethods, split, current]
  cases front with
  | nil => rfl
  | cons first rest => simp only [List.getLast?_concat, List.dropLast_concat, methodOwners]

theorem Assembled.method_parts {language : Language} {tree : ScopeTree}
    (assembled : Assembled language tree) {id : StatementId}
    (isMethod : (tree.method? id).isSome = true) : ∃ parent name, tree.parent? id = some parent ∧
      id ∈ tree.children parent ∧ tree.name? id = some name ∧
      tree.qualifiedParts id = tree.qualifiedParts parent ++ [name] := by
  obtain ⟨formed, traced⟩ := assembled.sound
  obtain ⟨method, methodAt⟩ := Option.isSome_iff_exists.mp isMethod
  obtain ⟨statement, found, own⟩ := Option.bind_eq_some_iff.mp methodAt
  obtain ⟨scope, scopeAt, defined⟩ := Option.bind_eq_some_iff.mp own
  have notRoot : id ≠ root := by
    rintro rfl
    simp [Statement.scope?, traced.top found, StatementKind.scope?] at scopeAt
  obtain ⟨parent, above, parentAt, aboveAt, member⟩ := formed.listed found notRoot
  have named := (assembled.entitled id statement found).name_ne_empty scopeAt
    (definition_of_method? defined)
  have nameAt : tree.name? id = some scope.name :=
    name?_of_scope? (by rw [scope?_of_get? found, scopeAt])
  refine ⟨parent, scope.name, by simp [parent?, found, parentAt], ?_, nameAt, ?_⟩
  · rwa [children_of_get? aboveAt]
  · rw [qualifiedParts_child formed found parentAt, nameAt]
    simp [named]

/-- A method is found under the qualified name that is shown for it exactly when it stands in the
global namespace or in a container with a name. -/
theorem mem_findMethods_qualifiedName_iff {language : Language} {program : Program}
    (reachable : program.Reachable language) {id : StatementId}
    (isMethod : (program.tree.method? id).isSome = true)
    (separable : ∀ part ∈ program.tree.qualifiedParts id, Separable part) :
    id ∈ program.findMethods (program.tree.qualifiedName id) ↔
      ∃ parent, program.tree.parent? id = some parent ∧ Addressed program.tree parent := by
  have assembled := reachable.assembled
  obtain ⟨formed, traced⟩ := assembled.sound
  have bare : program.tree.scope? root = none := by
    obtain ⟨top, topAt, _⟩ := formed.top
    simp [scope?, topAt, Statement.scope?, traced.top topAt, StatementKind.scope?]
  obtain ⟨parent, name, parentAt, listed, nameAt, parts⟩ := assembled.method_parts isMethod
  have split : Program.nameParts (program.tree.qualifiedName id) =
      program.tree.qualifiedParts parent ++ [name] := by
    rw [← parts]
    exact nameParts_join separable fun part => nonempty_of_mem_qualifiedParts
  rw [findMethods_of_parts reachable.current split, List.mem_filter, List.mem_flatMap]
  constructor
  · rintro ⟨⟨owner, among, child⟩, _⟩
    have above := parent?_of_mem_children formed (List.mem_of_mem_filter child)
    obtain rfl : owner = parent := Option.some.inj (above.symm.trans parentAt)
    exact ⟨owner, parentAt, (mem_methodOwners_iff formed bare).mp among⟩
  · rintro ⟨owner, ownerAt, addressed⟩
    obtain rfl : owner = parent := Option.some.inj (ownerAt.symm.trans parentAt)
    refine ⟨⟨owner, (mem_methodOwners_iff formed bare).mpr addressed, ?_⟩, isMethod⟩
    exact List.mem_filter.mpr ⟨listed, by simp [nameAt]⟩

def namespaceUnit (name : List Node) : Element :=
  ⟨.make "unit" [("filename", "a.cpp")] "/unit",
    [.element (.make "namespace" [] "/unit/namespace[1]")
      (name ++ [.element (.make "block" [] "/unit/namespace[1]/block[1]")
        [scopeNode "function" "f" "/unit/namespace[1]/block[1]/function[1]" []]])]⟩

def namespaceProgram (name : List Node) : Program :=
  ((Program.empty .cPlusPlus).mergeUnit (treeOf (namespaceUnit name))).1

theorem namespaceProgram_reachable {name : List Node}
    (readable : readAs .cPlusPlus (namespaceUnit name) = .ok (treeOf (namespaceUnit name))) :
    (namespaceProgram name).Reachable .cPlusPlus :=
  .merge .start readable

theorem mem_findMethods_qualifiedName_iff_in_namespace :
    (namespaceProgram [leafNode "name" "N" "/n"]).Reachable .cPlusPlus ∧
      (namespaceProgram [leafNode "name" "N" "/n"]).tree.qualifiedName 3 = "N.f" ∧
      3 ∈ (namespaceProgram [leafNode "name" "N" "/n"]).findMethods "N.f" := by
  have reachable : (namespaceProgram [leafNode "name" "N" "/n"]).Reachable .cPlusPlus :=
    namespaceProgram_reachable rfl
  have qualified : (namespaceProgram [leafNode "name" "N" "/n"]).tree.qualifiedName 3 = "N.f" := by
    decide +kernel
  refine ⟨reachable, qualified, ?_⟩
  rw [← qualified, mem_findMethods_qualifiedName_iff reachable]
  · exact ⟨2, by decide +kernel, by decide +kernel⟩
  · decide +kernel
  · decide +kernel

/-- A method of a namespace without a name is shown as `f`, and no lookup finds it there. -/
theorem findMethods_misses_anonymous_namespace :
    (namespaceProgram []).Reachable .cPlusPlus ∧
      ((namespaceProgram []).tree.method? 3).isSome = true ∧
      (∀ part ∈ (namespaceProgram []).tree.qualifiedParts 3, Separable part) ∧
      (namespaceProgram []).tree.qualifiedName 3 = "f" ∧
      (namespaceProgram []).findMethods ((namespaceProgram []).tree.qualifiedName 3) = [] := by
  refine ⟨namespaceProgram_reachable rfl, ?_, ?_, ?_, ?_⟩
  · decide +kernel
  · decide +kernel
  · decide +kernel
  · decide +kernel

end ScopeAtlas
