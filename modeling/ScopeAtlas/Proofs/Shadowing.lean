import ScopeAtlas.Proofs.LeafAdditions
import ScopeAtlas.Proofs.TypeHierarchy

/-!
Which declarations a bare name can mean. The search goes outward from scope to scope and stops at
the first that answers; on its way it also looks into the bases of types. Declarations that stand
beside its way, or behind the level that answers, are never seen.

Base types are found by name, so they are the same with and without the new declarations; the search
through all bases is bounded by the number of slots, which is different, but never meets its bound.

Main statement: `findVariables_ignores_hidden_declarations`.
-/

namespace ScopeAtlas

open ScopeTree Resolver

/-! ### Levels -/

section Levels

variable {tree : ScopeTree} {id : StatementId}

theorem depth_parent? (formed : tree.WellFormed) {parent : StatementId}
    (parentAt : tree.parent? id = some parent) :
    View.depth tree.get? parent < View.depth tree.get? id := by
  obtain ⟨own, found, above⟩ := Option.bind_eq_some_iff.mp parentAt
  obtain ⟨outer, outerAt, member⟩ := formed.exists_parent found above
  rw [formed.depth_child outerAt member]
  exact Nat.lt_succ_self _

theorem depth_of_mem_climb (formed : tree.WellFormed) (bound : Nat) :
    ∀ level ∈ tree.climb bound (tree.parent? id), View.depth tree.get? level < View.depth tree.get? id := by
  refine forall_mem_climb (fun level parent below parentAt => ?_) bound _ fun parent parentAt =>
    depth_parent? formed parentAt
  exact Nat.lt_trans (depth_parent? formed parentAt) below

theorem pairwise_climb (formed : tree.WellFormed) (bound : Nat) : ∀ from? : Option StatementId,
    (tree.climb bound from?).Pairwise fun inner outer =>
      View.depth tree.get? outer < View.depth tree.get? inner := by
  induction bound with
  | zero => exact fun _ => .nil
  | succ bound ih =>
    intro from?
    cases from? with
    | none => exact .nil
    | some id => exact .cons (depth_of_mem_climb formed bound) (ih _)

theorem pairwise_lineage (formed : tree.WellFormed) (scope : StatementId) :
    (tree.lineage scope).Pairwise fun inner outer =>
      View.depth tree.get? outer < View.depth tree.get? inner := by
  rw [lineage]
  split
  · exact pairwise_climb formed _ _
  · exact .nil

end Levels

/-! ### Base types and their fields -/

def IsDeclaration (leaf : Statement) : Prop :=
  leaf.kind = .declaration

theorem IsDeclaration.mute {leaf : Statement} (declares : IsDeclaration leaf) (file : String) :
    Mute file leaf := by
  unfold IsDeclaration at declares
  constructor
  · simp [Statement.scope?, declares, StatementKind.scope?]
  · intro _ path
    simp [declares, expandPath]

def typesOf (tree : ScopeTree) (inventoried : Bool) : List StatementId :=
  tree.ids.filter (ofTree tree inventoried).isTypeLike

theorem mem_typesOf {tree : ScopeTree} {inventoried : Bool} {id : StatementId} :
    id ∈ typesOf tree inventoried ↔ (ofTree tree inventoried).isTypeLike id = true :=
  mem_types

theorem baseTypes_subset {tree : ScopeTree} {inventoried : Bool} (id : StatementId) :
    (ofTree tree inventoried).baseTypes id ⊆ typesOf tree inventoried :=
  baseTypes_subset_types _ id

theorem inherits_subset {tree : ScopeTree} {inventoried : Bool} (id : StatementId) :
    (ofTree tree inventoried).inherits id ⊆ typesOf tree inventoried :=
  inherits_subset_types _ id

theorem hierarchy_subset {tree : ScopeTree} {inventoried : Bool} {id : StatementId}
    (typed : id ∈ typesOf tree inventoried) :
    (ofTree tree inventoried).hierarchy id ⊆ typesOf tree inventoried :=
  closureFrom_subset (fun value _ => inherits_subset value) _ (by simpa using typed)
    (by simpa using typed)

section Fields

variable {tree wider : ScopeTree} {inventoried : Bool} {id : StatementId}
  (adds : AddsLeaves IsDeclaration tree wider) (formed : tree.WellFormed)

include adds formed

theorem AddsLeaves.baseTypes :
    (ofTree wider inventoried).baseTypes = (ofTree tree inventoried).baseTypes := by
  funext id
  have mute (use : Location) : ∀ leaf, IsDeclaration leaf → Mute use.file leaf :=
    fun _ declares => declares.mute use.file
  rw [Resolver.baseTypes, Resolver.baseTypes,
    adds.scope? fun _ declares => (declares.mute "").unnamed]
  cases found : tree.get? id with
  | none => simp [ScopeTree.scope?, found]
  | some own =>
    obtain ⟨children, foundWider, _⟩ := adds.kept found
    have live : tree.isLive id = true := by simp [ScopeTree.isLive, found]
    have context : tree.isLive ((tree.parent? id).getD id) = true := by
      cases parentAt : own.parent with
      | none => simpa [ScopeTree.parent?, found, parentAt] using live
      | some parent =>
        obtain ⟨above, aboveAt, _⟩ := formed.exists_parent found parentAt
        simp [ScopeTree.parent?, found, parentAt, ScopeTree.isLive, aboveAt]
    have place : (ofTree wider inventoried).contextLocation id =
        (ofTree tree inventoried).contextLocation id := by
      rw [contextLocation, contextLocation, found, foundWider]
      rfl
    rw [adds.parent? live, place]
    simp only [adds.findTypes formed context (mute _)]

theorem AddsLeaves.hierarchy (typed : id ∈ typesOf tree inventoried) :
    (ofTree wider inventoried).hierarchy id = (ofTree tree inventoried).hierarchy id := by
  have inherits : (ofTree wider inventoried).inherits = (ofTree tree inventoried).inherits := by
    funext id
    rw [Resolver.inherits, Resolver.inherits, adds.baseTypes formed,
      adds.isTypeLike fun _ declares => (declares.mute "").unnamed]
  have few : (typesOf tree inventoried).length ≤ tree.ids.length := List.length_filter_le _ _
  have bound : tree.ids.length ≤ tree.slots.size := by
    simpa [ScopeTree.ids] using List.length_filter_le tree.isLive (List.range tree.slots.size)
  have boundWider : tree.ids.length ≤ wider.slots.size := by
    have inside : tree.ids ⊆ List.range wider.slots.size := fun live member =>
      List.mem_range.mpr (adds.lt_size (mem_ids.mp member))
    simpa using (List.subperm_of_subset (nodup_ids tree) inside).length_le
  rw [Resolver.hierarchy, Resolver.hierarchy, inherits]
  refine closureFrom_eq (fun value _ => inherits_subset value) (by simp) (by simpa using typed)
    (by simpa using typed) ?_ ?_
  · simp only [List.length_singleton]
    omega
  · simp only [List.length_singleton]
    omega

theorem AddsLeaves.declarations (same : wider.get? id = tree.get? id) :
    wider.declarations id = tree.declarations id := by
  rw [ScopeTree.declarations, ScopeTree.declarations, same]
  cases found : tree.get? id with
  | none => rfl
  | some own =>
    simp only
    congr 1
    apply List.flatMap_congr
    intro child member
    obtain ⟨inner, innerAt, _⟩ := formed.linked found member
    obtain ⟨children, innerWider, _⟩ := adds.kept innerAt
    rw [innerAt, innerWider]
    rfl

theorem AddsLeaves.fieldsIn
    (untouched : ∀ type ∈ typesOf tree inventoried, wider.get? type = tree.get? type)
    {owners : List StatementId} (typed : owners ⊆ typesOf tree inventoried) (name : String) :
    (ofTree wider inventoried).fieldsIn owners name =
      (ofTree tree inventoried).fieldsIn owners name := by
  have levels : owners.flatMap (ofTree wider inventoried).hierarchy =
      owners.flatMap (ofTree tree inventoried).hierarchy :=
    List.flatMap_congr fun owner member => adds.hierarchy formed (typed member)
  rw [Resolver.fieldsIn, Resolver.fieldsIn, levels]
  congr 2
  apply List.flatMap_congr
  intro level member
  obtain ⟨owner, owned, inside⟩ := List.mem_flatMap.mp member
  exact adds.declarations formed (untouched level (hierarchy_subset (typed owned) inside))

end Fields

/-! ### The level that answers -/

namespace Resolver

def variablesAt (resolver : Resolver) (name : String) (use : Location) (level : StatementId) :
    List Declared :=
  match resolver.tree.declarationsForUse level name use with
  | [] => if resolver.isTypeLike level then resolver.fieldsIn (resolver.baseTypes level) name else []
  | found => found

/-- The level from which the search outward takes its answer. -/
def answeringLevel? (resolver : Resolver) (scope : StatementId) (name : String) (use : Location) :
    Option StatementId :=
  (resolver.tree.lineage scope).find? fun level => !(resolver.variablesAt name use level).isEmpty

/-- A statement that is not around the scope, or that is farther out than the level that answers. -/
def OutOfSight (resolver : Resolver) (scope : StatementId) (name : String) (use : Location)
    (id : StatementId) : Prop :=
  id ∉ resolver.tree.lineage scope ∨
    ∃ level, resolver.answeringLevel? scope name use = some level ∧
      id ∈ resolver.tree.ancestors level

instance (resolver : Resolver) (scope : StatementId) (name : String) (use : Location)
    (id : StatementId) : Decidable (resolver.OutOfSight scope name use id) :=
  decidable_of_iff (id ∉ resolver.tree.lineage scope ∨
    ∃ level ∈ resolver.answeringLevel? scope name use, id ∈ resolver.tree.ancestors level) Iff.rfl

theorem not_outOfSight {resolver : Resolver} (formed : resolver.tree.WellFormed)
    {scope level : StatementId} {name : String} {use : Location} {near far : List StatementId}
    (reached : resolver.tree.lineage scope = near ++ level :: far)
    (silent : ∀ inner ∈ near, resolver.variablesAt name use inner = []) :
    ¬ resolver.OutOfSight scope name use level := by
  rintro (outside | ⟨answering, answer, above⟩)
  · exact outside (by simp [reached])
  · have beyond : answering ∈ level :: far := by
      rw [answeringLevel?, reached, List.find?_append] at answer
      have passed : near.find? (fun inner => !(resolver.variablesAt name use inner).isEmpty) = none :=
        List.find?_eq_none.mpr fun inner before => by simp [silent inner before]
      rw [passed, Option.none_or] at answer
      exact List.mem_of_find?_eq_some answer
    have higher := depth_of_mem_climb formed _ level above
    have sorted := pairwise_lineage formed scope
    rw [reached] at sorted
    have deepest := List.pairwise_cons.mp (List.pairwise_append.mp sorted).2.1
    rcases List.mem_cons.mp beyond with same | farther
    · rw [same] at higher
      exact Nat.lt_irrefl _ higher
    · have lower := deepest.1 answering farther
      omega

theorem findVariables_bare (resolver : Resolver) (scope : StatementId) {name : NameUse}
    (bare : name.qualifier = none) (use : Location) : resolver.findVariables scope name use =
      firstNonEmpty (resolver.variablesAt name.name use) (resolver.tree.lineage scope) := by
  rw [findVariables, bare]
  rfl

end Resolver

theorem AddsLeaves.variablesAt {tree wider : ScopeTree} (adds : AddsLeaves IsDeclaration tree wider)
    (formed : tree.WellFormed) {inventoried : Bool}
    (untouched : ∀ type ∈ typesOf tree inventoried, wider.get? type = tree.get? type)
    {level : StatementId} (live : tree.isLive level = true)
    (same : wider.get? level = tree.get? level) (name : String) (use : Location) :
    (ofTree wider inventoried).variablesAt name use level =
      (ofTree tree inventoried).variablesAt name use level := by
  have declared : wider.declarationsForUse level name use =
      tree.declarationsForUse level name use := by
    rw [declarationsForUse, declarationsForUse, adds.hidesLater live,
      adds.declarations formed same]
  rw [Resolver.variablesAt, Resolver.variablesAt, declared,
    adds.isTypeLike fun _ declares => (declares.mute "").unnamed, adds.baseTypes formed,
    adds.fieldsIn formed untouched (baseTypes_subset level)]

theorem get?_addAll {tree : ScopeTree} {id : StatementId} (live : tree.isLive id = true)
    {additions : List (StatementId × Statement)} (apart : ∀ addition ∈ additions, addition.1 ≠ id) :
    (tree.addAll additions).get? id = tree.get? id := by
  unfold addAll
  refine List.foldlRecOn (motive := fun wider : ScopeTree => wider.get? id = tree.get? id)
    additions _ rfl ?_
  intro wider same addition member
  have old : id ≠ wider.nextId := by
    rintro rfl
    rw [get?_eq_none_of_nextId_le (Nat.le_refl _)] at same
    simp [isLive, ← same] at live
  rw [← same]
  simp [add, get?_attach, get?_store, old, (apart addition member).symm]

/-- A childless declaration below a live statement that is no type and out of sight. -/
structure HiddenDeclaration (resolver : Resolver) (scope : StatementId) (name : String)
    (use : Location) (addition : StatementId × Statement) : Prop where
  declares : addition.2.kind = .declaration
  childless : addition.2.children = []
  live : resolver.tree.isLive addition.1 = true
  untyped : resolver.isTypeLike addition.1 = false
  hidden : resolver.OutOfSight scope name use addition.1

/-- A bare name means the same variables with any number of declarations added beside the way from
the scope to the level that answers, or behind that level. -/
theorem findVariables_ignores_hidden_declarations {tree : ScopeTree} (formed : tree.WellFormed)
    {scope : StatementId} (live : tree.isLive scope = true) {name : NameUse}
    (bare : name.qualifier = none) (use : Location) (inventoried : Bool)
    {additions : List (StatementId × Statement)}
    (hidden : ∀ addition ∈ additions,
      HiddenDeclaration (ofTree tree inventoried) scope name.name use addition) :
    (ofTree (tree.addAll additions) inventoried).findVariables scope name use =
      (ofTree tree inventoried).findVariables scope name use := by
  have adds : AddsLeaves IsDeclaration tree (tree.addAll additions) :=
    .addAll formed (fun addition member => (hidden addition member).live)
      (fun addition member => (hidden addition member).childless)
      fun addition member => (hidden addition member).declares
  have untouched : ∀ type ∈ typesOf tree inventoried,
      (tree.addAll additions).get? type = tree.get? type := by
    intro type member
    refine get?_addAll (mem_ids.mp (List.mem_filter.mp member).1) fun addition added same => ?_
    have untyped := (hidden addition added).untyped
    rw [same, mem_typesOf.mp member] at untyped
    exact Bool.noConfusion untyped
  rw [findVariables_bare _ _ bare, findVariables_bare _ _ bare, adds.lineage formed live]
  refine firstNonEmpty_eq_of_reached fun near level far reached silent => ?_
  have there : tree.isLive level = true :=
    isLive_of_mem_lineage formed live level (by simp [reached])
  have seen := @not_outOfSight (ofTree tree inventoried) formed scope level name.name use near far
    reached silent
  refine adds.variablesAt formed untouched there (get?_addAll there ?_) name.name use
  rintro addition added rfl
  exact seen (hidden addition added).hidden

def fieldStatement (file name : String) (line : Nat) : Statement :=
  .detached .declaration .cPlusPlus [.point file line 1]
    [⟨.declaration ⟨name, none, .unstated, none⟩, .point file line 1, []⟩]

def shadowingTree : ScopeTree :=
  (empty .cPlusPlus).addAll
    [(0, scopeStatement "a.cpp" "N" (.namespaceScope ⟨false⟩)),
      (1, scopeStatement "a.cpp" "Base" (.typeScope ⟨.classType, [], false⟩)),
      (2, fieldStatement "a.cpp" "x" 2),
      (1, scopeStatement "a.cpp" "A" (.typeScope ⟨.classType, [.ofName "Base"], false⟩)),
      (4, scopeStatement "a.cpp" "f" (.methodScope ⟨[], none, false, false, false⟩)),
      (5, .detached .block .cPlusPlus [.span "a.cpp" ⟨4, 1⟩ ⟨5, 1⟩] []),
      (5, .detached .block .cPlusPlus [.span "a.cpp" ⟨6, 1⟩ ⟨7, 1⟩] []),
      (1, fieldStatement "a.cpp" "x" 1)]

def hiddenFields : List (StatementId × Statement) :=
  [(6, fieldStatement "a.cpp" "x" 4), (0, fieldStatement "a.cpp" "x" 1),
    (1, fieldStatement "b.cpp" "x" 1)]

theorem findVariables_ignores_hidden_declarations_inherited_field :
    shadowingTree.WellFormed ∧
      (∀ addition ∈ hiddenFields, HiddenDeclaration (ofTree shadowingTree true) 7 "x"
        (.point "a.cpp" 6 2) addition) ∧
      ((ofTree (shadowingTree.addAll hiddenFields) true).findVariables 7 ⟨"x", none⟩
        (.point "a.cpp" 6 2)).map Declared.site = [.expression 3 0] := by
  have formed : shadowingTree.WellFormed := wellFormed_of_holdsTogether (by decide +kernel)
  have live : shadowingTree.isLive 7 = true := by decide +kernel
  have hidden : ∀ addition ∈ hiddenFields, HiddenDeclaration (ofTree shadowingTree true) 7 "x"
      (.point "a.cpp" 6 2) addition := by
    intro addition member
    simp only [hiddenFields, List.mem_cons, List.not_mem_nil, or_false] at member
    rcases member with rfl | rfl | rfl
    · exact ⟨rfl, rfl, by decide +kernel, by decide +kernel, by decide +kernel⟩
    · exact ⟨rfl, rfl, by decide +kernel, by decide +kernel, by decide +kernel⟩
    · exact ⟨rfl, rfl, by decide +kernel, by decide +kernel, by decide +kernel⟩
  refine ⟨formed, hidden, ?_⟩
  rw [@findVariables_ignores_hidden_declarations shadowingTree formed 7 live ⟨"x", none⟩ rfl
    (.point "a.cpp" 6 2) true hiddenFields hidden]
  decide +kernel

end ScopeAtlas
