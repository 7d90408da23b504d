import Mathlib.Data.List.Induction
import ScopeAtlas.Proofs.OneTree
import ScopeAtlas.Proofs.Renumbering
import ScopeAtlas.Proofs.Representation
import ScopeAtlas.Proofs.WrittenPaths

/-!
Looking up in the inventory and walking the tree. The inventory knows a scope by its qualified name
alone, the walk goes down from scope to scope. Where every named container stands in the global
namespace or in another named container, both find the same, and a level without a name finds
nothing or what the next level finds.
-/

namespace ScopeAtlas

open Markup ScopeTree SourceUnit

namespace Resolver

abbrev indexed (tree : ScopeTree) : Resolver :=
  ⟨tree, some (.build tree)⟩

abbrev walking (tree : ScopeTree) : Resolver :=
  ⟨tree, none⟩

end Resolver

section Lineage

variable {tree : ScopeTree}

theorem lineage_root (formed : tree.WellFormed) : tree.lineage root = [root] := by
  obtain ⟨top, topAt, topParent⟩ := formed.top
  have nothing : tree.climb tree.slots.size none = [] := by
    cases tree.slots.size with
    | zero => rfl
    | succ _ => rfl
  have live : tree.isLive root = true := by simp [isLive, topAt]
  have parent : tree.parent? root = none := by simp [parent?, topAt, topParent]
  rw [lineage, if_pos live, climbBound, climb, parent, nothing]

theorem lineage_child (formed : tree.WellFormed) {id parent : StatementId} {statement : Statement}
    (found : tree.get? id = some statement) (parentAt : statement.parent = some parent) :
    tree.lineage id = id :: tree.lineage parent := by
  obtain ⟨above, aboveAt, _⟩ := formed.exists_parent found parentAt
  have live : tree.isLive id = true := by simp [isLive, found]
  have liveAbove : tree.isLive parent = true := by simp [isLive, aboveAt]
  have parents : tree.parent? id = some parent := by simp [parent?, found, parentAt]
  have settledFormed : (tree.settled []).WellFormed := by
    rw [settled_nil]
    exact formed
  have settledAbove : tree.settled [] parent = some above := by
    rw [settled_nil]
    exact aboveAt
  have high : View.depth (tree.settled []) parent < tree.slots.size := by
    rw [settled_nil]
    exact formed.depth_lt aboveAt
  rw [lineage, if_pos live, climbBound, climb, parents, lineage, if_pos liveAbove, climbBound,
    climb_settled settledFormed 1 _ settledAbove high]

theorem mem_lineage_self {id : StatementId} (live : tree.isLive id = true) :
    id ∈ tree.lineage id := by
  rw [lineage, if_pos live]
  exact List.mem_cons_self

end Lineage

def Titled (tree : ScopeTree) (id : StatementId) (name : String) : Prop :=
  ∃ scope, tree.scope? id = some scope ∧ scope.isContainer = true ∧ scope.name = name ∧ name ≠ ""

def Addressed (tree : ScopeTree) (id : StatementId) : Prop :=
  id = root ∨ ∃ name, Titled tree id name

def Dotless (tree : ScopeTree) : Prop :=
  ∀ id name, tree.name? id = some name → '.' ∉ name.toList

/-- What makes qualified names lead where a walk leads: no name holds a point, every named container
stands in the global namespace or in a named container, and no container has the qualified name of a
method. -/
structure Regular (tree : ScopeTree) : Prop where
  dotless : Dotless tree
  written : PlainlyWritten tree
  nested : ∀ {id parent name}, Titled tree id name → tree.parent? id = some parent →
    Addressed tree parent
  unlike : ∀ {id method container name}, tree.method? id = some method → tree.name? id ≠ some "" →
    Titled tree container name → tree.qualifiedParts container ≠ tree.qualifiedParts id

/-- A tree in which lookups are studied. -/
structure Surveyed (tree : ScopeTree) : Prop where
  formed : tree.WellFormed
  traced : Traced tree.get?
  represented : Represented tree.get?
  regular : Regular tree

section Parts

variable {tree : ScopeTree} {id parent : StatementId} {name : String}

theorem name?_of_scope? {scope : NamedScope} (scopeAt : tree.scope? id = some scope) :
    tree.name? id = some scope.name := by
  simp only [scope?, Option.bind_eq_some_iff] at scopeAt
  obtain ⟨statement, found, scopeAt⟩ := scopeAt
  simp [name?, found, Statement.name?, scopeAt]

theorem Titled.name? (titled : Titled tree id name) : tree.name? id = some name := by
  obtain ⟨scope, scopeAt, _, rfl, _⟩ := titled
  exact name?_of_scope? scopeAt

theorem Titled.nonempty (titled : Titled tree id name) : name ≠ "" := by
  obtain ⟨_, _, _, _, nonempty⟩ := titled
  exact nonempty

theorem Titled.get? (titled : Titled tree id name) :
    ∃ statement scope, tree.get? id = some statement ∧ statement.scope? = some scope ∧
      scope.isContainer = true ∧ scope.name = name := by
  obtain ⟨scope, scopeAt, container, named, _⟩ := titled
  obtain ⟨statement, found, own⟩ := Option.bind_eq_some_iff.mp scopeAt
  exact ⟨statement, scope, found, own, container, named⟩

theorem qualifiedParts_child (formed : tree.WellFormed) {statement : Statement}
    (found : tree.get? id = some statement) (parentAt : statement.parent = some parent) :
    tree.qualifiedParts id =
      tree.qualifiedParts parent ++ (tree.name? id).toList.filter fun name => name != "" := by
  rw [qualifiedParts, lineage_child formed found parentAt, List.filterMap_cons, qualifiedParts]
  cases tree.name? id with
  | none => simp
  | some name =>
    by_cases blank : name = ""
    · simp [blank]
    · simp [blank]

theorem Surveyed.name?_root (surveyed : Surveyed tree) : tree.name? root = none := by
  obtain ⟨top, topAt, _⟩ := surveyed.formed.top
  simp [ScopeTree.name?, topAt, Statement.name?, Statement.scope?, surveyed.traced.top topAt,
    StatementKind.scope?]

theorem Surveyed.ne_root_of_titled (surveyed : Surveyed tree) (titled : Titled tree id name) :
    id ≠ root := by
  rintro rfl
  have named := titled.name?
  simp [surveyed.name?_root] at named

theorem Surveyed.qualifiedParts_root (surveyed : Surveyed tree) :
    tree.qualifiedParts root = [] := by
  simp [qualifiedParts, lineage_root surveyed.formed, surveyed.name?_root]

theorem Dotless.plain (dotless : Dotless tree) (id : StatementId) :
    PlainPath (tree.qualifiedParts id) := by
  intro part member
  rw [qualifiedParts, List.mem_reverse, List.mem_filter, List.mem_filterMap] at member
  obtain ⟨⟨level, _, named⟩, nonempty⟩ := member
  exact ⟨by simpa using nonempty, dotless level part named⟩

namespace Surveyed

theorem titled_parent (surveyed : Surveyed tree) (titled : Titled tree id name) :
    ∃ parent statement, tree.get? id = some statement ∧ statement.parent = some parent ∧
      Addressed tree parent ∧ tree.qualifiedParts id = tree.qualifiedParts parent ++ [name] := by
  obtain ⟨statement, scope, found, _⟩ := titled.get?
  obtain ⟨parent, above, parentAt, aboveAt, _⟩ :=
    surveyed.formed.listed found (surveyed.ne_root_of_titled titled)
  refine ⟨parent, statement, found, parentAt, ?_, ?_⟩
  · exact surveyed.regular.nested titled (by simp [parent?, found, parentAt])
  · rw [qualifiedParts_child surveyed.formed found parentAt, titled.name?]
    simp [titled.nonempty]

theorem eq_root_of_parts (surveyed : Surveyed tree) (addressed : Addressed tree id)
    (bare : tree.qualifiedParts id = []) : id = root := by
  rcases addressed with isRoot | ⟨name, titled⟩
  · exact isRoot
  · obtain ⟨parent, _, _, _, _, parts⟩ := surveyed.titled_parent titled
    simp [parts] at bare

theorem live_of_addressed (surveyed : Surveyed tree) (addressed : Addressed tree id) :
    ∃ statement, tree.get? id = some statement := by
  rcases addressed with rfl | ⟨name, titled⟩
  · obtain ⟨top, topAt, _⟩ := surveyed.formed.top
    exact ⟨top, topAt⟩
  · obtain ⟨statement, _, found, _⟩ := titled.get?
    exact ⟨statement, found⟩

theorem addressed_unique (surveyed : Surveyed tree) {other : StatementId}
    (left : Addressed tree id) (right : Addressed tree other)
    (same : tree.qualifiedParts id = tree.qualifiedParts other) : id = other := by
  obtain ⟨statement, found⟩ := surveyed.live_of_addressed left
  -- Go down to `id`: containers of the same qualified name have parents of the same qualified name.
  refine surveyed.formed.downward (fun id _ => ∀ other, Addressed tree id → Addressed tree other →
    tree.qualifiedParts id = tree.qualifiedParts other → id = other) ?_ ?_ found other left right same
  · intro top topAt other _ right same
    rw [surveyed.qualifiedParts_root] at same
    exact (surveyed.eq_root_of_parts right same.symm).symm
  · intro id statement parent above found notRoot parentAt aboveAt ih other left right same
    obtain isRoot | ⟨name, titled⟩ := left
    · exact absurd isRoot notRoot
    obtain ⟨parent', statement', found', parentAt', outer, parts⟩ := surveyed.titled_parent titled
    obtain rfl : statement = statement' := Option.some.inj (found.symm.trans found')
    obtain rfl : parent = parent' := Option.some.inj (parentAt.symm.trans parentAt')
    obtain rfl | ⟨next, nextTitled⟩ := right
    · simp [parts, surveyed.qualifiedParts_root] at same
    obtain ⟨above', another, foundOther, otherParent, otherOuter, otherParts⟩ :=
      surveyed.titled_parent nextTitled
    rw [parts, otherParts] at same
    obtain ⟨sameAbove, sameName⟩ := List.append_inj' same rfl
    have sameParent := ih above' outer otherOuter sameAbove
    obtain ⟨own, scope, ownAt, scopeAt, container, rfl⟩ := titled.get?
    obtain ⟨own', scope', ownAt', scopeAt', container', rfl⟩ := nextTitled.get?
    obtain rfl : statement = own := Option.some.inj (found.symm.trans ownAt)
    obtain rfl : another = own' := Option.some.inj (foundOther.symm.trans ownAt')
    refine surveyed.represented.apart found foundOther scopeAt scopeAt' ?_ container container' ?_
      titled.nonempty
    · rw [parentAt, otherParent, sameParent]
    · simpa using sameName

theorem exists_titled_of_parts (surveyed : Surveyed tree) (titled : Titled tree id name)
    {front rest : List String} (inhabited : front ≠ [])
    (parts : tree.qualifiedParts id = front ++ rest) :
    ∃ outer title, Titled tree outer title ∧ tree.qualifiedParts outer = front := by
  induction rest using List.reverseRecOn generalizing id name with
  | nil => exact ⟨id, name, titled, by simpa using parts⟩
  | append_singleton rest last ih =>
    obtain ⟨parent, _, _, _, outer, longer⟩ := surveyed.titled_parent titled
    rw [longer, ← List.append_assoc] at parts
    obtain ⟨above, _⟩ := List.append_inj' parts rfl
    obtain rfl | ⟨title, outerTitled⟩ := outer
    · rw [surveyed.qualifiedParts_root] at above
      exact absurd (List.append_eq_nil_iff.mp above.symm).1 inhabited
    · exact ih outerTitled above

end Surveyed

end Parts

section Checks

variable {tree : ScopeTree} {id : StatementId} {name : String}

instance : Decidable (Titled tree id name) :=
  decidable_of_iff
    (∃ scope ∈ tree.scope? id, scope.isContainer = true ∧ scope.name = name ∧ name ≠ "") Iff.rfl

instance : Decidable (Addressed tree id) :=
  decidable_of_iff (id = root ∨ ∃ name ∈ tree.name? id, Titled tree id name)
    ⟨Or.imp_right fun ⟨name, _, titled⟩ => ⟨name, titled⟩,
      Or.imp_right fun ⟨name, titled⟩ => ⟨name, titled.name?, titled⟩⟩

def RegularAt (tree : ScopeTree) (id : StatementId) : Prop :=
  (∀ name ∈ tree.name? id, '.' ∉ name.toList) ∧
    (∀ statement ∈ tree.get? id, Plainly statement.paths) ∧
    (∀ name ∈ tree.name? id, Titled tree id name → ∀ parent ∈ tree.parent? id, Addressed tree parent) ∧
    ((tree.method? id).isSome → tree.name? id ≠ some "" → ∀ container ∈ tree.ids,
      ∀ name ∈ tree.name? container, Titled tree container name →
        tree.qualifiedParts container ≠ tree.qualifiedParts id)

instance : Decidable (RegularAt tree id) :=
  inferInstanceAs (Decidable (_ ∧ _ ∧ _ ∧ _))

theorem regular_iff : Regular tree ↔ ∀ id ∈ tree.ids, RegularAt tree id := by
  have live {id : StatementId} (outside : id ∉ tree.ids) : tree.get? id = none := by
    simpa [mem_ids, isLive] using outside
  constructor
  · intro regular id _
    refine ⟨regular.dotless id, regular.written id, fun name _ titled parent parentAt => ?_, ?_⟩
    · exact regular.nested titled parentAt
    · intro isMethod named container _ name _ titled
      obtain ⟨method, methodAt⟩ := Option.isSome_iff_exists.mp isMethod
      exact regular.unlike methodAt named titled
  · intro rules
    constructor
    · intro id name named
      by_cases inside : id ∈ tree.ids
      · exact (rules id inside).1 name named
      · simp [ScopeTree.name?, live inside] at named
    · intro id statement found
      exact (rules id (mem_ids_of_get? found)).2.1 statement found
    · intro id parent name titled parentAt
      obtain ⟨statement, _, found, _⟩ := titled.get?
      exact (rules id (mem_ids_of_get? found)).2.2.1 name titled.name? titled parent parentAt
    · intro id method container name methodAt named titled
      obtain ⟨statement, _, found, _⟩ := titled.get?
      obtain ⟨own, ownAt, _⟩ := Option.bind_eq_some_iff.mp methodAt
      exact (rules id (mem_ids_of_get? ownAt)).2.2.2 (by simp [methodAt]) named container
        (mem_ids_of_get? found) name titled.name? titled

instance : Decidable (Regular tree) :=
  decidable_of_iff _ regular_iff.symm

end Checks

section Short

variable {α : Type} {left right : List α}

theorem length_le_one (unrepeated : left.Nodup) (alike : ∀ x ∈ left, ∀ y ∈ left, x = y) :
    left.length ≤ 1 := by
  match left, unrepeated, alike with
  | [], _, _ => simp
  | [_], _, _ => simp
  | first :: second :: rest, unrepeated, alike =>
    have same := alike first (by simp) second (by simp)
    simp [same] at unrepeated

theorem eq_of_short (shortLeft : left.length ≤ 1) (shortRight : right.length ≤ 1)
    (same : ∀ x, x ∈ left ↔ x ∈ right) : left = right := by
  match left, right, shortLeft, shortRight with
  | [], [], _, _ => rfl
  | [], [value], _, _ => simpa using same value
  | [value], [], _, _ => simpa using same value
  | [first], [second], _, _ => simpa using same first

end Short

section Walk

variable {tree : ScopeTree}

theorem isContainer_iff {id : StatementId} {part : String} (nonempty : part ≠ "") :
    tree.name? id = some part ∧ (Resolver.walking tree).isContainer id = true ↔
      Titled tree id part := by
  constructor
  · rintro ⟨named, container⟩
    rw [Resolver.isContainer] at container
    cases scopeAt : tree.scope? id with
    | none => simp [scopeAt] at container
    | some scope =>
      simp only [scopeAt] at container
      rw [name?_of_scope? scopeAt, Option.some.injEq] at named
      exact ⟨scope, scopeAt, container, named, nonempty⟩
  · intro titled
    refine ⟨titled.name?, ?_⟩
    obtain ⟨scope, scopeAt, container, _⟩ := titled
    simp [Resolver.isContainer, scopeAt, container]

theorem mem_children_iff (formed : tree.WellFormed) {id parent : StatementId} {statement : Statement}
    (found : tree.get? id = some statement) :
    id ∈ tree.children parent ↔ statement.parent = some parent := by
  constructor
  · intro member
    obtain ⟨above, aboveAt, member⟩ := exists_of_mem_children member
    exact formed.parent_of_child aboveAt member found
  · intro parentAt
    obtain ⟨above, aboveAt, member⟩ := formed.exists_parent found parentAt
    simpa [children, aboveAt] using member

theorem walkPath_append (level : StatementId) (path : List String) (part : String) :
    (Resolver.walking tree).walkPath level (path ++ [part]) =
      (((Resolver.walking tree).walkPath level path).flatMap fun scope =>
        tree.namedChildren scope part).filter (Resolver.walking tree).isContainer := by
  simp [Resolver.walkPath, List.foldl_append]

namespace Surveyed

theorem mem_step (surveyed : Surveyed tree) {id parent : StatementId} {part : String}
    (nonempty : part ≠ "") :
    id ∈ (tree.namedChildren parent part).filter (Resolver.walking tree).isContainer ↔
      Titled tree id part ∧ tree.parent? id = some parent := by
  rw [List.mem_filter, namedChildren, List.mem_filter, beq_iff_eq, and_assoc,
    isContainer_iff nonempty, and_comm]
  refine and_congr_right fun titled => ?_
  obtain ⟨statement, _, found, _⟩ := titled.get?
  rw [mem_children_iff surveyed.formed found, parent?, found, Option.bind_some]

theorem mem_walkPath (surveyed : Surveyed tree) {level id : StatementId}
    (addressed : Addressed tree level) {path : List String} (plain : PlainPath path) :
    id ∈ (Resolver.walking tree).walkPath level path ↔
      Addressed tree id ∧ tree.qualifiedParts id = tree.qualifiedParts level ++ path := by
  induction path using List.reverseRecOn generalizing id with
  | nil =>
    simp only [Resolver.walkPath, List.foldl_nil, List.mem_singleton, List.append_nil]
    constructor
    · rintro rfl
      exact ⟨addressed, rfl⟩
    · rintro ⟨other, same⟩
      exact surveyed.addressed_unique other addressed same
  | append_singleton path part ih =>
    have nonempty : part ≠ "" := (plain part (by simp)).1
    rw [walkPath_append, List.filter_flatMap, List.mem_flatMap]
    simp only [ih plain.of_append.1, surveyed.mem_step nonempty]
    constructor
    · rintro ⟨parent, ⟨_, parts⟩, titled, parentAt⟩
      obtain ⟨parent', statement, found, parentAt', _, longer⟩ := surveyed.titled_parent titled
      obtain rfl : parent = parent' := by
        simpa [parent?, found, parentAt', eq_comm] using parentAt
      exact ⟨.inr ⟨part, titled⟩, by rw [longer, parts, List.append_assoc]⟩
    · rintro ⟨own, parts⟩
      obtain rfl | ⟨name, titled⟩ := own
      · simp [surveyed.qualifiedParts_root] at parts
      obtain ⟨parent, statement, found, parentAt, outer, longer⟩ := surveyed.titled_parent titled
      rw [longer, ← List.append_assoc] at parts
      obtain ⟨above, last⟩ := List.append_inj' parts rfl
      obtain rfl : name = part := by simpa using last
      exact ⟨parent, ⟨outer, above⟩, titled, by simp [parent?, found, parentAt]⟩

theorem length_walkPath (surveyed : Surveyed tree) {level : StatementId}
    (addressed : Addressed tree level) {path : List String} (plain : PlainPath path) :
    ((Resolver.walking tree).walkPath level path).length ≤ 1 := by
  apply length_le_one
  · induction path using List.reverseRecOn with
    | nil => simp [Resolver.walkPath]
    | append_singleton path part ih =>
      rw [walkPath_append]
      refine List.Nodup.filter _ ?_
      have alike : ∀ x ∈ (Resolver.walking tree).walkPath level path,
          ∀ y ∈ (Resolver.walking tree).walkPath level path, x = y := by
        intro x left y right
        rw [surveyed.mem_walkPath addressed plain.of_append.1] at left right
        exact surveyed.addressed_unique left.1 right.1 (left.2.trans right.2.symm)
      match walked : (Resolver.walking tree).walkPath level path,
        length_le_one (ih plain.of_append.1) alike with
      | [], _ => simp
      | [scope], _ =>
        rw [List.flatMap_singleton]
        refine List.Nodup.filter _ ?_
        cases found : tree.get? scope with
        | none => simp [children, found]
        | some statement =>
          simpa [children, found] using surveyed.formed.unrepeated found
  · intro x left y right
    rw [surveyed.mem_walkPath addressed plain] at left right
    exact surveyed.addressed_unique left.1 right.1 (left.2.trans right.2.symm)

theorem walkPath_unaddressed (surveyed : Surveyed tree) {level : StatementId}
    (hidden : ¬ Addressed tree level) {path : List String} (plain : PlainPath path)
    (inhabited : path ≠ []) : (Resolver.walking tree).walkPath level path = [] := by
  induction path using List.reverseRecOn with
  | nil => exact absurd rfl inhabited
  | append_singleton path part ih =>
    have nonempty : part ≠ "" := (plain part (by simp)).1
    rw [walkPath_append]
    by_cases first : path = []
    · subst first
      rw [List.eq_nil_iff_forall_not_mem]
      intro id member
      simp only [Resolver.walkPath, List.foldl_nil, List.flatMap_singleton] at member
      obtain ⟨titled, parentAt⟩ := (surveyed.mem_step nonempty).mp member
      exact hidden (surveyed.regular.nested titled parentAt)
    · rw [ih plain.of_append.1 first]
      rfl

end Surveyed

end Walk

section Inventory

variable {tree : ScopeTree}

theorem entryOf?_eq_some {id : StatementId} {entry : InventoryEntry} :
    Inventory.entryOf? tree id = some entry ↔
      ∃ name, Titled tree id name ∧ entry = ⟨tree.qualifiedName id, name, id⟩ := by
  unfold Inventory.entryOf? Titled
  cases tree.scope? id with
  | none => simp
  | some scope =>
    by_cases kept : scope.name = "" ∨ scope.isContainer = false
    · have dropped : (scope.name == "" || !scope.isContainer) = true := by simpa using kept
      simp only [dropped, if_true, reduceCtorEq, false_iff]
      rintro ⟨name, ⟨own, same, container, named, nonempty⟩, _⟩
      obtain rfl : scope = own := Option.some.inj same
      rcases kept with blank | other
      · exact nonempty (named.symm.trans blank)
      · simp [other] at container
    · have remains : (scope.name == "" || !scope.isContainer) = false := by simpa using kept
      rw [not_or, Bool.not_eq_false] at kept
      simp only [remains, Bool.false_eq_true, if_false, Option.some.injEq]
      constructor
      · rintro rfl
        exact ⟨scope.name, ⟨scope, rfl, kept.2, rfl, kept.1⟩, rfl⟩
      · rintro ⟨name, ⟨own, rfl, _, rfl, _⟩, rfl⟩
        rfl

theorem lookup_build (key : String) : (Inventory.build tree).lookup key =
    (tree.descendants root).filter fun id =>
      (Inventory.entryOf? tree id).any fun entry => entry.qualifiedName == key := by
  rw [Inventory.lookup, Inventory.build]
  induction tree.descendants root with
  | nil => rfl
  | cons id rest ih =>
    rw [List.filterMap_cons, List.filter_cons]
    cases made : Inventory.entryOf? tree id with
    | none => simpa using ih
    | some entry =>
      obtain ⟨name, _, rfl⟩ := entryOf?_eq_some.mp made
      by_cases hit : (tree.qualifiedName id == key) = true
      · simpa [List.filter_cons, hit] using ih
      · simpa [List.filter_cons, hit] using ih

theorem titled_of_mem_lookupParts (dotless : Dotless tree) {id : StatementId} {parts : List String}
    (plain : PlainPath parts) (member : id ∈ (Inventory.build tree).lookupParts parts) :
    (∃ name, Titled tree id name) ∧ tree.qualifiedParts id = parts := by
  rw [Inventory.lookupParts, plain.filter_eq, lookup_build, List.mem_filter,
    Option.any_eq_true] at member
  obtain ⟨_, entry, made, key⟩ := member
  obtain ⟨name, titled, rfl⟩ := entryOf?_eq_some.mp made
  refine ⟨⟨name, titled⟩, ?_⟩
  exact (dotless.plain id).join_injective plain (by simpa [qualifiedName] using key)

namespace Surveyed

theorem mem_lookupParts (surveyed : Surveyed tree) {id : StatementId} {parts : List String}
    (plain : PlainPath parts) : id ∈ (Inventory.build tree).lookupParts parts ↔
      (∃ name, Titled tree id name) ∧ tree.qualifiedParts id = parts := by
  constructor
  · exact titled_of_mem_lookupParts surveyed.regular.dotless plain
  · rintro ⟨⟨name, titled⟩, rfl⟩
    rw [Inventory.lookupParts, plain.filter_eq, lookup_build, List.mem_filter,
      mem_descendants_root surveyed.formed, Option.any_eq_true]
    obtain ⟨statement, _, found, _⟩ := titled.get?
    refine ⟨⟨by simp [isLive, found], surveyed.ne_root_of_titled titled⟩, _,
      entryOf?_eq_some.mpr ⟨name, titled, rfl⟩, ?_⟩
    simp [qualifiedName]

theorem length_lookupParts (surveyed : Surveyed tree) {parts : List String}
    (plain : PlainPath parts) : ((Inventory.build tree).lookupParts parts).length ≤ 1 := by
  apply length_le_one
  · rw [Inventory.lookupParts, lookup_build]
    exact (below_nodup surveyed.formed _ root).filter _
  · intro x left y right
    rw [surveyed.mem_lookupParts plain] at left right
    exact surveyed.addressed_unique (.inr left.1) (.inr right.1) (left.2.trans right.2.symm)

theorem lookupRelative_inventory (surveyed : Surveyed tree) (level : StatementId)
    {path : List String} (plain : PlainPath path) (inhabited : path ≠ []) :
    (Resolver.indexed tree).lookupRelative level path =
      (Inventory.build tree).lookupParts (tree.qualifiedParts level ++ path) := by
  rw [Resolver.lookupRelative, if_neg (by simpa using inhabited), List.filter_eq_self]
  intro id member
  obtain ⟨⟨name, titled⟩, _⟩ :=
    (surveyed.mem_lookupParts ((surveyed.regular.dotless.plain level).append plain)).mp member
  obtain ⟨statement, _, found, _⟩ := titled.get?
  simp [isLive, found]

/-- Below the global namespace or a named container the inventory finds what the walk finds. -/
theorem lookupRelative_eq (surveyed : Surveyed tree) {level : StatementId}
    (addressed : Addressed tree level) {path : List String} (plain : PlainPath path) :
    (Resolver.indexed tree).lookupRelative level path =
      (Resolver.walking tree).lookupRelative level path := by
  by_cases blank : path = []
  · simp [Resolver.lookupRelative, blank]
  · have joined := (surveyed.regular.dotless.plain level).append plain
    rw [surveyed.lookupRelative_inventory level plain blank]
    rw [Resolver.lookupRelative, if_neg (by simpa using blank)]
    apply eq_of_short (surveyed.length_lookupParts joined) (surveyed.length_walkPath addressed plain)
    intro id
    rw [surveyed.mem_lookupParts joined, surveyed.mem_walkPath addressed plain]
    refine and_congr_left fun parts => ⟨.inr, ?_⟩
    rintro (rfl | titled)
    · rw [surveyed.qualifiedParts_root] at parts
      exact absurd (List.append_eq_nil_iff.mp parts.symm).2 blank
    · exact titled

end Surveyed

end Inventory

section Levels

variable {tree : ScopeTree}

theorem firstNonEmpty_cons {α β : Type} (search : α → List β) (first : α) (rest : List α) :
    firstNonEmpty search (first :: rest) =
      if search first = [] then firstNonEmpty search rest else search first := by
  rw [firstNonEmpty]
  cases search first with
  | nil => rfl
  | cons found others => rfl

theorem exists_method_of_not_container {scope : NamedScope} (other : scope.isContainer = false) :
    ∃ method, scope.method? = some method := by
  rw [NamedScope.isContainer] at other
  rw [NamedScope.method?]
  cases kind : scope.definition with
  | methodScope method => exact ⟨method, rfl⟩
  | namespaceScope _ | typeScope _ | placeholder => simp [kind, Definition.isContainer] at other

def sought (tree : ScopeTree) (accept : NamedScope → Bool) (path : List String)
    (id : StatementId) : List StatementId :=
  (Resolver.indexed tree).accepted accept
    ((Inventory.build tree).lookupParts (tree.qualifiedParts id ++ path))

def walked (tree : ScopeTree) (accept : NamedScope → Bool) (path : List String)
    (level : StatementId) : List StatementId :=
  (Resolver.walking tree).accepted accept ((Resolver.walking tree).lookupRelative level path)

def levelsAround (tree : ScopeTree) (id : StatementId) : List StatementId :=
  (tree.lineage id).filter (Resolver.walking tree).isLookupLevel

/-- From level to level, the inventory and the walk come to the same first answer, and what the
inventory finds at the statement itself is nothing or that answer. -/
def Agrees (tree : ScopeTree) (accept : NamedScope → Bool) (path : List String)
    (id : StatementId) : Prop :=
  firstNonEmpty (sought tree accept path) (levelsAround tree id) =
      firstNonEmpty (walked tree accept path) (levelsAround tree id) ∧
    (sought tree accept path id = [] ∨
      firstNonEmpty (walked tree accept path) (levelsAround tree id) = sought tree accept path id)

theorem levelsAround_child (formed : tree.WellFormed) {id parent : StatementId}
    {statement : Statement} (found : tree.get? id = some statement)
    (parentAt : statement.parent = some parent) : levelsAround tree id =
      if (Resolver.walking tree).isLookupLevel id then id :: levelsAround tree parent
      else levelsAround tree parent := by
  rw [levelsAround, lineage_child formed found parentAt, List.filter_cons]
  rfl

namespace Surveyed

variable {id parent : StatementId} {statement : Statement} {path : List String}
  {accept : NamedScope → Bool}

theorem sought_child (surveyed : Surveyed tree) (found : tree.get? id = some statement)
    (parentAt : statement.parent = some parent) (hidden : ¬ Addressed tree id)
    (plain : PlainPath path) :
    sought tree accept path id = sought tree accept path parent ∨
      sought tree accept path id = [] ∧ (Resolver.walking tree).isLookupLevel id = false := by
  have parts := qualifiedParts_child surveyed.formed found parentAt
  by_cases unnamed : tree.name? id = none ∨ tree.name? id = some ""
  · left
    have same : tree.qualifiedParts id = tree.qualifiedParts parent := by
      rcases unnamed with none | blank
      · simpa [none] using parts
      · simpa [blank] using parts
    rw [sought, sought, same]
  · right
    rw [not_or] at unnamed
    obtain ⟨name, named⟩ := Option.ne_none_iff_exists'.mp unnamed.1
    have nonempty : name ≠ "" := by
      rintro rfl
      exact unnamed.2 named
    obtain ⟨scope, scopeAt, rfl⟩ : ∃ scope, statement.scope? = some scope ∧ scope.name = name := by
      simpa [name?, found, Statement.name?] using named
    have treeScope : tree.scope? id = some scope := by simp [scope?, found, scopeAt]
    have isMethod : scope.isContainer = false := by
      rw [← Bool.not_eq_true]
      intro container
      exact hidden (.inr ⟨scope.name, scope, treeScope, container, rfl, nonempty⟩)
    obtain ⟨method, methodAt⟩ := exists_method_of_not_container isMethod
    have treeMethod : tree.method? id = some method := by
      simp [ScopeTree.method?, found, Statement.method?, scopeAt, methodAt]
    constructor
    · have nothing : (Inventory.build tree).lookupParts (tree.qualifiedParts id ++ path) = [] := by
        rw [List.eq_nil_iff_forall_not_mem]
        intro container member
        obtain ⟨⟨title, titled⟩, longer⟩ :=
          (surveyed.mem_lookupParts ((surveyed.regular.dotless.plain id).append plain)).mp member
        have inhabited : tree.qualifiedParts id ≠ [] := by
          rw [parts, named]
          simp [nonempty]
        obtain ⟨outer, outerTitle, outerTitled, same⟩ :=
          surveyed.exists_titled_of_parts titled inhabited longer
        exact surveyed.regular.unlike treeMethod unnamed.2 outerTitled same
      rw [sought, nothing]
      rfl
    · have notGlobal : statement.kind ≠ .global := by
        intro isGlobal
        simp [Statement.scope?, isGlobal, StatementKind.scope?] at scopeAt
      simp [Resolver.isLookupLevel, found, notGlobal, Resolver.isContainer, treeScope, isMethod]

theorem isLookupLevel_of_addressed (surveyed : Surveyed tree) (addressed : Addressed tree id) :
    (Resolver.walking tree).isLookupLevel id = true := by
  rcases addressed with rfl | ⟨name, titled⟩
  · obtain ⟨top, topAt, _⟩ := surveyed.formed.top
    simp [Resolver.isLookupLevel, topAt, surveyed.traced.top topAt]
  · obtain ⟨statement, scope, found, scopeAt, container, _⟩ := titled.get?
    simp [Resolver.isLookupLevel, found, Resolver.isContainer, scope?, scopeAt, container]

theorem sought_eq (surveyed : Surveyed tree) (plain : PlainPath path) (inhabited : path ≠ [])
    (level : StatementId) :
    (Resolver.indexed tree).accepted accept
      ((Resolver.indexed tree).lookupRelative level path) =
        sought tree accept path level := by
  rw [surveyed.lookupRelative_inventory level plain inhabited]
  rfl

theorem sought_addressed (surveyed : Surveyed tree) (plain : PlainPath path)
    (inhabited : path ≠ []) (addressed : Addressed tree id) :
    sought tree accept path id = walked tree accept path id := by
  rw [← surveyed.sought_eq plain inhabited, surveyed.lookupRelative_eq addressed plain]
  rfl

theorem walked_unaddressed (surveyed : Surveyed tree) (plain : PlainPath path)
    (inhabited : path ≠ []) (hidden : ¬ Addressed tree id) : walked tree accept path id = [] := by
  rw [walked, Resolver.lookupRelative, if_neg (by simpa using inhabited)]
  change Resolver.accepted _ accept (Resolver.walkPath _ id path) = []
  rw [surveyed.walkPath_unaddressed hidden plain inhabited]
  rfl

/-- What holds around the parent holds around the child: a named container finds the same both ways,
a level without a name finds nothing or what was found around it. -/
theorem agrees_child (surveyed : Surveyed tree) (plain : PlainPath path) (inhabited : path ≠ [])
    (found : tree.get? id = some statement) (parentAt : statement.parent = some parent)
    (agrees : Agrees tree accept path parent) : Agrees tree accept path id := by
  obtain ⟨same, answer⟩ := agrees
  have levels := levelsAround_child surveyed.formed found parentAt
  by_cases addressed : Addressed tree id
  · have alike := @sought_addressed tree id path accept surveyed plain inhabited addressed
    rw [if_pos (surveyed.isLookupLevel_of_addressed addressed)] at levels
    rw [Agrees, levels, firstNonEmpty_cons, firstNonEmpty_cons, ← alike, same]
    refine ⟨rfl, ?_⟩
    by_cases nothing : sought tree accept path id = []
    · exact .inl nothing
    · exact .inr (if_neg nothing)
  · rcases @sought_child tree id parent statement path accept surveyed found parentAt addressed plain
      with unchanged | ⟨nothing, notLevel⟩
    · rw [Agrees, levels, unchanged]
      by_cases level : (Resolver.walking tree).isLookupLevel id = true
      · rw [if_pos level, firstNonEmpty_cons, firstNonEmpty_cons, unchanged,
          if_pos (surveyed.walked_unaddressed plain inhabited addressed), same]
        rcases answer with blank | found
        · rw [if_pos blank]
          exact ⟨rfl, .inl blank⟩
        · refine ⟨?_, .inr found⟩
          split
          · rfl
          · exact found.symm
      · rw [if_neg level]
        exact ⟨same, answer⟩
    · rw [Agrees, levels, if_neg (by simp [notLevel])]
      exact ⟨same, .inl nothing⟩

theorem agrees (surveyed : Surveyed tree) (plain : PlainPath path) (inhabited : path ≠ [])
    (found : tree.get? id = some statement) : Agrees tree accept path id := by
  refine surveyed.formed.downward (fun id _ => Agrees tree accept path id) ?_ ?_ found
  · intro top topAt
    have levels : levelsAround tree root = [root] := by
      rw [levelsAround, lineage_root surveyed.formed, List.filter_cons,
        if_pos (surveyed.isLookupLevel_of_addressed (.inl rfl))]
      rfl
    rw [Agrees, levels, firstNonEmpty_cons, firstNonEmpty_cons,
      ← surveyed.sought_addressed plain inhabited (.inl rfl)]
    refine ⟨rfl, ?_⟩
    by_cases nothing : sought tree accept path root = []
    · exact .inl nothing
    · exact .inr (if_neg nothing)
  · intro id statement parent above found notRoot parentAt aboveAt before
    exact surveyed.agrees_child plain inhabited found parentAt before

end Surveyed

end Levels

end ScopeAtlas
