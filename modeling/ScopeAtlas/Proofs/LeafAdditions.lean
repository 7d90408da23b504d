import ScopeAtlas.Proofs.LoadedTree

/-!
Trees that differ by leaves. A wider tree holds every statement of a tree, possibly with more
children, and besides them only leaves of some sort. Leaves without a name stand on no path from a
scope to the root, in no qualified name and in no inventory; what they can still change is which
paths the imports around a use make, and leaves that are mute for the file of the use do not.

Main statement: `findScopes_ignores_foreign_imports`.
-/

namespace ScopeAtlas

open ScopeTree

/-- The wider tree holds every statement of the tree, with more children at most, and besides them
only leaves of the given sort. -/
structure AddsLeaves (sort : Statement → Prop) (tree wider : ScopeTree) : Prop where
  kept : ∀ {id own}, tree.get? id = some own → ∃ children,
    wider.get? id = some { own with children } ∧ children.filter tree.isLive = own.children
  added : ∀ {id leaf}, tree.get? id = none → wider.get? id = some leaf →
    sort leaf ∧ leaf.children = []

/-- A leaf that has no name and that a use in the file does not take for an alias or import. -/
structure Mute (file : String) (leaf : Statement) : Prop where
  unnamed : leaf.scope? = none
  silent : leaf.hasLocationIn file = true → ∀ path, Resolver.expandPath path leaf.kind = none

namespace ScopeTree

def addAll (tree : ScopeTree) (additions : List (StatementId × Statement)) : ScopeTree :=
  additions.foldl (fun wider addition => wider.add addition.1 addition.2) tree

end ScopeTree

namespace Resolver

abbrev ofTree (tree : ScopeTree) (inventoried : Bool) : Resolver :=
  ⟨tree, if inventoried then some (.build tree) else none⟩

end Resolver

namespace AddsLeaves

variable {sort : Statement → Prop} {tree wider : ScopeTree} {id : StatementId}

section Adding

theorem refl (tree : ScopeTree) (listed : tree.WellFormed) : AddsLeaves sort tree tree := by
  constructor
  · intro id own found
    refine ⟨own.children, found, List.filter_eq_self.mpr ?_⟩
    intro child member
    obtain ⟨below, belowAt, _⟩ := listed.linked found member
    simp [isLive, belowAt]
  · intro id leaf vacant found
    simp [vacant] at found

theorem isLive (adds : AddsLeaves sort tree wider) (live : tree.isLive id = true) :
    wider.isLive id = true := by
  obtain ⟨own, found⟩ := Option.isSome_iff_exists.mp live
  obtain ⟨children, foundWider, _⟩ := adds.kept found
  simp [ScopeTree.isLive, foundWider]

theorem get?_nextId (adds : AddsLeaves sort tree wider) : tree.get? wider.nextId = none := by
  cases found : tree.get? wider.nextId with
  | none => rfl
  | some own =>
    obtain ⟨children, foundWider, _⟩ := adds.kept found
    simp [get?_eq_none_of_nextId_le (Nat.le_refl wider.nextId)] at foundWider

theorem add (adds : AddsLeaves sort tree wider) {parent : StatementId} {leaf : Statement}
    (live : tree.isLive parent = true) (bare : leaf.children = [])
    (fits : sort { leaf with parent := some parent, children := [] }) :
    AddsLeaves sort tree (wider.add parent leaf) := by
  obtain ⟨above, aboveAt⟩ := Option.isSome_iff_exists.mp live
  obtain ⟨_, aboveWider, _⟩ := adds.kept aboveAt
  constructor
  · intro id own found
    obtain ⟨children, foundWider, filtered⟩ := adds.kept found
    have old : id ≠ wider.nextId := by
      rintro rfl
      simp [adds.get?_nextId] at found
    rw [get?_add aboveWider bare, View.grow, if_neg old]
    by_cases here : id = parent
    · refine ⟨children ++ [wider.nextId], by rw [if_pos here, foundWider]; rfl, ?_⟩
      simp [List.filter_append, filtered, ScopeTree.isLive, adds.get?_nextId]
    · exact ⟨children, by rw [if_neg here, foundWider], filtered⟩
  · intro id own vacant found
    have elsewhere : id ≠ parent := by
      rintro rfl
      simp [aboveAt] at vacant
    rw [get?_add aboveWider bare, View.grow] at found
    by_cases new : id = wider.nextId
    · rw [if_pos new, Option.some.injEq] at found
      exact found ▸ ⟨fits, rfl⟩
    · rw [if_neg new, if_neg elsewhere] at found
      exact adds.added vacant found

theorem addAll (formed : tree.WellFormed) {additions : List (StatementId × Statement)}
    (live : ∀ addition ∈ additions, tree.isLive addition.1 = true)
    (bare : ∀ addition ∈ additions, addition.2.children = [])
    (fits : ∀ addition ∈ additions,
      sort { addition.2 with parent := some addition.1, children := [] }) :
    AddsLeaves sort tree (tree.addAll additions) := by
  unfold ScopeTree.addAll
  refine List.foldlRecOn additions _ (refl tree formed) ?_
  intro wider adds addition member
  exact adds.add (live addition member) (bare addition member) (fits addition member)

end Adding

section Names

variable (adds : AddsLeaves sort tree wider)

include adds

theorem children_filter (id : StatementId) :
    (wider.children id).filter tree.isLive = tree.children id := by
  cases found : tree.get? id with
  | some own =>
    obtain ⟨children, foundWider, filtered⟩ := adds.kept found
    simpa [children_of_get? found, children_of_get? foundWider] using filtered
  | none =>
    cases foundWider : wider.get? id with
    | none => simp [children, found, foundWider]
    | some leaf => simp [children, found, foundWider, (adds.added found foundWider).2]

theorem children_leaf (vacant : tree.isLive id = false) : wider.children id = [] := by
  have vacant : tree.get? id = none := by simpa [ScopeTree.isLive] using vacant
  cases foundWider : wider.get? id with
  | none => simp [children, foundWider]
  | some leaf => simp [children, foundWider, (adds.added vacant foundWider).2]

theorem parent? (live : tree.isLive id = true) : wider.parent? id = tree.parent? id := by
  obtain ⟨own, found⟩ := Option.isSome_iff_exists.mp live
  obtain ⟨children, foundWider, _⟩ := adds.kept found
  simp [ScopeTree.parent?, found, foundWider]

theorem scope? (unnamed : ∀ leaf, sort leaf → leaf.scope? = none) (id : StatementId) :
    wider.scope? id = tree.scope? id := by
  cases found : tree.get? id with
  | some own =>
    obtain ⟨children, foundWider, _⟩ := adds.kept found
    simp [ScopeTree.scope?, found, foundWider, Statement.scope?]
  | none =>
    cases foundWider : wider.get? id with
    | none => simp [ScopeTree.scope?, found, foundWider]
    | some leaf =>
      simp [ScopeTree.scope?, found, foundWider, unnamed leaf (adds.added found foundWider).1]

theorem name? (unnamed : ∀ leaf, sort leaf → leaf.scope? = none) (id : StatementId) :
    wider.name? id = tree.name? id := by
  have same := congrArg (Option.map NamedScope.name) (adds.scope? unnamed id)
  rwa [ScopeTree.scope?, ScopeTree.scope?, Option.map_bind, Option.map_bind] at same

theorem namedChildren (unnamed : ∀ leaf, sort leaf → leaf.scope? = none) (id : StatementId)
    (name : String) : wider.namedChildren id name = tree.namedChildren id name := by
  rw [ScopeTree.namedChildren, ScopeTree.namedChildren, ← adds.children_filter id,
    List.filter_filter]
  apply List.filter_congr
  intro child _
  rw [adds.name? unnamed child]
  cases found : tree.get? child with
  | none => simp [ScopeTree.name?, found]
  | some own => simp [ScopeTree.isLive, found]

theorem startsAfter (live : tree.isLive id = true) (use : Location) :
    wider.startsAfter id use = tree.startsAfter id use := by
  obtain ⟨own, found⟩ := Option.isSome_iff_exists.mp live
  obtain ⟨children, foundWider, _⟩ := adds.kept found
  simp [ScopeTree.startsAfter, found, foundWider]

theorem hidesLater (live : tree.isLive id = true) (use : Location) :
    wider.hidesLater id use = tree.hidesLater id use := by
  obtain ⟨own, found⟩ := Option.isSome_iff_exists.mp live
  obtain ⟨children, foundWider, _⟩ := adds.kept found
  simp only [ScopeTree.hidesLater, found, foundWider]
  rfl

theorem namedChildrenForUse (unnamed : ∀ leaf, sort leaf → leaf.scope? = none)
    (live : tree.isLive id = true) (name : String) (use : Location) :
    wider.namedChildrenForUse id name use = tree.namedChildrenForUse id name use := by
  rw [ScopeTree.namedChildrenForUse, ScopeTree.namedChildrenForUse, adds.namedChildren unnamed,
    adds.hidesLater live]
  apply List.filter_congr
  intro child member
  have named := (List.mem_filter.mp member).2
  have childLive : tree.isLive child = true := by
    cases found : tree.get? child with
    | none => simp [ScopeTree.name?, found] at named
    | some own => simp [ScopeTree.isLive, found]
  rw [adds.startsAfter childLive]

end Names

section Walks

theorem flatMap_filter {α β : Type} (keeps : α → Bool) (expand : α → List β) (values : List α) :
    (values.filter keeps).flatMap expand =
      values.flatMap fun value => if keeps value then expand value else [] := by
  induction values with
  | nil => rfl
  | cons value rest ih =>
    by_cases kept : keeps value = true
    · simp [kept, ih]
    · simp [kept, ih]

theorem climb_none (tree : ScopeTree) (bound : Nat) : tree.climb bound none = [] := by
  cases bound with
  | zero => rfl
  | succ bound => rfl

variable (adds : AddsLeaves sort tree wider) (formed : tree.WellFormed)

include adds

theorem lt_size (live : tree.isLive id = true) : id < wider.slots.size := by
  obtain ⟨own, found⟩ := Option.isSome_iff_exists.mp (adds.isLive live)
  exact lt_nextId_of_get? found

include formed

theorem climb {own : Statement} (found : tree.get? id = some own) {bound other : Nat}
    (enough : View.depth tree.get? id < bound) (enoughOther : View.depth tree.get? id < other) :
    wider.climb bound (some id) = tree.climb other (some id) := by
  induction bound generalizing id other own with
  | zero => omega
  | succ bound ih =>
    obtain ⟨other, rfl⟩ : ∃ fewer, other = fewer + 1 := ⟨other - 1, by omega⟩
    have live : tree.isLive id = true := by simp [ScopeTree.isLive, found]
    rw [ScopeTree.climb, ScopeTree.climb, adds.parent? live, ScopeTree.parent?, found,
      Option.bind_some]
    cases parentAt : own.parent with
    | none => rw [climb_none, climb_none]
    | some parent =>
      obtain ⟨above, aboveAt, member⟩ := formed.exists_parent found parentAt
      have deeper := formed.depth_child aboveAt member
      exact congrArg (id :: ·) (ih aboveAt (by omega) (by omega))

theorem depth_lt {own : Statement} (found : tree.get? id = some own) :
    View.depth tree.get? id < wider.slots.size :=
  View.WellFormed.depth_lt formed (fun _ live => adds.lt_size live) found

theorem lineage (live : tree.isLive id = true) : wider.lineage id = tree.lineage id := by
  obtain ⟨own, found⟩ := Option.isSome_iff_exists.mp live
  have short := adds.depth_lt formed found
  have shortOwn := formed.depth_lt found
  rw [ScopeTree.lineage, ScopeTree.lineage, if_pos live, if_pos (adds.isLive live)]
  exact adds.climb formed found (Nat.lt_succ_of_lt short) (Nat.lt_succ_of_lt shortOwn)

theorem qualifiedParts (unnamed : ∀ leaf, sort leaf → leaf.scope? = none)
    (live : tree.isLive id = true) : wider.qualifiedParts id = tree.qualifiedParts id := by
  have names : wider.name? = tree.name? := funext (adds.name? unnamed)
  rw [ScopeTree.qualifiedParts, ScopeTree.qualifiedParts, adds.lineage formed live, names]

theorem below {own : Statement} (found : tree.get? id = some own) {bound other : Nat}
    (enough : wider.slots.size ≤ bound + View.depth tree.get? id)
    (enoughOther : tree.slots.size ≤ other + View.depth tree.get? id) :
    (wider.below bound id).filter tree.isLive = tree.below other id := by
  induction bound generalizing id other own with
  | zero =>
    have short := adds.depth_lt formed found
    omega
  | succ bound ih =>
    have shortOwn : View.depth tree.get? id < tree.slots.size := formed.depth_lt found
    obtain ⟨other, rfl⟩ : ∃ fewer, other = fewer + 1 := ⟨other - 1, by omega⟩
    rw [ScopeTree.below, ScopeTree.below, ← adds.children_filter id, List.filter_flatMap,
      flatMap_filter]
    apply List.flatMap_congr
    intro child member
    by_cases live : tree.isLive child = true
    · obtain ⟨inner, innerAt⟩ := Option.isSome_iff_exists.mp live
      have listed : child ∈ own.children := by
        rw [← children_of_get? found, ← adds.children_filter id]
        exact List.mem_filter.mpr ⟨member, live⟩
      have deeper := formed.depth_child found listed
      rw [List.filter_cons, if_pos live, if_pos live]
      exact congrArg (child :: ·) (ih innerAt (by omega) (by omega))
    · rw [if_neg live, List.filter_cons, if_neg live]
      have leaf := adds.children_leaf (Bool.eq_false_iff.mpr live)
      cases bound with
      | zero => rfl
      | succ bound => rw [ScopeTree.below, leaf, List.flatMap_nil, List.filter_nil]

theorem descendants_filter : (wider.descendants root).filter tree.isLive = tree.descendants root := by
  obtain ⟨top, topAt, _⟩ := formed.top
  exact adds.below formed topAt (Nat.le_add_right _ _) (Nat.le_add_right _ _)

theorem build (unnamed : ∀ leaf, sort leaf → leaf.scope? = none) :
    Inventory.build wider = Inventory.build tree := by
  rw [Inventory.build, Inventory.build, ← adds.descendants_filter formed, List.filterMap_filter]
  refine congrArg Inventory.mk (List.filterMap_congr fun id _ => ?_)
  rw [Inventory.entryOf?, Inventory.entryOf?, adds.scope? unnamed id]
  by_cases live : tree.isLive id = true
  · rw [if_pos live, qualifiedName, qualifiedName, adds.qualifiedParts formed unnamed live]
  · have vacant : tree.get? id = none := by simpa [ScopeTree.isLive] using live
    simp [ScopeTree.scope?, vacant]

end Walks

end AddsLeaves

/-! ### Lookups -/

theorem firstNonEmpty_eq_of_reached {α β : Type} {search other : α → List β} {places : List α}
    (agree : ∀ near place far, places = near ++ place :: far →
      (∀ earlier ∈ near, search earlier = []) → other place = search place) :
    firstNonEmpty other places = firstNonEmpty search places := by
  induction places with
  | nil => rfl
  | cons first rest ih =>
    rw [firstNonEmpty_cons, firstNonEmpty_cons, agree [] first rest rfl (by simp)]
    by_cases silent : search first = []
    · rw [if_pos silent, if_pos silent]
      refine ih fun near place far split earlier => agree (first :: near) place far ?_ ?_
      · rw [split, List.cons_append]
      · simpa [silent] using earlier
    · rw [if_neg silent, if_neg silent]

theorem firstNonEmpty_congr {α β : Type} {other search : α → List β} {places : List α}
    (same : ∀ place ∈ places, other place = search place) :
    firstNonEmpty other places = firstNonEmpty search places :=
  firstNonEmpty_eq_of_reached fun _ place _ split _ => same place (by simp [split])

theorem isLive_of_mem_lineage {tree : ScopeTree} (formed : tree.WellFormed) {id : StatementId}
    (live : tree.isLive id = true) : ∀ level ∈ tree.lineage id, tree.isLive level = true := by
  rw [lineage, if_pos live]
  refine forall_mem_climb ?_ _ _ (by simpa using live)
  intro id parent live parentAt
  obtain ⟨own, found⟩ := Option.isSome_iff_exists.mp live
  rw [parent?, found, Option.bind_some] at parentAt
  obtain ⟨above, aboveAt, _⟩ := formed.exists_parent found parentAt
  simp [isLive, aboveAt]

namespace Resolver

variable {tree : ScopeTree} {inventoried : Bool} {id : StatementId}

theorem isLive_of_lookupParts {parts : List String}
    (found : id ∈ (Inventory.build tree).lookupParts parts) : tree.isLive id = true := by
  rw [Inventory.lookupParts, lookup_build, List.mem_filter] at found
  have listed := found.2
  rw [Option.any_eq_true] at listed
  obtain ⟨entry, entryAt, _⟩ := listed
  obtain ⟨name, titled, _⟩ := entryOf?_eq_some.mp entryAt
  obtain ⟨statement, _, statementAt, _⟩ := titled.get?
  simp [isLive, statementAt]

end Resolver

namespace AddsLeaves

open Resolver

variable {sort : Statement → Prop} {tree wider : ScopeTree} {id scope : StatementId}
  {inventoried : Bool} (adds : AddsLeaves sort tree wider)
  (unnamed : ∀ leaf, sort leaf → leaf.scope? = none)

include adds unnamed

theorem isContainer : (ofTree wider inventoried).isContainer = (ofTree tree inventoried).isContainer := by
  funext id
  rw [Resolver.isContainer, Resolver.isContainer, adds.scope? unnamed]

theorem isTypeLike : (ofTree wider inventoried).isTypeLike = (ofTree tree inventoried).isTypeLike := by
  funext id
  rw [Resolver.isTypeLike, Resolver.isTypeLike, adds.scope? unnamed]

theorem accepted : (ofTree wider inventoried).accepted = (ofTree tree inventoried).accepted := by
  funext accept ids
  simp only [Resolver.accepted, adds.scope? unnamed]

theorem isLookupLevel (live : tree.isLive id = true) :
    (ofTree wider inventoried).isLookupLevel id = (ofTree tree inventoried).isLookupLevel id := by
  obtain ⟨own, found⟩ := Option.isSome_iff_exists.mp live
  obtain ⟨children, foundWider, _⟩ := adds.kept found
  simp only [Resolver.isLookupLevel, found, foundWider, adds.isContainer unnamed]

theorem walkPath (level : StatementId) (path : List String) :
    (ofTree wider inventoried).walkPath level path = (ofTree tree inventoried).walkPath level path := by
  simp only [Resolver.walkPath, adds.isContainer unnamed, adds.namedChildren unnamed]

theorem lookupRelative (formed : tree.WellFormed) (live : tree.isLive id = true)
    (path : List String) : (ofTree wider inventoried).lookupRelative id path =
      (ofTree tree inventoried).lookupRelative id path := by
  cases inventoried with
  | false => exact congrArg (if path.isEmpty then [id] else ·) (adds.walkPath unnamed id path)
  | true =>
    simp only [Resolver.lookupRelative, if_true, adds.build formed unnamed,
      adds.qualifiedParts formed unnamed live]
    by_cases bare : path.isEmpty = true
    · rw [if_pos bare, if_pos bare]
    · rw [if_neg bare, if_neg bare]
      apply List.filter_congr
      intro other member
      have liveOther := isLive_of_lookupParts member
      rw [liveOther, adds.isLive liveOther]

omit unnamed in
theorem importedPaths (formed : tree.WellFormed) (live : tree.isLive scope = true) {use : Location}
    (mute : ∀ leaf, sort leaf → Mute use.file leaf) (path : List String) :
    (ofTree wider inventoried).importedPaths scope use path =
      (ofTree tree inventoried).importedPaths scope use path := by
  rw [Resolver.importedPaths, Resolver.importedPaths, adds.lineage formed live]
  apply List.flatMap_congr
  intro level _
  rw [← adds.children_filter level, List.filterMap_filter]
  apply List.filterMap_congr
  intro child _
  cases found : tree.get? child with
  | some own =>
    obtain ⟨children, foundWider, _⟩ := adds.kept found
    have there : tree.isLive child = true := by simp [ScopeTree.isLive, found]
    rw [foundWider, if_pos there]
    rfl
  | none =>
    have missing : tree.isLive child = false := by simp [ScopeTree.isLive, found]
    rw [missing, if_neg Bool.false_ne_true]
    cases foundWider : wider.get? child with
    | none => rfl
    | some leaf =>
      have quiet := mute leaf (adds.added found foundWider).1
      by_cases here : leaf.hasLocationIn use.file = true
      · simp [here, quiet.silent here path]
      · simp [here]

omit unnamed in
theorem findScopes (formed : tree.WellFormed) (live : tree.isLive scope = true) {use : Location}
    (mute : ∀ leaf, sort leaf → Mute use.file leaf) (path : List String)
    (accept : NamedScope → Bool) : (ofTree wider inventoried).findScopes scope use path accept =
      (ofTree tree inventoried).findScopes scope use path accept := by
  have unnamed : ∀ leaf, sort leaf → leaf.scope? = none := fun leaf fits => (mute leaf fits).unnamed
  have around := isLive_of_mem_lineage formed live
  have levels : (tree.lineage scope).filter (ofTree wider inventoried).isLookupLevel =
      (tree.lineage scope).filter (ofTree tree inventoried).isLookupLevel :=
    List.filter_congr fun level member => adds.isLookupLevel unnamed (around level member)
  have top : tree.isLive root = true := by
    obtain ⟨statement, found, _⟩ := formed.top
    simp [ScopeTree.isLive, found]
  unfold Resolver.findScopes
  simp only [adds.lineage formed live, adds.importedPaths formed live mute, adds.accepted unnamed,
    lookupAbsolute, adds.lookupRelative unnamed formed top, levels]
  rcases path with _ | ⟨name, _ | ⟨second, rest⟩⟩
  · rfl
  · have outward := @firstNonEmpty_congr _ _
      (fun level => (ofTree tree inventoried).accepted accept (wider.namedChildrenForUse level name use))
      (fun level => (ofTree tree inventoried).accepted accept (tree.namedChildrenForUse level name use))
      (tree.lineage scope) fun level member => by
        rw [adds.namedChildrenForUse unnamed (around level member)]
    simp only [outward]
  · have outward := @firstNonEmpty_congr _ _
      (fun level => (ofTree tree inventoried).accepted accept
        ((ofTree wider inventoried).lookupRelative level (name :: second :: rest)))
      (fun level => (ofTree tree inventoried).accepted accept
        ((ofTree tree inventoried).lookupRelative level (name :: second :: rest)))
      ((tree.lineage scope).filter (ofTree tree inventoried).isLookupLevel) fun level member => by
        rw [adds.lookupRelative unnamed formed (around level (List.mem_filter.mp member).1)]
    simp only [outward]

omit unnamed in
theorem findTypes (formed : tree.WellFormed) (live : tree.isLive scope = true) {use : Location}
    (mute : ∀ leaf, sort leaf → Mute use.file leaf) (type : TypeUse) :
    (ofTree wider inventoried).findTypes scope type use =
      (ofTree tree inventoried).findTypes scope type use := by
  rw [Resolver.findTypes, Resolver.findTypes, adds.findScopes formed live mute]

end AddsLeaves

/-- An alias or import that is nowhere in the file. -/
def ForeignImport (file : String) (leaf : Statement) : Prop :=
  ((∃ target name, leaf.kind = .aliasing target name) ∨ ∃ path, leaf.kind = .importing path) ∧
    ∀ location ∈ leaf.locations, location.inFile file = false

theorem ForeignImport.mute {file : String} {leaf : Statement} (foreign : ForeignImport file leaf) :
    Mute file leaf := by
  obtain ⟨kind, outside⟩ := foreign
  constructor
  · rcases kind with ⟨target, name, kind⟩ | ⟨path, kind⟩
    · simp [Statement.scope?, kind, StatementKind.scope?]
    · simp [Statement.scope?, kind, StatementKind.scope?]
  · intro here
    obtain ⟨location, member, inside⟩ := List.any_eq_true.mp here
    simp [outside location member] at inside

/-- Aliases and imports act in their own files only: with any number of them added anywhere, none in
the file of the use, every path and every type means the same there as before. -/
theorem findScopes_ignores_foreign_imports {tree wider : ScopeTree} (formed : tree.WellFormed)
    {use : Location} (adds : AddsLeaves (ForeignImport use.file) tree wider) {scope : StatementId}
    (live : tree.isLive scope = true) (inventoried : Bool) :
    (∀ path accept, (Resolver.ofTree wider inventoried).findScopes scope use path accept =
      (Resolver.ofTree tree inventoried).findScopes scope use path accept) ∧
    ∀ type, (Resolver.ofTree wider inventoried).findTypes scope type use =
      (Resolver.ofTree tree inventoried).findTypes scope type use :=
  ⟨adds.findScopes formed live fun _ => ForeignImport.mute,
    adds.findTypes formed live fun _ => ForeignImport.mute⟩

def scopeStatement (file name : String) (definition : Definition) : Statement :=
  .detached (.named ⟨name, none, [⟨file, false, .unstated, definition⟩]⟩) .cSharp
    [.span file ⟨1, 1⟩ ⟨9, 1⟩] []

def importingTree : ScopeTree :=
  (empty .cSharp).addAll
    [(0, scopeStatement "n.cs" "N" (.namespaceScope ⟨false⟩)),
      (0, scopeStatement "m.cs" "M" (.namespaceScope ⟨false⟩)),
      (1, scopeStatement "n.cs" "A" (.typeScope ⟨.classType, [], false⟩)),
      (2, scopeStatement "m.cs" "A" (.typeScope ⟨.classType, [], false⟩)),
      (0, .detached (.importing ["N"]) .cSharp [.point "a.cs" 1 1] [])]

def foreignImports : List (StatementId × Statement) :=
  [(0, .detached (.importing ["M"]) .cSharp [.point "b.cs" 1 1] []),
    (0, .detached (.aliasing ["M", "A"] "A") .cSharp [.point "b.cs" 2 1] [])]

theorem findScopes_ignores_foreign_imports_second_file :
    importingTree.WellFormed ∧
      AddsLeaves (ForeignImport "a.cs") importingTree (importingTree.addAll foreignImports) ∧
      (Resolver.ofTree (importingTree.addAll foreignImports) true).findTypes root (.ofName "A")
        (.point "a.cs" 5 1) = [3] ∧
      (Resolver.ofTree (importingTree.addAll foreignImports) false).findTypes root (.ofName "A")
        (.point "a.cs" 5 1) = [3] := by
  have formed : importingTree.WellFormed := wellFormed_of_holdsTogether (by decide +kernel)
  have live : ∀ addition ∈ foreignImports, importingTree.isLive addition.1 = true := by decide +kernel
  have bare : ∀ addition ∈ foreignImports, addition.2.children = [] := by decide
  have foreign : ∀ addition ∈ foreignImports, ForeignImport "a.cs"
      { addition.2 with parent := some addition.1, children := [] } := by
    intro addition member
    simp only [foreignImports, List.mem_cons, List.not_mem_nil, or_false] at member
    rcases member with rfl | rfl
    · exact ⟨.inr ⟨["M"], rfl⟩, by decide +kernel⟩
    · exact ⟨.inl ⟨["M", "A"], "A", rfl⟩, by decide +kernel⟩
  have adds := AddsLeaves.addAll formed live bare foreign
  have top : importingTree.isLive root = true := by decide +kernel
  have unchanged (inventoried : Bool) := (@findScopes_ignores_foreign_imports _ _ formed
    (.point "a.cs" 5 1) adds root top inventoried).2 (.ofName "A")
  refine ⟨formed, adds, (unchanged true).trans ?_, (unchanged false).trans ?_⟩
  · decide +kernel
  · decide +kernel

end ScopeAtlas
