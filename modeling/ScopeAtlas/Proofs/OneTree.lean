import ScopeAtlas.Proofs.Assembly
import ScopeAtlas.Query.Statistics

/-!
Every change of a tree leaves one tree: merging, removing a file, removing a subtree and adding a
statement all keep the links well formed, whatever the tree holds. So a walk down from the root
meets every live statement exactly once, and the statistics count all of them but the root.
-/

namespace ScopeAtlas

namespace View

open Classical in
noncomputable def prune (view : View) (top : StatementId) : View := fun id =>
  if Under view top id then none
  else (view id).map fun statement =>
    { statement with children := statement.children.filter (· != top) }

section Prune

variable {view : View} {top : StatementId}

theorem prune_eq_some {id : StatementId} {statement : Statement} :
    view.prune top id = some statement ↔ ¬Under view top id ∧ ∃ before, view id = some before ∧
      statement = { before with children := before.children.filter (· != top) } := by
  by_cases under : Under view top id
  · simp [prune, under]
  · rw [prune, if_neg under, Option.map_eq_some_iff]
    simp only [under, not_false_eq_true, true_and, eq_comm]

theorem prune_of_not_under {id : StatementId} {before : Statement} (outside : ¬Under view top id)
    (found : view id = some before) : view.prune top id =
      some { before with children := before.children.filter (· != top) } :=
  prune_eq_some.mpr ⟨outside, before, found, rfl⟩

theorem Under.eq_or_parent (formed : view.WellFormed) {id parent : StatementId}
    {statement : Statement} (found : view id = some statement)
    (parentAt : statement.parent = some parent) (under : Under view top id) :
    id = top ∨ Under view top parent := by
  cases under with
  | self => exact .inl rfl
  | step upper upperAt member =>
    have other := formed.parent_of_child upperAt member found
    rw [parentAt, Option.some.injEq] at other
    exact .inr (other ▸ upper)

theorem not_under_root (formed : view.WellFormed) (notRoot : top ≠ ScopeTree.root) :
    ¬Under view top ScopeTree.root := by
  intro under
  cases under with
  | self => exact notRoot rfl
  | step _ upperAt member => exact formed.child_ne_root upperAt member rfl

theorem WellFormed.prune (formed : view.WellFormed) (notRoot : top ≠ ScopeTree.root) :
    (view.prune top).WellFormed := by
  have parentLeft {id parent : StatementId} {statement above : Statement}
      (found : view id = some statement) (parentAt : statement.parent = some parent)
      (aboveAt : view parent = some above) (outside : ¬Under view top id) :
      ¬Under view top parent :=
    fun under => outside (under.step aboveAt (formed.mem_of_parent found parentAt aboveAt))
  constructor
  · obtain ⟨first, firstAt, free⟩ := formed.top
    exact ⟨_, prune_of_not_under (not_under_root formed notRoot) firstAt, free⟩
  · intro id statement found inner
    obtain ⟨outside, before, beforeAt, rfl⟩ := prune_eq_some.mp found
    obtain ⟨parent, above, parentAt, aboveAt, member⟩ := formed.listed beforeAt inner
    refine ⟨parent, _, parentAt,
      prune_of_not_under (parentLeft beforeAt parentAt aboveAt outside) aboveAt, ?_⟩
    have notTop : id ≠ top := by
      rintro rfl
      exact outside .self
    simp [member, notTop]
  · intro id statement child found member
    obtain ⟨outside, before, beforeAt, rfl⟩ := prune_eq_some.mp found
    obtain ⟨member, notTop⟩ := List.mem_filter.mp member
    obtain ⟨below, belowAt, parentAt⟩ := formed.linked beforeAt member
    refine ⟨_, prune_of_not_under ?_ belowAt, parentAt⟩
    intro under
    rcases under.eq_or_parent formed belowAt parentAt with isTop | upper
    · simp [isTop] at notTop
    · exact outside upper
  · intro id statement found
    obtain ⟨_, before, beforeAt, rfl⟩ := prune_eq_some.mp found
    exact (formed.unrepeated beforeAt).filter _
  · intro id statement found
    obtain ⟨outside, before, beforeAt, rfl⟩ := prune_eq_some.mp found
    refine formed.downward (fun id _ => ¬Under view top id →
      ∃ depth, AtDepth (view.prune top) depth id) ?_ ?_ beforeAt outside
    · exact fun _ _ _ => ⟨0, .root⟩
    · intro id statement parent above found _ parentAt aboveAt climbs outside
      obtain ⟨depth, reached⟩ := climbs (parentLeft found parentAt aboveAt outside)
      exact ⟨depth + 1, .inner (prune_of_not_under outside found) parentAt reached⟩

end Prune

end View

open ScopeTree

section Removal

variable {tree : ScopeTree}

theorem get?_modify_eq_enrich (id : StatementId) (change : Statement → Statement) :
    (tree.modify id change).get? = View.enrich tree.get? id change := by
  have settled := @settled_modify tree [] id (by simp) change
  simpa only [settled_nil] using settled

/-- What vacating from a statement downward does: everything at or below it is gone. -/
structure Vacated (tree before : ScopeTree) (tops : List StatementId) (after : ScopeTree) :
    Prop where
  gone : ∀ top ∈ tops, ∀ other, View.Under tree.get? top other → after.get? other = none
  kept : ∀ other, (∀ top ∈ tops, ¬View.Under tree.get? top other) →
    after.get? other = before.get? other

def SameBelow (tree before : ScopeTree) (top : StatementId) : Prop :=
  ∀ other, View.Under tree.get? top other →
    (before.get? other).map Statement.children = (tree.get? other).map Statement.children

theorem Vacated.foldl (vacating : ScopeTree → StatementId → ScopeTree)
    (children : List StatementId)
    (disjoint : children.Pairwise fun first second => ∀ other,
      View.Under tree.get? first other → ¬View.Under tree.get? second other)
    (each : ∀ child ∈ children, ∀ before : ScopeTree, SameBelow tree before child →
      Vacated tree before [child] (vacating before child)) :
    ∀ before : ScopeTree, (∀ child ∈ children, SameBelow tree before child) →
      Vacated tree before children (children.foldl vacating before) := by
  induction children with
  | nil => exact fun before _ => ⟨by simp, fun _ _ => rfl⟩
  | cons child rest ih =>
    intro before agrees
    obtain ⟨apart, others⟩ := List.pairwise_cons.mp disjoint
    have first := each child List.mem_cons_self before (agrees child List.mem_cons_self)
    have later := ih others (fun other member => each other (List.mem_cons_of_mem _ member))
      (vacating before child) (by
        intro sibling member other under
        have outside : ∀ top ∈ [child], ¬View.Under tree.get? top other := by
          intro top isChild
          rw [List.mem_singleton] at isChild
          exact fun upper => apart sibling member other (isChild ▸ upper) under
        rw [first.kept other outside]
        exact agrees sibling (List.mem_cons_of_mem _ member) other under)
    rw [List.foldl_cons]
    constructor
    · intro top member other under
      rcases List.mem_cons.mp member with rfl | member
      · have outside : ∀ sibling ∈ rest, ¬View.Under tree.get? sibling other :=
          fun sibling member => apart sibling member other under
        rw [later.kept other outside]
        exact first.gone top List.mem_cons_self other under
      · exact later.gone top member other under
    · intro other outside
      rw [later.kept other fun top member => outside top (List.mem_cons_of_mem _ member)]
      exact first.kept other (by simpa using outside child List.mem_cons_self)

theorem children_disjoint (formed : tree.WellFormed) {id : StatementId} {statement : Statement}
    (found : tree.get? id = some statement) :
    statement.children.Pairwise fun first second => ∀ other,
      View.Under tree.get? first other → ¬View.Under tree.get? second other := by
  refine List.Pairwise.imp_of_mem ?_ (formed.unrepeated found)
  intro first second firstMember secondMember different other left right
  refine different (left.unique formed right ?_)
  rw [formed.depth_child found firstMember, formed.depth_child found secondMember]

theorem vacateBelow_vacated (formed : tree.WellFormed) (depth : Nat) :
    ∀ (before : ScopeTree) (id : StatementId) (statement : Statement),
      tree.get? id = some statement → tree.nextId ≤ depth + View.depth tree.get? id →
      SameBelow tree before id → Vacated tree before [id] (vacateBelow depth before id) := by
  induction depth with
  | zero =>
    intro before id statement found enough
    rw [Nat.zero_add] at enough
    exact absurd (formed.depth_lt found) (Nat.not_lt.mpr enough)
  | succ depth ih =>
    intro before id statement found enough agrees
    have here := agrees id .self
    rw [found, Option.map_some, Option.map_eq_some_iff] at here
    obtain ⟨own, ownAt, sameChildren⟩ := here
    have notHere {child other : StatementId} (member : child ∈ statement.children)
        (under : View.Under tree.get? child other) : id ≠ other := by
      rintro rfl
      exact View.Under.not_above formed found member under
    have below := Vacated.foldl (vacateBelow depth) statement.children
      (children_disjoint formed found) (by
        intro child member current same
        obtain ⟨inner, innerAt, _⟩ := formed.linked found member
        refine ih current child inner innerAt ?_ same
        rwa [formed.depth_child found member, Nat.add_comm _ 1, ← Nat.add_assoc])
      (before.vacate id) (by
        intro child member other under
        rw [get?_vacate, if_neg (notHere member under)]
        exact agrees other ((View.Under.self.step found member).trans under))
    have unfolded : vacateBelow (depth + 1) before id =
        statement.children.foldl (vacateBelow depth) (before.vacate id) := by
      simp only [vacateBelow, ownAt, sameChildren]
    rw [unfolded]
    constructor
    · intro top isHere other under
      obtain rfl : top = id := List.mem_singleton.mp isHere
      by_cases same : other = top
      · subst same
        rw [below.kept other fun child member upper => notHere member upper rfl, get?_vacate,
          if_pos rfl]
      · obtain ⟨child, member, lower⟩ := under.through_child found same
        exact below.gone child member other lower
    · intro other outside
      have apart : ¬View.Under tree.get? id other := outside id List.mem_cons_self
      have different : id ≠ other := by
        rintro rfl
        exact apart .self
      rw [below.kept other fun child member lower =>
        apart ((View.Under.self.step found member).trans lower), get?_vacate, if_neg different]

theorem get?_detach {id parent : StatementId} {statement : Statement}
    (found : tree.get? id = some statement) (parentAt : statement.parent = some parent)
    (different : parent ≠ id) (other : StatementId) : (tree.detach id).get? other =
      if other = id then some { statement with parent := none }
      else if other = parent then (tree.get? other).map fun above =>
        { above with children := above.children.filter (· != id) }
      else tree.get? other := by
  have parentHere : tree.parent? id = some parent := by simp [parent?, found, parentAt]
  simp only [detach, parentHere, get?_modify]
  by_cases isHere : other = id
  · subst isHere
    simp [found, different]
  · by_cases isParent : other = parent
    · subst isParent
      simp [Ne.symm different, different]
    · simp [isHere, Ne.symm isHere, isParent, Ne.symm isParent]

theorem get?_removeSubtree_live (formed : tree.WellFormed) {id : StatementId}
    {statement : Statement} (found : tree.get? id = some statement) (notRoot : id ≠ root) :
    (tree.removeSubtree id).get? = View.prune tree.get? id := by
  obtain ⟨parent, above, parentAt, aboveAt, member⟩ := formed.listed found notRoot
  have outside : ¬View.Under tree.get? id parent := View.Under.not_above formed aboveAt member
  have different : parent ≠ id := by
    rintro rfl
    exact outside .self
  have detached := get?_detach found parentAt different
  have same : SameBelow tree (tree.detach id) id := by
    intro other under
    rw [detached other]
    by_cases isHere : other = id
    · simp [isHere, found]
    · have notParent : other ≠ parent := by
        rintro rfl
        exact outside under
      rw [if_neg isHere, if_neg notParent]
  have enough : tree.nextId ≤ tree.slots.size + 1 + View.depth tree.get? id :=
    Nat.le_trans (Nat.le_succ _) (Nat.le_add_right _ _)
  have vacated := vacateBelow_vacated formed _ (tree.detach id) id statement found enough same
  funext other
  rw [removeSubtree, if_neg notRoot]
  by_cases under : View.Under tree.get? id other
  · rw [vacated.gone id List.mem_cons_self other under, View.prune, if_pos under]
  · have notHere : other ≠ id := by
      rintro rfl
      exact under .self
    rw [vacated.kept other (by simpa using under), detached other, if_neg notHere, View.prune,
      if_neg under]
    by_cases isParent : other = parent
    · rw [if_pos isParent]
    · rw [if_neg isParent]
      cases otherAt : tree.get? other with
      | none => rfl
      | some own =>
        have unlisted : id ∉ own.children := by
          intro listed
          have parentAt' := formed.parent_of_child otherAt listed found
          rw [parentAt, Option.some.injEq] at parentAt'
          exact isParent parentAt'.symm
        have kept : own.children.filter (· != id) = own.children := by
          rw [List.filter_eq_self]
          intro child childMember
          rw [bne_iff_ne]
          rintro rfl
          exact unlisted childMember
        rw [Option.map_some, kept]

theorem get?_removeSubtree_dead {id : StatementId} (vacant : tree.get? id = none) :
    (tree.removeSubtree id).get? = tree.get? := by
  have unlinked : (tree.detach id).get? = tree.get? := by
    funext other
    simp only [detach, parent?, vacant, Option.bind_none, get?_modify]
    by_cases isHere : id = other
    · simp [← isHere, vacant]
    · simp [isHere]
  by_cases isRoot : id = root
  · rw [removeSubtree, if_pos isRoot]
  · rw [removeSubtree, if_neg isRoot, vacateBelow, unlinked, vacant]
    exact unlinked

theorem ScopeTree.WellFormed.removeSubtree (formed : tree.WellFormed) (id : StatementId) :
    (tree.removeSubtree id).WellFormed := by
  by_cases isRoot : id = root
  · rwa [ScopeTree.removeSubtree, if_pos isRoot]
  · cases found : tree.get? id with
    | none =>
      rw [ScopeTree.WellFormed, get?_removeSubtree_dead found]
      exact formed
    | some statement =>
      rw [ScopeTree.WellFormed, get?_removeSubtree_live formed found isRoot]
      exact View.WellFormed.prune formed isRoot

end Removal

section Changes

variable {tree : ScopeTree}

theorem ScopeTree.WellFormed.modify (formed : tree.WellFormed) (id : StatementId)
    {change : Statement → Statement} (keeps : View.KeepsLinks change) :
    (tree.modify id change).WellFormed := by
  rw [ScopeTree.WellFormed, get?_modify_eq_enrich]
  exact View.WellFormed.enrich formed keeps

theorem ScopeTree.WellFormed.add (formed : tree.WellFormed) {parent : StatementId} {above leaf : Statement}
    (aboveAt : tree.get? parent = some above) (bare : leaf.children = []) :
    (tree.add parent leaf).WellFormed := by
  rw [ScopeTree.WellFormed, get?_add aboveAt bare]
  exact View.WellFormed.grow formed (get?_eq_none_of_nextId_le (Nat.le_refl _)) aboveAt

theorem keepsLinks_stripStatement (file : String) : View.KeepsLinks (stripStatement file) :=
  ⟨fun _ => rfl, fun _ => rfl⟩

theorem ScopeTree.WellFormed.removeFile (formed : tree.WellFormed) (file : String) :
    (tree.removeFile file).1.WellFormed := by
  refine stripBelow_induction (fun before after => before.WellFormed → after.WellFormed)
    (fun _ kept => kept) (fun _ _ _ first second kept => second (first kept)) ?_ ?_ _ tree root formed
  · exact fun _ id kept => kept.modify id (keepsLinks_stripStatement file)
  · exact fun _ id kept => kept.removeSubtree id

end Changes

section Walk

variable {tree : ScopeTree}

theorem under_of_mem_below (formed : tree.WellFormed) (depth : Nat) :
    ∀ {id other : StatementId}, other ∈ tree.below depth id →
      View.Under tree.get? id other ∧ other ≠ id := by
  induction depth with
  | zero => simp [below]
  | succ depth ih =>
    intro id other member
    rw [below, List.mem_flatMap] at member
    obtain ⟨child, childMember, reached⟩ := member
    obtain ⟨statement, found, listed⟩ := exists_of_mem_children childMember
    have under : View.Under tree.get? child other := by
      rcases List.mem_cons.mp reached with same | lower
      · exact same ▸ .self
      · exact (ih lower).1
    refine ⟨(View.Under.self.step found listed).trans under, ?_⟩
    rintro rfl
    exact View.Under.not_above formed found listed under

theorem mem_below_of_under (formed : tree.WellFormed) (depth : Nat) :
    ∀ {id other : StatementId} {statement : Statement}, tree.get? id = some statement →
      tree.nextId ≤ depth + View.depth tree.get? id → View.Under tree.get? id other →
      other ≠ id → other ∈ tree.below depth id := by
  induction depth with
  | zero =>
    intro id other statement found enough
    rw [Nat.zero_add] at enough
    exact absurd (formed.depth_lt found) (Nat.not_lt.mpr enough)
  | succ depth ih =>
    intro id other statement found enough under different
    obtain ⟨child, member, lower⟩ := under.through_child found different
    obtain ⟨inner, innerAt, _⟩ := formed.linked found member
    rw [below, children_of_get? found, List.mem_flatMap]
    refine ⟨child, member, ?_⟩
    by_cases same : other = child
    · exact same ▸ List.mem_cons_self
    · refine List.mem_cons_of_mem _ (ih innerAt ?_ lower same)
      rwa [formed.depth_child found member, Nat.add_comm _ 1, ← Nat.add_assoc]

theorem below_nodup (formed : tree.WellFormed) (depth : Nat) :
    ∀ id : StatementId, (tree.below depth id).Nodup := by
  induction depth with
  | zero => simp [below]
  | succ depth ih =>
    intro id
    rw [below]
    cases found : tree.get? id with
    | none => simp [children, found]
    | some statement =>
      rw [children_of_get? found, List.nodup_flatMap]
      constructor
      · intro child _
        rw [List.nodup_cons]
        exact ⟨fun member => (under_of_mem_below formed depth member).2 rfl, ih child⟩
      · refine (children_disjoint formed found).imp ?_
        intro first second apart other left right
        have reached {child : StatementId} (member : other ∈ child :: tree.below depth child) :
            View.Under tree.get? child other := by
          rcases List.mem_cons.mp member with same | lower
          · exact same ▸ .self
          · exact (under_of_mem_below formed depth lower).1
        exact apart other (reached left) (reached right)

theorem mem_descendants_root (formed : tree.WellFormed) {id : StatementId} :
    id ∈ tree.descendants root ↔ tree.isLive id = true ∧ id ≠ root := by
  obtain ⟨top, topAt, _⟩ := formed.top
  constructor
  · intro member
    obtain ⟨under, notRoot⟩ := under_of_mem_below formed _ member
    refine ⟨?_, notRoot⟩
    cases under with
    | self => exact absurd rfl notRoot
    | step _ found listed =>
      obtain ⟨below, belowAt, _⟩ := formed.linked found listed
      simp [isLive, belowAt]
  · rintro ⟨live, notRoot⟩
    obtain ⟨statement, found⟩ := Option.isSome_iff_exists.mp live
    exact mem_below_of_under formed _ topAt (Nat.le_add_right _ _) (.of_live formed found) notRoot

theorem descendants_root_perm (formed : tree.WellFormed) :
    (tree.descendants root).Perm (innerIds tree) := by
  refine (List.perm_ext_iff_of_nodup (below_nodup formed _ root) ((nodup_ids tree).filter _)).mpr ?_
  intro id
  change id ∈ tree.descendants root ↔ id ∈ innerIds tree
  rw [mem_descendants_root formed, innerIds, List.mem_filter, mem_ids, bne_iff_ne]

theorem size_eq_length_ids (tree : ScopeTree) : tree.size = tree.ids.length := by
  rw [size, slots_toList, List.countP_map, List.countP_eq_length_filter]
  rfl

theorem statements_collect (formed : tree.WellFormed) :
    (Statistics.collect tree).statements + 1 = tree.size := by
  obtain ⟨top, topAt, _⟩ := formed.top
  have all : ((tree.descendants root).filterMap tree.get?).length =
      (tree.descendants root).length := by
    rw [List.length_filterMap_eq_countP, List.countP_eq_length]
    exact fun id member => ((mem_descendants_root formed).mp member).1
  have rootFirst := (ids_perm_root topAt).length_eq
  rw [List.length_cons, ← (descendants_root_perm formed).length_eq] at rootFirst
  rw [size_eq_length_ids, rootFirst, ← all]
  rfl

end Walk

/-- One change of a tree. The merged tree may hold empty slots and pending qualifiers. -/
inductive Change : ScopeTree → ScopeTree → Prop
  | merge {tree other : ScopeTree} : other.WellFormed → Change tree (tree.merge other)
  | removeFile {tree : ScopeTree} (file : String) : Change tree (tree.removeFile file).1
  | removeSubtree {tree : ScopeTree} (id : StatementId) : Change tree (tree.removeSubtree id)
  | add {tree : ScopeTree} {parent : StatementId} {above leaf : Statement} :
      tree.get? parent = some above → leaf.children = [] → Change tree (tree.add parent leaf)
  | clear {tree : ScopeTree} : Change tree tree.clear

theorem Change.wellFormed {before after : ScopeTree} (change : Change before after)
    (formed : before.WellFormed) : after.WellFormed := by
  cases change with
  | merge otherFormed => exact merge_wellFormed formed otherFormed
  | removeFile file => exact formed.removeFile file
  | removeSubtree id => exact formed.removeSubtree id
  | add aboveAt bare => exact formed.add aboveAt bare
  | clear => exact empty_wellFormed before.language

def Reached (language : Language) : ScopeTree → Prop :=
  Relation.ReflTransGen Change (.empty language)

theorem Reached.wellFormed {language : Language} {tree : ScopeTree}
    (reached : Reached language tree) : tree.WellFormed := by
  induction reached with
  | refl => exact empty_wellFormed language
  | tail _ change ih => exact change.wellFormed ih

/-- Every change keeps one tree, so every tree reached is one, and in such a tree a walk down from
the root lists each live statement but the root exactly once and the statistics count them. -/
theorem tree_stays_one :
    (∀ before after, before.WellFormed → Change before after → after.WellFormed) ∧
    (∀ language tree, Reached language tree → tree.WellFormed) ∧
    ∀ tree : ScopeTree, tree.WellFormed → (tree.descendants root).Nodup ∧
      (∀ id, id ∈ tree.descendants root ↔ tree.isLive id = true ∧ id ≠ root) ∧
      (Statistics.collect tree).statements = tree.size - 1 := by
  refine ⟨fun _ _ formed change => change.wellFormed formed, fun _ _ => Reached.wellFormed, ?_⟩
  intro tree formed
  refine ⟨below_nodup formed _ root, fun id => mem_descendants_root formed, ?_⟩
  rw [← statements_collect formed, Nat.add_sub_cancel]

def memberStatement (file : String) : Statement :=
  .detached (.named ⟨"f", some ⟨[⟨"A", .point file 1 1⟩]⟩,
    [⟨file, false, .unstated, .methodScope ⟨[], none, false, false, false⟩⟩]⟩) .cPlusPlus
    [.span file ⟨1, 1⟩ ⟨1, 9⟩] []

def memberTree (file : String) : ScopeTree :=
  (empty .cPlusPlus).add root (memberStatement file)

theorem memberTree_wellFormed (file : String) : (memberTree file).WellFormed :=
  (empty_wellFormed .cPlusPlus).add rfl rfl

theorem tree_stays_one_member_merged :
    let merged := (classTree "a.h").merge (memberTree "a.cpp")
    let tree := ((((((empty .cPlusPlus).merge merged).removeFile "a.h").1.add root
      (memberStatement "b.cpp")).merge (classTree "a.h")).removeSubtree 2)
    merged.WellFormed ∧ tree.WellFormed ∧ (tree.descendants root).Nodup ∧
      (∀ id, id ∈ tree.descendants root ↔ tree.isLive id = true ∧ id ≠ root) ∧
      (Statistics.collect tree).statements = tree.size - 1 := by
  intro merged tree
  obtain ⟨file, _, ofUnit⟩ := readAs_fileTree (readAs_classUnit "a.h")
  have mergedFormed : merged.WellFormed :=
    tree_stays_one.1 _ _ ofUnit.formed (.merge (memberTree_wellFormed "a.cpp"))
  have first : Reached .cPlusPlus ((empty .cPlusPlus).merge merged) := .single (.merge mergedFormed)
  have second := first.tail (.removeFile "a.h")
  obtain ⟨top, topAt, _⟩ := (Reached.wellFormed second).top
  have third := second.tail (@Change.add _ root top (memberStatement "b.cpp") topAt rfl)
  have formed := tree_stays_one.2.1 _ _
    ((third.tail (.merge ofUnit.formed)).tail (.removeSubtree 2))
  exact ⟨mergedFormed, formed, tree_stays_one.2.2 _ formed⟩

end ScopeAtlas
