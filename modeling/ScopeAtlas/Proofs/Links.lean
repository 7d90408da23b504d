import Mathlib.Data.List.Nodup
import Mathlib.Data.List.Perm.Subperm
import Mathlib.Data.Nat.Find
import ScopeAtlas.ScopeTree.Basic

/-!
The links of a tree. A view tells which statement stands at a number, if any; `ScopeTree.get?` is
the view of a tree. A view is well formed when its statements form one tree below number 0.

Everything that happens to a well formed view is made of two changes: `enrich` adds to a
statement and leaves its links alone, `grow` hangs a new leaf below a statement. Both keep a view
well formed.
-/

namespace ScopeAtlas

abbrev View := StatementId → Option Statement

namespace View

inductive AtDepth (view : View) : Nat → StatementId → Prop
  | root : AtDepth view 0 ScopeTree.root
  | inner {depth id parent statement} : view id = some statement → statement.parent = some parent →
      AtDepth view depth parent → AtDepth view (depth + 1) id

/-- The statements of a view form one tree below the global namespace. -/
structure WellFormed (view : View) : Prop where
  top : ∃ statement, view ScopeTree.root = some statement ∧ statement.parent = none
  listed : ∀ {id statement}, view id = some statement → id ≠ ScopeTree.root →
    ∃ parent above, statement.parent = some parent ∧ view parent = some above ∧ id ∈ above.children
  linked : ∀ {id statement child}, view id = some statement → child ∈ statement.children →
    ∃ below, view child = some below ∧ below.parent = some id
  unrepeated : ∀ {id statement}, view id = some statement → statement.children.Nodup
  grounded : ∀ {id statement}, view id = some statement → ∃ depth, AtDepth view depth id

open Classical in
noncomputable def depth (view : View) (id : StatementId) : Nat :=
  if grounded : ∃ depth, AtDepth view depth id then Nat.find grounded else 0

theorem WellFormed.ne_root_of_parent {view : View} (formed : view.WellFormed)
    {id parent : StatementId} {statement : Statement} (found : view id = some statement)
    (parentAt : statement.parent = some parent) : id ≠ ScopeTree.root := by
  intro isRoot
  obtain ⟨top, topAt, topParent⟩ := formed.top
  rw [isRoot, topAt, Option.some.injEq] at found
  rw [← found, topParent] at parentAt
  simp at parentAt

theorem AtDepth.unique {view : View} (formed : view.WellFormed) {first second : Nat}
    {id : StatementId} (left : AtDepth view first id) (right : AtDepth view second id) :
    first = second := by
  induction left generalizing second with
  | root =>
    cases right with
    | root => rfl
    | inner found parentAt _ => exact absurd rfl (formed.ne_root_of_parent found parentAt)
  | inner found parentAt _ ih =>
    cases right with
    | root => exact absurd rfl (formed.ne_root_of_parent found parentAt)
    | inner found' parentAt' above =>
      rw [found, Option.some.injEq] at found'
      rw [← found', parentAt, Option.some.injEq] at parentAt'
      subst parentAt'
      rw [ih above]

theorem AtDepth.depth_eq {view : View} (formed : view.WellFormed) {depth : Nat}
    {id : StatementId} (reached : AtDepth view depth id) : view.depth id = depth := by
  classical
  have grounded : ∃ depth, AtDepth view depth id := ⟨depth, reached⟩
  rw [View.depth, dif_pos grounded]
  exact (Nat.find_spec grounded).unique formed reached

namespace WellFormed

variable {view : View}

theorem atDepth (formed : view.WellFormed) {id : StatementId} {statement : Statement}
    (found : view id = some statement) : AtDepth view (view.depth id) id := by
  obtain ⟨depth, reached⟩ := formed.grounded found
  rwa [reached.depth_eq formed]

theorem parent_of_child (formed : view.WellFormed) {id child : StatementId}
    {statement below : Statement} (found : view id = some statement)
    (member : child ∈ statement.children) (childAt : view child = some below) :
    below.parent = some id := by
  obtain ⟨found', childAt', parentAt⟩ := formed.linked found member
  rw [childAt, Option.some.injEq] at childAt'
  rwa [childAt']

theorem child_ne_root (formed : view.WellFormed) {id child : StatementId} {statement : Statement}
    (found : view id = some statement) (member : child ∈ statement.children) :
    child ≠ ScopeTree.root := by
  obtain ⟨below, belowAt, parentAt⟩ := formed.linked found member
  exact formed.ne_root_of_parent belowAt parentAt

theorem exists_parent (formed : view.WellFormed) {id parent : StatementId}
    {statement : Statement} (found : view id = some statement)
    (parentAt : statement.parent = some parent) :
    ∃ above, view parent = some above ∧ id ∈ above.children := by
  obtain ⟨parent', above, parentAt', aboveAt, member⟩ :=
    formed.listed found (formed.ne_root_of_parent found parentAt)
  obtain rfl : parent' = parent := Option.some.inj (parentAt'.symm.trans parentAt)
  exact ⟨above, aboveAt, member⟩

theorem mem_of_parent (formed : view.WellFormed) {id parent : StatementId}
    {statement above : Statement} (found : view id = some statement)
    (parentAt : statement.parent = some parent) (aboveAt : view parent = some above) :
    id ∈ above.children := by
  obtain ⟨above', aboveAt', member⟩ := formed.exists_parent found parentAt
  rw [aboveAt, Option.some.injEq] at aboveAt'
  rwa [aboveAt']

theorem depth_root (formed : view.WellFormed) : view.depth ScopeTree.root = 0 :=
  AtDepth.root.depth_eq formed

theorem depth_child (formed : view.WellFormed) {id child : StatementId} {statement : Statement}
    (found : view id = some statement) (member : child ∈ statement.children) :
    view.depth child = view.depth id + 1 := by
  obtain ⟨below, childAt, parentAt⟩ := formed.linked found member
  exact (AtDepth.inner childAt parentAt (formed.atDepth found)).depth_eq formed

theorem exists_trail (formed : view.WellFormed) {depth : Nat} {id : StatementId}
    (reached : AtDepth view depth id) : ∃ trail : List StatementId, trail.length = depth + 1 ∧
      trail.Nodup ∧ ∀ level ∈ trail, (view level).isSome ∧ view.depth level ≤ depth := by
  induction reached with
  | root =>
    obtain ⟨top, topAt, _⟩ := formed.top
    exact ⟨[ScopeTree.root], rfl, by simp, by simp [topAt, formed.depth_root]⟩
  | @inner depth id parent statement found parentAt above ih =>
    obtain ⟨trail, length, distinct, members⟩ := ih
    have own : view.depth id = depth + 1 :=
      (AtDepth.inner found parentAt above).depth_eq formed
    have fresh : id ∉ trail := by
      intro member
      have bound := (members id member).2
      omega
    refine ⟨id :: trail, by simp [length], by simp [fresh, distinct], ?_⟩
    intro level member
    rcases List.mem_cons.mp member with same | earlier
    · subst same
      simp [found, own]
    · exact ⟨(members level earlier).1, Nat.le_succ_of_le (members level earlier).2⟩

/-- What holds of the root and passes from parents to children holds of everything live. -/
theorem downward (formed : view.WellFormed) (property : StatementId → Statement → Prop)
    (top : ∀ statement, view ScopeTree.root = some statement → property ScopeTree.root statement)
    (inner : ∀ id statement parent above, view id = some statement → id ≠ ScopeTree.root →
      statement.parent = some parent → view parent = some above → property parent above →
      property id statement)
    {id : StatementId} {statement : Statement} (found : view id = some statement) :
    property id statement := by
  have reached := formed.atDepth found
  generalize view.depth id = depth at reached
  induction depth generalizing id statement with
  | zero =>
    cases reached with
    | root => exact top statement found
  | succ depth ih =>
    cases reached with
    | @inner _ _ parent own ownAt parentAt reached =>
      rw [found, Option.some.injEq] at ownAt
      subst ownAt
      obtain ⟨above, aboveAt, _⟩ := formed.exists_parent found parentAt
      exact inner id statement _ above found (formed.ne_root_of_parent found parentAt) parentAt
        aboveAt (ih aboveAt reached)

theorem depth_lt (formed : view.WellFormed) {bound : Nat}
    (bounded : ∀ id, (view id).isSome → id < bound) {id : StatementId} {statement : Statement}
    (found : view id = some statement) : view.depth id < bound := by
  obtain ⟨trail, length, distinct, members⟩ := formed.exists_trail (formed.atDepth found)
  have inside : trail ⊆ List.range bound := by
    intro level member
    exact List.mem_range.mpr (bounded level (members level member).1)
  have short := (List.subperm_of_subset distinct inside).length_le
  rw [length, List.length_range] at short
  omega

end WellFormed

inductive Under (view : View) (top : StatementId) : StatementId → Prop
  | self : Under view top top
  | step {parent child statement} : Under view top parent → view parent = some statement →
      child ∈ statement.children → Under view top child

namespace Under

variable {view : View}

theorem depth_le (formed : view.WellFormed) {top id : StatementId} (under : Under view top id) :
    view.depth top ≤ view.depth id := by
  induction under with
  | self => exact Nat.le_refl _
  | step _ found member ih =>
    rw [formed.depth_child found member]
    omega

theorem trans {top middle id : StatementId} (upper : Under view top middle)
    (lower : Under view middle id) : Under view top id := by
  induction lower with
  | self => exact upper
  | step _ found member ih => exact .step ih found member

theorem through_child {top id : StatementId} {statement : Statement}
    (found : view top = some statement) (under : Under view top id) (other : id ≠ top) :
    ∃ child ∈ statement.children, Under view child id := by
  induction under with
  | self => exact absurd rfl other
  | @step parent child inner under innerAt member ih =>
    by_cases direct : parent = top
    · subst direct
      rw [found, Option.some.injEq] at innerAt
      exact ⟨child, innerAt ▸ member, .self⟩
    · obtain ⟨first, firstMember, lower⟩ := ih direct
      exact ⟨first, firstMember, .step lower innerAt member⟩

theorem unique (formed : view.WellFormed) {first second id : StatementId}
    (left : Under view first id) (right : Under view second id)
    (level : view.depth first = view.depth second) : first = second := by
  induction left with
  | self =>
    cases right with
    | self => rfl
    | step upper found member =>
      have bound := upper.depth_le formed
      rw [formed.depth_child found member] at level
      omega
  | @step parent child statement upper found member ih =>
    have bound := upper.depth_le formed
    have deeper := formed.depth_child found member
    cases right with
    | self => omega
    | @step parent' _ statement' upper' found' member' =>
      obtain ⟨below, childAt, parentAt⟩ := formed.linked found member
      have parentAt' := formed.parent_of_child found' member' childAt
      rw [parentAt, Option.some.injEq] at parentAt'
      subst parentAt'
      exact ih upper'

theorem not_above (formed : view.WellFormed) {id child : StatementId} {statement : Statement}
    (found : view id = some statement) (member : child ∈ statement.children) :
    ¬Under view child id := by
  intro under
  have bound := under.depth_le formed
  rw [formed.depth_child found member] at bound
  omega

theorem of_live (formed : view.WellFormed) {id : StatementId} {statement : Statement}
    (found : view id = some statement) : Under view ScopeTree.root id := by
  refine formed.downward (fun id _ => Under view ScopeTree.root id) (fun _ _ => .self) ?_ found
  intro id statement parent above found _ parentAt aboveAt under
  exact .step under aboveAt (formed.mem_of_parent found parentAt aboveAt)

end Under

def enrich (view : View) (id : StatementId) (change : Statement → Statement) : View :=
  fun other => if other = id then (view other).map change else view other

def grow (view : View) (id parent : StatementId) (leaf : Statement) : View :=
  fun other =>
    if other = id then some { leaf with parent := some parent, children := [] }
    else if other = parent then
      (view other).map fun statement => { statement with children := statement.children ++ [id] }
    else view other

structure KeepsLinks (change : Statement → Statement) : Prop where
  parent : ∀ statement, (change statement).parent = statement.parent
  children : ∀ statement, (change statement).children = statement.children

section Enrich

variable {view : View} {target : StatementId} {change : Statement → Statement}

theorem enrich_self {statement : Statement} (found : view target = some statement) :
    view.enrich target change target = some (change statement) := by
  simp [enrich, found]

theorem enrich_other {id : StatementId} (other : id ≠ target) :
    view.enrich target change id = view id := by
  simp [enrich, other]

theorem enrich_eq_some {id : StatementId} {statement : Statement}
    (found : view.enrich target change id = some statement) :
    ∃ before, view id = some before ∧
      (id = target ∧ statement = change before ∨ id ≠ target ∧ statement = before) := by
  by_cases same : id = target
  · simp only [enrich, same, if_true, Option.map_eq_some_iff] at found
    obtain ⟨before, beforeAt, changed⟩ := found
    exact ⟨before, same ▸ beforeAt, .inl ⟨same, changed.symm⟩⟩
  · rw [enrich_other same] at found
    exact ⟨statement, found, .inr ⟨same, rfl⟩⟩

theorem enrich_links (keeps : KeepsLinks change) {id : StatementId} {statement : Statement}
    (found : view.enrich target change id = some statement) :
    ∃ before, view id = some before ∧ statement.parent = before.parent ∧
      statement.children = before.children := by
  obtain ⟨before, beforeAt, ⟨_, rfl⟩ | ⟨_, rfl⟩⟩ := enrich_eq_some found
  · exact ⟨before, beforeAt, keeps.parent before, keeps.children before⟩
  · exact ⟨statement, beforeAt, rfl, rfl⟩

theorem exists_enrich (target : StatementId) (keeps : KeepsLinks change) {id : StatementId}
    {before : Statement} (beforeAt : view id = some before) : ∃ statement, view.enrich target change id = some statement ∧
      statement.parent = before.parent ∧ statement.children = before.children := by
  by_cases same : id = target
  · subst same
    exact ⟨_, enrich_self beforeAt, keeps.parent before, keeps.children before⟩
  · exact ⟨before, by rw [enrich_other same, beforeAt], rfl, rfl⟩

theorem AtDepth.enrich (keeps : KeepsLinks change) {depth : Nat} {id : StatementId}
    (reached : AtDepth view depth id) : AtDepth (view.enrich target change) depth id := by
  induction reached with
  | root => exact .root
  | inner found parentAt _ ih =>
    obtain ⟨statement, statementAt, parent, _⟩ := exists_enrich target keeps found
    exact .inner statementAt (parent.trans parentAt) ih

theorem WellFormed.enrich (formed : view.WellFormed) (keeps : KeepsLinks change) :
    (view.enrich target change).WellFormed := by
  constructor
  · obtain ⟨top, topAt, topParent⟩ := formed.top
    obtain ⟨statement, statementAt, parent, _⟩ := exists_enrich target keeps topAt
    exact ⟨statement, statementAt, parent.trans topParent⟩
  · intro id statement found notRoot
    obtain ⟨before, beforeAt, parent, _⟩ := enrich_links keeps found
    obtain ⟨above, aboveBefore, parentAt, aboveAt, member⟩ := formed.listed beforeAt notRoot
    obtain ⟨after, afterAt, _, children⟩ := exists_enrich target keeps aboveAt
    exact ⟨above, after, parent.trans parentAt, afterAt, children ▸ member⟩
  · intro id statement child found member
    obtain ⟨before, beforeAt, _, children⟩ := enrich_links keeps found
    obtain ⟨below, belowAt, parentAt⟩ := formed.linked beforeAt (children ▸ member)
    obtain ⟨after, afterAt, parent, _⟩ := exists_enrich target keeps belowAt
    exact ⟨after, afterAt, parent.trans parentAt⟩
  · intro id statement found
    obtain ⟨before, beforeAt, _, children⟩ := enrich_links keeps found
    rw [children]
    exact formed.unrepeated beforeAt
  · intro id statement found
    obtain ⟨before, beforeAt, _, _⟩ := enrich_links keeps found
    obtain ⟨depth, reached⟩ := formed.grounded beforeAt
    exact ⟨depth, reached.enrich keeps⟩

end Enrich

section Grow

variable {view : View} {id parent : StatementId} {leaf : Statement}

theorem grow_self :
    view.grow id parent leaf id = some { leaf with parent := some parent, children := [] } := by
  simp [grow]

theorem grow_parent {above : Statement} (aboveAt : view parent = some above)
    (different : parent ≠ id) : view.grow id parent leaf parent =
      some { above with children := above.children ++ [id] } := by
  simp [grow, different, aboveAt]

theorem grow_other {other : StatementId} (notLeaf : other ≠ id) (notParent : other ≠ parent) :
    view.grow id parent leaf other = view other := by
  simp [grow, notLeaf, notParent]

theorem grow_eq_some {other : StatementId} {statement : Statement}
    (found : view.grow id parent leaf other = some statement) :
    (other = id ∧ statement = { leaf with parent := some parent, children := [] }) ∨
      (other ≠ id ∧ ∃ before, view other = some before ∧
        (other = parent ∧ statement = { before with children := before.children ++ [id] } ∨
          other ≠ parent ∧ statement = before)) := by
  by_cases isLeaf : other = id
  · subst isLeaf
    rw [grow_self, Option.some.injEq] at found
    exact .inl ⟨rfl, found.symm⟩
  · refine .inr ⟨isLeaf, ?_⟩
    by_cases isParent : other = parent
    · rw [grow, if_neg isLeaf, if_pos isParent, Option.map_eq_some_iff] at found
      obtain ⟨before, beforeAt, changed⟩ := found
      exact ⟨before, beforeAt, .inl ⟨isParent, changed.symm⟩⟩
    · rw [grow_other isLeaf isParent] at found
      exact ⟨statement, found, .inr ⟨isParent, rfl⟩⟩

theorem exists_grow (parent : StatementId) (leaf : Statement) {other : StatementId}
    {before : Statement} (vacant : view id = none) (beforeAt : view other = some before) : ∃ statement,
      view.grow id parent leaf other = some statement ∧ statement.parent = before.parent ∧
        ∀ child ∈ before.children, child ∈ statement.children := by
  have notLeaf : other ≠ id := by
    rintro rfl
    simp [vacant] at beforeAt
  by_cases isParent : other = parent
  · subst isParent
    exact ⟨_, grow_parent beforeAt notLeaf, rfl, fun child member => by simp [member]⟩
  · exact ⟨before, by rw [grow_other notLeaf isParent, beforeAt], rfl, fun _ member => member⟩

theorem AtDepth.grow (vacant : view id = none) {depth : Nat} {other : StatementId}
    (reached : AtDepth view depth other) : AtDepth (view.grow id parent leaf) depth other := by
  induction reached with
  | root => exact .root
  | inner found parentAt _ ih =>
    obtain ⟨statement, statementAt, sameParent, _⟩ := exists_grow parent leaf vacant found
    exact .inner statementAt (sameParent.trans parentAt) ih

theorem WellFormed.grow (formed : view.WellFormed) (vacant : view id = none)
    {above : Statement} (aboveAt : view parent = some above) :
    (view.grow id parent leaf).WellFormed := by
  have different : parent ≠ id := by
    rintro rfl
    simp [vacant] at aboveAt
  have unlisted {other : StatementId} {before : Statement} (beforeAt : view other = some before) :
      id ∉ before.children := by
    intro member
    obtain ⟨below, belowAt, _⟩ := formed.linked beforeAt member
    simp [vacant] at belowAt
  have stillLinked {other child : StatementId} {before : Statement}
      (beforeAt : view other = some before) (member : child ∈ before.children) :
      ∃ below, view.grow id parent leaf child = some below ∧ below.parent = some other := by
    obtain ⟨below, belowAt, parentAt⟩ := formed.linked beforeAt member
    obtain ⟨after, afterAt, sameParent, _⟩ := exists_grow parent leaf vacant belowAt
    exact ⟨after, afterAt, sameParent.trans parentAt⟩
  constructor
  · obtain ⟨top, topAt, topParent⟩ := formed.top
    obtain ⟨statement, statementAt, sameParent, _⟩ := exists_grow parent leaf vacant topAt
    exact ⟨statement, statementAt, sameParent.trans topParent⟩
  · intro other statement found notRoot
    rcases grow_eq_some found with ⟨rfl, rfl⟩ | ⟨notLeaf, before, beforeAt, cases⟩
    · exact ⟨parent, _, rfl, grow_parent aboveAt different, by simp⟩
    · obtain ⟨upper, upperBefore, parentAt, upperAt, member⟩ := formed.listed beforeAt notRoot
      obtain ⟨after, afterAt, _, kept⟩ := exists_grow parent leaf vacant upperAt
      refine ⟨upper, after, ?_, afterAt, kept other member⟩
      rcases cases with ⟨_, rfl⟩ | ⟨_, rfl⟩
      · exact parentAt
      · exact parentAt
  · intro other statement child found member
    rcases grow_eq_some found with ⟨rfl, rfl⟩ | ⟨notLeaf, before, beforeAt, cases⟩
    · simp at member
    · rcases cases with ⟨isParent, rfl⟩ | ⟨_, rfl⟩
      · rcases List.mem_append.mp member with old | new
        · exact stillLinked beforeAt old
        · rw [List.mem_singleton] at new
          subst new
          exact ⟨_, grow_self, by rw [isParent]⟩
      · exact stillLinked beforeAt member
  · intro other statement found
    rcases grow_eq_some found with ⟨rfl, rfl⟩ | ⟨notLeaf, before, beforeAt, cases⟩
    · simp
    · rcases cases with ⟨_, rfl⟩ | ⟨_, rfl⟩
      · rw [List.nodup_append]
        refine ⟨formed.unrepeated beforeAt, by simp, ?_⟩
        intro child member last isLast same
        rw [List.mem_singleton] at isLast
        exact unlisted beforeAt (isLast ▸ same ▸ member)
      · exact formed.unrepeated beforeAt
  · intro other statement found
    rcases grow_eq_some found with ⟨rfl, rfl⟩ | ⟨notLeaf, before, beforeAt, _⟩
    · obtain ⟨depth, reached⟩ := formed.grounded aboveAt
      exact ⟨depth + 1, .inner found rfl (reached.grow vacant)⟩
    · obtain ⟨depth, reached⟩ := formed.grounded beforeAt
      exact ⟨depth, reached.grow vacant⟩

end Grow

end View

namespace ScopeTree

def WellFormed (tree : ScopeTree) : Prop := View.WellFormed tree.get?

theorem lt_nextId_of_get? {tree : ScopeTree} {id : StatementId} {statement : Statement}
    (found : tree.get? id = some statement) : id < tree.nextId := by
  by_contra beyond
  rw [get?_eq_none_of_nextId_le (Nat.le_of_not_lt beyond)] at found
  simp at found

theorem WellFormed.depth_lt {tree : ScopeTree} (formed : tree.WellFormed) {id : StatementId}
    {statement : Statement} (found : tree.get? id = some statement) :
    View.depth tree.get? id < tree.nextId := by
  apply View.WellFormed.depth_lt formed _ found
  intro id live
  obtain ⟨statement, found⟩ := Option.isSome_iff_exists.mp live
  exact lt_nextId_of_get? found

theorem WellFormed.filter_isLive_children {tree : ScopeTree} (formed : tree.WellFormed)
    {id : StatementId} {statement : Statement} (found : tree.get? id = some statement) :
    statement.children.filter tree.isLive = statement.children := by
  rw [List.filter_eq_self]
  intro child member
  obtain ⟨below, belowAt, _⟩ := formed.linked found member
  simp [isLive, belowAt]

theorem slots_toList (tree : ScopeTree) :
    tree.slots.toList = (List.range tree.nextId).map tree.get? := by
  apply List.ext_getElem
  · simp [nextId]
  · intro id bound _
    have inside : id < tree.slots.size := by simpa using bound
    simp [get?, inside]

theorem get?_single {top statement : Statement} {id : StatementId}
    (found : get? ⟨#[some top]⟩ id = some statement) : id = root ∧ statement = top := by
  have bound : id < 1 := lt_nextId_of_get? found
  obtain rfl : id = root := Nat.lt_one_iff.mp bound
  exact ⟨rfl, by simpa [get?, root] using found.symm⟩

theorem single_wellFormed {top : Statement} (free : top.parent = none) (bare : top.children = []) :
    WellFormed ⟨#[some top]⟩ := by
  constructor
  · exact ⟨top, rfl, free⟩
  · exact fun found notRoot => absurd (get?_single found).1 notRoot
  · intro id statement child found member
    rw [(get?_single found).2, bare] at member
    simp at member
  · intro id statement found
    simp [(get?_single found).2, bare]
  · intro id statement found
    exact (get?_single found).1 ▸ ⟨0, .root⟩

theorem empty_wellFormed (language : Language) : (empty language).WellFormed :=
  single_wellFormed rfl rfl

end ScopeTree

end ScopeAtlas
