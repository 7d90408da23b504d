import ScopeAtlas.Proofs.Provenance

/-!
What taking a file out of a tree leaves. `remnant` says it at once: the root and whatever was seen
outside the file, each statement without the file's entries. The removal itself walks down only
where the file was seen and drops whole subtrees; in a traced tree it arrives at the remnant.
-/

namespace ScopeAtlas

namespace ScopeTree

def survives (tree : ScopeTree) (file : String) (id : StatementId) : Bool :=
  match tree.get? id with
  | none => false
  | some statement => id == root || statement.locations.any fun location => !location.inFile file

def leftover (tree : ScopeTree) (file : String) (statement : Statement) : Statement :=
  { stripStatement file statement with
    children := statement.children.filter (tree.survives file) }

def remnant (tree : ScopeTree) (file : String) : View := fun id =>
  if tree.survives file id then (tree.get? id).map (tree.leftover file) else none

end ScopeTree

open ScopeTree

theorem hasLocationIn_stripStatement {file other : String} {statement : Statement} :
    (stripStatement file statement).hasLocationIn other = true ↔
      statement.hasLocationIn other = true ∧ Text.sameFolded other file = false := by
  simp only [Statement.hasLocationIn_iff, stripStatement, List.mem_filter, Location.inFile]
  constructor
  · rintro ⟨location, ⟨member, outside⟩, inOther⟩
    refine ⟨⟨location, member, inOther⟩, ?_⟩
    rw [← Text.sameFolded_congr_left inOther]
    simpa using outside
  · rintro ⟨⟨location, member, inOther⟩, apart⟩
    refine ⟨location, ⟨member, ?_⟩, inOther⟩
    rw [Text.sameFolded_congr_left inOther, apart]
    rfl

theorem scope?_stripStatement {file : String} {statement : Statement} {scope : NamedScope}
    (found : (stripStatement file statement).scope? = some scope) :
    ∃ own, statement.scope? = some own ∧ scope = own.withoutFile file := by
  cases kind : statement.kind <;>
    simp only [stripStatement, Statement.scope?, kind, StatementKind.mapScope, StatementKind.scope?,
      reduceCtorEq, Option.some.injEq] at found
  exact ⟨_, by simp [Statement.scope?, kind, StatementKind.scope?], found.symm⟩

theorem Traced.contributed_eq {view : View} (traced : Traced view) {id : StatementId}
    {statement : Statement} (found : view id = some statement) (file : String) :
    contributed file statement = statement.hasLocationIn file := by
  rw [Bool.eq_iff_iff]
  constructor
  · intro touched
    simp only [contributed, Bool.or_eq_true, List.any_eq_true] at touched
    rcases touched with (⟨location, member, inFile⟩ | ⟨expression, member, inFile⟩) | inScope
    · exact Statement.hasLocationIn_iff.mpr ⟨location, member, inFile⟩
    · exact Statement.hasLocationIn_congr inFile (traced.content found expression member)
    · cases scopeAt : statement.scope? with
      | none => simp [scopeAt] at inScope
      | some scope =>
        simp only [scopeAt, List.any_eq_true] at inScope
        obtain ⟨facet, member, inFile⟩ := inScope
        exact Statement.hasLocationIn_congr inFile (traced.facets found scopeAt facet member)
  · intro seen
    have located : (statement.locations.any fun location => location.inFile file) = true := seen
    simp [contributed, located]

theorem stripStatement_of_not_contributed {file : String} {statement : Statement}
    (untouched : contributed file statement = false) : stripStatement file statement = statement := by
  simp only [contributed, Bool.or_eq_false_iff, List.any_eq_false, Bool.not_eq_true] at untouched
  obtain ⟨⟨noLocation, noContent⟩, noFacet⟩ := untouched
  have locations : statement.locations.filter (fun location => !location.inFile file) =
      statement.locations := by
    rw [List.filter_eq_self]
    intro location member
    simp [noLocation location member]
  have content : statement.content.filter (fun expression => !expression.location.inFile file) =
      statement.content := by
    rw [List.filter_eq_self]
    intro expression member
    simp [noContent expression member]
  have kind : statement.kind.mapScope (fun scope => scope.withoutFile file) = statement.kind := by
    cases own : statement.kind with
    | named scope =>
      simp only [Statement.scope?, own, StatementKind.scope?, List.any_eq_false] at noFacet
      have facets : scope.facets.filter (fun facet => !Text.sameFolded facet.file file) =
          scope.facets := by
        rw [List.filter_eq_self]
        intro facet member
        simpa using noFacet facet member
      simp [StatementKind.mapScope, NamedScope.withoutFile, facets]
    | _ => rfl
  simp only [stripStatement, locations, content, kind]

theorem Traced.stripStatement_eq {view : View} (traced : Traced view) {id : StatementId}
    {statement : Statement} (found : view id = some statement) {file : String}
    (unseen : statement.hasLocationIn file = false) : stripStatement file statement = statement :=
  stripStatement_of_not_contributed ((traced.contributed_eq found file).trans unseen)

section Survival

variable {tree : ScopeTree} {file : String}

theorem survives_of_get? {id : StatementId} {statement : Statement}
    (found : tree.get? id = some statement) : tree.survives file id =
      (id == root || statement.locations.any fun location => !location.inFile file) := by
  simp [survives, found]

theorem survives_root (formed : tree.WellFormed) : tree.survives file root = true := by
  obtain ⟨top, topAt, _⟩ := formed.top
  simp [survives_of_get? topAt]

theorem remnant_of_survives {id : StatementId} {statement : Statement}
    (found : tree.get? id = some statement) (alive : tree.survives file id = true) :
    tree.remnant file id = some (tree.leftover file statement) := by
  simp [remnant, alive, found]

theorem remnant_of_not_survives {id : StatementId} (gone : tree.survives file id = false) :
    tree.remnant file id = none := by
  simp [remnant, gone]

theorem remnant_eq_some {id : StatementId} {statement : Statement} :
    tree.remnant file id = some statement ↔ tree.survives file id = true ∧
      ∃ before, tree.get? id = some before ∧ statement = tree.leftover file before := by
  by_cases alive : tree.survives file id = true
  · simp only [remnant, alive, if_true, Option.map_eq_some_iff, true_and]
    simp only [eq_comm]
  · simp [remnant, alive]

theorem survives_eq_of_ne_root {id : StatementId} {statement : Statement}
    (found : tree.get? id = some statement) (notRoot : id ≠ root) :
    tree.survives file id = !(stripStatement file statement).locations.isEmpty := by
  rw [survives_of_get? found, Bool.eq_iff_iff]
  have inner : (id == root) = false := beq_eq_false_iff_ne.mpr notRoot
  simp [inner, stripStatement, List.filter_eq_nil_iff]

theorem survives_above (traced : Traced tree.get?) {id parent : StatementId}
    {statement above : Statement} (found : tree.get? id = some statement) (notRoot : id ≠ root)
    (parentAt : statement.parent = some parent) (aboveAt : tree.get? parent = some above)
    (alive : tree.survives file id = true) : tree.survives file parent = true := by
  have inner : (id == root) = false := beq_eq_false_iff_ne.mpr notRoot
  rw [survives_of_get? found, inner, Bool.false_or, List.any_eq_true] at alive
  obtain ⟨location, member, outside⟩ := alive
  obtain ⟨upper, upperMember, same⟩ :=
    Statement.hasLocationIn_iff.mp (traced.upward found parentAt aboveAt location member)
  rw [survives_of_get? aboveAt, Bool.or_eq_true, List.any_eq_true]
  refine .inr ⟨upper, upperMember, ?_⟩
  rw [Location.inFile, Text.sameFolded_congr_left same]
  exact outside

theorem remnant_of_unseen (formed : tree.WellFormed) (traced : Traced tree.get?)
    {top id : StatementId} {statement : Statement} (topAt : tree.get? top = some statement)
    (unseen : statement.hasLocationIn file = false) (under : View.Under tree.get? top id)
    (notRoot : top ≠ root) : tree.remnant file id = tree.get? id := by
  have below : ∀ {level}, View.Under tree.get? top level → ∃ own, tree.get? level = some own ∧
      own.hasLocationIn file = false ∧ level ≠ root := by
    intro level reached
    induction reached with
    | self => exact ⟨statement, topAt, unseen, notRoot⟩
    | step _ found member ih =>
      obtain ⟨upper, upperAt, upperUnseen, _⟩ := ih
      rw [found, Option.some.injEq] at upperAt
      obtain ⟨inner, innerAt, parentAt⟩ := formed.linked found member
      refine ⟨inner, innerAt, ?_, formed.child_ne_root found member⟩
      by_contra seen
      have seenAbove := traced.seen_above innerAt parentAt found (by simpa using seen)
      rw [upperAt, upperUnseen] at seenAbove
      simp at seenAbove
  have alive : ∀ {level}, View.Under tree.get? top level → tree.survives file level = true := by
    intro level reached
    obtain ⟨own, ownAt, ownUnseen, inner⟩ := below reached
    rw [survives_eq_of_ne_root ownAt inner, traced.stripStatement_eq ownAt ownUnseen]
    simpa using traced.located ownAt inner
  obtain ⟨own, ownAt, ownUnseen, inner⟩ := below under
  rw [remnant_of_survives ownAt (alive under), ownAt, leftover,
    traced.stripStatement_eq ownAt ownUnseen]
  have children : own.children.filter (tree.survives file) = own.children := by
    rw [List.filter_eq_self]
    exact fun child member => alive (under.step ownAt member)
  rw [children]

end Survival

/-! The walk. `Sifted` describes the tree while the children of one statement are gone through:
those that are still to come are as they were, the others are what the remnant says. -/

/-- The state of the walk at a statement, with the children that are still to come. -/
structure Sifted (tree : ScopeTree) (file : String) (before : ScopeTree) (id : StatementId)
    (statement : Statement) (todo : List StatementId) (state : ScopeTree × Bool) : Prop where
  here : state.1.get? id = some { stripStatement file statement with
    children := statement.children.filter fun child => child ∈ todo || tree.survives file child }
  done : ∀ child ∈ statement.children, child ∉ todo → ∀ other, View.Under tree.get? child other →
    state.1.get? other = tree.remnant file other
  todo : ∀ child ∈ todo, ∀ other, View.Under tree.get? child other →
    state.1.get? other = tree.get? other
  outside : ∀ other, ¬View.Under tree.get? id other → state.1.get? other = before.get? other
  flag : state.2 = statement.hasLocationIn file

structure Stripped (tree : ScopeTree) (file : String) (before : ScopeTree) (id : StatementId)
    (statement : Statement) (state : ScopeTree × Bool) : Prop where
  here : state.1.get? id = some (tree.leftover file statement)
  inner : ∀ other, View.Under tree.get? id other → other ≠ id →
    state.1.get? other = tree.remnant file other
  outside : ∀ other, ¬View.Under tree.get? id other → state.1.get? other = before.get? other
  flag : state.2 = statement.hasLocationIn file

section Walk

variable {tree : ScopeTree} {file : String}

theorem get?_removeSubtree {current : ScopeTree} {id child : StatementId} {statement : Statement}
    (found : current.get? child = some statement) (bare : statement.children = [])
    (parentAt : statement.parent = some id) (different : child ≠ id) (notRoot : child ≠ root)
    (other : StatementId) :
    (current.removeSubtree child).get? other =
      if other = child then none
      else if other = id then (current.get? other).map fun above =>
        { above with children := above.children.filter (· != child) }
      else current.get? other := by
  have parent : current.parent? child = some id := by simp [parent?, found, parentAt]
  have detachedAt : (current.detach child).get? child = some { statement with parent := none } := by
    simp [detach, parent, get?_modify, found, Ne.symm different]
  simp only [removeSubtree, if_neg notRoot, vacateBelow, detachedAt, bare, List.foldl_nil,
    get?_vacate]
  by_cases isChild : other = child
  · simp [isChild]
  · by_cases isParent : other = id
    · simp [isParent, Ne.symm different, different, detach, parent, get?_modify]
    · simp [isChild, Ne.symm isChild, isParent, Ne.symm isParent, detach, parent, get?_modify]

theorem leftover_children_of_not_survives (formed : tree.WellFormed) (traced : Traced tree.get?)
    {id : StatementId} {statement : Statement} (found : tree.get? id = some statement)
    (gone : tree.survives file id = false) : (tree.leftover file statement).children = [] := by
  rw [leftover, List.filter_eq_nil_iff]
  intro child member alive
  obtain ⟨below, belowAt, parentAt⟩ := formed.linked found member
  have above := survives_above traced belowAt (formed.child_ne_root found member) parentAt found
    alive
  simp [gone] at above

theorem Sifted.next (formed : tree.WellFormed) {before : ScopeTree} {id child : StatementId}
    {statement : Statement} {todo : List StatementId}
    {state after : ScopeTree × Bool} (found : tree.get? id = some statement)
    (member : child ∈ statement.children) (fresh : child ∉ todo)
    (inside : ∀ later ∈ todo, later ∈ statement.children)
    (sifted : Sifted tree file before id statement (child :: todo) state)
    (here : after.1.get? id = some { stripStatement file statement with
      children := statement.children.filter fun child => child ∈ todo || tree.survives file child })
    (below : ∀ other, View.Under tree.get? child other →
      after.1.get? other = tree.remnant file other)
    (beside : ∀ other, ¬View.Under tree.get? child other → other ≠ id →
      after.1.get? other = state.1.get? other)
    (flag : after.2 = statement.hasLocationIn file) :
    Sifted tree file before id statement todo after := by
  have apart {sibling other : StatementId} (siblingMember : sibling ∈ statement.children)
      (different : sibling ≠ child) (under : View.Under tree.get? sibling other) :
      ¬View.Under tree.get? child other ∧ other ≠ id := by
    constructor
    · intro underChild
      refine different (under.unique formed underChild ?_)
      rw [formed.depth_child found siblingMember, formed.depth_child found member]
    · rintro rfl
      exact View.Under.not_above formed found siblingMember under
  refine ⟨here, ?_, ?_, ?_, flag⟩
  · intro earlier earlierMember notTodo other under
    by_cases same : earlier = child
    · exact below other (same ▸ under)
    · obtain ⟨notBelow, notHere⟩ := apart earlierMember same under
      rw [beside other notBelow notHere]
      exact sifted.done earlier earlierMember (by simp [same, notTodo]) other under
  · intro later laterTodo other under
    have different : later ≠ child := by
      rintro rfl
      exact fresh laterTodo
    obtain ⟨notBelow, notHere⟩ := apart (inside later laterTodo) different under
    rw [beside other notBelow notHere]
    exact sifted.todo later (List.mem_cons_of_mem _ laterTodo) other under
  · intro other outside
    have notBelow : ¬View.Under tree.get? child other :=
      fun under => outside ((View.Under.self.step found member).trans under)
    have notHere : other ≠ id := by
      rintro rfl
      exact outside .self
    rw [beside other notBelow notHere]
    exact sifted.outside other outside

def stripChild (strip : ScopeTree → StatementId → ScopeTree × Bool) (file : String)
    (state : ScopeTree × Bool) (child : StatementId) : ScopeTree × Bool :=
  match state.1.get? child with
  | none => state
  | some inner =>
    if inner.hasLocationIn file then
      (match (strip state.1 child).1.get? child with
        | some left => if left.locations.isEmpty then (strip state.1 child).1.removeSubtree child
          else (strip state.1 child).1
        | none => (strip state.1 child).1, state.2 || (strip state.1 child).2)
    else state

theorem stripBelow_succ {current : ScopeTree} {id : StatementId} {statement : Statement}
    (found : current.get? id = some statement) (depth : Nat) :
    stripBelow file (depth + 1) current id =
      statement.children.foldl (stripChild (stripBelow file depth) file)
        (current.modify id (stripStatement file), contributed file statement) := by
  simp only [stripBelow, found]
  rfl

/-- Whatever relates a tree to its stripped and to its pruned version relates it to what the walk
makes of it. -/
theorem stripBelow_induction (related : ScopeTree → ScopeTree → Prop)
    (refl : ∀ tree, related tree tree)
    (trans : ∀ first second third, related first second → related second third →
      related first third)
    (strips : ∀ tree id, related tree (tree.modify id (stripStatement file)))
    (prunes : ∀ tree id, related tree (tree.removeSubtree id)) (depth : Nat) :
    ∀ (tree : ScopeTree) (id : StatementId), related tree (stripBelow file depth tree id).1 := by
  induction depth with
  | zero => exact fun tree _ => refl tree
  | succ depth ih =>
    intro tree id
    cases found : tree.get? id with
    | none =>
      simp only [stripBelow, found]
      exact refl tree
    | some statement =>
      rw [stripBelow_succ found]
      refine List.foldlRecOn (motive := fun state : ScopeTree × Bool => related tree state.1)
        _ _ (strips tree id) ?_
      intro state sofar child _
      refine trans _ _ _ sofar ?_
      have below := ih state.1 child
      unfold stripChild
      split
      · exact refl state.1
      · split
        · simp only
          split
          · split
            · exact trans _ _ _ below (prunes _ child)
            · exact below
          · exact below
        · exact refl state.1

theorem Sifted.stripChild (formed : tree.WellFormed) (traced : Traced tree.get?)
    {strip : ScopeTree → StatementId → ScopeTree × Bool} {before : ScopeTree}
    {id child : StatementId} {statement : Statement} {todo : List StatementId}
    {state : ScopeTree × Bool} (found : tree.get? id = some statement)
    (member : child ∈ statement.children) (fresh : child ∉ todo)
    (inside : ∀ later ∈ todo, later ∈ statement.children)
    (strips : ∀ inner current, tree.get? child = some inner →
      (∀ other, View.Under tree.get? child other → current.get? other = tree.get? other) →
      Stripped tree file current child inner (strip current child))
    (sifted : Sifted tree file before id statement (child :: todo) state) :
    Sifted tree file before id statement todo (stripChild strip file state child) := by
  obtain ⟨inner, childAt, parentAt⟩ := formed.linked found member
  have notRoot := formed.child_ne_root found member
  have notAbove := View.Under.not_above formed found member
  have different : child ≠ id := by
    rintro rfl
    exact notAbove .self
  have current := sifted.todo child List.mem_cons_self
  have stateAt : state.1.get? child = some inner := (current child .self).trans childAt
  have listed (alive : tree.survives file child = true) :
      (fun other => decide (other ∈ child :: todo) || tree.survives file other) =
        fun other => decide (other ∈ todo) || tree.survives file other := by
    funext other
    by_cases same : other = child
    · simp [same, alive]
    · simp [same]
  simp only [ScopeAtlas.stripChild, stateAt]
  by_cases seen : inner.hasLocationIn file = true
  · have stripped := strips inner state.1 childAt current
    have flag : (state.2 || (strip state.1 child).2) = statement.hasLocationIn file := by
      rw [stripped.flag, seen, Bool.or_true, traced.seen_above childAt parentAt found seen]
    have idAfter := (stripped.outside id notAbove).trans sifted.here
    simp only [if_pos seen, stripped.here]
    cases alive : tree.survives file child with
    | true =>
      have someLeft : (tree.leftover file inner).locations.isEmpty = false := by
        rw [survives_eq_of_ne_root childAt notRoot] at alive
        simpa [leftover] using alive
      simp only [someLeft, Bool.false_eq_true, if_false]
      refine sifted.next formed found member fresh inside ?_ ?_ ?_ flag
      · rw [idAfter, listed alive]
      · intro other under
        by_cases same : other = child
        · rw [same, stripped.here, remnant_of_survives childAt alive]
        · exact stripped.inner other under same
      · exact fun other outside _ => stripped.outside other outside
    | false =>
      have noneLeft : (tree.leftover file inner).locations.isEmpty = true := by
        rw [survives_eq_of_ne_root childAt notRoot] at alive
        simpa [leftover] using alive
      have bare := leftover_children_of_not_survives formed traced childAt alive
      have removed := get?_removeSubtree stripped.here bare parentAt different notRoot
      simp only [noneLeft, if_true]
      refine sifted.next formed found member fresh inside ?_ ?_ ?_ flag
      · simp only [removed, if_neg (Ne.symm different), if_true, idAfter, Option.map_some,
          List.filter_filter]
        congr 2
        apply List.filter_congr
        intro other _
        by_cases same : other = child
        · simp [same, alive, fresh]
        · simp [same]
      · intro other under
        by_cases same : other = child
        · rw [removed, if_pos same, same, remnant_of_not_survives alive]
        · have notHere : other ≠ id := by
            rintro rfl
            exact notAbove under
          rw [removed, if_neg same, if_neg notHere, stripped.inner other under same]
      · intro other outside notHere
        have notChild : other ≠ child := by
          rintro rfl
          exact outside .self
        rw [removed, if_neg notChild, if_neg notHere, stripped.outside other outside]
  · rw [if_neg seen]
    rw [Bool.not_eq_true] at seen
    have alive : tree.survives file child = true := by
      rw [survives_eq_of_ne_root childAt notRoot, traced.stripStatement_eq childAt seen]
      simpa using traced.located childAt notRoot
    refine sifted.next formed found member fresh inside ?_ ?_ ?_ sifted.flag
    · rw [sifted.here, listed alive]
    · intro other under
      rw [current other under, remnant_of_unseen formed traced childAt seen under notRoot]
    · exact fun other _ _ => rfl

theorem Sifted.start (formed : tree.WellFormed) (traced : Traced tree.get?) {before : ScopeTree}
    {id : StatementId} {statement : Statement} (found : tree.get? id = some statement)
    (agrees : ∀ other, View.Under tree.get? id other → before.get? other = tree.get? other) :
    Sifted tree file before id statement statement.children
      (before.modify id (stripStatement file), contributed file statement) := by
  have beforeAt : before.get? id = some statement := (agrees id .self).trans found
  refine ⟨?_, ?_, ?_, ?_, traced.contributed_eq found file⟩
  · have all : (statement.children.filter fun child =>
        child ∈ statement.children || tree.survives file child) = statement.children := by
      rw [List.filter_eq_self]
      intro child member
      simp [member]
    simp only [get?_modify, if_true, beforeAt, Option.map_some, all]
    rfl
  · exact fun child member notTodo => absurd member notTodo
  · intro child member other under
    have notHere : id ≠ other := by
      rintro rfl
      exact View.Under.not_above formed found member under
    rw [get?_modify, if_neg notHere]
    exact agrees other ((View.Under.self.step found member).trans under)
  · intro other outside
    have notHere : id ≠ other := by
      rintro rfl
      exact outside .self
    rw [get?_modify, if_neg notHere]

/-- The walk strips a statement and leaves the remnant below it. -/
theorem stripBelow_stripped (formed : tree.WellFormed) (traced : Traced tree.get?) (depth : Nat) :
    ∀ (before : ScopeTree) (id : StatementId) (statement : Statement),
      tree.get? id = some statement → tree.nextId ≤ depth + View.depth tree.get? id →
      (∀ other, View.Under tree.get? id other → before.get? other = tree.get? other) →
      Stripped tree file before id statement (stripBelow file depth before id) := by
  induction depth with
  | zero =>
    intro before id statement found enough
    have bound := formed.depth_lt found
    rw [Nat.zero_add] at enough
    exact absurd bound (Nat.not_lt.mpr enough)
  | succ depth ih =>
    intro before id statement found enough agrees
    have beforeAt : before.get? id = some statement := (agrees id .self).trans found
    rw [stripBelow_succ beforeAt]
    have loop : ∀ (todo : List StatementId) (state : ScopeTree × Bool), todo.Nodup →
        (∀ later ∈ todo, later ∈ statement.children) →
        Sifted tree file before id statement todo state →
        Sifted tree file before id statement []
          (todo.foldl (stripChild (stripBelow file depth) file) state) := by
      intro todo
      induction todo with
      | nil => exact fun state _ _ sifted => sifted
      | cons child todo again =>
        intro state distinct inside sifted
        obtain ⟨fresh, others⟩ := List.nodup_cons.mp distinct
        have later : ∀ later ∈ todo, later ∈ statement.children :=
          fun later member => inside later (List.mem_cons_of_mem _ member)
        have member := inside child List.mem_cons_self
        refine again _ others later (sifted.stripChild formed traced found member fresh later ?_)
        intro inner current childAt agreesBelow
        have deeper := formed.depth_child found member
        apply ih current child inner childAt _ agreesBelow
        rwa [deeper, Nat.add_comm _ 1, ← Nat.add_assoc]
    have sifted := loop statement.children _ (formed.unrepeated found) (fun _ member => member)
      (.start formed traced found agrees)
    refine ⟨?_, ?_, sifted.outside, sifted.flag⟩
    · rw [sifted.here, leftover]
      simp
    · intro other under notHere
      obtain ⟨child, member, below⟩ := under.through_child found notHere
      exact sifted.done child member (by simp) other below

theorem removeFile_stripped (formed : tree.WellFormed) (traced : Traced tree.get?)
    {top : Statement} (topAt : tree.get? root = some top) :
    (tree.removeFile file).1.get? = tree.remnant file ∧
      (tree.removeFile file).2 = top.hasLocationIn file := by
  have stripped := @stripBelow_stripped tree file formed traced (tree.slots.size + 1) tree root top
    topAt (Nat.le_trans (Nat.le_succ _) (Nat.le_add_right _ _)) fun _ _ => rfl
  refine ⟨?_, stripped.flag⟩
  funext id
  by_cases isRoot : id = root
  · rw [isRoot, remnant_of_survives topAt (survives_root formed)]
    exact stripped.here
  · by_cases under : View.Under tree.get? root id
    · exact stripped.inner id under isRoot
    · have vacant : tree.get? id = none := by
        cases found : tree.get? id with
        | none => rfl
        | some statement => exact absurd (.of_live formed found) under
      rw [remnant_of_not_survives (by simp [survives, vacant])]
      exact (stripped.outside id under).trans vacant

end Walk

theorem Traced.seen_root {view : View} (traced : Traced view) (formed : view.WellFormed)
    {id : StatementId} {statement top : Statement} (found : view id = some statement)
    (topAt : view root = some top) {file : String} (seen : statement.hasLocationIn file = true) :
    top.hasLocationIn file = true := by
  refine formed.downward (fun _ statement => statement.hasLocationIn file = true →
    top.hasLocationIn file = true) ?_ ?_ found seen
  · intro statement found seen
    rw [topAt, Option.some.injEq] at found
    rwa [found]
  · intro id statement parent above found _ parentAt aboveAt climbs seen
    exact climbs (traced.seen_above found parentAt aboveAt seen)

section Remnant

variable {tree : ScopeTree} {file : String}

theorem remnant_wellFormed (formed : tree.WellFormed) (traced : Traced tree.get?) :
    (tree.remnant file).WellFormed := by
  have survivor {id : StatementId} {statement : Statement}
      (found : tree.get? id = some statement) (notRoot : id ≠ root)
      (alive : tree.survives file id = true) : ∃ parent above, statement.parent = some parent ∧
        tree.remnant file parent = some (tree.leftover file above) ∧ id ∈ above.children := by
    obtain ⟨parent, above, parentAt, aboveAt, member⟩ := formed.listed found notRoot
    exact ⟨parent, above, parentAt, remnant_of_survives aboveAt
      (survives_above traced found notRoot parentAt aboveAt alive), member⟩
  constructor
  · obtain ⟨top, topAt, topParent⟩ := formed.top
    exact ⟨_, remnant_of_survives topAt (survives_root formed), topParent⟩
  · intro id statement found notRoot
    obtain ⟨alive, before, beforeAt, rfl⟩ := remnant_eq_some.mp found
    obtain ⟨parent, above, parentAt, aboveAt, member⟩ := survivor beforeAt notRoot alive
    exact ⟨parent, _, parentAt, aboveAt, List.mem_filter.mpr ⟨member, alive⟩⟩
  · intro id statement child found member
    obtain ⟨_, before, beforeAt, rfl⟩ := remnant_eq_some.mp found
    obtain ⟨childMember, alive⟩ := List.mem_filter.mp member
    obtain ⟨below, belowAt, parentAt⟩ := formed.linked beforeAt childMember
    exact ⟨_, remnant_of_survives belowAt alive, parentAt⟩
  · intro id statement found
    obtain ⟨_, before, beforeAt, rfl⟩ := remnant_eq_some.mp found
    exact (formed.unrepeated beforeAt).filter _
  · intro id statement found
    obtain ⟨alive, before, beforeAt, rfl⟩ := remnant_eq_some.mp found
    refine formed.downward (fun id _ => tree.survives file id = true →
      ∃ depth, View.AtDepth (tree.remnant file) depth id) ?_ ?_ beforeAt alive
    · exact fun _ _ _ => ⟨0, .root⟩
    · intro id statement parent above found notRoot parentAt aboveAt climbs alive
      obtain ⟨depth, reached⟩ :=
        climbs (survives_above traced found notRoot parentAt aboveAt alive)
      exact ⟨depth + 1, .inner (remnant_of_survives found alive) parentAt reached⟩

theorem remnant_traced (traced : Traced tree.get?) : Traced (tree.remnant file) := by
  have still {statement : Statement} {other : String} (outside : Text.sameFolded other file = false)
      (seen : statement.hasLocationIn other = true) :
      (tree.leftover file statement).hasLocationIn other = true :=
    hasLocationIn_stripStatement.mpr ⟨seen, outside⟩
  constructor
  · intro statement found
    obtain ⟨_, before, beforeAt, rfl⟩ := remnant_eq_some.mp found
    simp [leftover, stripStatement, traced.top beforeAt, StatementKind.mapScope]
  · intro id statement found notRoot
    obtain ⟨alive, before, beforeAt, rfl⟩ := remnant_eq_some.mp found
    rw [survives_eq_of_ne_root beforeAt notRoot] at alive
    simpa [leftover] using alive
  · intro id parent statement above found parentAt aboveAt location member
    obtain ⟨_, before, beforeAt, rfl⟩ := remnant_eq_some.mp found
    obtain ⟨_, upper, upperAt, rfl⟩ := remnant_eq_some.mp aboveAt
    obtain ⟨member, outside⟩ := List.mem_filter.mp member
    exact still (by simpa [Location.inFile] using outside)
      (traced.upward beforeAt parentAt upperAt location member)
  · intro id statement found expression member
    obtain ⟨_, before, beforeAt, rfl⟩ := remnant_eq_some.mp found
    obtain ⟨member, outside⟩ := List.mem_filter.mp member
    exact still (by simpa [Location.inFile] using outside) (traced.content beforeAt expression member)
  · intro id statement scope found scopeAt facet member
    obtain ⟨_, before, beforeAt, rfl⟩ := remnant_eq_some.mp found
    obtain ⟨own, ownAt, rfl⟩ := scope?_stripStatement scopeAt
    obtain ⟨member, outside⟩ := List.mem_filter.mp member
    exact still (by simpa using outside) (traced.facets beforeAt ownAt facet member)
  · intro id statement scope found scopeAt location member
    obtain ⟨_, before, beforeAt, rfl⟩ := remnant_eq_some.mp found
    obtain ⟨own, ownAt, rfl⟩ := scope?_stripStatement scopeAt
    obtain ⟨member, outside⟩ := List.mem_filter.mp member
    obtain ⟨facet, facetMember, same⟩ := traced.spoken beforeAt ownAt location member
    refine ⟨facet, List.mem_filter.mpr ⟨facetMember, ?_⟩, same⟩
    rw [Text.sameFolded_congr_left same]
    exact outside

theorem get?_removeFile (formed : tree.WellFormed) (traced : Traced tree.get?) (file : String) :
    (tree.removeFile file).1.get? = tree.remnant file := by
  obtain ⟨top, topAt, _⟩ := formed.top
  exact (removeFile_stripped formed traced topAt).1

theorem removeFile_wellFormed (formed : tree.WellFormed) (traced : Traced tree.get?) :
    (tree.removeFile file).1.WellFormed := by
  rw [ScopeTree.WellFormed, get?_removeFile formed traced]
  exact remnant_wellFormed formed traced

theorem removeFile_traced (formed : tree.WellFormed) (traced : Traced tree.get?) :
    Traced (tree.removeFile file).1.get? := by
  rw [get?_removeFile formed traced]
  exact remnant_traced traced

theorem removeFile_changed (formed : tree.WellFormed) (traced : Traced tree.get?) :
    (tree.removeFile file).2 = true ↔
      ∃ id statement, tree.get? id = some statement ∧ statement.hasLocationIn file = true := by
  obtain ⟨top, topAt, _⟩ := formed.top
  rw [(removeFile_stripped formed traced topAt).2]
  constructor
  · exact fun seen => ⟨root, top, topAt, seen⟩
  · rintro ⟨id, statement, found, seen⟩
    exact traced.seen_root formed found topAt seen

end Remnant

end ScopeAtlas
