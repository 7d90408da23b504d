import ScopeAtlas.Proofs.MergeSteps
import ScopeAtlas.ScopeTree.Equality

/-!
Numbers do not matter to a merge. A tree and a wide copy of it hold the same statements, but the
copy has used up more numbers, so whatever is added later gets a larger number in the copy than in
the tree. Every step of a merge does the same to both. So merging one tree into both gives trees
that are equal but for the numbers, however much room the copy has left unused.
-/

namespace ScopeAtlas

namespace ScopeTree

def spread (start width : Nat) (id : StatementId) : StatementId :=
  if id < start then id else id + width

def renumber (number : StatementId → StatementId) (statement : Statement) : Statement :=
  { statement with
    parent := statement.parent.map number
    children := statement.children.map number }

/-- The wide tree is the tree with its numbers spread, also those it has not used yet. -/
structure Renumbered (start width : Nat) (tree wide : ScopeTree) : Prop where
  positive : root < start
  inside : start ≤ tree.nextId
  next : wide.nextId = tree.nextId + width
  same : ∀ id, wide.get? (spread start width id) =
    (tree.get? id).map (renumber (spread start width))

section Spread

variable {start width : Nat}

theorem spread_injective : Function.Injective (spread start width) := by
  intro first second same
  unfold spread at same
  by_cases left : first < start
  · by_cases right : second < start
    · simpa [left, right] using same
    · simp only [left, right, if_true, if_false] at same
      exact absurd (Nat.lt_of_le_of_lt (Nat.le_add_right second width) (same ▸ left)) right
  · by_cases right : second < start
    · simp only [left, right, if_true, if_false] at same
      exact absurd (Nat.lt_of_le_of_lt (Nat.le_add_right first width) (same ▸ right)) left
    · simpa [left, right] using same

theorem spread_of_lt {id : StatementId} (before : id < start) : spread start width id = id :=
  if_pos before

theorem spread_of_le {id : StatementId} (beyond : start ≤ id) :
    spread start width id = id + width :=
  if_neg (Nat.not_lt.mpr beyond)

theorem spread_bne (first second : StatementId) :
    (spread start width first != spread start width second) = (first != second) := by
  rw [Bool.eq_iff_iff, bne_iff_ne, bne_iff_ne, spread_injective.ne_iff]

end Spread

namespace Renumbered

variable {start width : Nat} {tree wide : ScopeTree}

theorem spread_root (alike : Renumbered start width tree wide) :
    spread start width root = root :=
  spread_of_lt alike.positive

theorem spread_nextId (alike : Renumbered start width tree wide) :
    spread start width tree.nextId = wide.nextId := by
  rw [spread_of_le alike.inside, alike.next]

/-! What is looked up in the wide tree is what is found in the tree, with spread numbers. -/

theorem get?_of_get? (alike : Renumbered start width tree wide) {id : StatementId}
    {statement : Statement} (found : tree.get? id = some statement) :
    wide.get? (spread start width id) = some (renumber (spread start width) statement) := by
  rw [alike.same, found]
  rfl

theorem isLive (alike : Renumbered start width tree wide) (id : StatementId) :
    wide.isLive (spread start width id) = tree.isLive id := by
  rw [ScopeTree.isLive, ScopeTree.isLive, alike.same, Option.isSome_map]

theorem children (alike : Renumbered start width tree wide) (id : StatementId) :
    wide.children (spread start width id) = (tree.children id).map (spread start width) := by
  rw [ScopeTree.children, ScopeTree.children, alike.same]
  cases tree.get? id with
  | none => rfl
  | some statement => rfl

theorem parent? (alike : Renumbered start width tree wide) (id : StatementId) :
    wide.parent? (spread start width id) = (tree.parent? id).map (spread start width) := by
  rw [ScopeTree.parent?, ScopeTree.parent?, alike.same]
  cases tree.get? id with
  | none => rfl
  | some statement => rfl

theorem scope? (alike : Renumbered start width tree wide) (id : StatementId) :
    wide.scope? (spread start width id) = tree.scope? id := by
  rw [ScopeTree.scope?, ScopeTree.scope?, alike.same]
  cases tree.get? id with
  | none => rfl
  | some statement => rfl

theorem isQualified (alike : Renumbered start width tree wide) (id : StatementId) :
    wide.isQualified (spread start width id) = tree.isQualified id := by
  rw [ScopeTree.isQualified, ScopeTree.isQualified, alike.scope?]

theorem partner? (alike : Renumbered start width tree wide) (target child : StatementId) :
    wide.partner? (spread start width target) (spread start width child) =
      (tree.partner? target child).map (spread start width) := by
  simp only [ScopeTree.partner?, alike.scope?]
  cases tree.scope? child with
  | none => rfl
  | some incoming =>
    simp only [alike.children, List.find?_map]
    congr 2
    funext candidate
    simp only [Function.comp, spread_bne, alike.scope?]

theorem containerChild? (alike : Renumbered start width tree wide) (scope : StatementId)
    (name : String) : wide.containerChild? (spread start width scope) name =
      (tree.containerChild? scope name).map (spread start width) := by
  simp only [ScopeTree.containerChild?, alike.children, List.find?_map]
  congr 2
  funext candidate
  simp only [Function.comp, alike.scope?]

theorem climb (alike : Renumbered start width tree wide) (bound : Nat) :
    ∀ from? : Option StatementId, wide.climb bound (from?.map (spread start width)) =
      (tree.climb bound from?).map (spread start width) := by
  induction bound with
  | zero => exact fun _ => rfl
  | succ bound ih =>
    intro from?
    cases from? with
    | none => rfl
    | some id =>
      simp only [Option.map_some, ScopeTree.climb, List.map_cons, alike.parent?, ih]

/-! Every change of the tree has its counterpart in the wide tree. -/

theorem modify (alike : Renumbered start width tree wide) {change other : Statement → Statement}
    (commutes : ∀ statement, other (renumber (spread start width) statement) =
      renumber (spread start width) (change statement)) (target : StatementId) :
    Renumbered start width (tree.modify target change)
      (wide.modify (spread start width target) other) := by
  refine ⟨alike.positive, by simpa using alike.inside, by simpa using alike.next, ?_⟩
  intro id
  rw [get?_modify, get?_modify, alike.same]
  by_cases here : target = id
  · subst here
    simp [commutes, Function.comp_def]
  · have apart : spread start width target ≠ spread start width id := spread_injective.ne here
    rw [if_neg here, if_neg apart]

theorem vacate (alike : Renumbered start width tree wide) (target : StatementId) :
    Renumbered start width (tree.vacate target) (wide.vacate (spread start width target)) := by
  refine ⟨alike.positive, by simpa using alike.inside, by simpa using alike.next, ?_⟩
  intro id
  rw [get?_vacate, get?_vacate, alike.same]
  by_cases here : target = id
  · subst here
    simp
  · have apart : spread start width target ≠ spread start width id := spread_injective.ne here
    rw [if_neg here, if_neg apart]

theorem attach (alike : Renumbered start width tree wide) (scope child : StatementId) :
    Renumbered start width (tree.attach scope child)
      (wide.attach (spread start width scope) (spread start width child)) := by
  refine modify (modify alike ?_ child) ?_ scope
  · exact fun _ => rfl
  · intro statement
    simp [renumber]

theorem store (alike : Renumbered start width tree wide) {statement : Statement}
    (bare : statement.children = []) :
    Renumbered start width (tree.store statement) (wide.store statement) := by
  refine ⟨alike.positive, ?_, ?_, ?_⟩
  · rw [nextId_store]
    exact Nat.le_succ_of_le alike.inside
  · rw [nextId_store, nextId_store, alike.next]
    exact Nat.add_right_comm _ _ _
  · intro id
    rw [get?_store, get?_store, ← alike.spread_nextId, alike.same]
    by_cases isNew : id = tree.nextId
    · simp [isNew, renumber, bare]
    · have apart : spread start width id ≠ spread start width tree.nextId :=
        spread_injective.ne isNew
      rw [if_neg isNew, if_neg apart]

theorem add (alike : Renumbered start width tree wide) (scope : StatementId)
    {statement : Statement} (bare : statement.children = []) :
    Renumbered start width (tree.add scope statement)
      (wide.add (spread start width scope) statement) := by
  rw [ScopeTree.add, ScopeTree.add, ← alike.spread_nextId]
  exact (alike.store bare).attach scope tree.nextId

theorem dropQualifier (alike : Renumbered start width tree wide) (child : StatementId) :
    Renumbered start width (tree.dropQualifier child)
      (wide.dropQualifier (spread start width child)) := by
  refine modify alike ?_ child
  exact fun _ => rfl

theorem enterSegment (alike : Renumbered start width tree wide) (scope : StatementId)
    (segment : Segment) (language : Language) :
    Renumbered start width (tree.enterSegment scope segment language).1
        (wide.enterSegment (spread start width scope) segment language).1 ∧
      (wide.enterSegment (spread start width scope) segment language).2 =
        spread start width (tree.enterSegment scope segment language).2 := by
  have counterpart := alike.containerChild? scope segment.name
  cases found : tree.containerChild? scope segment.name with
  | some existing =>
    rw [found] at counterpart
    rw [enterSegment_of_some found, enterSegment_of_some counterpart]
    refine ⟨modify alike ?_ existing, rfl⟩
    exact fun _ => rfl
  | none =>
    rw [found] at counterpart
    rw [enterSegment_of_none found, enterSegment_of_none counterpart]
    exact ⟨alike.add scope rfl, alike.spread_nextId.symm⟩

theorem enterSegments (alike : Renumbered start width tree wide) (scope : StatementId)
    (language : Language) (path : List Segment) :
    Renumbered start width (tree.enterSegments scope language path).1
        (wide.enterSegments (spread start width scope) language path).1 ∧
      (wide.enterSegments (spread start width scope) language path).2 =
        spread start width (tree.enterSegments scope language path).2 := by
  induction path generalizing tree wide scope with
  | nil => exact ⟨alike, rfl⟩
  | cons segment path ih =>
    obtain ⟨entered, inner⟩ := alike.enterSegment scope segment language
    simp only [ScopeTree.enterSegments]
    rw [inner]
    exact ih entered _

end Renumbered

section Climb

variable {tree : ScopeTree} {waiting : List StatementId}

theorem climb_settled (formed : (tree.settled waiting).WellFormed) (more bound : Nat) :
    ∀ {id statement}, tree.settled waiting id = some statement →
      View.depth (tree.settled waiting) id < bound →
      tree.climb (bound + more) (some id) = tree.climb bound (some id) := by
  induction bound with
  | zero => exact fun _ impossible => absurd impossible (Nat.not_lt_zero _)
  | succ bound ih =>
    intro id statement found high
    have parent : tree.parent? id = statement.parent := by
      rw [parent?, (settled_eq_some.mp found).2, Option.bind_some]
    have none (bound : Nat) : tree.climb bound none = [] := by
      cases bound with
      | zero => rfl
      | succ bound => rfl
    rw [Nat.add_right_comm, climb, climb, parent]
    by_cases isRoot : id = root
    · obtain ⟨top, topAt, topParent⟩ := formed.top
      rw [isRoot, topAt, Option.some.injEq] at found
      rw [← found, topParent, none, none]
    · obtain ⟨parent, above, parentAt, aboveAt, member⟩ := formed.listed found isRoot
      have deeper := formed.depth_child aboveAt member
      rw [parentAt, ih aboveAt (by omega)]

end Climb

namespace Renumbered

variable {start width : Nat} {tree wide : ScopeTree}

theorem lineage (alike : Renumbered start width tree wide) {waiting : List StatementId}
    (formed : (tree.settled waiting).WellFormed) {target : StatementId} {statement : Statement}
    (targetAt : tree.settled waiting target = some statement) :
    wide.lineage (spread start width target) = (tree.lineage target).map (spread start width) := by
  have bounded : ∀ id, (tree.settled waiting id).isSome → id < tree.climbBound := by
    intro id present
    obtain ⟨own, ownAt⟩ := Option.isSome_iff_exists.mp present
    exact Nat.lt_succ_of_lt (lt_nextId_of_get? (settled_eq_some.mp ownAt).2)
  have wider : wide.climbBound = tree.climbBound + width := by
    have next := alike.next
    simp only [nextId] at next
    simp only [climbBound, next]
    omega
  have live : tree.isLive target = true := by
    simp [ScopeTree.isLive, (settled_eq_some.mp targetAt).2]
  rw [ScopeTree.lineage, ScopeTree.lineage, alike.isLive, if_pos live, if_pos live, wider,
    ← climb_settled formed width tree.climbBound targetAt (formed.depth_lt bounded targetAt)]
  exact alike.climb _ (some target)

theorem pathStart (alike : Renumbered start width tree wide) {waiting : List StatementId}
    (formed : (tree.settled waiting).WellFormed) {target : StatementId} {statement : Statement}
    (targetAt : tree.settled waiting target = some statement) (path : List Segment) :
    wide.pathStart (spread start width target) path =
      spread start width (tree.pathStart target path) := by
  cases path with
  | nil => rfl
  | cons first rest =>
    simp only [ScopeTree.pathStart, qualifierStart, alike.lineage formed targetAt, List.find?_map,
      Function.comp_def, alike.containerChild?, Option.isSome_map]
    cases (tree.lineage target).find? fun level =>
      (tree.containerChild? level first.name).isSome with
    | none => rfl
    | some level => rfl

end Renumbered

end ScopeTree

open ScopeTree

/-- Two ways to place statements do the same to a tree and to its wide copy. -/
def PlacesAlike (start width : Nat) (rank : StatementId → Nat) (bound depth : Nat)
    (placer widePlacer : ScopeTree → StatementId → List StatementId → ScopeTree) : Prop :=
  ∀ tree wide target children rest waiting, Renumbered start width tree wide →
    Layout ⟨tree, errands target children ++ rest, waiting⟩ → Ranked rank bound tree waiting →
    (∀ child ∈ children, bound ≤ depth + rank child) →
    Renumbered start width (placer tree target children)
      (widePlacer wide (spread start width target) (children.map (spread start width)))

section Alike

variable {start width : Nat} {rank : StatementId → Nat} {bound depth : Nat}
  {tree wide : ScopeTree} {rest : List Errand} {waiting : List StatementId}
  {placer widePlacer : ScopeTree → StatementId → List StatementId → ScopeTree}

theorem PlacesAlike.descend (places : PlacesAlike start width rank bound depth placer widePlacer)
    {scope target child : StatementId} {statement : Statement} {changed wideChanged : ScopeTree}
    (alike : Renumbered start width changed wideChanged)
    (layout : Layout ⟨tree, ⟨scope, [], child⟩ :: rest, waiting⟩)
    (ranked : Ranked rank bound tree waiting) (found : tree.get? child = some statement)
    (enough : bound ≤ depth + 1 + rank child)
    (step : Step ⟨tree, ⟨scope, [], child⟩ :: rest, waiting⟩
      ⟨changed, errands target statement.children ++ rest, waiting.erase child⟩)
    (kept : ∀ id ∈ waiting.erase child, changed.get? id = tree.get? id) :
    Renumbered start width (placer changed target statement.children)
      (widePlacer wideChanged (spread start width target)
        (statement.children.map (spread start width))) := by
  refine places changed wideChanged target statement.children rest (waiting.erase child) alike
    (step.layout layout)
    (ranked.after fun id member => ⟨List.mem_of_mem_erase member, kept id member⟩) ?_
  intro grandchild member
  rw [← children_of_get? found] at member
  have lower := ranked.inner child layout.head_waits grandchild member
  omega

theorem placeChild_renumbered
    (places : PlacesAlike start width rank bound depth placer widePlacer)
    (alike : Renumbered start width tree wide) {scope child : StatementId}
    (layout : Layout ⟨tree, ⟨scope, [], child⟩ :: rest, waiting⟩)
    (ranked : Ranked rank bound tree waiting) (plain : tree.isQualified child = false)
    (enough : bound ≤ depth + 1 + rank child) :
    Renumbered start width (placeChild placer tree scope child)
      (placeChild widePlacer wide (spread start width scope) (spread start width child)) := by
  obtain ⟨statement, found⟩ := layout.live child layout.head_waits
  obtain ⟨scopeFree, _⟩ := layout.head_settled
  unfold placeChild
  rw [alike.partner?]
  cases partner : tree.partner? scope child with
  | some existing =>
    obtain ⟨free, _⟩ := layout.child_settled scopeFree (partner?_eq_some partner).1
    have different : existing ≠ child := by
      rintro rfl
      exact free layout.head_waits
    have wideDifferent := (@spread_injective start width).ne different
    simp only [Option.map_some, foldInto, if_neg different, if_neg wideDifferent, found,
      alike.get?_of_get? found]
    refine places.descend ?_ layout ranked found enough (.fold partner found plain)
      fun id member => get?_fold_waiting layout.distinct free member _
    refine (alike.vacate child).modify ?_ existing
    exact fun _ => rfl
  | none =>
    simp only [Option.map_none, found, alike.get?_of_get? found]
    refine places.descend ?_ layout ranked found enough (.hang partner found plain)
      fun id member => get?_hang_waiting layout.distinct scopeFree member
    refine (alike.modify ?_ child).attach scope child
    exact fun _ => rfl

theorem placeEntered_renumbered
    (places : PlacesAlike start width rank bound depth placer widePlacer)
    (alike : Renumbered start width tree wide) {begin child : StatementId} {path : List Segment}
    (language : Language) (arrived : Layout ⟨tree, ⟨begin, path, child⟩ :: rest, waiting⟩)
    (ranked : Ranked rank bound tree waiting) (plain : tree.isQualified child = false)
    (enough : bound ≤ depth + 1 + rank child) :
    Renumbered start width
      (placeChild placer (tree.enterSegments begin language path).1
        (tree.enterSegments begin language path).2 child)
      (placeChild widePlacer (wide.enterSegments (spread start width begin) language path).1
        (wide.enterSegments (spread start width begin) language path).2
        (spread start width child)) := by
  obtain ⟨entering, kept⟩ := enterSegments_run language arrived
  obtain ⟨alikeEntered, sameScope⟩ := alike.enterSegments begin language path
  have plainEntered : (tree.enterSegments begin language path).1.isQualified child = false := by
    rw [isQualified_congr (kept child arrived.head_waits), plain]
  rw [sameScope]
  exact placeChild_renumbered places alikeEntered (entering.layout arrived)
    (ranked.after fun id member => ⟨member, kept id member⟩) plainEntered enough

theorem placeQualified_renumbered
    (places : PlacesAlike start width rank bound depth placer widePlacer)
    (alike : Renumbered start width tree wide) {scope child : StatementId}
    (layout : Layout ⟨tree, ⟨scope, [], child⟩ :: rest, waiting⟩)
    (ranked : Ranked rank bound tree waiting) (enough : bound ≤ depth + 1 + rank child) :
    Renumbered start width (placeQualified placer tree scope child)
      (placeQualified widePlacer wide (spread start width scope) (spread start width child)) := by
  unfold placeQualified
  rw [alike.scope?]
  cases pendingQualifier : (tree.scope? child).bind NamedScope.qualifier with
  | none =>
    have plain : tree.isQualified child = false := by
      rw [isQualified_eq, pendingQualifier]
      rfl
    exact placeChild_renumbered places alike layout ranked plain enough
  | some qualifier =>
    have step : Step ⟨tree, ⟨scope, [], child⟩ :: rest, waiting⟩ _ := .free pendingQualifier
    have freed := step.layout layout
    have alikeFreed := alike.dropQualifier child
    have plain := @isQualified_dropQualifier tree child
    have rankedFreed := ranked.dropQualifier child
    obtain ⟨statement, targetAt⟩ := layout.targets _ List.mem_cons_self
    have targetFreed : (tree.dropQualifier child).settled waiting scope = some statement := by
      rw [settled_dropQualifier layout.head_waits]
      exact targetAt
    simp only
    cases path : qualifier.segments with
    | nil =>
      rw [path] at freed
      exact placeChild_renumbered places alikeFreed freed rankedFreed plain enough
    | cons first others =>
      rw [path] at freed
      have sameLanguage :
          ((wide.dropQualifier (spread start width child)).get? (spread start width child)).map
            Statement.language = ((tree.dropQualifier child).get? child).map Statement.language := by
        rw [alikeFreed.same, Option.map_map]
        rfl
      have begins := alikeFreed.pathStart freed.formed targetFreed (first :: others)
      simp only [pathStart] at begins
      simp only [sameLanguage, begins]
      exact placeEntered_renumbered places alikeFreed _ freed rankedFreed plain enough

theorem foldl_renumbered {place widePlace : ScopeTree → StatementId → ScopeTree}
    {target : StatementId} (ready : ScopeTree → StatementId → Prop)
    (stable : ∀ before after id, after.get? id = before.get? id → ready before id → ready after id)
    (each : ∀ tree wide child rest waiting, Renumbered start width tree wide →
      Layout ⟨tree, ⟨target, [], child⟩ :: rest, waiting⟩ → Ranked rank bound tree waiting →
      ready tree child → bound ≤ depth + 1 + rank child →
      Processed tree [⟨target, [], child⟩] rest waiting (place tree child) ∧
        Renumbered start width (place tree child) (widePlace wide (spread start width child)))
    (children : List StatementId) :
    ∀ tree wide rest waiting, Renumbered start width tree wide →
      Layout ⟨tree, errands target children ++ rest, waiting⟩ → Ranked rank bound tree waiting →
      (∀ child ∈ children, ready tree child ∧ bound ≤ depth + 1 + rank child) →
      Renumbered start width (children.foldl place tree)
        ((children.map (spread start width)).foldl widePlace wide) := by
  induction children with
  | nil => exact fun tree wide rest waiting alike _ _ _ => alike
  | cons child others ih =>
    intro tree wide rest waiting alike layout ranked enough
    have first := enough child List.mem_cons_self
    obtain ⟨⟨left, run, kept⟩, alikeNext⟩ :=
      each tree wide child _ waiting alike layout ranked first.1 first.2
    have layoutNext := run.layout layout
    have rankedNext := ranked.after fun id member => ⟨(kept id member).1, (kept id member).2.2⟩
    refine ih _ _ rest left alikeNext layoutNext rankedNext ?_
    intro later member
    have brought : (⟨target, [], later⟩ : Errand) ∈ errands target others ++ rest :=
      List.mem_append_left _ (List.mem_map.mpr ⟨later, member, rfl⟩)
    have waits : later ∈ left := layoutNext.child_waits brought
    obtain ⟨readyBefore, enoughLater⟩ := enough later (List.mem_cons_of_mem _ member)
    exact ⟨stable tree _ later (kept later waits).2.2 readyBefore, enoughLater⟩

theorem placeAll_alike (more depth : Nat) :
    PlacesAlike start width rank bound depth (placeAll depth) (placeAll (depth + more)) := by
  induction depth with
  | zero =>
    intro tree wide target children rest waiting alike layout ranked enough
    cases children with
    | nil =>
      cases more with
      | zero => exact alike
      | succ more => exact alike
    | cons child others =>
      have waits : child ∈ waiting := layout.head_waits
      have below := ranked.below child waits
      have reached := enough child List.mem_cons_self
      omega
  | succ depth ih =>
    intro tree wide target children rest waiting alike layout ranked enough
    have places : Places rank bound depth (placeAll depth) := placeAll_places depth
    have sorted := errands_sorted tree target children
    have layoutSorted := (Step.reorder (sorted.append_right rest)).layout layout
    rw [List.append_assoc] at layoutSorted
    have plainReady : ∀ child ∈ children.filter fun child => !tree.isQualified child,
        tree.isQualified child = false ∧ bound ≤ depth + 1 + rank child := by
      intro child member
      have kept := List.mem_filter.mp member
      exact ⟨by simpa using kept.2, enough child kept.1⟩
    have stable : ∀ (before after : ScopeTree) (id : StatementId),
        after.get? id = before.get? id → before.isQualified id = false →
          after.isQualified id = false := by
      intro before after id same plain
      rw [isQualified_congr same, plain]
    have plainAlike := foldl_renumbered (fun tree child => tree.isQualified child = false) stable
      (fun tree wide child rest waiting alike layout ranked plain enough =>
        ⟨placeChild_processed places layout ranked plain enough,
          placeChild_renumbered ih alike layout ranked plain enough⟩)
      _ tree wide _ waiting alike layoutSorted ranked plainReady
    obtain ⟨left, run, kept⟩ := foldl_processed (fun tree child => tree.isQualified child = false)
      stable (fun tree child rest waiting layout ranked plain enough =>
        placeChild_processed places layout ranked plain enough)
      _ tree _ waiting layoutSorted ranked plainReady
    have rankedNext := ranked.after fun id member => ⟨(kept id member).1, (kept id member).2.2⟩
    rw [Nat.add_right_comm]
    unfold placeAll
    simp only [List.filter_map, Function.comp_def, alike.isQualified]
    exact foldl_renumbered (fun _ _ => True) (fun _ _ _ _ _ => trivial)
      (fun tree wide child rest waiting alike layout ranked _ enough =>
        ⟨placeQualified_processed places layout ranked enough,
          placeQualified_renumbered ih alike layout ranked enough⟩)
      _ _ _ rest left plainAlike (run.layout layoutSorted) rankedNext
      fun child member => ⟨trivial, enough child (List.mem_filter.mp member).1⟩

end Alike

section Merge

variable {tree wide other : ScopeTree} {width : Nat}

theorem shiftStatement_wide (start width : Nat) (statement : Statement) :
    shiftStatement (start + width) statement =
      renumber (spread start width) (shiftStatement start statement) := by
  have raised : ∀ id : StatementId, spread start width (id + start) = id + (start + width) := by
    intro id
    rw [spread_of_le (Nat.le_add_left _ _), Nat.add_assoc]
  simp [shiftStatement, renumber, Function.comp_def, raised]

theorem renumber_of_get? (formed : tree.WellFormed) {id : StatementId} {statement : Statement}
    (found : tree.get? id = some statement) :
    renumber (spread tree.nextId width) statement = statement := by
  have below : statement.children.map (spread tree.nextId width) = statement.children := by
    conv_rhs => rw [← List.map_id statement.children]
    apply List.map_congr_left
    intro child member
    obtain ⟨inner, innerAt, _⟩ := formed.linked found member
    exact spread_of_lt (lt_nextId_of_get? innerAt)
  have above : statement.parent.map (spread tree.nextId width) = statement.parent := by
    by_cases isRoot : id = root
    · obtain ⟨top, topAt, topParent⟩ := formed.top
      rw [isRoot, topAt, Option.some.injEq] at found
      rw [← found, topParent]
      rfl
    · obtain ⟨parent, outer, parentAt, outerAt, _⟩ := formed.listed found isRoot
      rw [parentAt, Option.map_some, spread_of_lt (lt_nextId_of_get? outerAt)]
  rw [renumber, below, above]

theorem append_renumbered (formed : tree.WellFormed) (same : wide.get? = tree.get?)
    (next : wide.nextId = tree.nextId + width) (other : ScopeTree) :
    Renumbered tree.nextId width (tree.append other) (wide.append other) := by
  refine ⟨root_lt_nextId formed, by simp, ?_, ?_⟩
  · rw [nextId_append, nextId_append, next]
    exact Nat.add_right_comm _ _ _
  · intro id
    rw [get?_append, get?_append, next]
    by_cases own : id < tree.nextId
    · rw [spread_of_lt own, if_pos own, if_pos (Nat.lt_add_right width own), same]
      cases found : tree.get? id with
      | none => rfl
      | some statement => rw [Option.map_some, renumber_of_get? formed found]
    · have beyond := Nat.le_of_not_lt own
      have wideBeyond : ¬id + width < tree.nextId + width := fun inside =>
        own (Nat.lt_of_add_lt_add_right inside)
      rw [spread_of_le beyond, if_neg own, if_neg wideBeyond, Nat.add_sub_add_right,
        Option.map_map]
      congr 1
      funext statement
      exact shiftStatement_wide _ _ _

/-- Merging a tree does the same to a tree and to its wide copy. -/
theorem merge_renumbered (formed : tree.WellFormed) (same : wide.get? = tree.get?)
    (next : wide.nextId = tree.nextId + width) (otherFormed : other.WellFormed) :
    Renumbered tree.nextId width (tree.merge other) (wide.merge other) := by
  have wideFormed : wide.WellFormed := by
    rw [ScopeTree.WellFormed, same]
    exact formed
  obtain ⟨top, topAt, _⟩ := otherFormed.top
  have joined := append_renumbered formed same next other
  have first : Renumbered tree.nextId width (firstStage tree other top).tree
      (firstStage wide other top).tree := by
    have vacated := joined.vacate tree.nextId
    rw [spread_of_le (Nat.le_refl _), ← next] at vacated
    have folded : Renumbered tree.nextId width (firstStage tree other top).tree
        (((wide.append other).vacate wide.nextId).modify (spread tree.nextId width root)
          fun own => absorbStatement own (shiftStatement wide.nextId top)) := by
      refine vacated.modify ?_ root
      exact fun _ => rfl
    rwa [joined.spread_root] at folded
  have placed := placeAll_alike width ((tree.append other).nextId + 1) _ _ root
    (shiftStatement tree.nextId top).children [] (firstStage tree other top).waiting first
    (by rw [List.append_nil]; exact firstStage_layout formed otherFormed topAt)
    (firstStage_ranked formed otherFormed top)
    (fun child _ => Nat.le_trans (Nat.le_succ _) (Nat.le_add_right _ _))
  have depths : (tree.append other).nextId + 1 + width = (wide.append other).nextId + 1 := by
    rw [joined.next]
    exact Nat.add_right_comm _ _ _
  have sameChildren : (shiftStatement tree.nextId top).children.map (spread tree.nextId width) =
      (shiftStatement wide.nextId top).children := by
    rw [next, shiftStatement_wide]
    rfl
  rw [joined.spread_root, depths, sameChildren] at placed
  rw [merge_eq formed topAt, merge_eq wideFormed topAt]
  exact placed

end Merge

theorem ScopeTree.Renumbered.equivalent {start width : Nat} {tree wide : ScopeTree}
    (alike : Renumbered start width tree wide) (formed : tree.WellFormed) :
    wide.equivalent tree = true := by
  have levels : ∀ (depth : Nat) (id : StatementId) (statement : Statement),
      tree.get? id = some statement → tree.nextId ≤ depth + View.depth tree.get? id →
      equalBelow wide tree depth (spread start width id) id = true := by
    intro depth
    induction depth with
    | zero =>
      intro id statement found enough
      rw [Nat.zero_add] at enough
      exact absurd (formed.depth_lt found) (Nat.not_lt.mpr enough)
    | succ depth ih =>
      intro id statement found enough
      simp only [equalBelow, alike.get?_of_get? found, found, sameStatement, renumber,
        beq_self_eq_true, Bool.and_self, Bool.true_and, List.length_map, List.all_eq_true]
      rintro pair member
      rw [List.zip_map_left, List.zip, List.zipWith_self, List.map_map] at member
      obtain ⟨child, childMember, rfl⟩ := List.mem_map.mp member
      obtain ⟨below, belowAt, _⟩ := formed.linked found childMember
      apply ih child below belowAt
      rwa [formed.depth_child found childMember, Nat.add_comm _ 1, ← Nat.add_assoc]
  obtain ⟨top, topAt, _⟩ := formed.top
  have enough : tree.nextId ≤ wide.slots.size + 1 :=
    Nat.le_succ_of_le (Nat.le.intro alike.next.symm)
  have whole := levels _ root top topAt (Nat.le_trans enough (Nat.le_add_right _ _))
  rwa [alike.spread_root] at whole

end ScopeAtlas
