import ScopeAtlas.Proofs.InventoryLookup
import ScopeAtlas.Proofs.Replacement

/-!
The number of a statement is a handle that callers may keep. However often trees are merged in and
files are taken out, a number that was given to a statement means that statement, at the same place
and with the same name, until the statement goes; after that it means nothing. Children only ever
leave a list or arrive at its end.
-/

namespace ScopeAtlas

open Markup ScopeTree SourceUnit

/-- What a tree keeps of an earlier one: who is still there is where it was and what it was, and
empty slots stay empty. -/
structure Persists (before after : ScopeTree) : Prop where
  next : before.nextId ≤ after.nextId
  survivor : ∀ {id earlier later}, before.get? id = some earlier → after.get? id = some later →
    later.parent = earlier.parent ∧ later.kind.bare = earlier.kind.bare ∧
    ∃ newer, later.children = earlier.children.filter after.isLive ++ newer ∧
      ∀ child ∈ newer, before.nextId ≤ child
  vacant : ∀ {id}, id < before.nextId → before.get? id = none → after.get? id = none

section Persistence

variable {before after : ScopeTree}

theorem Persists.refl (formed : before.WellFormed) : Persists before before := by
  refine ⟨Nat.le_refl _, ?_, fun _ vacant => vacant⟩
  intro id earlier later earlierAt laterAt
  obtain rfl : earlier = later := Option.some.inj (earlierAt.symm.trans laterAt)
  exact ⟨rfl, rfl, [], by rw [formed.filter_isLive_children earlierAt, List.append_nil], by simp⟩

theorem Persists.live_between {middle : ScopeTree} (second : Persists middle after)
    (grown : before.nextId ≤ middle.nextId) {id : StatementId} {earlier later : Statement}
    (earlierAt : before.get? id = some earlier) (laterAt : after.get? id = some later) :
    ∃ between, middle.get? id = some between := by
  cases betweenAt : middle.get? id with
  | some between => exact ⟨between, rfl⟩
  | none =>
    have gone := second.vacant (Nat.lt_of_lt_of_le (lt_nextId_of_get? earlierAt) grown) betweenAt
    simp [gone] at laterAt

theorem Persists.trans (formed : before.WellFormed) {middle : ScopeTree}
    (first : Persists before middle) (second : Persists middle after) : Persists before after := by
  refine ⟨Nat.le_trans first.next second.next, ?_, ?_⟩
  · intro id earlier later earlierAt laterAt
    obtain ⟨between, betweenAt⟩ := second.live_between first.next earlierAt laterAt
    obtain ⟨firstParent, firstKind, arrived, betweenChildren, arrivedNew⟩ :=
      first.survivor earlierAt betweenAt
    obtain ⟨secondParent, secondKind, added, laterChildren, addedNew⟩ :=
      second.survivor betweenAt laterAt
    refine ⟨secondParent.trans firstParent, secondKind.trans firstKind,
      arrived.filter after.isLive ++ added, ?_, ?_⟩
    · have twice : (earlier.children.filter middle.isLive).filter after.isLive =
          earlier.children.filter after.isLive := by
        rw [List.filter_filter]
        refine List.filter_congr fun child member => ?_
        obtain ⟨below, belowAt, _⟩ := formed.linked earlierAt member
        cases lastAt : after.get? child with
        | none => simp [isLive, lastAt]
        | some last =>
          obtain ⟨inner, innerAt⟩ := second.live_between first.next belowAt lastAt
          simp [isLive, lastAt, innerAt]
      rw [laterChildren, betweenChildren, List.filter_append, twice, List.append_assoc]
    · intro child member
      rcases List.mem_append.mp member with old | new
      · exact arrivedNew child (List.mem_of_mem_filter old)
      · exact Nat.le_trans first.next (addedNew child new)
  · intro id inside vacant
    exact second.vacant (Nat.lt_of_lt_of_le inside first.next) (first.vacant inside vacant)

end Persistence

section Removal

variable {tree : ScopeTree}

theorem persists_modify (formed : tree.WellFormed) (id : StatementId)
    {change : Statement → Statement} (keeps : View.KeepsLinks change)
    (kind : ∀ statement, (change statement).kind.bare = statement.kind.bare) :
    Persists tree (tree.modify id change) := by
  have sameLive : (tree.modify id change).isLive = tree.isLive := by
    funext other
    rw [isLive, isLive, get?_modify]
    split
    · exact Option.isSome_map
    · rfl
  refine ⟨Nat.le_of_eq (nextId_modify tree id change).symm, ?_, ?_⟩
  · intro other earlier later earlierAt laterAt
    have children := formed.filter_isLive_children earlierAt
    rw [get?_modify, earlierAt, Option.map_some] at laterAt
    rw [sameLive, children]
    split at laterAt
    · obtain rfl := Option.some.inj laterAt
      exact ⟨keeps.parent earlier, kind earlier, [], by rw [keeps.children, List.append_nil], by simp⟩
    · obtain rfl := Option.some.inj laterAt
      exact ⟨rfl, rfl, [], by rw [List.append_nil], by simp⟩
  · intro other _ vacant
    simp [get?_modify, vacant]

theorem persists_removeSubtree (formed : tree.WellFormed) (top : StatementId) :
    Persists tree (tree.removeSubtree top) := by
  have slots : tree.nextId ≤ (tree.removeSubtree top).nextId :=
    Nat.le_of_eq (nextId_removeSubtree tree top).symm
  by_cases isRoot : top = root
  · rw [removeSubtree, if_pos isRoot]
    exact .refl formed
  · cases topAt : tree.get? top with
    | none =>
      have same := get?_removeSubtree_dead topAt
      have sameLive : (tree.removeSubtree top).isLive = tree.isLive := by
        funext id
        simp [isLive, same]
      have alike := Persists.refl formed
      refine ⟨slots, ?_, ?_⟩
      · rw [sameLive, same]
        exact alike.survivor
      · rw [same]
        exact alike.vacant
    | some statement =>
      have pruned := get?_removeSubtree_live formed topAt isRoot
      refine ⟨slots, ?_, ?_⟩
      · intro id earlier later earlierAt laterAt
        rw [pruned, View.prune_eq_some] at laterAt
        obtain ⟨outside, own, ownAt, rfl⟩ := laterAt
        obtain rfl : earlier = own := Option.some.inj (earlierAt.symm.trans ownAt)
        refine ⟨rfl, rfl, [], ?_, by simp⟩
        rw [List.append_nil]
        refine List.filter_congr fun child member => ?_
        obtain ⟨below, belowAt, parentAt⟩ := formed.linked earlierAt member
        by_cases isTop : child = top
        · subst isTop
          have under : View.Under tree.get? child child := .self
          simp [isLive, pruned, View.prune, under]
        · have apart : ¬View.Under tree.get? top child := by
            intro under
            rcases under.eq_or_parent formed belowAt parentAt with same | upper
            · exact isTop same
            · exact outside upper
          simp [isLive, pruned, View.prune_of_not_under apart belowAt, isTop]
      · intro id _ vacant
        rw [pruned, View.prune, vacant]
        split
        · rfl
        · rfl

theorem bare_stripStatement (file : String) (statement : Statement) :
    (stripStatement file statement).kind.bare = statement.kind.bare := by
  cases kind : statement.kind <;>
    simp [stripStatement, kind, StatementKind.bare, StatementKind.mapScope, NamedScope.withoutFile]

theorem persists_removeFile (formed : tree.WellFormed) (file : String) :
    Persists tree (tree.removeFile file).1 := by
  refine (stripBelow_induction
    (fun before after => before.WellFormed → after.WellFormed ∧ Persists before after)
    (fun _ kept => ⟨kept, .refl kept⟩) ?_ ?_ ?_ _ tree root formed).2
  · intro first second third toSecond toThird kept
    obtain ⟨secondFormed, firstPart⟩ := toSecond kept
    obtain ⟨thirdFormed, secondPart⟩ := toThird secondFormed
    exact ⟨thirdFormed, firstPart.trans kept secondPart⟩
  · intro current id kept
    have keeps := keepsLinks_stripStatement file
    exact ⟨kept.modify id keeps, persists_modify kept id keeps (bare_stripStatement file)⟩
  · exact fun current id kept => ⟨kept.removeSubtree id, persists_removeSubtree kept id⟩

end Removal

structure Grown (tree : ScopeTree) (view : View) : Prop where
  kept : ∀ {id earlier}, tree.get? id = some earlier → ∃ later newer, view id = some later ∧
    later.parent = earlier.parent ∧ later.kind.bare = earlier.kind.bare ∧
    later.children = earlier.children ++ newer ∧ ∀ child ∈ newer, tree.nextId ≤ child
  vacant : ∀ {id}, id < tree.nextId → tree.get? id = none → view id = none

section Merging

variable {tree other : ScopeTree} {view : View}

theorem Grown.enrich (grown : Grown tree view) {target : StatementId}
    {change : Statement → Statement} (keeps : View.KeepsLinks change)
    (kind : ∀ statement, (change statement).kind.bare = statement.kind.bare) :
    Grown tree (view.enrich target change) := by
  constructor
  · intro id earlier earlierAt
    obtain ⟨later, newer, laterAt, parent, sameKind, children, new⟩ := grown.kept earlierAt
    by_cases isTarget : id = target
    · subst isTarget
      exact ⟨change later, newer, View.enrich_self laterAt, (keeps.parent later).trans parent,
        (kind later).trans sameKind, (keeps.children later).trans children, new⟩
    · exact ⟨later, newer, (View.enrich_other isTarget).trans laterAt, parent, sameKind, children,
        new⟩
  · intro id inside vacant
    simp [View.enrich, grown.vacant inside vacant]

theorem Grown.grow (grown : Grown tree view) {id parent : StatementId} {leaf : Statement}
    (new : tree.nextId ≤ id) : Grown tree (view.grow id parent leaf) := by
  have notLeaf {old : StatementId} (inside : old < tree.nextId) : old ≠ id := by
    rintro rfl
    exact Nat.not_lt.mpr new inside
  constructor
  · intro old earlier earlierAt
    obtain ⟨later, newer, laterAt, sameParent, sameKind, children, newerNew⟩ := grown.kept earlierAt
    have different := notLeaf (lt_nextId_of_get? earlierAt)
    by_cases isParent : old = parent
    · subst isParent
      refine ⟨_, newer ++ [id], View.grow_parent laterAt different, sameParent, sameKind, ?_, ?_⟩
      · rw [children, List.append_assoc]
      · intro child member
        rcases List.mem_append.mp member with before | last
        · exact newerNew child before
        · rwa [List.mem_singleton.mp last]
    · exact ⟨later, newer, (View.grow_other different isParent).trans laterAt, sameParent, sameKind,
        children, newerNew⟩
  · intro old inside vacant
    have emptyBefore := grown.vacant inside vacant
    rw [View.grow, if_neg (notLeaf inside), emptyBefore]
    simp

theorem bare_markWith (segment : Segment) (statement : Statement) :
    (markWith segment statement).kind.bare = statement.kind.bare := by
  cases kind : statement.kind <;>
    simp [markWith, kind, StatementKind.bare, StatementKind.mapScope, NamedScope.addFacet]

theorem bare_absorbStatement (statement incoming : Statement) :
    (absorbStatement statement incoming).kind.bare = statement.kind.bare := by
  cases kind : statement.kind with
  | named scope =>
    cases incomingKind : incoming.kind with
    | named added =>
      simp [absorbStatement, kind, incomingKind, StatementKind.bare, StatementKind.mapScope,
        NamedScope.absorb]
    | _ => simp [absorbStatement, kind, incomingKind]
  | _ => simp [absorbStatement, kind]

theorem Grown.effect {stage : Stage} {after : View}
    (grown : Grown tree (stage.tree.settled stage.waiting)) (beyond : Beyond tree.nextId stage)
    (effect : Effect stage after) : Grown tree after := by
  cases effect with
  | none => exact grown
  | @marked _ segment _ _ _ _ =>
    exact grown.enrich (keepsLinks_markWith segment) (bare_markWith segment)
  | sprouted _ _ => exact grown.grow beyond.next
  | @absorbed _ _ _ statement _ _ _ =>
    exact grown.enrich (keepsLinks_absorb statement) fun own => bare_absorbStatement own statement
  | hung waits _ => exact grown.grow (beyond.waiting _ waits)

theorem Run.grown {stage last : Stage} (run : Run stage last) (layout : Layout stage)
    (beyond : Beyond tree.nextId stage)
    (grown : Grown tree (stage.tree.settled stage.waiting)) :
    Grown tree (last.tree.settled last.waiting) := by
  induction run with
  | refl => exact grown
  | tail run step ih => exact ih.effect (Run.beyond run beyond) (step.effect (Run.layout run layout))

theorem merge_grown (formed : tree.WellFormed) (otherFormed : other.WellFormed) :
    Grown tree (tree.merge other).get? := by
  obtain ⟨top, topAt, _⟩ := otherFormed.top
  have start : Grown tree tree.get? := by
    refine ⟨?_, fun _ vacant => vacant⟩
    exact fun {_ earlier} earlierAt => ⟨earlier, [], earlierAt, rfl, rfl, by simp, by simp⟩
  have grown := (merge_run formed otherFormed topAt).grown
    (firstStage_layout formed otherFormed topAt) (firstStage_beyond tree other top) (by
      rw [firstStage_settled formed top]
      exact start.enrich (keepsLinks_absorb _) fun own => bare_absorbStatement own _)
  rwa [settled_nil] at grown

theorem persists_merge (formed : tree.WellFormed) (otherFormed : other.WellFormed) :
    Persists tree (tree.merge other) := by
  have grown := merge_grown formed otherFormed
  refine ⟨nextId_le_merge formed otherFormed, ?_, grown.vacant⟩
  intro id earlier later earlierAt laterAt
  obtain ⟨now, newer, nowAt, parent, kind, children, new⟩ := grown.kept earlierAt
  obtain rfl : now = later := Option.some.inj (nowAt.symm.trans laterAt)
  refine ⟨parent, kind, newer, ?_, new⟩
  have all : earlier.children.filter (tree.merge other).isLive = earlier.children := by
    rw [List.filter_eq_self]
    intro child member
    obtain ⟨below, belowAt, _⟩ := formed.linked earlierAt member
    obtain ⟨still, _, stillAt, _⟩ := grown.kept belowAt
    simp [isLive, stillAt]
  rw [all, children]

end Merging

inductive Update : ScopeTree → ScopeTree → Prop
  | merge {tree other : ScopeTree} : other.WellFormed → Update tree (tree.merge other)
  | removeFile {tree : ScopeTree} (file : String) : Update tree (tree.removeFile file).1

def Updated : ScopeTree → ScopeTree → Prop := Relation.ReflTransGen Update

section Updates

variable {before after : ScopeTree}

theorem Update.persists (update : Update before after) (formed : before.WellFormed) :
    after.WellFormed ∧ Persists before after := by
  cases update with
  | merge otherFormed =>
    exact ⟨merge_wellFormed formed otherFormed, persists_merge formed otherFormed⟩
  | removeFile file => exact ⟨formed.removeFile file, persists_removeFile formed file⟩

theorem Updated.persists (updated : Updated before after) (formed : before.WellFormed) :
    after.WellFormed ∧ Persists before after := by
  induction updated with
  | refl => exact ⟨formed, .refl formed⟩
  | tail _ update ih =>
    obtain ⟨middleFormed, sofar⟩ := ih
    obtain ⟨afterFormed, last⟩ := update.persists middleFormed
    exact ⟨afterFormed, sofar.trans formed last⟩

theorem name?_of_bare {first second : Statement} (bare : first.kind.bare = second.kind.bare) :
    first.name? = second.name? := by
  have scopes := congrArg StatementKind.scope? bare
  rw [scope?_bare, scope?_bare] at scopes
  have names := congrArg (Option.map NamedScope.name) scopes
  simpa [Statement.name?, Statement.scope?, Option.map_map, Function.comp_def] using names

theorem Persists.qualifiedParts_eq (persists : Persists before after) (formed : before.WellFormed)
    (afterFormed : after.WellFormed) {id : StatementId} {earlier later : Statement}
    (earlierAt : before.get? id = some earlier) (laterAt : after.get? id = some later) :
    after.qualifiedParts id = before.qualifiedParts id := by
  have sameName {other : StatementId} {first second : Statement}
      (firstAt : before.get? other = some first) (secondAt : after.get? other = some second) :
      after.name? other = before.name? other := by
    simpa [name?, firstAt, secondAt] using name?_of_bare (persists.survivor firstAt secondAt).2.1
  refine formed.downward (fun id _ => ∀ later, after.get? id = some later →
    after.qualifiedParts id = before.qualifiedParts id) ?_ ?_ earlierAt later laterAt
  · intro top topAt later laterAt
    rw [qualifiedParts, qualifiedParts, lineage_root formed, lineage_root afterFormed]
    simp only [List.filterMap_cons, sameName topAt laterAt]
    rfl
  · intro id statement parent above found _ parentAt aboveAt climbs later laterAt
    have sameParent : later.parent = some parent := by
      rw [(persists.survivor found laterAt).1, parentAt]
    obtain ⟨upper, upperAt, _⟩ := afterFormed.exists_parent laterAt sameParent
    rw [qualifiedParts_child formed found parentAt,
      qualifiedParts_child afterFormed laterAt sameParent, climbs upper upperAt,
      sameName found laterAt]

end Updates

/-- From any moment of any run of updates on, a live number is live with the same parent, name,
kind and qualified name, its list of children being the old one without those that went and
followed by children with numbers not used before, or it is empty for good. -/
theorem handle_stable_or_empty {start now later : ScopeTree} (formed : start.WellFormed)
    (reached : Updated start now) (onward : Updated now later) {id : StatementId}
    {statement : Statement} (found : now.get? id = some statement) :
    (∃ last, later.get? id = some last ∧ last.parent = statement.parent ∧
      last.name? = statement.name? ∧ last.kind.bare = statement.kind.bare ∧
      later.qualifiedName id = now.qualifiedName id ∧
      ∃ newer, last.children = statement.children.filter later.isLive ++ newer ∧
        ∀ child ∈ newer, now.nextId ≤ child) ∨
    (later.get? id = none ∧ ∀ afterwards, Updated later afterwards → afterwards.get? id = none) := by
  obtain ⟨nowFormed, _⟩ := reached.persists formed
  obtain ⟨laterFormed, persists⟩ := onward.persists nowFormed
  cases lastAt : later.get? id with
  | some last =>
    obtain ⟨parent, kind, children⟩ := persists.survivor found lastAt
    refine .inl ⟨last, rfl, parent, name?_of_bare kind, kind, ?_, children⟩
    rw [qualifiedName, qualifiedName, persists.qualifiedParts_eq nowFormed laterFormed found lastAt]
  | none =>
    refine .inr ⟨rfl, fun afterwards further => ?_⟩
    obtain ⟨_, stays⟩ := further.persists laterFormed
    exact stays.vacant (Nat.lt_of_lt_of_le (lt_nextId_of_get? found) persists.next) lastAt

theorem handle_stable_or_empty_member_removed :
    let now := ((empty .cPlusPlus).merge (classTree "a.h")).merge (memberTree "a.cpp")
    let later := (now.removeFile "a.cpp").1
    (∃ statement last, now.get? 2 = some statement ∧ later.get? 2 = some last ∧
      last.parent = statement.parent ∧ last.name? = statement.name? ∧
      later.qualifiedName 2 = now.qualifiedName 2) ∧
    now.isLive 4 = true ∧ later.get? 4 = none ∧
      ∀ afterwards, Updated later afterwards → afterwards.get? 4 = none := by
  intro now later
  obtain ⟨_, _, ofUnit⟩ := readAs_fileTree (readAs_classUnit "a.h")
  have reached : Updated (empty .cPlusPlus) now :=
    (Relation.ReflTransGen.single (.merge ofUnit.formed)).tail (.merge (memberTree_wellFormed "a.cpp"))
  have onward : Updated now later := .single (.removeFile "a.cpp")
  have classLive : now.isLive 2 = true ∧ later.isLive 2 = true := by decide +kernel
  have methodLive : now.isLive 4 = true ∧ later.isLive 4 = false := by decide +kernel
  have formed := empty_wellFormed .cPlusPlus
  constructor
  · obtain ⟨statement, found⟩ := Option.isSome_iff_exists.mp classLive.1
    rcases handle_stable_or_empty formed reached onward found with
      ⟨last, lastAt, parent, name, _, qualified, _⟩ | ⟨gone, _⟩
    · exact ⟨statement, last, found, lastAt, parent, name, qualified⟩
    · simp [isLive, gone] at classLive
  · obtain ⟨statement, found⟩ := Option.isSome_iff_exists.mp methodLive.1
    rcases handle_stable_or_empty formed reached onward found with ⟨last, lastAt, _⟩ | emptied
    · simp [isLive, lastAt] at methodLive
    · exact ⟨methodLive.1, emptied⟩

end ScopeAtlas
