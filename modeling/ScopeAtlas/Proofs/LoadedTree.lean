import ScopeAtlas.Proofs.ArchiveRoundTrip
import ScopeAtlas.Proofs.InventoryLookup

/-!
Trees from archives. Reading takes a tree as it stands and looks at no link, so what it gives is one
tree below slot 0 for some archives and not for others. `ScopeTree.holdsTogether` decides which.

The walks of a tree that holds together end. `Walked` and `Climbed` are the walks without a bound on
their steps: down from a stack of statements, and up from one statement to the next.

Main statement: `loaded_wellFormed_iff_holdsTogether`.
-/

namespace ScopeAtlas

namespace ScopeTree

/-- Slot 0 is live and has no parent, every listed child is listed once and points back, and every
live statement can be reached from slot 0. -/
def holdsTogether (tree : ScopeTree) : Bool :=
  tree.isLive root && (tree.parent? root).isNone &&
    tree.ids.all fun id =>
      decide (tree.children id).Nodup &&
        (tree.children id).all (fun child => tree.parent? child == some id) &&
        (id == root || (tree.descendants root).contains id)

/-- A walk in pre-order from the statements that wait, down to the last of them. -/
inductive Walked (tree : ScopeTree) : List StatementId → List StatementId → Prop
  | done : Walked tree [] []
  | next {id : StatementId} {waiting seen : List StatementId} :
      Walked tree (tree.children id ++ waiting) seen → Walked tree (id :: waiting) (id :: seen)

/-- A walk from parent to parent until there is none. -/
inductive Climbed (tree : ScopeTree) : Option StatementId → List StatementId → Prop
  | done : Climbed tree none []
  | up {id : StatementId} {trail : List StatementId} :
      Climbed tree (tree.parent? id) trail → Climbed tree (some id) (id :: trail)

section Links

variable {tree : ScopeTree}

theorem get?_of_parent? {child parent : StatementId} (parentAt : tree.parent? child = some parent) :
    ∃ statement, tree.get? child = some statement ∧ statement.parent = some parent :=
  Option.bind_eq_some_iff.mp parentAt

theorem exists_lister_of_mem_below (depth : Nat) :
    ∀ {id other : StatementId}, other ∈ tree.below depth id → ∃ parent, other ∈ tree.children parent := by
  induction depth with
  | zero => simp [below]
  | succ depth ih =>
    intro id other member
    rw [below, List.mem_flatMap] at member
    obtain ⟨child, listed, reached⟩ := member
    rcases List.mem_cons.mp reached with same | lower
    · exact ⟨id, same ▸ listed⟩
    · exact ih lower

theorem atDepth_of_mem_below
    (pointsBack : ∀ {id child}, child ∈ tree.children id → tree.parent? child = some id)
    (depth : Nat) : ∀ {id other : StatementId} {level : Nat}, View.AtDepth tree.get? level id →
      other ∈ tree.below depth id → ∃ deeper, View.AtDepth tree.get? deeper other := by
  induction depth with
  | zero => simp [below]
  | succ depth ih =>
    intro id other level reached member
    rw [below, List.mem_flatMap] at member
    obtain ⟨child, listed, lower⟩ := member
    obtain ⟨statement, found, parentAt⟩ := get?_of_parent? (pointsBack listed)
    have below : View.AtDepth tree.get? (level + 1) child := .inner found parentAt reached
    rcases List.mem_cons.mp lower with same | lower
    · exact ⟨level + 1, same ▸ below⟩
    · exact ih below lower

theorem holdsTogether_iff : tree.holdsTogether = true ↔
    (tree.isLive root = true ∧ tree.parent? root = none) ∧ ∀ id, tree.isLive id = true →
      ((tree.children id).Nodup ∧ ∀ child ∈ tree.children id, tree.parent? child = some id) ∧
        (id = root ∨ id ∈ tree.descendants root) := by
  simp [holdsTogether, mem_ids]

theorem wellFormed_of_holdsTogether (holds : tree.holdsTogether = true) : tree.WellFormed := by
  obtain ⟨⟨rootLive, free⟩, each⟩ := holdsTogether_iff.mp holds
  have pointsBack {id child : StatementId} (listed : child ∈ tree.children id) :
      tree.parent? child = some id := by
    obtain ⟨statement, found, _⟩ := exists_of_mem_children listed
    exact (each id (by simp [isLive, found])).1.2 child listed
  obtain ⟨top, topAt⟩ := Option.isSome_iff_exists.mp rootLive
  constructor
  · exact ⟨top, topAt, by simpa [parent?, topAt] using free⟩
  · intro id statement found notRoot
    obtain ⟨parent, listed⟩ := exists_lister_of_mem_below _
      ((each id (by simp [isLive, found])).2.resolve_left notRoot)
    obtain ⟨above, aboveAt, member⟩ := exists_of_mem_children listed
    refine ⟨parent, above, ?_, aboveAt, member⟩
    simpa [parent?, found] using pointsBack listed
  · intro id statement child found member
    rw [← children_of_get? found] at member
    exact get?_of_parent? (pointsBack member)
  · intro id statement found
    rw [← children_of_get? found]
    exact (each id (by simp [isLive, found])).1.1
  · intro id statement found
    rcases (each id (by simp [isLive, found])).2 with rfl | reached
    · exact ⟨0, .root⟩
    · exact atDepth_of_mem_below pointsBack _ .root reached

theorem holdsTogether_of_wellFormed (formed : tree.WellFormed) : tree.holdsTogether = true := by
  obtain ⟨top, topAt, topFree⟩ := formed.top
  refine holdsTogether_iff.mpr ⟨⟨by simp [isLive, topAt], by simp [parent?, topAt, topFree]⟩, ?_⟩
  intro id live
  obtain ⟨statement, found⟩ := Option.isSome_iff_exists.mp live
  rw [children_of_get? found]
  refine ⟨⟨formed.unrepeated found, fun child member => ?_⟩, ?_⟩
  · obtain ⟨below, belowAt, parentAt⟩ := formed.linked found member
    simp [parent?, belowAt, parentAt]
  · by_cases isRoot : id = root
    · exact .inl isRoot
    · exact .inr ((mem_descendants_root formed).mpr ⟨live, isRoot⟩)

end Links

section Ends

variable {tree : ScopeTree}

theorem Walked.append {lower : StatementId → List StatementId} {children waiting seen : List StatementId}
    (each : ∀ child ∈ children, ∀ {waiting seen}, Walked tree waiting seen →
      Walked tree (child :: waiting) (child :: lower child ++ seen))
    (walked : Walked tree waiting seen) :
    Walked tree (children ++ waiting)
      (children.flatMap (fun child => child :: lower child) ++ seen) := by
  induction children with
  | nil => exact walked
  | cons child children ih =>
    have rest := ih fun other member => each other (List.mem_cons_of_mem _ member)
    simpa using each child (by simp) rest

theorem walked_below (formed : tree.WellFormed) (bound : Nat) :
    ∀ {id : StatementId} {statement : Statement}, tree.get? id = some statement →
      tree.nextId ≤ bound + View.depth tree.get? id → ∀ {waiting seen : List StatementId},
        Walked tree waiting seen → Walked tree (id :: waiting) (id :: tree.below bound id ++ seen) := by
  induction bound with
  | zero =>
    intro id statement found enough
    rw [Nat.zero_add] at enough
    exact absurd (formed.depth_lt found) (Nat.not_lt.mpr enough)
  | succ bound ih =>
    intro id statement found enough waiting seen walked
    refine .next (.append (fun child member => ?_) walked)
    rw [children_of_get? found] at member
    obtain ⟨inner, innerAt, _⟩ := formed.linked found member
    refine ih innerAt ?_
    rwa [formed.depth_child found member, Nat.add_comm _ 1, ← Nat.add_assoc]

theorem walked_descendants (formed : tree.WellFormed) :
    Walked tree [root] (root :: tree.descendants root) := by
  obtain ⟨top, topAt, _⟩ := formed.top
  have walked := walked_below formed tree.nextId topAt (Nat.le_add_right _ _) .done
  rwa [List.append_nil] at walked

theorem climbed_lineage (formed : tree.WellFormed) {id : StatementId} {statement : Statement}
    (found : tree.get? id = some statement) :
    Climbed tree (some id) (tree.lineage id) ∧ (tree.lineage id).getLast? = some root := by
  refine formed.downward (fun id _ => Climbed tree (some id) (tree.lineage id) ∧
    (tree.lineage id).getLast? = some root) ?_ ?_ found
  · intro top topAt
    obtain ⟨first, firstAt, free⟩ := formed.top
    rw [lineage_root formed]
    exact ⟨.up (by simpa [parent?, firstAt, free] using .done), rfl⟩
  · intro id statement parent above found _ parentAt aboveAt upper
    obtain ⟨climbed, last⟩ := upper
    rw [lineage_child formed found parentAt]
    refine ⟨.up (by simpa [parent?, found, parentAt] using climbed), ?_⟩
    simp [List.getLast?_cons, last]

theorem nodup_root_cons_descendants (formed : tree.WellFormed) :
    (root :: tree.descendants root).Nodup :=
  List.nodup_cons.mpr ⟨fun member => ((mem_descendants_root formed).mp member).2 rfl,
    below_nodup formed _ root⟩

theorem mem_root_cons_descendants (formed : tree.WellFormed) {id : StatementId} :
    id ∈ root :: tree.descendants root ↔ tree.isLive id = true := by
  obtain ⟨top, topAt, _⟩ := formed.top
  rw [List.mem_cons, mem_descendants_root formed]
  constructor
  · rintro (rfl | ⟨live, _⟩)
    · simp [isLive, topAt]
    · exact live
  · intro live
    by_cases isRoot : id = root
    · exact .inl isRoot
    · exact .inr ⟨live, isRoot⟩

end Ends

end ScopeTree

namespace Archive

open ScopeTree

theorem read_eq_ok_iff {text : String} {program : Program} : read text = .ok program ↔
    ∃ tree, (Json.parse? text).bind (decode? levelLimit) = some (version, tree) ∧
      .ofTree tree = program := by
  rw [read]
  cases (Json.parse? text).bind (decode? levelLimit) with
  | none => simp
  | some decoded =>
    obtain ⟨stated, tree⟩ := decoded
    by_cases current : stated = version
    · simp [current]
    · simp [current]

/-- What an archive gives is one tree below slot 0 if and only if the tree that it spells holds
together, since no link is looked at on the way. Then the walk down from slot 0 ends and sees every
live statement once, and the walk up from a live statement ends at slot 0. -/
theorem loaded_wellFormed_iff_holdsTogether (text : String) :
    ((∀ program, read text = .ok program → program.tree.WellFormed) ↔
      ∀ tree, (Json.parse? text).bind (decode? levelLimit) = some (version, tree) →
        tree.holdsTogether = true) ∧
    ∀ program, read text = .ok program → program.tree.WellFormed →
      (∃ seen, Walked program.tree [root] seen ∧ seen.Nodup ∧
        ∀ id, id ∈ seen ↔ program.tree.isLive id = true) ∧
      ∀ id, program.tree.isLive id = true →
        ∃ trail, Climbed program.tree (some id) trail ∧ trail.getLast? = some root := by
  refine ⟨⟨fun formed tree spelled => ?_, fun holds program loaded => ?_⟩,
    fun program _ formed => ⟨?_, fun id live => ?_⟩⟩
  · exact holdsTogether_of_wellFormed (formed _ (read_eq_ok_iff.mpr ⟨tree, spelled, rfl⟩))
  · obtain ⟨tree, spelled, rfl⟩ := read_eq_ok_iff.mp loaded
    exact wellFormed_of_holdsTogether (holds tree spelled)
  · exact ⟨_, walked_descendants formed, nodup_root_cons_descendants formed,
      fun id => mem_root_cons_descendants formed⟩
  · obtain ⟨statement, found⟩ := Option.isSome_iff_exists.mp live
    exact ⟨_, climbed_lineage formed found⟩

theorem loaded_wellFormed_iff_holdsTogether_member :
    let tree := memberTree "a.cpp"
    tree.holdsTogether = true ∧ read (encode tree).print = .ok (.ofTree tree) ∧ tree.WellFormed ∧
      (∃ seen, Walked tree [root] seen ∧ seen.Nodup ∧ ∀ id, id ∈ seen ↔ tree.isLive id = true) ∧
      ∃ trail, Climbed tree (some 1) trail ∧ trail.getLast? = some root := by
  intro tree
  have holds : tree.holdsTogether = true := by decide +kernel
  have carried : Json.Carries decode? (encode tree) (version, tree) := carries (by decide +kernel)
  have spelled : (Json.parse? (encode tree).print).bind (decode? levelLimit) =
      some (version, tree) := by
    rw [Json.parse?_print carried.plain, Option.bind_some]
    exact carried.decoded levelLimit (by decide +kernel)
  have loaded : read (encode tree).print = .ok (.ofTree tree) :=
    read_eq_ok_iff.mpr ⟨tree, spelled, rfl⟩
  obtain ⟨exactly, walks⟩ := loaded_wellFormed_iff_holdsTogether (encode tree).print
  have formed : tree.WellFormed := by
    refine exactly.mpr (fun other same => ?_) _ loaded
    obtain rfl : tree = other := by simpa using spelled.symm.trans same
    exact holds
  obtain ⟨down, up⟩ := walks _ loaded formed
  exact ⟨holds, loaded, formed, down, up 1 (by decide +kernel)⟩

/-- An archive without any slot is read, and its tree has no global namespace. -/
theorem loaded_wellFormed_fails_without_slots :
    ∃ program, read "\x7b\"version\":1,\"tree\":\x7b\"nodes\":[]\x7d\x7d" = .ok program ∧
      ¬ program.tree.WellFormed := by
  refine ⟨.ofTree ⟨#[]⟩, read_eq_ok_iff.mpr ⟨_, by decide +kernel, rfl⟩, fun formed => ?_⟩
  exact absurd (holdsTogether_of_wellFormed formed) (by decide +kernel)

end Archive

end ScopeAtlas
