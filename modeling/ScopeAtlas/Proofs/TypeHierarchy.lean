import ScopeAtlas.Proofs.CallQueries

/-!
The hierarchy of a type. Bases are found by name, so the graph of bases can have circles and several
ways to one type, and a name can mean several types or none. All bases are live types of the tree or
placeholders for types, so the search through them meets no more than there are slots, and its bound
never cuts it short.

Main statement: `hierarchy_nearest_first`.
-/

namespace ScopeAtlas

open ScopeTree

namespace Resolver

variable {resolver : Resolver} {id scope : StatementId}

def types (resolver : Resolver) : List StatementId :=
  resolver.tree.ids.filter resolver.isTypeLike

theorem mem_types : id ∈ resolver.types ↔ resolver.isTypeLike id = true := by
  rw [types, List.mem_filter, mem_ids, and_iff_right_iff_imp, isTypeLike]
  cases found : resolver.tree.get? id with
  | none => simp [scope?, found]
  | some own => simp [isLive, found]

theorem length_types_le (resolver : Resolver) :
    resolver.types.length ≤ resolver.tree.slots.size := by
  have among := List.length_filter_le resolver.isTypeLike resolver.tree.ids
  have live := List.length_filter_le resolver.tree.isLive (List.range resolver.tree.slots.size)
  rw [List.length_range] at live
  exact Nat.le_trans among live

theorem mem_types_of_findTypes {type : TypeUse} {use : Location}
    (found : id ∈ resolver.findTypes scope type use) : id ∈ resolver.types := by
  have typed {ids : List StatementId}
      (inside : id ∈ resolver.accepted NamedScope.isTypeLike ids) : id ∈ resolver.types := by
    obtain ⟨_, own, ownAt⟩ := scope?_of_accepted inside
    have accepted := (List.mem_filter.mp inside).2
    rw [ownAt] at accepted
    rw [mem_types, isTypeLike, ownAt]
    exact (Bool.and_eq_true_iff.mp accepted).2
  rw [findTypes] at found
  split at found
  · simp at found
  · rcases mem_findScopes found with ⟨_, _, _, inside⟩ | ⟨_, _, inside⟩ | ⟨_, _, inside⟩
    · exact typed inside
    · exact typed inside
    · exact typed inside

theorem baseTypes_subset_types (resolver : Resolver) (id : StatementId) :
    resolver.baseTypes id ⊆ resolver.types := by
  intro base member
  rw [baseTypes] at member
  split at member
  · simp at member
  · obtain ⟨inside, _⟩ := List.mem_filter.mp (mem_of_mem_distinctOn member)
    obtain ⟨parent, _, found⟩ := List.mem_flatMap.mp inside
    exact mem_types_of_findTypes found

theorem inherits_subset_types (resolver : Resolver) (id : StatementId) :
    resolver.inherits id ⊆ resolver.types := by
  rw [inherits]
  split
  · exact baseTypes_subset_types resolver id
  · simp

def Inherits (resolver : Resolver) (type base : StatementId) : Prop :=
  resolver.isTypeLike type = true ∧ base ∈ resolver.baseTypes type

theorem mem_inherits (type base : StatementId) :
    base ∈ resolver.inherits type ↔ resolver.Inherits type base := by
  rw [inherits, Inherits]
  split
  next typed => simp [typed]
  next other => simp [other]

/-- The hierarchy begins with its owner, holds exactly what can be reached from it by going up to
bases, each once, and goes by the length of the shortest way up. -/
theorem hierarchy_nearest_first (resolver : Resolver) (owner : StatementId) :
    (resolver.hierarchy owner).head? = some owner ∧ (resolver.hierarchy owner).Nodup ∧
      (∀ id, id ∈ resolver.hierarchy owner ↔ ∃ length, Walk resolver.Inherits owner length id) ∧
      (resolver.hierarchy owner).Pairwise fun near far =>
        ∀ short long, Distance resolver.Inherits owner short near →
          Distance resolver.Inherits owner long far → short ≤ long := by
  have closed : ∀ value ∈ owner :: resolver.types,
      resolver.inherits value ⊆ owner :: resolver.types :=
    fun value _ => List.subset_cons_of_subset _ (inherits_subset_types resolver value)
  have inside : owner ∈ owner :: resolver.types := List.mem_cons_self
  have enough : (owner :: resolver.types).length ≤ resolver.tree.slots.size + 1 :=
    Nat.succ_le_succ (length_types_le resolver)
  have ordered := pairwise_breadthFirst mem_inherits closed inside enough
  refine ⟨?_, ordered.imp And.left, mem_breadthFirst mem_inherits closed inside enough,
    ordered.imp And.right⟩
  rw [hierarchy, breadthFirst_layers closed inside enough _ (Nat.le_succ _), List.head?_cons]

end Resolver

end ScopeAtlas
