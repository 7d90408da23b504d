import Mathlib.Data.Finset.Card
import Mathlib.Data.Finset.Insert
import Mathlib.Data.List.Induction
import ScopeAtlas.Proofs.NearestFirst
import ScopeAtlas.Query.CallGraph

/-!
The call graph against the edges that were added to it. Both of its tables are written under one
check for what is there already, so they stay the converse of each other and hold every edge once.
The search for transitive callers goes along the table of callers, and finds exactly the methods from
which a path of calls leads to where it started.

Main statement: `ofEdges_exact`.
-/

namespace ScopeAtlas

namespace CallGraph

def ofEdges (edges : List (StatementId × StatementId)) : CallGraph :=
  edges.foldl (fun graph edge => graph.addEdge edge.1 edge.2) empty

theorem ofEdges_append (edges : List (StatementId × StatementId)) (edge : StatementId × StatementId) :
    ofEdges (edges ++ [edge]) = (ofEdges edges).addEdge edge.1 edge.2 := by
  simp [ofEdges]

/-- Both tables hold the given edges, and hold them once. -/
structure Records (graph : CallGraph) (edges : List (StatementId × StatementId)) : Prop where
  mem_callees : ∀ caller callee, callee ∈ graph.callees caller ↔ (caller, callee) ∈ edges
  mem_callers : ∀ caller callee, caller ∈ graph.callers callee ↔ (caller, callee) ∈ edges
  nodup_callees : ∀ caller, (graph.callees caller).Nodup
  nodup_callers : ∀ callee, (graph.callers callee).Nodup
  edgeCount : graph.edgeCount = edges.toFinset.card

theorem records_empty : Records empty [] := by
  constructor
  · simp [empty, callees, listUnder]
  · simp [empty, callers, listUnder]
  · simp [empty, callees, listUnder]
  · simp [empty, callers, listUnder]
  · rfl

theorem length_flatMap_appendUnder (key value : StatementId)
    (table : List (StatementId × List StatementId)) :
    ((appendUnder key value table).flatMap fun entry => entry.2).length =
      (table.flatMap fun entry => entry.2).length + 1 := by
  induction table with
  | nil => rfl
  | cons entry rest ih =>
    rw [appendUnder]
    split
    · simp only [List.flatMap_cons, List.length_append, List.length_singleton]
      omega
    · simp only [List.flatMap_cons, List.length_append, ih]
      omega

theorem edgeCount_addEdge (graph : CallGraph) (caller callee : StatementId) :
    (graph.addEdge caller callee).edgeCount =
      if callee ∈ graph.callees caller then graph.edgeCount else graph.edgeCount + 1 := by
  rw [addEdge]
  by_cases known : callee ∈ graph.callees caller
  · simp [known]
  · rw [if_neg (by simpa using known), if_neg known]
    exact length_flatMap_appendUnder caller callee graph.outgoing

theorem Records.addEdge {graph : CallGraph} {edges : List (StatementId × StatementId)}
    (records : Records graph edges) (caller callee : StatementId) :
    Records (graph.addEdge caller callee) (edges ++ [(caller, callee)]) := by
  constructor
  · intro source target
    rw [mem_callees_addEdge, records.mem_callees, List.mem_append, List.mem_singleton, Prod.ext_iff]
  · intro source target
    rw [mem_callers_addEdge, records.mem_callers, records.mem_callees, List.mem_append,
      List.mem_singleton, Prod.ext_iff]
    constructor
    · rintro (old | ⟨rfl, rfl, _⟩)
      · exact .inl old
      · exact .inr ⟨rfl, rfl⟩
    · rintro (old | ⟨rfl, rfl⟩)
      · exact .inl old
      · by_cases known : (source, target) ∈ edges
        · exact .inl known
        · exact .inr ⟨rfl, rfl, known⟩
  · intro source
    rw [callees_addEdge]
    split
    next new =>
      obtain ⟨rfl, absent⟩ := new
      exact (records.nodup_callees source).append (List.nodup_singleton callee)
        (List.disjoint_singleton.mpr absent)
    next => exact records.nodup_callees source
  · intro target
    rw [callers_addEdge]
    split
    next new =>
      obtain ⟨rfl, absent⟩ := new
      rw [records.mem_callees, ← records.mem_callers] at absent
      exact (records.nodup_callers target).append (List.nodup_singleton caller)
        (List.disjoint_singleton.mpr absent)
    next => exact records.nodup_callers target
  · rw [edgeCount_addEdge, records.edgeCount, List.toFinset_append, List.toFinset_cons,
      List.toFinset_nil, Finset.union_insert, Finset.union_empty]
    have present := records.mem_callees caller callee
    split
    next known => rw [Finset.insert_eq_of_mem (List.mem_toFinset.mpr (present.mp known))]
    next new =>
      have absent : (caller, callee) ∉ edges.toFinset := by
        rwa [List.mem_toFinset, ← present]
      rw [Finset.card_insert_of_notMem absent]

theorem records_ofEdges (edges : List (StatementId × StatementId)) :
    Records (ofEdges edges) edges := by
  induction edges using List.reverseRecOn with
  | nil => exact records_empty
  | append_singleton edges edge ih =>
    rw [ofEdges_append]
    exact ih.addEdge edge.1 edge.2

def Calls (edges : List (StatementId × StatementId)) (caller callee : StatementId) : Prop :=
  (caller, callee) ∈ edges

section Search

variable {graph : CallGraph} {edges : List (StatementId × StatementId)} (records : Records graph edges)

include records

theorem Records.follows : ∀ method next,
    next ∈ graph.callers method ↔ (fun callee caller => Calls edges caller callee) method next :=
  fun method next => records.mem_callers next method

theorem Records.mem_transitiveCallers (method : StatementId) (depth : Nat) (caller : StatementId) :
    caller ∈ graph.transitiveCallers method depth ↔ caller ≠ method ∧
      ∃ length, 1 ≤ length ∧ length ≤ depth ∧ Walk (Calls edges) caller length method := by
  rw [transitiveCallers, mem_reachWithin records.follows depth layered_start]
  simp only [distance_reverse_iff, Nat.zero_add]
  constructor
  · rintro ⟨length, positive, within, distance⟩
    refine ⟨?_, length, positive, within, distance.walk⟩
    rintro rfl
    exact absurd (distance.unique (distance_zero.mpr rfl)) (by omega)
  · rintro ⟨other, length, _, within, walk⟩
    obtain ⟨least, bound, distance⟩ := walk.exists_distance
    refine ⟨least, Nat.pos_of_ne_zero ?_, by omega, distance⟩
    rintro rfl
    exact other (distance_zero.mp distance).symm

theorem Records.pairwise_transitiveCallers (method : StatementId) (depth : Nat) :
    (graph.transitiveCallers method depth).Pairwise fun near far =>
      near ≠ far ∧ ∀ short long, Distance (Calls edges) near short method →
        Distance (Calls edges) far long method → short ≤ long := by
  refine (pairwise_reachWithin records.follows depth layered_start).imp ?_
  intro near far ordered
  simpa only [distance_reverse_iff] using ordered

end Search

/-- A graph holds exactly the edges that were added to it, under their callers and under their
callees, and each once. The transitive callers of a method within a depth are the other methods from
which a path of at most that many calls leads to it, each once and the nearest first. -/
theorem ofEdges_exact (edges : List (StatementId × StatementId)) :
    (∀ caller callee,
      (callee ∈ (ofEdges edges).callees caller ↔ caller ∈ (ofEdges edges).callers callee) ∧
      (caller ∈ (ofEdges edges).callers callee ↔ (caller, callee) ∈ edges)) ∧
    (∀ method, ((ofEdges edges).callees method).Nodup ∧ ((ofEdges edges).callers method).Nodup) ∧
    (ofEdges edges).edgeCount = edges.toFinset.card ∧
    ∀ method depth,
      ((ofEdges edges).transitiveCallers method depth).Nodup ∧
      (∀ caller, caller ∈ (ofEdges edges).transitiveCallers method depth ↔ caller ≠ method ∧
        ∃ length, 1 ≤ length ∧ length ≤ depth ∧ Walk (Calls edges) caller length method) ∧
      ((ofEdges edges).transitiveCallers method depth).Pairwise fun near far =>
        ∀ short long, Distance (Calls edges) near short method →
          Distance (Calls edges) far long method → short ≤ long := by
  have records := records_ofEdges edges
  refine ⟨fun caller callee => ⟨?_, records.mem_callers caller callee⟩,
    fun method => ⟨records.nodup_callees method, records.nodup_callers method⟩, records.edgeCount,
    fun method depth => ?_⟩
  · rw [records.mem_callees, records.mem_callers]
  · have ordered := records.pairwise_transitiveCallers method depth
    exact ⟨ordered.imp And.left, records.mem_transitiveCallers method depth, ordered.imp And.right⟩

example :
    let graph := ofEdges [(1, 1), (2, 1), (1, 3), (3, 2), (4, 3), (2, 1)]
    graph.callers 1 = [1, 2] ∧ graph.edgeCount = 5 ∧ graph.transitiveCallers 1 1 = [2] ∧
      graph.transitiveCallers 1 3 = [2, 3, 4] := by decide

end CallGraph

end ScopeAtlas
