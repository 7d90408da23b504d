import ScopeAtlas.Resolution.Match

/-!
The call graph: which method calls which. Each call counts for the nearest method around it
and is linked to every method it resolves to. Every link is kept under its caller and under its
callee.
-/

namespace ScopeAtlas

structure CallGraph where
  outgoing : List (StatementId × List StatementId)
  incoming : List (StatementId × List StatementId)
  /-- Number of calls seen, resolved or not. -/
  calls : Nat
  deriving DecidableEq, Inhabited

namespace CallGraph

def empty : CallGraph := ⟨[], [], 0⟩

def callees (graph : CallGraph) (caller : StatementId) : List StatementId :=
  listUnder caller graph.outgoing

def callers (graph : CallGraph) (callee : StatementId) : List StatementId :=
  listUnder callee graph.incoming

def addEdge (graph : CallGraph) (caller callee : StatementId) : CallGraph :=
  if (graph.callees caller).contains callee then graph
  else
    { graph with
      outgoing := appendUnder caller callee graph.outgoing
      incoming := appendUnder callee caller graph.incoming }

def addCall (graph : CallGraph) (caller : StatementId) (targets : List StatementId) : CallGraph :=
  let linked := targets.foldl (fun current callee => current.addEdge caller callee) graph
  { linked with calls := linked.calls + 1 }

def relates (graph : CallGraph) (caller callee : StatementId) : Bool :=
  (graph.callees caller).contains callee

def edgeCount (graph : CallGraph) : Nat :=
  (graph.outgoing.flatMap fun entry => entry.2).length

def transitiveCallers (graph : CallGraph) (callee : StatementId) (depth : Nat) :
    List StatementId :=
  reachWithin graph.callers depth [callee] [callee]

def attributedCalls (tree : ScopeTree) : List (StatementId × Expression) :=
  (tree.subtree ScopeTree.root).flatMap fun id =>
    match tree.enclosingMethod? id, tree.get? id with
    | some caller, some statement => statement.calls.map fun call => (caller, call)
    | _, _ => []

def build (resolver : Resolver) : CallGraph :=
  (attributedCalls resolver.tree).foldl
    (fun graph (caller, call) => graph.addCall caller (resolver.methodsOf call)) empty

theorem callees_addEdge (graph : CallGraph) (caller callee method : StatementId) :
    (graph.addEdge caller callee).callees method =
      if method = caller ∧ callee ∉ graph.callees caller then graph.callees method ++ [callee]
      else graph.callees method := by
  rw [addEdge]
  by_cases known : callee ∈ graph.callees caller
  · simp [known]
  · rw [if_neg (by simpa using known)]
    refine (listUnder_appendUnder method caller callee graph.outgoing).trans ?_
    simp only [known, not_false_eq_true, and_true, beq_iff_eq]
    rfl

theorem callers_addEdge (graph : CallGraph) (caller callee method : StatementId) :
    (graph.addEdge caller callee).callers method =
      if method = callee ∧ callee ∉ graph.callees caller then graph.callers method ++ [caller]
      else graph.callers method := by
  rw [addEdge]
  by_cases known : callee ∈ graph.callees caller
  · simp [known]
  · rw [if_neg (by simpa using known)]
    refine (listUnder_appendUnder method callee caller graph.incoming).trans ?_
    simp only [known, not_false_eq_true, and_true, beq_iff_eq]
    rfl

theorem mem_callees_addEdge {graph : CallGraph} {source target caller callee : StatementId} :
    callee ∈ (graph.addEdge source target).callees caller ↔
      callee ∈ graph.callees caller ∨ caller = source ∧ callee = target := by
  rw [callees_addEdge]
  by_cases own : caller = source
  · subst own
    by_cases known : target ∈ graph.callees caller
    · simp only [known, not_true_eq_false, and_false, if_false, true_and, iff_self_or]
      rintro rfl
      exact known
    · simp [known]
  · simp [own]

theorem mem_callers_addEdge {graph : CallGraph} {source target caller callee : StatementId} :
    caller ∈ (graph.addEdge source target).callers callee ↔
      caller ∈ graph.callers callee ∨
        callee = target ∧ caller = source ∧ target ∉ graph.callees source := by
  rw [callers_addEdge]
  by_cases own : callee = target ∧ target ∉ graph.callees source
  · simp [own]
  · rw [if_neg own]
    constructor
    · exact .inl
    · rintro (old | ⟨same, _, new⟩)
      · exact old
      · exact absurd ⟨same, new⟩ own

end CallGraph

end ScopeAtlas
