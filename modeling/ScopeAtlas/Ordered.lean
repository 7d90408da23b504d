/-!
Lists without repetition: the first occurrences of a list, the ascending list of distinct
texts, and the breadth-first closure of a relation that lists successors. Tables keep a list of
values under every key.
-/

namespace ScopeAtlas

def distinctOn {α β : Type} [BEq β] (key : α → β) (values : List α) : List α :=
  values.foldl
    (fun found value => if found.any fun earlier => key earlier == key value then found
      else found ++ [value]) []

def distinct {α : Type} [BEq α] (values : List α) : List α :=
  distinctOn id values

def insertName (name : String) : List String → List String
  | [] => [name]
  | first :: rest =>
    if name < first then name :: first :: rest
    else if name == first then first :: rest
    else first :: insertName name rest

def sortedNames (names : List String) : List String :=
  names.foldl (fun sorted name => insertName name sorted) []

def firstNonEmpty {α β : Type} (search : α → List β) : List α → List β
  | [] => []
  | first :: rest => match search first with
    | [] => firstNonEmpty search rest
    | found => found

def listUnder {α β : Type} [BEq α] (key : α) (table : List (α × List β)) : List β :=
  (table.lookup key).getD []

def appendUnder {α β : Type} [BEq α] (key : α) (value : β) :
    List (α × List β) → List (α × List β)
  | [] => [(key, [value])]
  | (other, values) :: rest =>
    if key == other then (other, values ++ [value]) :: rest
    else (other, values) :: appendUnder key value rest

theorem listUnder_cons {α β : Type} [BEq α] (key other : α) (values : List β)
    (rest : List (α × List β)) : listUnder key ((other, values) :: rest) =
      if key == other then values else listUnder key rest := by
  rw [listUnder, List.lookup_cons]
  cases key == other with
  | true => rfl
  | false => rfl

theorem listUnder_appendUnder {α β : Type} [BEq α] [LawfulBEq α] (key other : α) (value : β)
    (table : List (α × List β)) : listUnder key (appendUnder other value table) =
      if key == other then listUnder key table ++ [value] else listUnder key table := by
  induction table with
  | nil =>
    rw [appendUnder, listUnder_cons]
    rfl
  | cons entry rest ih =>
    obtain ⟨first, values⟩ := entry
    rw [appendUnder, listUnder_cons]
    by_cases here : other == first
    · rw [if_pos here, listUnder_cons, eq_of_beq here]
      split
      · rfl
      · rfl
    · rw [if_neg here, listUnder_cons, ih]
      by_cases mine : key == first
      · have apart : (key == other) = false := by
          rw [eq_of_beq mine]
          exact beq_false_of_ne fun same => here (by simp [same])
        simp [mine, apart]
      · simp [mine]

def fresh {α : Type} [BEq α] (seen candidates : List α) : List α :=
  distinct (candidates.filter fun candidate => !seen.contains candidate)

/-- One round after the other takes the next element of the queue and adds its unseen
successors to both lists; `rounds` bounds their number. -/
def closureFrom {α : Type} [BEq α] (successors : α → List α) : Nat → List α → List α → List α
  | 0, seen, _ => seen
  | _, seen, [] => seen
  | rounds + 1, seen, current :: waiting =>
    let added := fresh seen (successors current)
    closureFrom successors rounds (seen ++ added) (waiting ++ added)

def breadthFirst {α : Type} [BEq α] (successors : α → List α) (rounds : Nat) (start : α) : List α :=
  closureFrom successors rounds [start] [start]

def reachWithin {α : Type} [BEq α] (successors : α → List α) : Nat → List α → List α → List α
  | 0, _, _ => []
  | steps + 1, visited, frontier =>
    match fresh visited (frontier.flatMap successors) with
    | [] => []
    | next => next ++ reachWithin successors steps (visited ++ next) next

end ScopeAtlas
