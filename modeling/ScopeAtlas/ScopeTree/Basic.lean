import ScopeAtlas.Statement.Basic

/-!
Scope trees. The statements of a tree stand in numbered slots and refer to each other by
number. Slot 0 is the global namespace. A removed statement leaves its slot empty for good, so
a number never comes to mean another statement.

The operations here are the small changes everything else is made of: store, attach, detach,
vacate, and append, which puts another tree behind one's own slots. `get?` is the view of a tree;
the statements below say what each change does to it.
-/

namespace ScopeAtlas

structure ScopeTree where
  slots : Array (Option Statement)
  deriving DecidableEq, Inhabited

namespace ScopeTree

def root : StatementId := 0

def empty (language : Language) : ScopeTree :=
  ⟨#[some (.detached .global language [] [])]⟩

def get? (tree : ScopeTree) (id : StatementId) : Option Statement :=
  tree.slots[id]?.join

def isLive (tree : ScopeTree) (id : StatementId) : Bool :=
  (tree.get? id).isSome

def modify (tree : ScopeTree) (id : StatementId) (change : Statement → Statement) : ScopeTree :=
  ⟨tree.slots.modify id fun slot => slot.map change⟩

def language (tree : ScopeTree) : Language :=
  ((tree.get? root).map Statement.language).getD .cPlusPlus

def ids (tree : ScopeTree) : List StatementId :=
  (List.range tree.slots.size).filter tree.isLive

def size (tree : ScopeTree) : Nat :=
  tree.slots.toList.countP Option.isSome

def parent? (tree : ScopeTree) (id : StatementId) : Option StatementId :=
  (tree.get? id).bind Statement.parent

def children (tree : ScopeTree) (id : StatementId) : List StatementId :=
  ((tree.get? id).map Statement.children).getD []

def isEmpty (tree : ScopeTree) : Bool :=
  (tree.children root).isEmpty

def scope? (tree : ScopeTree) (id : StatementId) : Option NamedScope :=
  (tree.get? id).bind Statement.scope?

def name? (tree : ScopeTree) (id : StatementId) : Option String :=
  (tree.get? id).bind Statement.name?

def method? (tree : ScopeTree) (id : StatementId) : Option MethodDefinition :=
  (tree.get? id).bind Statement.method?

def nextId (tree : ScopeTree) : StatementId :=
  tree.slots.size

/-- Stores a statement that no other statement lists. -/
def store (tree : ScopeTree) (statement : Statement) : ScopeTree :=
  ⟨tree.slots.push (some { statement with parent := none })⟩

def attach (tree : ScopeTree) (parent child : StatementId) : ScopeTree :=
  (tree.modify child fun statement => { statement with parent := some parent }).modify parent
    fun statement => { statement with children := statement.children ++ [child] }

def add (tree : ScopeTree) (parent : StatementId) (statement : Statement) : ScopeTree :=
  (tree.store statement).attach parent tree.nextId

def detach (tree : ScopeTree) (child : StatementId) : ScopeTree :=
  let unlisted := match tree.parent? child with
    | some parent => tree.modify parent fun statement =>
        { statement with children := statement.children.filter (· != child) }
    | none => tree
  unlisted.modify child fun statement => { statement with parent := none }

def vacate (tree : ScopeTree) (id : StatementId) : ScopeTree :=
  ⟨tree.slots.modify id fun _ => none⟩

def clear (tree : ScopeTree) : ScopeTree :=
  .empty tree.language

def shiftStatement (offset : Nat) (statement : Statement) : Statement :=
  { statement with
    parent := statement.parent.map (· + offset)
    children := statement.children.map (· + offset) }

/-- Puts the slots of `other`, empty ones too, behind the own slots; the root of `other`
becomes number `tree.nextId`. -/
def append (tree other : ScopeTree) : ScopeTree :=
  ⟨tree.slots ++ other.slots.map fun slot => slot.map (shiftStatement tree.slots.size)⟩

theorem get?_modify (tree : ScopeTree) (id other : StatementId) (change : Statement → Statement) :
    (tree.modify id change).get? other =
      if id = other then (tree.get? other).map change else tree.get? other := by
  simp only [get?, modify, Array.getElem?_modify]
  split
  · cases tree.slots[other]? <;> simp
  · rfl

@[simp]
theorem nextId_modify (tree : ScopeTree) (id : StatementId) (change : Statement → Statement) :
    (tree.modify id change).nextId = tree.nextId := by
  simp [nextId, modify]

theorem get?_store (tree : ScopeTree) (statement : Statement) (id : StatementId) :
    (tree.store statement).get? id =
      if id = tree.nextId then some { statement with parent := none } else tree.get? id := by
  simp only [get?, store, nextId, Array.getElem?_push]
  by_cases last : id = tree.slots.size
  · simp [last]
  · simp [last]

@[simp]
theorem nextId_store (tree : ScopeTree) (statement : Statement) :
    (tree.store statement).nextId = tree.nextId + 1 := by
  simp [nextId, store]

theorem get?_eq_none_of_nextId_le {tree : ScopeTree} {id : StatementId}
    (beyond : tree.nextId ≤ id) : tree.get? id = none := by
  simp only [nextId] at beyond
  simp [get?, beyond]

theorem get?_vacate (tree : ScopeTree) (id other : StatementId) :
    (tree.vacate id).get? other = if id = other then none else tree.get? other := by
  simp only [get?, vacate, Array.getElem?_modify]
  split
  · cases tree.slots[other]? <;> rfl
  · rfl

@[simp]
theorem nextId_vacate (tree : ScopeTree) (id : StatementId) :
    (tree.vacate id).nextId = tree.nextId := by
  simp [nextId, vacate]

theorem get?_append (tree other : ScopeTree) (id : StatementId) :
    (tree.append other).get? id =
      if id < tree.nextId then tree.get? id
      else (other.get? (id - tree.nextId)).map (shiftStatement tree.nextId) := by
  simp only [get?, append, nextId, Array.getElem?_append]
  by_cases own : id < tree.slots.size
  · simp [own]
  · simp only [own, if_false, Array.getElem?_map]
    cases other.slots[id - tree.slots.size]? <;> rfl

@[simp]
theorem nextId_append (tree other : ScopeTree) :
    (tree.append other).nextId = tree.nextId + other.nextId := by
  simp [nextId, append]

theorem mem_ids {tree : ScopeTree} {id : StatementId} : id ∈ tree.ids ↔ tree.isLive id = true := by
  simp only [ids, List.mem_filter, List.mem_range, and_iff_right_iff_imp]
  intro live
  by_cases beyond : tree.slots.size ≤ id
  · simp [isLive, get?, beyond] at live
  · omega

end ScopeTree

end ScopeAtlas
