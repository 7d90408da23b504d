import ScopeAtlas.Proofs.Chart
import ScopeAtlas.Resolution.Inference

/-!
The paths that are written in a tree: types, names and calls in expressions, parent types, return
types, and what aliases and imports stand for. A tree is plainly written when their parts can be told
apart after they have been joined with points.
-/

namespace ScopeAtlas

open ScopeTree

/-- A path whose parts can be told apart when they are joined with points. -/
def PlainPath (path : List String) : Prop :=
  ∀ part ∈ path, part ≠ "" ∧ '.' ∉ part.toList

instance (path : List String) : Decidable (PlainPath path) :=
  inferInstanceAs (Decidable (∀ part ∈ path, part ≠ "" ∧ '.' ∉ part.toList))

/-! ### Paths of each part of a tree -/

def ExpressionKind.paths : ExpressionKind → List (List String)
  | .name use => [use.path]
  | .type use => [use.path]
  | .call invoked => [invoked.constructedType.path]
  | .declaration declared => declared.type.toList.map TypeUse.path
  | .compound | .literal _ | .operator _ => []

def Expression.paths (expression : Expression) : List (List String) :=
  expression.subtree.flatMap fun part => part.kind.paths

def Variable.paths (declared : Variable) : List (List String) :=
  declared.type.toList.map TypeUse.path ++ declared.initializer.toList.flatMap Expression.paths

def Call.paths (call : Call) : List (List String) :=
  call.constructedType.path :: call.object.toList.flatMap Expression.paths

def Definition.paths : Definition → List (List String)
  | .typeScope type => type.parents.map TypeUse.path
  | .methodScope method =>
    method.returnType.toList.map TypeUse.path ++ method.parameters.flatMap Variable.paths
  | .namespaceScope _ | .placeholder => []

def StatementKind.paths : StatementKind → List (List String)
  | .named scope => scope.facets.flatMap fun facet => facet.definition.paths
  | .aliasing target _ => [target]
  | .importing path => [path]
  | _ => []

def Statement.paths (statement : Statement) : List (List String) :=
  statement.kind.paths ++ statement.content.flatMap Expression.paths

def Plainly (paths : List (List String)) : Prop :=
  ∀ path ∈ paths, PlainPath path

instance (paths : List (List String)) : Decidable (Plainly paths) :=
  inferInstanceAs (Decidable (∀ path ∈ paths, PlainPath path))

def PlainlyWritten (tree : ScopeTree) : Prop :=
  ∀ id statement, tree.get? id = some statement → Plainly statement.paths

namespace PlainPath

variable {left right path : List String}

theorem append (first : PlainPath left) (second : PlainPath right) : PlainPath (left ++ right) := by
  intro part member
  rcases List.mem_append.mp member with before | after
  · exact first part before
  · exact second part after

theorem of_append (plain : PlainPath (left ++ right)) : PlainPath left ∧ PlainPath right :=
  ⟨fun part member => plain part (List.mem_append_left _ member),
    fun part member => plain part (List.mem_append_right _ member)⟩

theorem filter_eq (plain : PlainPath path) : (path.filter fun part => part != "") = path := by
  rw [List.filter_eq_self]
  intro part member
  simpa using (plain part member).1

theorem eq_nil_of_join (plain : PlainPath path) (blank : ".".intercalate path = "") : path = [] := by
  cases path with
  | nil => rfl
  | cons first rest =>
    have nonempty := (plain first List.mem_cons_self).1
    cases rest with
    | nil =>
      rw [String.intercalate_singleton] at blank
      exact absurd blank nonempty
    | cons second others =>
      rw [String.intercalate_cons_cons] at blank
      simp at blank

theorem join_injective (first : PlainPath left) (second : PlainPath right)
    (same : ".".intercalate left = ".".intercalate right) : left = right := by
  by_cases blank : left = []
  · subst blank
    rw [String.intercalate_nil] at same
    exact (second.eq_nil_of_join same.symm).symm
  · have inhabited : right ≠ [] := by
      rintro rfl
      rw [String.intercalate_nil] at same
      exact blank (first.eq_nil_of_join same)
    have letters (path : List String) (plain : PlainPath path) (notNil : path ≠ []) :
        (".".intercalate path).toList.splitOn '.' = path.map String.toList := by
      rw [String.toList_intercalate]
      apply List.splitOn_intercalate
      · intro part member
        obtain ⟨own, inside, rfl⟩ := List.mem_map.mp member
        exact (plain own inside).2
      · simpa using notNil
    have split := letters left first blank
    rw [same, letters right second inhabited] at split
    exact (List.map_injective_iff.mpr fun _ _ equal => String.toList_injective equal) split.symm

end PlainPath

section Parts

theorem kind_of_call? {expression : Expression} {call : Call}
    (found : expression.call? = some call) : expression.kind = .call call := by
  rw [Expression.call?] at found
  cases kind : expression.kind with
  | call own =>
    simp only [kind, Option.some.injEq] at found
    rw [found]
  | compound | name _ | type _ | literal _ | operator _ | declaration _ => simp [kind] at found

theorem kind_of_declaration? {expression : Expression} {declared : Variable}
    (found : expression.declaration? = some declared) : expression.kind = .declaration declared := by
  rw [Expression.declaration?] at found
  cases kind : expression.kind with
  | declaration own =>
    simp only [kind, Option.some.injEq] at found
    rw [found]
  | compound | name _ | type _ | literal _ | operator _ | call _ => simp [kind] at found

theorem definition_of_method? {scope : NamedScope} {method : MethodDefinition}
    (found : scope.method? = some method) : scope.definition = .methodScope method := by
  rw [NamedScope.method?] at found
  cases kind : scope.definition with
  | methodScope own =>
    simp only [kind, Definition.method?, Option.some.injEq] at found
    rw [found]
  | namespaceScope _ | typeScope _ | placeholder => simp [kind, Definition.method?] at found

theorem Plainly.kind {expression : Expression} (plain : Plainly expression.paths) :
    Plainly expression.kind.paths := by
  intro path member
  refine plain path (List.mem_flatMap.mpr ⟨expression, ?_, member⟩)
  rw [Expression.subtree_eq]
  exact List.mem_cons_self

theorem Plainly.child {expression part : Expression} (plain : Plainly expression.paths)
    (inside : part ∈ expression.children) : Plainly part.paths := by
  intro path member
  obtain ⟨inner, below, innerPath⟩ := List.mem_flatMap.mp member
  refine plain path (List.mem_flatMap.mpr ⟨inner, ?_, innerPath⟩)
  rw [Expression.subtree_eq]
  exact List.mem_cons_of_mem _ (List.mem_flatMap.mpr ⟨part, inside, below⟩)

theorem Plainly.call {expression : Expression} {call : Call} (plain : Plainly expression.paths)
    (isCall : expression.kind = .call call) : Plainly call.paths := by
  intro path member
  rcases List.mem_cons.mp member with rfl | below
  · exact plain.kind _ (by simp [isCall, ExpressionKind.paths])
  · obtain ⟨object, inside, member⟩ := List.mem_flatMap.mp below
    refine Plainly.child plain (?_ : object ∈ expression.children) path member
    simp only [Expression.children, isCall, List.mem_append]
    exact .inl (.inl inside)

theorem Plainly.declared {expression : Expression} {declared : Variable}
    (plain : Plainly expression.paths) (found : expression.declaration? = some declared) :
    Plainly declared.paths := by
  have isDeclaration := kind_of_declaration? found
  intro path member
  rcases List.mem_append.mp member with type | initial
  · exact plain.kind _ (by simpa [isDeclaration, ExpressionKind.paths] using type)
  · obtain ⟨value, inside, member⟩ := List.mem_flatMap.mp initial
    refine Plainly.child plain (?_ : value ∈ expression.children) path member
    simp only [Expression.children, isDeclaration, List.mem_append]
    exact .inr inside

theorem mem_facets_of_definition {scope : NamedScope} {path : List String}
    (member : path ∈ scope.definition.paths) :
    path ∈ scope.facets.flatMap fun facet => facet.definition.paths := by
  rw [NamedScope.definition] at member
  cases chosen : scope.primary? with
  | none => simp [chosen, Definition.paths] at member
  | some facet =>
    simp only [chosen] at member
    exact List.mem_flatMap.mpr ⟨facet, foremost?_mem chosen, member⟩

end Parts

namespace PlainlyWritten

variable {tree : ScopeTree} {id : StatementId}

theorem facets (written : PlainlyWritten tree) {scope : NamedScope}
    (scopeAt : tree.scope? id = some scope) :
    Plainly (scope.facets.flatMap fun facet => facet.definition.paths) := by
  obtain ⟨statement, found, own⟩ := Option.bind_eq_some_iff.mp scopeAt
  have kind := kind_of_scope? own
  intro path member
  exact written id statement found path
    (List.mem_append_left _ (by simpa [kind, StatementKind.paths] using member))

theorem method (written : PlainlyWritten tree) {method : MethodDefinition}
    (methodAt : tree.method? id = some method) : Plainly (Definition.methodScope method).paths := by
  obtain ⟨statement, found, own⟩ := Option.bind_eq_some_iff.mp methodAt
  obtain ⟨scope, scopeAt, definition⟩ := Option.bind_eq_some_iff.mp own
  have treeScope : tree.scope? id = some scope := by simp [scope?, found, scopeAt]
  intro path member
  rw [← definition_of_method? definition] at member
  exact written.facets treeScope path (mem_facets_of_definition member)

theorem declarations (written : PlainlyWritten tree) {found : Declared}
    (member : found ∈ tree.declarations id) : Plainly found.declared.paths := by
  have inContent {scope owner : StatementId} {statement : Statement}
      (ownerAt : tree.get? owner = some statement)
      (member : found ∈ contentDeclarations scope owner statement) :
      Plainly found.declared.paths := by
    obtain ⟨⟨expression, index⟩, inside, made⟩ := List.mem_filterMap.mp member
    obtain ⟨declared, isDeclared, rfl⟩ := Option.map_eq_some_iff.mp made
    have content : expression ∈ statement.content := (List.mem_zipIdx inside).2.2 ▸ List.getElem_mem _
    apply Plainly.declared _ isDeclared
    intro path inPath
    exact written owner statement ownerAt path
      (List.mem_append_right _ (List.mem_flatMap.mpr ⟨expression, content, inPath⟩))
  unfold ScopeTree.declarations at member
  cases own : tree.get? id with
  | none => simp [own] at member
  | some statement =>
    simp only [own, List.mem_append] at member
    rcases member with (parameter | header) | inner
    · unfold parameterDeclarations at parameter
      cases methodAt : statement.method? with
      | none => simp [methodAt] at parameter
      | some method =>
        simp only [methodAt, List.mem_map] at parameter
        obtain ⟨⟨declared, index⟩, inside, rfl⟩ := parameter
        have listed : declared ∈ method.parameters :=
          (List.mem_zipIdx inside).2.2 ▸ List.getElem_mem _
        have treeMethod : tree.method? id = some method := by
          simp [ScopeTree.method?, own, methodAt]
        intro path inPath
        exact written.method treeMethod path
          (List.mem_append_right _ (List.mem_flatMap.mpr ⟨declared, listed, inPath⟩))
    · split at header
      · exact inContent own header
      · simp at header
    · obtain ⟨child, _, below⟩ := List.mem_flatMap.mp inner
      cases childAt : tree.get? child with
      | none => simp [childAt] at below
      | some statement =>
        simp only [childAt] at below
        split at below
        · exact inContent childAt below
        · simp at below

end PlainlyWritten

section Imports

variable {resolver : Resolver} {scope : StatementId} {use : Location} {path imported : List String}

theorem mem_importedPaths (member : imported ∈ resolver.importedPaths scope use path) :
    (∃ id statement target name rest, resolver.tree.get? id = some statement ∧
      statement.kind = .aliasing target name ∧ path = name :: rest ∧ imported = target ++ rest) ∨
    ∃ id statement target, resolver.tree.get? id = some statement ∧
      statement.kind = .importing target ∧ path ≠ [] ∧ imported = target ++ path := by
  simp only [Resolver.importedPaths, List.mem_flatMap, List.mem_filterMap] at member
  obtain ⟨level, _, child, _, made⟩ := member
  cases found : resolver.tree.get? child with
  | none => simp [found] at made
  | some statement =>
    simp only [found, Option.ite_none_right_eq_some] at made
    obtain ⟨_, made⟩ := made
    cases kind : statement.kind with
    | aliasing target name =>
      cases path with
      | nil => simp [kind, Resolver.expandPath] at made
      | cons first rest =>
        simp only [kind, Resolver.expandPath, Option.ite_none_right_eq_some, beq_iff_eq,
          Option.some.injEq] at made
        exact .inl ⟨child, statement, target, name, rest, found, kind, by rw [made.1], made.2.symm⟩
    | importing target =>
      simp only [kind, Resolver.expandPath, Option.ite_none_left_eq_some, List.isEmpty_iff,
        Option.some.injEq] at made
      exact .inr ⟨child, statement, target, found, kind, made.1, made.2.symm⟩
    | _ => simp [kind, Resolver.expandPath] at made

theorem PlainlyWritten.importedPaths (written : PlainlyWritten resolver.tree) (plain : PlainPath path)
    (member : imported ∈ resolver.importedPaths scope use path) : PlainPath imported := by
  rcases mem_importedPaths member with
    ⟨id, statement, target, name, rest, found, kind, rfl, rfl⟩ |
      ⟨id, statement, target, found, kind, _, rfl⟩
  · refine (written id statement found target ?_).append fun part inside =>
      plain part (List.mem_cons_of_mem _ inside)
    simp [Statement.paths, kind, StatementKind.paths]
  · refine (written id statement found target ?_).append plain
    simp [Statement.paths, kind, StatementKind.paths]

end Imports

end ScopeAtlas
