import ScopeAtlas.Proofs.Shadowing

/-!
Variables that are declared in the header of a statement. Reading keeps such declarations among the
own expressions of every scope that has a header; lookup takes them from loops over a control part,
handlers and locks only. In those a variable is visible from everywhere in the statement, and in the
other scopes with a header no lookup ever gives it.

Main statement: `header_variables_visible`.
-/

namespace ScopeAtlas

open Markup ScopeTree SourceUnit Resolver

section Lookup

variable {tree : ScopeTree} {id : StatementId} {statement : Statement}

theorem firstNonEmpty_ne_nil {α β : Type} {search : α → List β} {places : List α} {place : α}
    (member : place ∈ places) (found : search place ≠ []) : firstNonEmpty search places ≠ [] := by
  induction places with
  | nil => simp at member
  | cons first rest ih =>
    rw [firstNonEmpty_cons]
    by_cases silent : search first = []
    · rw [if_pos silent]
      rcases List.mem_cons.mp member with same | later
      · exact absurd (same ▸ silent) found
      · exact ih later
    · rwa [if_neg silent]

theorem mem_lineage_of_under (formed : tree.WellFormed) (live : tree.isLive id = true)
    {inner : StatementId} (under : View.Under tree.get? id inner) : id ∈ tree.lineage inner := by
  induction under with
  | self => exact mem_lineage_self live
  | step _ aboveAt listed ih =>
    obtain ⟨below, belowAt, parentAt⟩ := formed.linked aboveAt listed
    rw [lineage_child formed belowAt parentAt]
    exact List.mem_cons_of_mem _ ih

theorem mem_lineage_of_mem_subtree (formed : tree.WellFormed) {inner : StatementId}
    (member : inner ∈ tree.subtree id) : id ∈ tree.lineage inner := by
  rw [subtree] at member
  split at member
  next live =>
    rcases List.mem_cons.mp member with same | below
    · rw [same]
      exact mem_lineage_self live
    · exact mem_lineage_of_under formed live (under_of_mem_below formed _ below).1
  next => simp at member

end Lookup

/-! ### Headers that lookup reads -/

section Header

variable {tree : ScopeTree} {id : StatementId} {statement : Statement} {index : Nat}
  {expression : Expression} {declared : Variable}

theorem mem_declarationsForUse_of_header (found : tree.get? id = some statement)
    (header : statement.kind.declaresInHeader = true)
    (written : statement.content[index]? = some expression)
    (declares : expression.declaration? = some declared) {use : Location}
    (before : expression.location.start ≤ use.start) :
    ⟨id, .expression id index, declared, some expression.location⟩ ∈
      tree.declarationsForUse id declared.name use := by
  have own : ⟨id, .expression id index, declared, some expression.location⟩ ∈
      contentDeclarations id id statement := by
    refine List.mem_filterMap.mpr ⟨(expression, index), ?_, by simp [declares]⟩
    exact List.mem_zipIdx_iff_getElem?.mpr written
  refine List.mem_filter.mpr ⟨?_, by simp [before]⟩
  rw [declarations, found]
  simp only [header, if_true]
  exact List.mem_append_left _ (List.mem_append_right _ own)

theorem variablesAt_of_declared {resolver : Resolver} {name : String} {use : Location}
    (found : resolver.tree.declarationsForUse id name use ≠ []) :
    resolver.variablesAt name use id = resolver.tree.declarationsForUse id name use := by
  rw [variablesAt]
  split
  · contradiction
  · rfl

end Header

/-! ### Headers that lookup passes over -/

section Unread

variable {tree : ScopeTree} {id : StatementId} {statement : Statement}

theorem owner_of_mem_contentDeclarations {scope owner other : StatementId} {index : Nat}
    {found : Declared} (member : found ∈ contentDeclarations scope other statement)
    (site : found.site = .expression owner index) : owner = other := by
  obtain ⟨pair, _, made⟩ := List.mem_filterMap.mp member
  obtain ⟨declared, _, rfl⟩ := Option.map_eq_some_iff.mp made
  simp only [DeclarationSite.expression.injEq] at site
  exact site.1.symm

theorem expression_of_mem_declarations {level owner : StatementId} {index : Nat} {found : Declared}
    (member : found ∈ tree.declarations level) (site : found.site = .expression owner index) :
    ∃ own, tree.get? owner = some own ∧
      (own.kind.declaresInHeader = true ∨ own.kind = .declaration) := by
  rw [declarations] at member
  cases levelAt : tree.get? level with
  | none => simp [levelAt] at member
  | some statement =>
    simp only [levelAt, List.mem_append, List.mem_flatMap] at member
    rcases member with (parameter | header) | ⟨child, _, inner⟩
    · rw [parameterDeclarations] at parameter
      split at parameter
      · simp at parameter
      · obtain ⟨_, _, rfl⟩ := List.mem_map.mp parameter
        simp at site
    · split at header
      next reads =>
        obtain rfl := owner_of_mem_contentDeclarations header site
        exact ⟨statement, levelAt, .inl reads⟩
      next => simp at header
    · cases childAt : tree.get? child with
      | none => simp [childAt] at inner
      | some own =>
        simp only [childAt] at inner
        split at inner
        next isDeclaration =>
          obtain rfl := owner_of_mem_contentDeclarations inner site
          exact ⟨own, childAt, .inr isDeclaration⟩
        next => simp at inner

theorem exists_declarations_of_findVariables {resolver : Resolver} {scope : StatementId}
    {name : NameUse} {use : Location} {found : Declared}
    (member : found ∈ resolver.findVariables scope name use) :
    ∃ level, found ∈ resolver.tree.declarations level := by
  have fields {owners : List StatementId} {field : String}
      (inside : found ∈ resolver.fieldsIn owners field) :
      ∃ level, found ∈ resolver.tree.declarations level := by
    obtain ⟨declared, _⟩ := List.mem_filter.mp (mem_of_mem_distinctOn inside)
    obtain ⟨level, _, here⟩ := List.mem_flatMap.mp declared
    exact ⟨level, here⟩
  cases qualified : name.qualifier with
  | some qualifier =>
    rw [findVariables, qualified] at member
    exact fields member
  | none =>
    rw [findVariables_bare _ _ qualified] at member
    obtain ⟨level, _, inside⟩ := mem_of_mem_firstNonEmpty member
    rw [variablesAt] at inside
    split at inside
    · split at inside
      · exact fields inside
      · simp at inside
    · exact ⟨level, (List.mem_filter.mp inside).1⟩

end Unread

/-- In a tree that is read from a unit, let a scope declare a variable among its own expressions.
Then it is a scope with a header. If lookup reads this sort of header, a use of the name that does
not stand before the declaration finds a variable from everywhere in the scope, and in the scope
itself it finds this one. If not, no lookup at all finds this one. -/
theorem header_variables_visible {language : Language} {element : Element} {unit : ScopeTree}
    (parsed : readAs language element = .ok unit) {id : StatementId} {statement : Statement}
    (found : unit.get? id = some statement) (isScope : statement.isScope = true) {index : Nat}
    {expression : Expression} (written : statement.content[index]? = some expression)
    {declared : Variable} (declares : expression.declaration? = some declared)
    (inventory : Option Inventory) :
    statement.kind.hasHeader = true ∧
    (statement.kind.declaresInHeader = true → ∀ use : Location,
      expression.location.start ≤ use.start →
      (∃ seen ∈ (⟨unit, inventory⟩ : Resolver).findVariables id ⟨declared.name, none⟩ use,
        seen.site = .expression id index) ∧
      ∀ inner ∈ unit.subtree id,
        (⟨unit, inventory⟩ : Resolver).findVariables inner ⟨declared.name, none⟩ use ≠ []) ∧
    (statement.kind.declaresInHeader = false → ∀ scope name use,
      ∀ seen ∈ (⟨unit, inventory⟩ : Resolver).findVariables scope name use,
        seen.site ≠ .expression id index) := by
  obtain ⟨_, _, ofUnit⟩ := readAs_unitTree parsed
  have formed := ofUnit.formed
  refine ⟨?_, fun header use before => ?_, fun unread scope name use seen member site => ?_⟩
  · by_contra noHeader
    rw [Bool.not_eq_true] at noHeader
    have silent := (ofUnit.readFrom found).headed isScope noHeader expression
      (List.mem_of_getElem? written)
    simp [silent] at declares
  · have own := mem_declarationsForUse_of_header found header written declares before
    have answers := @variablesAt_of_declared id ⟨unit, inventory⟩ declared.name use
      (List.ne_nil_of_mem own)
    constructor
    · refine ⟨⟨id, .expression id index, declared, some expression.location⟩, ?_, rfl⟩
      have live : unit.isLive id = true := by simp [isLive, found]
      rw [findVariables_bare _ _ rfl, lineage, if_pos live, climbBound, climb, firstNonEmpty_cons,
        answers, if_neg (List.ne_nil_of_mem own)]
      exact own
    · intro inner member
      rw [findVariables_bare _ _ rfl]
      refine firstNonEmpty_ne_nil (mem_lineage_of_mem_subtree formed member) ?_
      rw [answers]
      exact List.ne_nil_of_mem own
  · obtain ⟨level, inside⟩ := exists_declarations_of_findVariables member
    obtain ⟨other, otherAt, reads⟩ := expression_of_mem_declarations inside site
    obtain rfl : statement = other := Option.some.inj (found.symm.trans otherAt)
    rcases reads with header | isDeclaration
    · simp [unread] at header
    · simp [Statement.isScope, isDeclaration, StatementKind.isScope] at isScope

def wrapped (tag : String) (inner : List Node) : Node :=
  .element (.make tag [] ("/" ++ tag)) inner

def headerUnit (file tag : String) (header : Node) : Element :=
  ⟨.make "unit" [("filename", file)] "/unit",
    [scopeNode "function" "f" "/unit/function[1]"
      [wrapped tag [header, wrapped "block" [wrapped "block" []]]]]⟩

def declaringNode (name : String) : Node :=
  wrapped "init" [wrapped "decl" [leafNode "name" name "/name"]]

def loopTree : ScopeTree :=
  treeOf (headerUnit "a.cpp" "for" (wrapped "control" [declaringNode "i"]))

def resourceTree : ScopeTree :=
  (readAs .java (headerUnit "A.java" "try" (declaringNode "r"))).toOption.getD (.empty .java)

def DeclaresAt (tree : ScopeTree) (id : StatementId) (name : String) (use : Location) : Prop :=
  ∃ own ∈ tree.get? id, own.isScope = true ∧ own.containsLocation use = true ∧
    ∃ expression ∈ own.content[0]?, expression.location.inFile use.file = true ∧
      expression.location.start ≤ use.start ∧
      ∃ declared ∈ expression.declaration?, declared.name = name

instance (tree : ScopeTree) (id : StatementId) (name : String) (use : Location) :
    Decidable (DeclaresAt tree id name use) :=
  inferInstanceAs (Decidable (∃ own ∈ tree.get? id, own.isScope = true ∧
    own.containsLocation use = true ∧ ∃ expression ∈ own.content[0]?,
      expression.location.inFile use.file = true ∧ expression.location.start ≤ use.start ∧
      ∃ declared ∈ expression.declaration?, declared.name = name))

theorem header_variables_visible_in_loop :
    DeclaresAt loopTree 2 "i" (.point "a.cpp" 5 1) ∧ 3 ∈ loopTree.subtree 2 ∧
      (ofTree loopTree true).findVariables 3 ⟨"i", none⟩ (.point "a.cpp" 5 1) ≠ [] := by
  have shown : DeclaresAt loopTree 2 "i" (.point "a.cpp" 5 1) := by decide +kernel
  have below : 3 ∈ loopTree.subtree 2 := by decide +kernel
  have reads : ∀ own ∈ loopTree.get? 2, own.kind.declaresInHeader = true := by decide +kernel
  refine ⟨shown, below, ?_⟩
  obtain ⟨statement, found, isScope, _, expression, written, _, before, declared, declares, named⟩ :=
    shown
  have parsed : readAs .cPlusPlus (headerUnit "a.cpp" "for" (wrapped "control" [declaringNode "i"])) =
    .ok loopTree := rfl
  rw [← named]
  exact ((header_variables_visible parsed found isScope written declares _).2.1
    (reads statement found) _ before).2 3 below

/-- A variable that a `try` declares in its header is not found from inside the statement. -/
theorem header_variables_hidden_in_resource :
    readAs .java (headerUnit "A.java" "try" (declaringNode "r")) = .ok resourceTree ∧
      DeclaresAt resourceTree 2 "r" (.point "A.java" 5 1) ∧ 3 ∈ resourceTree.subtree 2 ∧
      (resourceTree.get? 3).any Statement.isScope = true ∧
      (ofTree resourceTree true).findVariables 3 ⟨"r", none⟩ (.point "A.java" 5 1) = [] ∧
      (ofTree resourceTree false).findVariables 2 ⟨"r", none⟩ (.point "A.java" 5 1) = [] := by
  refine ⟨rfl, ?_, ?_, ?_, ?_, ?_⟩
  · decide +kernel
  · decide +kernel
  · decide +kernel
  · decide +kernel
  · decide +kernel

end ScopeAtlas
