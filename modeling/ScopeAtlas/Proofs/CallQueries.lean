import ScopeAtlas.Proofs.InventoryAgreement
import ScopeAtlas.Query.CallGraph
import ScopeAtlas.Query.Calls

/-!
The calls-to query against the call graph. The graph resolves every call, the query first drops the
calls that do not fit the method by name and number of arguments. Nothing is lost by that where every
call that resolves to the method is written with the name of the method.
-/

namespace ScopeAtlas

open Markup ScopeTree SourceUnit Resolver

section Edges

variable {graph : CallGraph} {caller callee : StatementId}

theorem relates_iff : graph.relates caller callee = true ↔ callee ∈ graph.callees caller :=
  List.contains_iff_mem

theorem mem_callees_addCall (source : StatementId) (targets : List StatementId) :
    callee ∈ (graph.addCall source targets).callees caller ↔
      callee ∈ graph.callees caller ∨ caller = source ∧ callee ∈ targets := by
  change callee ∈ (targets.foldl (fun current callee => current.addEdge source callee)
    graph).callees caller ↔ _
  induction targets generalizing graph with
  | nil => simp
  | cons target rest ih =>
    rw [List.foldl_cons, ih, CallGraph.mem_callees_addEdge, or_assoc, List.mem_cons, and_or_left]

theorem relates_build_iff (resolver : Resolver) :
    (CallGraph.build resolver).relates caller callee = true ↔
      ∃ expression, (caller, expression) ∈ CallGraph.attributedCalls resolver.tree ∧
        callee ∈ resolver.methodsOf expression := by
  have steps : ∀ (calls : List (StatementId × Expression)) (graph : CallGraph),
      callee ∈ (calls.foldl (fun graph call =>
        graph.addCall call.1 (resolver.methodsOf call.2)) graph).callees caller ↔
      callee ∈ graph.callees caller ∨ ∃ expression, (caller, expression) ∈ calls ∧
        callee ∈ resolver.methodsOf expression := by
    intro calls
    induction calls with
    | nil => simp
    | cons call rest ih =>
      intro graph
      rw [List.foldl_cons, ih, mem_callees_addCall, or_assoc]
      refine or_congr_right ?_
      constructor
      · rintro (⟨rfl, target⟩ | ⟨expression, later, target⟩)
        · exact ⟨call.2, List.mem_cons_self, target⟩
        · exact ⟨expression, List.mem_cons_of_mem _ later, target⟩
      · rintro ⟨expression, member, target⟩
        rcases List.mem_cons.mp member with rfl | later
        · exact .inl ⟨rfl, target⟩
        · exact .inr ⟨expression, later, target⟩
  rw [relates_iff]
  refine (steps _ CallGraph.empty).trans ?_
  simp [CallGraph.empty, CallGraph.callees, listUnder]

end Edges

/-- A call that is written in a statement whose nearest enclosing method is the caller. -/
def WrittenIn (tree : ScopeTree) (caller : StatementId) (expression : Expression) : Prop :=
  ∃ id statement, tree.get? id = some statement ∧ tree.enclosingMethod? id = some caller ∧
    expression ∈ statement.calls

theorem mem_subtree_root {tree : ScopeTree} (formed : tree.WellFormed) {id : StatementId} :
    id ∈ tree.subtree root ↔ tree.isLive id = true := by
  obtain ⟨top, topAt, _⟩ := formed.top
  have live : tree.isLive root = true := by simp [isLive, topAt]
  rw [subtree, if_pos live, List.mem_cons, mem_descendants_root formed]
  by_cases isRoot : id = root
  · simp [isRoot, live]
  · simp [isRoot]

theorem mem_attributedCalls_iff {tree : ScopeTree} (formed : tree.WellFormed) {caller : StatementId}
    {expression : Expression} :
    (caller, expression) ∈ CallGraph.attributedCalls tree ↔ WrittenIn tree caller expression := by
  simp only [CallGraph.attributedCalls, List.mem_flatMap, mem_subtree_root formed]
  constructor
  · rintro ⟨id, live, member⟩
    cases enclosing : tree.enclosingMethod? id with
    | none => simp [enclosing] at member
    | some method =>
      cases found : tree.get? id with
      | none => simp [isLive, found] at live
      | some statement =>
        simp only [enclosing, found, List.mem_map, Prod.mk.injEq] at member
        obtain ⟨own, inside, rfl, rfl⟩ := member
        exact ⟨id, statement, found, enclosing, inside⟩
  · rintro ⟨id, statement, found, enclosing, inside⟩
    exact ⟨id, by simp [isLive, found], by simp [enclosing, found, inside]⟩

theorem mem_callsIn_root {tree : ScopeTree} (formed : tree.WellFormed) {expression : Expression} :
    expression ∈ tree.callsIn root true ↔
      ∃ id statement, tree.get? id = some statement ∧ expression ∈ statement.calls := by
  simp only [callsIn, if_true, List.mem_flatMap, List.mem_filterMap, mem_subtree_root formed]
  constructor
  · rintro ⟨statement, ⟨id, _, found⟩, inside⟩
    exact ⟨id, statement, found, inside⟩
  · rintro ⟨id, statement, found, inside⟩
    exact ⟨statement, ⟨id, by simp [isLive, found], found⟩, inside⟩

/-! ### Names of what is found -/

/-- The resolver walks the tree, or it has the inventory of the tree and all names can be told apart
in it. -/
def NamesFaithfully (resolver : Resolver) : Prop :=
  resolver.inventory = none ∨ resolver.inventory = some (.build resolver.tree) ∧
    Dotless resolver.tree ∧ PlainlyWritten resolver.tree

def Tells (resolver : Resolver) (path : List String) : Prop :=
  resolver.inventory = none ∨ PlainPath path

def StatementKind.renaming? : StatementKind → Option (String × String)
  | .aliasing target name => target.getLast?.map fun last => (last, name)
  | _ => none

/-- A method is bound by its own name: a constructor has the name of its type, and no alias gives
another name to what ends in the method's name. -/
structure OwnName (tree : ScopeTree) (method : StatementId) : Prop where
  constructor : ∀ definition type, tree.method? method = some definition →
    definition.isConstructor = true → tree.parent? method = some type →
    tree.name? type = tree.name? method
  unaliased : ∀ id statement last name, tree.get? id = some statement →
    statement.kind.renaming? = some (last, name) → tree.name? method = some last → name = last

instance (tree : ScopeTree) (method : StatementId) : Decidable (OwnName tree method) :=
  decidable_of_iff
    ((∀ definition ∈ tree.method? method, definition.isConstructor = true →
        ∀ type ∈ tree.parent? method, tree.name? type = tree.name? method) ∧
      ∀ id ∈ tree.ids, ∀ statement ∈ tree.get? id, ∀ pair ∈ statement.kind.renaming?,
        tree.name? method = some pair.1 → pair.2 = pair.1)
    ⟨fun ⟨constructor, unaliased⟩ =>
        ⟨fun definition type methodAt isConstructor parentAt =>
            constructor definition methodAt isConstructor type parentAt,
          fun id statement last name found renames =>
            unaliased id (mem_ids_of_get? found) statement found (last, name) renames⟩,
      fun own => ⟨fun definition methodAt isConstructor type parentAt =>
          own.constructor definition type methodAt isConstructor parentAt,
        fun id _ statement found pair renames =>
          own.unaliased id statement pair.1 pair.2 found renames⟩⟩

section Names

variable {resolver : Resolver} {id level scope : StatementId} {use : Location} {path : List String}

theorem getLast?_qualifiedParts {tree : ScopeTree} {name : String} (titled : Titled tree id name) :
    (tree.qualifiedParts id).getLast? = some name := by
  obtain ⟨statement, _, found, _⟩ := titled.get?
  rw [qualifiedParts, lineage, if_pos (by simp [isLive, found]), climbBound, climb,
    List.filterMap_cons, titled.name?]
  simp [titled.nonempty]

theorem name?_of_lookupRelative (faithful : NamesFaithfully resolver) (told : Tells resolver path)
    (inhabited : path ≠ []) (found : id ∈ resolver.lookupRelative level path) :
    resolver.tree.name? id = path.getLast? := by
  rw [lookupRelative, if_neg (by simpa using inhabited)] at found
  rcases faithful with walks | ⟨knows, dotless, _⟩
  · rw [walks] at found
    obtain ⟨front, last, rfl⟩ := List.eq_nil_or_concat' path |>.resolve_left inhabited
    obtain ⟨inside, _⟩ : id ∈ ((resolver.walkPath level front).flatMap fun outer =>
        resolver.tree.namedChildren outer last) ∧ resolver.isContainer id = true := by
      simpa [walkPath, List.foldl_append] using found
    obtain ⟨outer, _, child⟩ := List.mem_flatMap.mp inside
    have named := (List.mem_filter.mp child).2
    rw [beq_iff_eq] at named
    simp [named]
  · have plain : PlainPath path := told.resolve_left (by simp [knows])
    rw [knows] at found
    obtain ⟨member, _⟩ := List.mem_filter.mp found
    obtain ⟨⟨name, titled⟩, parts⟩ :=
      titled_of_mem_lookupParts dotless ((dotless.plain level).append plain) member
    have last := getLast?_qualifiedParts titled
    rw [parts, List.getLast?_append_of_ne_nil _ inhabited] at last
    rw [titled.name?, last]

theorem Tells.imported (faithful : NamesFaithfully resolver) (told : Tells resolver path)
    {imported : List String} (member : imported ∈ resolver.importedPaths scope use path) :
    Tells resolver imported := by
  rcases faithful with walks | ⟨_, _, written⟩
  · exact .inl walks
  · exact told.imp_right fun plain => written.importedPaths plain member

theorem getLast?_imported {imported : List String} {last : String}
    (member : imported ∈ resolver.importedPaths scope use path) (ends : imported.getLast? = some last) :
    path.getLast? = some last ∨ ∃ other statement name, resolver.tree.get? other = some statement ∧
      statement.kind.renaming? = some (last, name) ∧ path = [name] := by
  rcases mem_importedPaths member with
    ⟨other, statement, target, name, rest, found, kind, rfl, rfl⟩ |
      ⟨other, statement, target, found, kind, inhabited, rfl⟩
  · by_cases single : rest = []
    · subst single
      rw [List.append_nil] at ends
      exact .inr ⟨other, statement, name, found,
        by rw [kind, StatementKind.renaming?, ends, Option.map_some], rfl⟩
    · rw [List.getLast?_append_of_ne_nil _ single] at ends
      refine .inl ?_
      rw [← ends, ← List.singleton_append, List.getLast?_append_of_ne_nil _ single]
  · rw [List.getLast?_append_of_ne_nil _ inhabited] at ends
    exact .inl ends

theorem scope?_of_accepted {accept : NamedScope → Bool} {ids : List StatementId}
    (found : id ∈ resolver.accepted accept ids) :
    id ∈ ids ∧ ∃ own, resolver.tree.scope? id = some own := by
  obtain ⟨member, kept⟩ := List.mem_filter.mp found
  refine ⟨member, ?_⟩
  cases scopeAt : resolver.tree.scope? id with
  | none => simp [scopeAt] at kept
  | some own => exact ⟨own, rfl⟩

theorem mem_findScopes {accept : NamedScope → Bool}
    (found : id ∈ resolver.findScopes scope use path accept) :
    (∃ level name, path = [name] ∧
      id ∈ resolver.accepted accept (resolver.tree.namedChildrenForUse level name use)) ∨
    (∃ level, path ≠ [] ∧ id ∈ resolver.accepted accept (resolver.lookupRelative level path)) ∨
    ∃ imported ∈ resolver.importedPaths scope use path,
      id ∈ resolver.accepted accept (resolver.lookupAbsolute imported) := by
  match path with
  | [] =>
    obtain ⟨imported, member, inside⟩ := List.mem_flatMap.mp (mem_of_mem_distinctOn found)
    exact .inr (.inr ⟨imported, member, inside⟩)
  | [name] =>
    simp only [findScopes] at found
    split at found
    · obtain ⟨imported, member, inside⟩ := List.mem_flatMap.mp (mem_of_mem_distinctOn found)
      exact .inr (.inr ⟨imported, member, inside⟩)
    · obtain ⟨level, _, inside⟩ := mem_of_mem_firstNonEmpty found
      exact .inl ⟨level, name, rfl, inside⟩
  | first :: second :: rest =>
    simp only [findScopes] at found
    split at found
    · obtain ⟨imported, member, inside⟩ := List.mem_flatMap.mp (mem_of_mem_distinctOn found)
      exact .inr (.inr ⟨imported, member, inside⟩)
    · obtain ⟨level, _, inside⟩ := mem_of_mem_firstNonEmpty found
      exact .inr (.inl ⟨level, by simp, inside⟩)

theorem name?_of_findScopes (faithful : NamesFaithfully resolver) (told : Tells resolver path)
    (bare : resolver.tree.scope? root = none) {accept : NamedScope → Bool}
    (found : id ∈ resolver.findScopes scope use path accept) :
    ∃ last, resolver.tree.name? id = some last ∧ (path.getLast? = some last ∨
      ∃ other statement name, resolver.tree.get? other = some statement ∧
        statement.kind.renaming? = some (last, name) ∧ path = [name]) := by
  rcases mem_findScopes found with
    ⟨level, name, rfl, inside⟩ | ⟨level, inhabited, inside⟩ | ⟨imported, member, inside⟩
  · obtain ⟨member, _⟩ := scope?_of_accepted inside
    have child := (List.mem_filter.mp (List.mem_filter.mp member).1).2
    rw [beq_iff_eq] at child
    exact ⟨name, child, .inl rfl⟩
  · obtain ⟨looked, own, ownAt⟩ := scope?_of_accepted inside
    have named := name?_of_lookupRelative faithful told inhabited looked
    rw [name?_of_scope? ownAt] at named
    exact ⟨own.name, name?_of_scope? ownAt, .inl named.symm⟩
  · obtain ⟨looked, own, ownAt⟩ := scope?_of_accepted inside
    have inhabited : imported ≠ [] := by
      rintro rfl
      have isRoot : id = root := by simpa [lookupAbsolute, lookupRelative] using looked
      simp [isRoot, bare] at ownAt
    have named := name?_of_lookupRelative faithful (told.imported faithful member) inhabited looked
    rw [name?_of_scope? ownAt] at named
    exact ⟨own.name, name?_of_scope? ownAt, getLast?_imported member named.symm⟩

end Names

/-! ### The filter -/

section Filter

variable {resolver : Resolver} {method scope : StatementId} {call : Call} {use : Location}

theorem constructor_of_findTypes (formed : resolver.tree.WellFormed)
    (bare : resolver.tree.scope? root = none) (faithful : NamesFaithfully resolver)
    (own : OwnName resolver.tree method) {type : TypeUse} {arity : Nat}
    (told : Tells resolver type.path)
    (member : method ∈ resolver.constructorsOf (resolver.findTypes scope type use) arity) :
    resolver.tree.name? method = some type.name ∧ ∃ definition,
      resolver.tree.method? method = some definition ∧ definition.isConstructor = true ∧
        definition.acceptsArity arity = true := by
  obtain ⟨id, found, inside⟩ := List.mem_flatMap.mp (mem_of_mem_distinctOn member)
  obtain ⟨child, fits⟩ := List.mem_filter.mp inside
  cases methodAt : resolver.tree.method? method with
  | none => simp [methodAt] at fits
  | some definition =>
    simp only [methodAt, Bool.and_eq_true] at fits
    refine ⟨?_, definition, rfl, fits.1, fits.2⟩
    have parentAt : resolver.tree.parent? method = some id := by
      obtain ⟨statement, statementAt, listed⟩ := exists_of_mem_children child
      obtain ⟨below, belowAt, above⟩ := formed.linked statementAt listed
      simp [parent?, belowAt, above]
    have named := own.constructor definition id methodAt fits.1 parentAt
    unfold findTypes at found
    split at found
    · simp at found
    · obtain ⟨last, lastAt, ends⟩ := name?_of_findScopes faithful told bare found
      rw [named] at lastAt
      rcases ends with same | ⟨other, statement, name, otherAt, renames, single⟩
      · rw [lastAt, ← same, TypeUse.path, List.getLast?_concat]
      · have renamed := own.unaliased other statement last name otherAt renames lastAt
        rw [lastAt, ← renamed]
        have sameLast := congrArg List.getLast? single
        rw [TypeUse.path, List.getLast?_concat] at sameLast
        exact sameLast.symm

theorem callFits_of_keyword {tree : ScopeTree} {definition : MethodDefinition}
    (keyword : call.isKeyword = true) (methodAt : tree.method? method = some definition)
    (constructs : definition.isConstructor = true)
    (fits : definition.acceptsArity call.arity = true) : tree.callFits call method = true := by
  obtain ⟨statement, found, own⟩ := Option.bind_eq_some_iff.mp methodAt
  obtain ⟨scope, scopeAt, _⟩ := Option.bind_eq_some_iff.mp own
  have named : tree.name? method = some scope.name :=
    name?_of_scope? (by simp [scope?, found, scopeAt])
  simp [callFits, named, methodAt, keyword, constructs, fits]

theorem callFits_of_name {tree : ScopeTree} {definition : MethodDefinition}
    (ordinary : call.isKeyword = false) (named : tree.name? method = some call.name)
    (methodAt : tree.method? method = some definition)
    (constructs : call.isConstructor = true → definition.isConstructor = true)
    (fits : definition.acceptsArity call.arity = true) : tree.callFits call method = true := by
  simp only [callFits, named, methodAt, ordinary, Bool.false_eq_true, if_false, beq_self_eq_true,
    Bool.true_and, fits, Bool.and_true, Bool.or_eq_true, Bool.not_eq_true']
  by_cases isConstructor : call.isConstructor = true
  · exact .inr (constructs isConstructor)
  · exact .inl (by simpa using isConstructor)

theorem callFits_of_accepts {tree : ScopeTree} {inventory : Option Inventory}
    (ordinary : call.isKeyword = false) (plain : call.isConstructor = false)
    (named : tree.name? method = some call.name)
    (accepted : (⟨tree, inventory⟩ : Resolver).accepts call method = true) :
    tree.callFits call method = true := by
  rw [accepts] at accepted
  cases methodAt : tree.method? method with
  | none => simp [methodAt] at accepted
  | some definition =>
    simp only [methodAt, Bool.and_eq_true] at accepted
    exact callFits_of_name ordinary named methodAt (by simp [plain]) accepted.2

theorem mem_methodsIn {owners : List StatementId} (member : method ∈ resolver.methodsIn owners call) :
    resolver.tree.name? method = some call.name ∧ resolver.accepts call method = true := by
  obtain ⟨level, _, inside⟩ := List.mem_flatMap.mp (mem_of_mem_distinctOn member)
  obtain ⟨child, accepted⟩ := List.mem_filter.mp inside
  have named := (List.mem_filter.mp child).2
  rw [beq_iff_eq] at named
  exact ⟨named, accepted⟩

theorem name?_of_members (own : OwnName resolver.tree method) {name : String}
    (member : method ∈ resolver.enclosingMembers scope name use ++
      resolver.importedMembers scope name use) : resolver.tree.name? method = some name := by
  rcases List.mem_append.mp member with enclosing | imported
  · obtain ⟨level, _, inside⟩ := List.mem_flatMap.mp enclosing
    rcases List.mem_append.mp inside with here | inherited
    · simpa using (List.mem_filter.mp (List.mem_filter.mp here).1).2
    · split at inherited
      · obtain ⟨base, _, child⟩ := List.mem_flatMap.mp inherited
        simpa using (List.mem_filter.mp child).2
      · simp at inherited
  · obtain ⟨path, among, inside⟩ := List.mem_flatMap.mp imported
    rw [membersAt] at inside
    cases ends : path.getLast? with
    | none => simp [ends] at inside
    | some last =>
      simp only [ends] at inside
      obtain ⟨owner, _, child⟩ := List.mem_flatMap.mp inside
      have named : resolver.tree.name? method = some last := by
        simpa using (List.mem_filter.mp child).2
      rcases getLast?_imported among ends with same |
        ⟨other, statement, given, otherAt, renames, single⟩
      · rw [named, ← same]
        rfl
      · have renamed := own.unaliased other statement last given otherAt renames named
        rw [named, ← renamed, (List.cons.inj single).1]

theorem callFits_of_mem_methodsWith (formed : resolver.tree.WellFormed)
    (bare : resolver.tree.scope? root = none) (faithful : NamesFaithfully resolver)
    (own : OwnName resolver.tree method) (told : Tells resolver call.constructedType.path)
    {receivers : Expression → List StatementId} {qualifiers : List String → List StatementId}
    (member : method ∈ resolver.methodsWith receivers qualifiers scope call use) :
    resolver.tree.callFits call method = true := by
  -- One case for each way to resolve a call: as a keyword, as a constructor, in the types of its
  -- receiver, in what its qualifier means, and by its bare name.
  unfold methodsWith at member
  split at member
  next keyword =>
    obtain ⟨type, _, inside⟩ := List.mem_flatMap.mp (mem_of_mem_distinctOn member)
    have fits := (List.mem_filter.mp inside).2
    cases methodAt : resolver.tree.method? method with
    | none => simp [methodAt] at fits
    | some definition =>
      simp only [methodAt, Bool.and_eq_true] at fits
      exact callFits_of_keyword keyword methodAt fits.1 fits.2
  next ordinary =>
    rw [Bool.not_eq_true] at ordinary
    split at member
    next isConstructor =>
      obtain ⟨named, definition, methodAt, constructs, fits⟩ :=
        constructor_of_findTypes formed bare faithful own told member
      exact callFits_of_name ordinary named methodAt (fun _ => constructs) fits
    next plain =>
      rw [Bool.not_eq_true] at plain
      split at member
      · obtain ⟨named, accepted⟩ := mem_methodsIn member
        exact callFits_of_accepts ordinary plain named accepted
      · split at member
        · obtain ⟨named, accepted⟩ := mem_methodsIn member
          exact callFits_of_accepts ordinary plain named accepted
        · rw [lexicalMethods_parts] at member
          simp only at member
          split at member
          · have single : Tells resolver (TypeUse.ofName call.name).path :=
              told.imp_right fun plainPath => plainPath.of_append.2
            obtain ⟨named, definition, methodAt, constructs, fits⟩ :=
              constructor_of_findTypes formed bare faithful own single member
            exact callFits_of_name ordinary named methodAt (fun _ => constructs) fits
          · obtain ⟨inside, accepted⟩ := List.mem_filter.mp (mem_of_mem_distinctOn member)
            exact callFits_of_accepts ordinary plain (name?_of_members own inside) accepted

theorem tells_of_written (faithful : NamesFaithfully resolver) {id : StatementId}
    {statement : Statement} (found : resolver.tree.get? id = some statement) {expression : Expression}
    (inside : expression ∈ statement.calls) (isCall : expression.call? = some call) :
    Tells resolver call.constructedType.path := by
  rcases faithful with walks | ⟨_, _, written⟩
  · exact .inl walks
  · obtain ⟨outer, content, below⟩ := List.mem_flatMap.mp inside
    refine .inr (written id statement found _ (List.mem_append_right _ ?_))
    refine List.mem_flatMap.mpr ⟨outer, content, ?_⟩
    refine List.mem_flatMap.mpr ⟨expression, (List.mem_filter.mp below).1, ?_⟩
    simp [kind_of_call? isCall, ExpressionKind.paths]

end Filter

/-- The calls-to query and the call graph agree on every method that is bound by its own name: the
graph relates a caller to it exactly when the query over the whole program finds a call of it that is
written in the caller. -/
theorem callGraph_relates_iff_callsTo {language : Language} {resolver : Resolver}
    (assembled : Assembled language resolver.tree) (faithful : NamesFaithfully resolver)
    {method : StatementId} (own : OwnName resolver.tree method) (caller : StatementId) :
    (CallGraph.build resolver).relates caller method = true ↔
      ∃ expression ∈ resolver.callsTo root method true,
        WrittenIn resolver.tree caller expression := by
  obtain ⟨formed, traced⟩ := assembled.sound
  obtain ⟨top, topAt, _⟩ := formed.top
  have bare : resolver.tree.scope? root = none := by
    simp [scope?, topAt, Statement.scope?, traced.top topAt, StatementKind.scope?]
  simp only [relates_build_iff, mem_attributedCalls_iff formed, callsTo, List.mem_filter,
    mem_callsIn_root formed, List.contains_iff_mem]
  constructor
  · rintro ⟨expression, written, target⟩
    obtain ⟨id, statement, found, enclosing, inside⟩ := written
    refine ⟨expression, ⟨⟨⟨id, statement, found, inside⟩, ?_⟩, target⟩,
      id, statement, found, enclosing, inside⟩
    rw [methodsOf] at target
    cases isCall : expression.call? with
    | none => simp [isCall] at target
    | some call =>
      simp only [isCall] at target
      exact callFits_of_mem_methodsWith formed bare faithful own
        (tells_of_written faithful found inside isCall) target
  · rintro ⟨expression, ⟨_, target⟩, written⟩
    exact ⟨expression, written, target⟩

def leafNode (tag text locator : String) : Node :=
  .element (.make tag [] locator) [.text text]

def creationUnit (target created : String) : Element :=
  ⟨.make "unit" [("filename", "a.cpp")] "/unit",
    [.element (.make "using" [] "/unit/using[1]")
      [leafNode "name" "B" "/unit/using[1]/name[1]", .text "=",
        leafNode "name" target "/unit/using[1]/name[2]"],
    scopeNode "class" "A" "/unit/class[1]"
      [scopeNode "constructor" "A" "/unit/class[1]/constructor[1]" [],
      scopeNode "function" "g" "/unit/class[1]/function[1]"
        [.element (.make "expr_stmt" [] "/unit/class[1]/function[1]/expr_stmt[1]")
          [.element (.make "expr" [] "/unit/class[1]/function[1]/expr_stmt[1]/expr[1]")
            [leafNode "operator" "new" "/unit/class[1]/function[1]/expr_stmt[1]/expr[1]/operator[1]",
            .element (.make "call" [] "/unit/class[1]/function[1]/expr_stmt[1]/expr[1]/call[1]")
              [leafNode "name" created
                "/unit/class[1]/function[1]/expr_stmt[1]/expr[1]/call[1]/name[1]"]]]]]]⟩

def creationTree (target created : String) : ScopeTree :=
  (empty .cPlusPlus).merge (treeOf (creationUnit target created))

theorem creationTree_assembled (target created : String)
    (readable : readAs .cPlusPlus (creationUnit target created) =
      .ok (treeOf (creationUnit target created))) :
    Assembled .cPlusPlus (creationTree target created) :=
  .merge .start readable

theorem callGraph_relates_iff_callsTo_constructor :
    ∃ expression ∈ (indexed (creationTree "K" "A")).callsTo root 4 true,
      WrittenIn (creationTree "K" "A") 5 expression := by
  have regular : Regular (creationTree "K" "A") := by decide +kernel
  have faithful : NamesFaithfully (indexed (creationTree "K" "A")) :=
    .inr ⟨rfl, regular.dotless, regular.written⟩
  have own : OwnName (creationTree "K" "A") 4 := by decide +kernel
  have related : (CallGraph.build (indexed (creationTree "K" "A"))).relates 5 4 = true := by
    decide +kernel
  exact (callGraph_relates_iff_callsTo (creationTree_assembled "K" "A" rfl) faithful own 5).mp related

/-- A call under the name of an alias is in the call graph, and the query does not find it. -/
theorem callsTo_misses_alias :
    Assembled .cPlusPlus (creationTree "A" "B") ∧
      (CallGraph.build (indexed (creationTree "A" "B"))).relates 5 4 = true ∧
      (indexed (creationTree "A" "B")).callsTo root 4 true = [] := by
  refine ⟨creationTree_assembled "A" "B" rfl, ?_, ?_⟩
  · decide +kernel
  · decide +kernel

end ScopeAtlas
