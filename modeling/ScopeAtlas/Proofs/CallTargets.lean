import ScopeAtlas.Proofs.Shadowing

/-!
What a call resolves to. Whatever way a call takes through the tree, each way filters what it finds
and keeps it once. A receiver is looked at with a smaller budget than an expression on its own; since
more budget never finds less, the owners searched are among the static types of the receiver.

Main statement: `findMethods_callable`.
-/

namespace ScopeAtlas

open ScopeTree Resolver

/-! ### Declarations and their sites -/

section Sites

variable {tree : ScopeTree} {level : StatementId} {found : Declared}

/-- What is declared at a site. A declaration statement declares for the scope around it. -/
def ScopeTree.declaredAt? (tree : ScopeTree) : DeclarationSite → Option Declared
  | .parameter method index => do
    let statement ← tree.get? method
    let definition ← statement.method?
    let parameter ← definition.parameters[index]?
    return ⟨method, .parameter method index, parameter, statement.primaryLocation?⟩
  | .expression owner index => do
    let statement ← tree.get? owner
    let expression ← statement.content[index]?
    let declared ← expression.declaration?
    let scope := if statement.kind = .declaration then statement.parent.getD owner else owner
    return ⟨scope, .expression owner index, declared, some expression.location⟩

theorem mem_contentDeclarations {scope owner : StatementId} {statement : Statement}
    (member : found ∈ contentDeclarations scope owner statement) :
    ∃ index expression declared, statement.content[index]? = some expression ∧
      expression.declaration? = some declared ∧
      found = ⟨scope, .expression owner index, declared, some expression.location⟩ := by
  obtain ⟨⟨expression, index⟩, inside, shape⟩ := List.mem_filterMap.mp member
  obtain ⟨declared, declares, rfl⟩ := Option.map_eq_some_iff.mp shape
  exact ⟨index, expression, declared, List.mem_zipIdx_iff_getElem?.mp inside, declares, rfl⟩

theorem declaredAt?_of_mem (formed : tree.WellFormed) (member : found ∈ tree.declarations level) :
    tree.declaredAt? found.site = some found := by
  rw [declarations] at member
  cases levelAt : tree.get? level with
  | none => simp [levelAt] at member
  | some statement =>
    simp only [levelAt, List.mem_append] at member
    rcases member with (parameter | header) | inner
    · rw [parameterDeclarations] at parameter
      cases methodAt : statement.method? with
      | none => simp [methodAt] at parameter
      | some method =>
        simp only [methodAt, List.mem_map] at parameter
        obtain ⟨⟨declared, index⟩, inside, rfl⟩ := parameter
        have here := List.mem_zipIdx_iff_getElem?.mp inside
        simp only at here
        simp [declaredAt?, levelAt, methodAt, here]
    · split at header
      next declares =>
        obtain ⟨index, expression, declared, here, isDeclaration, rfl⟩ :=
          mem_contentDeclarations header
        have other : statement.kind ≠ .declaration := by
          intro same
          simp [same, StatementKind.declaresInHeader] at declares
        simp [declaredAt?, levelAt, here, isDeclaration, other]
      next => simp at header
    · obtain ⟨child, listed, inside⟩ := List.mem_flatMap.mp inner
      obtain ⟨below, belowAt, above⟩ := formed.linked levelAt listed
      simp only [belowAt] at inside
      split at inside
      next isStatement =>
        obtain ⟨index, expression, declared, here, isDeclaration, rfl⟩ :=
          mem_contentDeclarations inside
        simp [declaredAt?, belowAt, here, isDeclaration, isStatement, above]
      next => simp at inside

end Sites

namespace Resolver

variable {resolver : Resolver} {left right : List StatementId}

theorem mem_fieldsIn (formed : resolver.tree.WellFormed) {name : String} {found : Declared} :
    found ∈ resolver.fieldsIn left name ↔
      (∃ owner ∈ left, ∃ level ∈ resolver.hierarchy owner,
        found ∈ resolver.tree.declarations level) ∧ found.declared.name = name := by
  have members : found ∈ ((left.flatMap resolver.hierarchy).flatMap
        resolver.tree.declarations).filter (fun field => field.declared.name == name) ↔
      (∃ owner ∈ left, ∃ level ∈ resolver.hierarchy owner,
        found ∈ resolver.tree.declarations level) ∧ found.declared.name = name := by
    simp only [List.mem_filter, List.mem_flatMap, beq_iff_eq]
    constructor
    · rintro ⟨⟨level, ⟨owner, owned, inside⟩, member⟩, named⟩
      exact ⟨⟨owner, owned, level, inside, member⟩, named⟩
    · rintro ⟨⟨owner, owned, level, inside, member⟩, named⟩
      exact ⟨⟨level, ⟨owner, owned, inside⟩, member⟩, named⟩
  rw [← members, fieldsIn]
  constructor
  · exact mem_of_mem_distinctOn
  · intro member
    obtain ⟨kept, inside, same⟩ := exists_of_mem_distinctOn Declared.site member
    have sited {field : Declared} (field_mem : field ∈ ((left.flatMap resolver.hierarchy).flatMap
        resolver.tree.declarations).filter (fun field => field.declared.name == name)) :
        resolver.tree.declaredAt? field.site = some field := by
      obtain ⟨level, _, declares⟩ := List.mem_flatMap.mp (List.mem_filter.mp field_mem).1
      exact declaredAt?_of_mem formed declares
    have unique := (sited member).symm.trans (same ▸ sited (mem_of_mem_distinctOn inside))
    rw [Option.some.injEq] at unique
    exact unique ▸ inside

/-! ### More budget never finds less -/

theorem fieldsIn_subset (formed : resolver.tree.WellFormed) (subset : left ⊆ right)
    (name : String) : resolver.fieldsIn left name ⊆ resolver.fieldsIn right name := by
  intro found member
  obtain ⟨⟨owner, owned, levels⟩, named⟩ := (mem_fieldsIn formed).mp member
  exact (mem_fieldsIn formed).mpr ⟨⟨owner, subset owned, levels⟩, named⟩

theorem flatMap_subset_of_subset {α β : Type} {first second : List α} {near far : α → List β}
    (subset : first ⊆ second) (pointwise : ∀ value, near value ⊆ far value) :
    first.flatMap near ⊆ second.flatMap far := by
  intro result member
  obtain ⟨value, inside, found⟩ := List.mem_flatMap.mp member
  exact List.mem_flatMap.mpr ⟨value, subset inside, pointwise value found⟩

theorem methodsIn_subset (subset : left ⊆ right) (call : Call) :
    resolver.methodsIn left call ⊆ resolver.methodsIn right call :=
  distinct_subset (flatMap_subset_of_subset
    (flatMap_subset_of_subset subset fun _ => List.Subset.refl _) fun _ => List.Subset.refl _)

def InfersLess (less more : StatementId → Expression → List StatementId) : Prop :=
  ∀ scope expression, less scope expression ⊆ more scope expression

variable {less more : StatementId → Expression → List StatementId}

theorem variableTypes_subset (infers : InfersLess less more) (use : Location) (found : Declared) :
    resolver.variableTypes less use found ⊆ resolver.variableTypes more use found := by
  unfold variableTypes
  cases found.declared.type with
  | none => exact List.Subset.refl _
  | some type =>
    simp only
    split
    · cases found.declared.initializer with
      | none => exact List.Subset.refl _
      | some value => exact infers found.scope value
    · exact List.Subset.refl _

theorem memberNamed_subset (formed : resolver.tree.WellFormed) (infers : InfersLess less more)
    (subset : left ⊆ right) (name : String) (use : Location) :
    resolver.memberNamed less left name use ⊆ resolver.memberNamed more right name use := by
  have types : ∀ found,
      resolver.variableTypes less use found ⊆ resolver.variableTypes more use found :=
    variableTypes_subset infers use
  have fields := flatMap_subset_of_subset (fieldsIn_subset formed subset name) types
  have levels : left.flatMap resolver.hierarchy ⊆ right.flatMap resolver.hierarchy :=
    flatMap_subset_of_subset subset fun _ => List.Subset.refl _
  apply distinct_subset
  intro type member
  rcases List.mem_append.mp member with typed | nested
  · exact List.mem_append_left _ (fields typed)
  · exact List.mem_append_right _ (flatMap_subset_of_subset levels (fun _ => List.Subset.refl _) nested)

theorem memberTypes_subset (formed : resolver.tree.WellFormed) (infers : InfersLess less more)
    (subset : left ⊆ right) (member : Expression) :
    resolver.memberTypes less left member ⊆ resolver.memberTypes more right member := by
  unfold memberTypes
  cases member.kind with
  | name own => exact memberNamed_subset formed infers subset own.name member.location
  | call call =>
    exact distinct_subset (flatMap_subset_of_subset (methodsIn_subset subset call)
      fun _ => List.Subset.refl _)
  | compound | type _ | literal _ | operator _ | declaration _ => exact List.Subset.refl _

section Calls

variable {receivers others : Expression → List StatementId}
  {qualifiers rest : List String → List StatementId}

theorem methodsWith_subset (receiver : ∀ object, receivers object ⊆ others object)
    (qualified : ∀ path, qualifiers path ⊆ rest path) (scope : StatementId) (call : Call)
    (use : Location) : resolver.methodsWith receivers qualifiers scope call use ⊆
      resolver.methodsWith others rest scope call use := by
  unfold methodsWith
  split
  · exact List.Subset.refl _
  · split
    · exact List.Subset.refl _
    · cases call.object with
      | some object => exact methodsIn_subset (receiver object) call
      | none =>
        cases call.qualifier with
        | some qualifier => exact methodsIn_subset (qualified qualifier.names) call
        | none => exact List.Subset.refl _

theorem callTypes_subset (receiver : ∀ object, receivers object ⊆ others object)
    (qualified : ∀ path, qualifiers path ⊆ rest path) (scope : StatementId) (call : Call)
    (use : Location) : resolver.callTypes receivers qualifiers scope call use ⊆
      resolver.callTypes others rest scope call use := by
  unfold callTypes
  split
  · exact List.Subset.refl _
  · exact distinct_subset (flatMap_subset_of_subset
      (methodsWith_subset receiver qualified scope call use) fun _ => List.Subset.refl _)

end Calls

theorem chainedTypes_subset {infer other : Expression → List StatementId}
    {member same : List StatementId → Expression → List StatementId}
    (inferred : ∀ part, infer part ⊆ other part)
    (members : ∀ {near far : List StatementId}, near ⊆ far → ∀ part, member near part ⊆ same far part)
    (parts : List Expression) : ∀ (near far : Option (List StatementId)) (afterAccess : Bool),
    near.isSome = far.isSome → near.getD [] ⊆ far.getD [] →
      chainedTypes infer member near afterAccess parts ⊆
        chainedTypes other same far afterAccess parts := by
  induction parts with
  | nil =>
    intro near far afterAccess _ subset
    rw [chainedTypes, chainedTypes]
    exact subset
  | cons part rest ih =>
    intro near far afterAccess both subset
    rw [chainedTypes.eq_def, chainedTypes.eq_def other]
    dsimp only
    split
    · split
      · exact ih near far true both subset
      · split
        · exact ih near far afterAccess both subset
        · exact List.Subset.refl _
    · cases near with
      | none =>
        cases far with
        | none => exact ih _ _ false rfl (inferred part)
        | some far => simp at both
      | some near =>
        cases far with
        | none => simp at both
        | some far =>
          dsimp only
          split
          · exact ih _ _ false rfl (members subset part)
          · exact List.Subset.refl _

def FindsLess (resolver : Resolver) (budget larger : Nat) : Prop :=
  InfersLess (resolver.typesWithin budget) (resolver.typesWithin larger) ∧
    ∀ scope use path, resolver.pathTypesWithin budget scope use path ⊆
      resolver.pathTypesWithin larger scope use path

section Budget

variable {budget larger : Nat} {scope : StatementId}

theorem typesWithin_subset (formed : resolver.tree.WellFormed)
    (smaller : ∀ back, resolver.FindsLess (budget - back) (larger - back)) :
    InfersLess (resolver.typesWithin (budget + 1)) (resolver.typesWithin (larger + 1)) := by
  intro scope expression
  rw [typesWithin, typesWithin]
  cases expression.kind with
  | name use => exact (smaller 0).2 scope expression.location use.path
  | type use => exact List.Subset.refl _
  | declaration declared => exact List.Subset.refl _
  | call call =>
    exact callTypes_subset (fun object => (smaller 1).1 scope object)
      (fun path => (smaller 1).2 scope expression.location path) scope call expression.location
  | compound =>
    apply chainedTypes_subset
    · exact fun part => (smaller 0).1 scope part
    · exact fun subset part => memberTypes_subset formed (smaller 2).1 subset part
    · rfl
    · exact List.Subset.refl _
  | literal _ => exact List.Subset.refl _
  | operator _ => exact List.Subset.refl _

theorem foldl_memberNamed_subset (formed : resolver.tree.WellFormed) (infers : InfersLess less more)
    (use : Location) (path : List String) (subset : left ⊆ right) :
    path.foldl (fun owners part =>
        if owners.isEmpty then [] else resolver.memberNamed less owners part use) left ⊆
      path.foldl (fun owners part =>
        if owners.isEmpty then [] else resolver.memberNamed more owners part use) right := by
  induction path generalizing left right with
  | nil => exact subset
  | cons part rest ih =>
    rw [List.foldl_cons, List.foldl_cons]
    apply ih
    by_cases empty : left = []
    · simp [empty]
    · have inhabited : right ≠ [] := by
        rintro rfl
        exact empty (List.subset_nil.mp subset)
      simp only [List.isEmpty_iff, empty, inhabited, if_false]
      exact memberNamed_subset formed infers subset part use

theorem pathTypesWithin_subset (formed : resolver.tree.WellFormed)
    (smaller : ∀ back, resolver.FindsLess (budget - back) (larger - back)) (use : Location)
    (path : List String) : resolver.pathTypesWithin (budget + 1) scope use path ⊆
      resolver.pathTypesWithin (larger + 1) scope use path := by
  cases path with
  | nil => rw [pathTypesWithin, pathTypesWithin]; exact List.Subset.refl _
  | cons first rest =>
    rw [pathTypesWithin, pathTypesWithin]
    apply foldl_memberNamed_subset formed (smaller 2).1
    cases resolver.keywordTypes? scope first with
    | some types => exact List.Subset.refl _
    | none =>
      cases resolver.lexicalVariables scope first use with
      | nil => exact List.Subset.refl _
      | cons found others =>
        exact distinct_subset (flatMap_subset_of_subset (List.Subset.refl _)
          (variableTypes_subset (smaller 1).1 use))

theorem findsLess_of_le (formed : resolver.tree.WellFormed) (budget : Nat) :
    ∀ larger, budget ≤ larger → resolver.FindsLess budget larger := by
  -- Calls and members go on with budgets that are smaller by two and three.
  induction budget using Nat.strong_induction_on with
  | _ budget ih =>
    intro larger bound
    cases budget with
    | zero =>
      refine ⟨fun scope expression => ?_, fun scope use path => ?_⟩
      · rw [typesWithin]
        exact List.nil_subset _
      · rw [pathTypesWithin]
        exact List.nil_subset _
    | succ budget =>
      obtain ⟨larger, rfl⟩ : ∃ before, larger = before + 1 := ⟨larger - 1, by omega⟩
      have smaller : ∀ back, resolver.FindsLess (budget - back) (larger - back) :=
        fun back => ih (budget - back) (by omega) (larger - back) (by omega)
      exact ⟨typesWithin_subset formed smaller,
        fun scope use path => pathTypesWithin_subset formed smaller use path⟩

end Budget

end Resolver

/-! ### Callable methods -/

/-- A live method that takes as many arguments as the call has; unless it is a constructor, it is a
destructor exactly if the call is a destructor call. -/
structure Callable (tree : ScopeTree) (call : Call) (id : StatementId) (method : MethodDefinition) :
    Prop where
  found : tree.method? id = some method
  live : tree.isLive id = true
  arity : method.acceptsArity call.arity = true
  destructs : method.isConstructor = true ∨ method.isDestructor = call.isDestructor

section Calls

variable {resolver : Resolver} {id scope : StatementId} {call : Call} {use : Location}

theorem isLive_of_method? {tree : ScopeTree} {method : MethodDefinition}
    (found : tree.method? id = some method) : tree.isLive id = true := by
  obtain ⟨statement, here, _⟩ := Option.bind_eq_some_iff.mp found
  simp [isLive, here]

theorem callable_of_mem_constructorsOf {types : List StatementId}
    (member : id ∈ resolver.constructorsOf types call.arity) :
    ∃ method, Callable resolver.tree call id method ∧ method.isConstructor = true := by
  obtain ⟨type, _, inside⟩ := List.mem_flatMap.mp (mem_of_mem_distinctOn member)
  have fits := (List.mem_filter.mp inside).2
  cases found : resolver.tree.method? id with
  | none => simp [found] at fits
  | some method =>
    simp only [found, Bool.and_eq_true] at fits
    exact ⟨method, ⟨found, isLive_of_method? found, fits.2, .inl fits.1⟩, fits.1⟩

theorem callable_of_accepts (accepted : resolver.accepts call id = true) :
    ∃ method, Callable resolver.tree call id method ∧ method.isConstructor = false := by
  rw [accepts] at accepted
  cases found : resolver.tree.method? id with
  | none => simp [found] at accepted
  | some method =>
    simp only [found, Bool.and_eq_true, Bool.not_eq_true', beq_iff_eq] at accepted
    obtain ⟨⟨plain, destructs⟩, fits⟩ := accepted
    exact ⟨method, ⟨found, isLive_of_method? found, fits, .inr destructs⟩, plain⟩

theorem parent?_of_mem_methodsIn (formed : resolver.tree.WellFormed) {owners : List StatementId}
    (member : id ∈ resolver.methodsIn owners call) :
    ∃ owner ∈ owners, ∃ level ∈ resolver.hierarchy owner,
      resolver.tree.parent? id = some level := by
  obtain ⟨level, among, inside⟩ := List.mem_flatMap.mp (mem_of_mem_distinctOn member)
  obtain ⟨owner, owned, within⟩ := List.mem_flatMap.mp among
  have child := (List.mem_filter.mp (List.mem_filter.mp inside).1).1
  obtain ⟨statement, statementAt, listed⟩ := exists_of_mem_children child
  obtain ⟨below, belowAt, above⟩ := formed.linked statementAt listed
  exact ⟨owner, owned, level, within, by simp [parent?, belowAt, above]⟩

theorem nodup_lexicalMethods : (resolver.lexicalMethods scope call use).Nodup := by
  rw [lexicalMethods_parts]
  dsimp only
  split
  · exact nodup_distinct _
  · exact nodup_distinct _

theorem callable_of_mem_lexicalMethods (member : id ∈ resolver.lexicalMethods scope call use) :
    ∃ method, Callable resolver.tree call id method := by
  rw [lexicalMethods_parts] at member
  dsimp only at member
  split at member
  · obtain ⟨method, callable, _⟩ := callable_of_mem_constructorsOf member
    exact ⟨method, callable⟩
  · obtain ⟨method, callable, _⟩ :=
      callable_of_accepts (List.mem_filter.mp (mem_of_mem_distinctOn member)).2
    exact ⟨method, callable⟩

/-- A call resolves to callable methods, each once. Keyword calls and constructor calls resolve to
constructors. Any other call with a receiver resolves to ordinary methods that stand directly in the
hierarchy of a static type of the receiver, and with only a qualifier to ordinary methods. None of
this depends on what the inventory holds, if there is one. -/
theorem findMethods_callable (resolver : Resolver) (formed : resolver.tree.WellFormed)
    (scope : StatementId) (call : Call) (use : Location) :
    (resolver.findMethods scope call use).Nodup ∧
      ∀ id ∈ resolver.findMethods scope call use, ∃ method,
        Callable resolver.tree call id method ∧
        (call.isKeyword = true ∨ call.isConstructor = true → method.isConstructor = true) ∧
        (call.isKeyword = false → call.isConstructor = false →
          (∀ object, call.object = some object → method.isConstructor = false ∧
            ∃ type ∈ resolver.staticTypes scope object, ∃ level ∈ resolver.hierarchy type,
              resolver.tree.parent? id = some level) ∧
          (call.object = none → call.qualifier.isSome = true → method.isConstructor = false)) := by
  unfold findMethods methodsWith
  split
  next keyword =>
    refine ⟨nodup_distinct _, fun id member => ?_⟩
    obtain ⟨method, callable, constructs⟩ := callable_of_mem_constructorsOf member
    exact ⟨method, callable, fun _ => constructs, fun other => by simp [keyword] at other⟩
  next ordinary =>
    split
    next construction =>
      refine ⟨nodup_distinct _, fun id member => ?_⟩
      obtain ⟨method, callable, constructs⟩ := callable_of_mem_constructorsOf member
      exact ⟨method, callable, fun _ => constructs, fun _ other => by simp [construction] at other⟩
    next plain =>
      have neither : ¬ (call.isKeyword = true ∨ call.isConstructor = true) :=
        not_or.mpr ⟨ordinary, plain⟩
      cases objectAt : call.object with
      | some object =>
        refine ⟨nodup_distinct _, fun id member => ?_⟩
        obtain ⟨method, callable, own⟩ := callable_of_accepts (mem_methodsIn member).2
        obtain ⟨type, found, level, inside, parentAt⟩ := parent?_of_mem_methodsIn formed member
        have static : type ∈ resolver.staticTypes scope object :=
          (findsLess_of_le formed _ inferenceBudget (Nat.sub_le _ _)).1 scope object found
        refine ⟨method, callable, fun either => absurd either neither, fun _ _ => ⟨?_, by simp⟩⟩
        rintro _ ⟨⟩
        exact ⟨own, type, static, level, inside, parentAt⟩
      | none =>
        cases qualifierAt : call.qualifier with
        | some qualifier =>
          refine ⟨nodup_distinct _, fun id member => ?_⟩
          obtain ⟨method, callable, own⟩ := callable_of_accepts (mem_methodsIn member).2
          exact ⟨method, callable, fun either => absurd either neither,
            fun _ _ => ⟨by simp, fun _ _ => own⟩⟩
        | none =>
          refine ⟨nodup_lexicalMethods, fun id member => ?_⟩
          obtain ⟨method, callable⟩ := callable_of_mem_lexicalMethods member
          exact ⟨method, callable, fun either => absurd either neither,
            fun _ _ => ⟨by simp, by simp⟩⟩

end Calls

def receiverTree : ScopeTree :=
  let method (isConstructor : Bool) : Definition := .methodScope ⟨[], none, isConstructor, false, false⟩
  let place : Location := .point "a.cpp" 1 1
  (empty .cPlusPlus).addAll
    [(0, scopeStatement "a.cpp" "A" (.typeScope ⟨.classType, [], false⟩)),
      (1, scopeStatement "a.cpp" "A" (method true)),
      (1, scopeStatement "a.cpp" "g" (method false)),
      (0, scopeStatement "a.cpp" "B" (.typeScope ⟨.classType, [.ofName "A"], false⟩)),
      (4, scopeStatement "a.cpp" "h" (method false)),
      (4, .detached .declaration .cPlusPlus [place] [.ofKind (.declaration ⟨"b", some (.ofName "auto"),
        .unstated, some (.ofKind (.call { Call.ofName "B" with isConstructor := true }) place)⟩) place])]

theorem findMethods_callable_inferred_receiver :
    let resolver : Resolver := ⟨receiverTree, none⟩
    let object : Expression := .ofKind (.name ⟨"b", none⟩) (.point "a.cpp" 1 1)
    let call : Call := { Call.ofName "g" with object := some object }
    receiverTree.WellFormed ∧ resolver.findMethods 5 call (.point "a.cpp" 1 1) = [3] ∧
      call.isKeyword = false ∧ call.isConstructor = false ∧ call.object = some object ∧
      ∃ method, Callable receiverTree call 3 method ∧ method.isConstructor = false ∧
        ∃ type ∈ resolver.staticTypes 5 object, ∃ level ∈ resolver.hierarchy type,
          receiverTree.parent? 3 = some level := by
  intro resolver object call
  have formed : receiverTree.WellFormed := wellFormed_of_holdsTogether (by decide +kernel)
  have found : resolver.findMethods 5 call (.point "a.cpp" 1 1) = [3] := by decide +kernel
  obtain ⟨method, callable, _, ordinary⟩ :=
    (findMethods_callable resolver formed 5 call (.point "a.cpp" 1 1)).2 3 (by simp [found])
  obtain ⟨own, static⟩ := (ordinary rfl rfl).1 object rfl
  exact ⟨formed, found, rfl, rfl, rfl, method, callable, own, static⟩

end ScopeAtlas
