import ScopeAtlas.Proofs.InventoryLookup
import ScopeAtlas.Proofs.MergeOrder
import ScopeAtlas.Proofs.NearestFirst

/-!
Whatever is asked of a resolver, the inventory changes no answer. Both resolvers find the same scopes
for a plain path; everything else is made of such lookups in the paths that are written in the tree,
so bases, members, inferred types and methods are the same as well.
-/

namespace ScopeAtlas

open Markup ScopeTree SourceUnit Resolver

theorem mem_of_mem_firstNonEmpty {α β : Type} {search : α → List β} {places : List α} {value : β}
    (member : value ∈ firstNonEmpty search places) : ∃ place ∈ places, value ∈ search place := by
  induction places with
  | nil => simp [firstNonEmpty] at member
  | cons place rest ih =>
    rw [firstNonEmpty_cons] at member
    split at member
    · obtain ⟨later, inside, found⟩ := ih member
      exact ⟨later, List.mem_cons_of_mem _ inside, found⟩
    · exact ⟨place, List.mem_cons_self, member⟩

namespace Resolver

/-! The members that a plain call can mean, apart from each other. -/

def enclosingMembers (resolver : Resolver) (scope : StatementId) (name : String) (use : Location) :
    List StatementId :=
  (resolver.tree.lineage scope).flatMap fun level =>
    resolver.tree.namedChildrenForUse level name use ++
      (if resolver.isTypeLike level then
        (resolver.hierarchy level).tail.flatMap fun base => resolver.tree.namedChildren base name
      else [])

def membersAt (resolver : Resolver) (path : List String) : List StatementId :=
  match path.getLast? with
  | none => []
  | some name => (resolver.lookupAbsolute path.dropLast).flatMap fun owner =>
      resolver.tree.namedChildren owner name

def importedMembers (resolver : Resolver) (scope : StatementId) (name : String) (use : Location) :
    List StatementId :=
  (resolver.importedPaths scope use [name]).flatMap resolver.membersAt

theorem lexicalMethods_parts (resolver : Resolver) (scope : StatementId) (call : Call)
    (use : Location) : resolver.lexicalMethods scope call use =
      let found := distinct ((resolver.enclosingMembers scope call.name use ++
        resolver.importedMembers scope call.name use).filter (resolver.accepts call))
      if found.isEmpty then
        resolver.constructorsOf (resolver.findTypes scope (.ofName call.name) use) call.arity
      else found :=
  rfl

end Resolver

namespace Surveyed

variable {tree : ScopeTree} {scope id : StatementId} {use : Location} {path : List String}

section Scopes

theorem lookupAbsolute_eq (surveyed : Surveyed tree) (plain : PlainPath path) :
    (indexed tree).lookupAbsolute path = (walking tree).lookupAbsolute path :=
  surveyed.lookupRelative_eq (.inl rfl) plain

theorem findScopes_eq (surveyed : Surveyed tree) (plain : PlainPath path)
    (accept : NamedScope → Bool) :
    (indexed tree).findScopes scope use path accept =
      (walking tree).findScopes scope use path accept := by
  have imported : ((indexed tree).importedPaths scope use path).flatMap (fun imported =>
        (indexed tree).accepted accept ((indexed tree).lookupAbsolute imported)) =
      ((walking tree).importedPaths scope use path).flatMap (fun imported =>
        (walking tree).accepted accept ((walking tree).lookupAbsolute imported)) := by
    apply List.flatMap_congr
    intro imported member
    rw [surveyed.lookupAbsolute_eq (surveyed.regular.written.importedPaths plain member)]
    rfl
  have enclosing : firstNonEmpty (fun level => (indexed tree).accepted accept
        ((indexed tree).lookupRelative level path)) (levelsAround tree scope) =
      firstNonEmpty (walked tree accept path) (levelsAround tree scope) := by
    by_cases blank : path = []
    · subst blank
      rfl
    · simp only [surveyed.sought_eq plain blank]
      cases found : tree.get? scope with
      | none => simp [levelsAround, lineage, isLive, found, firstNonEmpty]
      | some statement => exact (surveyed.agrees plain blank found).1
  unfold findScopes
  rw [imported]
  rcases path with _ | ⟨first, _ | ⟨second, rest⟩⟩
  · rfl
  · rfl
  · exact congrArg (fun found : List StatementId => if found.isEmpty then _ else found) enclosing

theorem findTypes_eq (surveyed : Surveyed tree) {type : TypeUse} (plain : PlainPath type.path) :
    (indexed tree).findTypes scope type use = (walking tree).findTypes scope type use := by
  unfold findTypes
  split
  · rfl
  · exact surveyed.findScopes_eq plain _

end Scopes

section Hierarchy

theorem baseTypes_eq (surveyed : Surveyed tree) :
    (indexed tree).baseTypes id = (walking tree).baseTypes id := by
  unfold baseTypes
  cases scopeAt : tree.scope? id with
  | none => rfl
  | some own =>
    simp only
    have parents : ∀ parent ∈ own.parents, PlainPath parent.path := by
      intro parent member
      obtain ⟨facet, inside, listed⟩ := List.mem_flatMap.mp (mem_of_mem_distinctOn member)
      apply surveyed.regular.written.facets scopeAt
      refine List.mem_flatMap.mpr ⟨facet, inside, ?_⟩
      cases definition : facet.definition with
      | typeScope type =>
        simp only [definition, Definition.type?, Option.map_some, Option.getD_some] at listed
        exact List.mem_map_of_mem listed
      | namespaceScope _ | methodScope _ | placeholder =>
        simp [definition, Definition.type?] at listed
    congr 2
    apply List.flatMap_congr
    intro parent member
    exact surveyed.findTypes_eq (parents parent member)

theorem hierarchy_eq (surveyed : Surveyed tree) :
    (indexed tree).hierarchy = (walking tree).hierarchy := by
  have inherits : (indexed tree).inherits = (walking tree).inherits := by
    funext id
    simp only [Resolver.inherits, surveyed.baseTypes_eq]
    rfl
  funext id
  simp only [hierarchy, inherits]

theorem keywordTypes?_eq (surveyed : Surveyed tree) (name : String) :
    (indexed tree).keywordTypes? scope name = (walking tree).keywordTypes? scope name := by
  have bases : (indexed tree).baseTypes = (walking tree).baseTypes := by
    funext id
    exact surveyed.baseTypes_eq
  simp only [keywordTypes?, bases]
  rfl

theorem methodsIn_eq (surveyed : Surveyed tree) (owners : List StatementId) (call : Call) :
    (indexed tree).methodsIn owners call = (walking tree).methodsIn owners call := by
  simp only [methodsIn, surveyed.hierarchy_eq]
  rfl

theorem fieldsIn_eq (surveyed : Surveyed tree) (owners : List StatementId) (name : String) :
    (indexed tree).fieldsIn owners name = (walking tree).fieldsIn owners name := by
  simp only [fieldsIn, surveyed.hierarchy_eq]

theorem lexicalVariables_eq (surveyed : Surveyed tree) (name : String) :
    (indexed tree).lexicalVariables scope name use =
      (walking tree).lexicalVariables scope name use := by
  simp only [lexicalVariables, surveyed.fieldsIn_eq, surveyed.baseTypes_eq]
  rfl

theorem fieldsIn_plain (surveyed : Surveyed tree) {owners : List StatementId} {name : String} :
    ∀ found ∈ (walking tree).fieldsIn owners name, Plainly found.declared.paths := by
  intro found member
  obtain ⟨inside, _⟩ := List.mem_filter.mp (mem_of_mem_distinctOn member)
  obtain ⟨level, _, declared⟩ := List.mem_flatMap.mp inside
  exact surveyed.regular.written.declarations declared

theorem lexicalVariables_plain (surveyed : Surveyed tree) {name : String} :
    ∀ found ∈ (walking tree).lexicalVariables scope name use, Plainly found.declared.paths := by
  intro found member
  obtain ⟨level, _, inside⟩ := mem_of_mem_firstNonEmpty member
  split at inside
  · split at inside
    · exact surveyed.fieldsIn_plain found inside
    · simp at inside
  · exact surveyed.regular.written.declarations (List.mem_filter.mp inside).1

end Hierarchy

section Inference

theorem returnTypes_eq (surveyed : Surveyed tree) :
    (indexed tree).returnTypes = (walking tree).returnTypes := by
  funext method
  unfold returnTypes
  cases methodAt : tree.method? method with
  | none => rfl
  | some definition =>
    simp only
    split
    · rfl
    · cases returned : definition.returnType with
      | none => rfl
      | some type =>
        apply surveyed.findTypes_eq
        refine surveyed.regular.written.method methodAt _ (List.mem_append_left _ ?_)
        simp [returned]

def InfersAlike (left right : StatementId → Expression → List StatementId) : Prop :=
  ∀ scope expression, Plainly expression.paths → left scope expression = right scope expression

variable {left right : StatementId → Expression → List StatementId}

theorem variableTypes_eq (surveyed : Surveyed tree) (alike : InfersAlike left right)
    {found : Declared} (plain : Plainly found.declared.paths) :
    (indexed tree).variableTypes left use found = (walking tree).variableTypes right use found := by
  unfold variableTypes
  cases typed : found.declared.type with
  | none => rfl
  | some type =>
    simp only
    split
    · cases initial : found.declared.initializer with
      | none => rfl
      | some value =>
        apply alike
        intro path member
        exact plain path (List.mem_append_right _ (by simpa [initial] using member))
    · exact surveyed.findTypes_eq (plain _ (List.mem_append_left _ (by simp [typed])))

theorem memberNamed_eq (surveyed : Surveyed tree) (alike : InfersAlike left right)
    (owners : List StatementId) (name : String) :
    (indexed tree).memberNamed left owners name use =
      (walking tree).memberNamed right owners name use := by
  have fields : ((indexed tree).fieldsIn owners name).flatMap
        ((indexed tree).variableTypes left use) =
      ((walking tree).fieldsIn owners name).flatMap ((walking tree).variableTypes right use) := by
    rw [surveyed.fieldsIn_eq]
    apply List.flatMap_congr
    intro found member
    exact surveyed.variableTypes_eq alike (surveyed.fieldsIn_plain found member)
  rw [memberNamed, memberNamed, fields, surveyed.hierarchy_eq]
  rfl

theorem memberTypes_eq (surveyed : Surveyed tree) (alike : InfersAlike left right)
    (owners : List StatementId) (member : Expression) :
    (indexed tree).memberTypes left owners member =
      (walking tree).memberTypes right owners member := by
  unfold memberTypes
  cases member.kind with
  | name own => exact surveyed.memberNamed_eq alike owners own.name
  | call call => simp only [surveyed.methodsIn_eq, surveyed.returnTypes_eq]
  | compound | type _ | literal _ | operator _ | declaration _ => rfl

theorem importedMembers_eq (surveyed : Surveyed tree) {name : String} (plain : PlainPath [name]) :
    (indexed tree).importedMembers scope name use = (walking tree).importedMembers scope name use := by
  apply List.flatMap_congr
  intro path member
  have front : PlainPath path.dropLast := fun part inside =>
    surveyed.regular.written.importedPaths plain member part (List.dropLast_subset _ inside)
  unfold membersAt
  cases path.getLast? with
  | none => rfl
  | some name => simp only [surveyed.lookupAbsolute_eq front]

theorem lexicalMethods_eq (surveyed : Surveyed tree) {call : Call} (plain : PlainPath [call.name]) :
    (indexed tree).lexicalMethods scope call use = (walking tree).lexicalMethods scope call use := by
  have enclosing : (indexed tree).enclosingMembers scope call.name use =
      (walking tree).enclosingMembers scope call.name use := by
    simp only [enclosingMembers, surveyed.hierarchy_eq]
    rfl
  have constructed : (indexed tree).findTypes scope (.ofName call.name) use =
      (walking tree).findTypes scope (.ofName call.name) use :=
    surveyed.findTypes_eq plain
  rw [lexicalMethods_parts, lexicalMethods_parts, enclosing, surveyed.importedMembers_eq plain,
    constructed]
  rfl

theorem methodsWith_eq (surveyed : Surveyed tree) {call : Call} (plain : Plainly call.paths)
    {receivers others : Expression → List StatementId} {qualifiers rest : List String → List StatementId}
    (sameReceiver : ∀ object ∈ call.object, receivers object = others object)
    (sameQualifier : ∀ qualifier ∈ call.qualifier, qualifiers qualifier.names = rest qualifier.names) :
    (indexed tree).methodsWith receivers qualifiers scope call use =
      (walking tree).methodsWith others rest scope call use := by
  have own : PlainPath call.constructedType.path := plain _ List.mem_cons_self
  unfold methodsWith
  rw [surveyed.keywordTypes?_eq, surveyed.findTypes_eq own]
  split
  · rfl
  · split
    · rfl
    · cases objectAt : call.object with
      | some object => simp only [sameReceiver object objectAt, surveyed.methodsIn_eq]
      | none =>
        cases qualifierAt : call.qualifier with
        | some qualifier => simp only [sameQualifier qualifier qualifierAt, surveyed.methodsIn_eq]
        | none => exact surveyed.lexicalMethods_eq own.of_append.2

theorem callTypes_eq (surveyed : Surveyed tree) {call : Call} (plain : Plainly call.paths)
    {receivers others : Expression → List StatementId} {qualifiers rest : List String → List StatementId}
    (sameReceiver : ∀ object ∈ call.object, receivers object = others object)
    (sameQualifier : ∀ qualifier ∈ call.qualifier, qualifiers qualifier.names = rest qualifier.names) :
    (indexed tree).callTypes receivers qualifiers scope call use =
      (walking tree).callTypes others rest scope call use := by
  unfold callTypes
  rw [surveyed.findTypes_eq (plain _ List.mem_cons_self), surveyed.returnTypes_eq,
    surveyed.methodsWith_eq plain sameReceiver sameQualifier]

theorem chainedTypes_congr {infer other : Expression → List StatementId}
    {member same : List StatementId → Expression → List StatementId} {parts : List Expression}
    (inferred : ∀ part ∈ parts, infer part = other part) (members : member = same)
    (owners : Option (List StatementId)) (afterAccess : Bool) :
    chainedTypes infer member owners afterAccess parts =
      chainedTypes other same owners afterAccess parts := by
  subst members
  induction parts generalizing owners afterAccess with
  | nil => rfl
  | cons part rest ih =>
    have later := ih fun next inside => inferred next (List.mem_cons_of_mem _ inside)
    rw [chainedTypes.eq_def, chainedTypes.eq_def other]
    simp only [later, inferred part List.mem_cons_self]

/-- A budget within which both resolvers infer the same. -/
def BudgetAlike (tree : ScopeTree) (budget : Nat) : Prop :=
  InfersAlike ((indexed tree).typesWithin budget) ((walking tree).typesWithin budget) ∧
    ∀ scope use path, PlainPath path →
      (indexed tree).pathTypesWithin budget scope use path =
        (walking tree).pathTypesWithin budget scope use path

theorem qualifier_plain {call : Call} (plain : Plainly call.paths) :
    ∀ qualifier ∈ call.qualifier, PlainPath qualifier.names := by
  intro qualifier qualifierAt
  have own : PlainPath call.constructedType.path := plain _ List.mem_cons_self
  rw [TypeUse.path, Call.constructedType, Option.mem_def.mp qualifierAt] at own
  exact own.of_append.1

theorem object_plain {call : Call} (plain : Plainly call.paths) :
    ∀ object ∈ call.object, Plainly object.paths := by
  intro object objectAt path member
  refine plain path (List.mem_cons_of_mem _ (List.mem_flatMap.mpr ⟨object, ?_, member⟩))
  simpa using objectAt

theorem typesWithin_alike (surveyed : Surveyed tree) {budget : Nat}
    (smaller : ∀ less ≤ budget, BudgetAlike tree less) :
    InfersAlike ((indexed tree).typesWithin (budget + 1)) ((walking tree).typesWithin (budget + 1)) := by
  intro scope expression plain
  rw [typesWithin, typesWithin]
  have own := plain.kind
  cases kind : expression.kind with
  | name named =>
    rw [kind] at own
    exact (smaller budget (Nat.le_refl _)).2 scope _ _ (own _ List.mem_cons_self)
  | type named =>
    rw [kind] at own
    exact surveyed.findTypes_eq (own _ List.mem_cons_self)
  | declaration declared =>
    rw [kind] at own
    cases typed : declared.type with
    | none => simp [typed]
    | some type =>
      simp only [typed, Option.map_some, Option.getD_some]
      exact surveyed.findTypes_eq (own _ (by simp [ExpressionKind.paths, typed]))
  | call call =>
    have plainCall := plain.call kind
    obtain ⟨types, paths⟩ := smaller (budget - 1) (Nat.sub_le _ _)
    apply surveyed.callTypes_eq plainCall
    · exact fun object objectAt => types scope object (object_plain plainCall object objectAt)
    · exact fun qualifier qualifierAt =>
        paths scope _ _ (qualifier_plain plainCall qualifier qualifierAt)
  | compound =>
    apply chainedTypes_congr
    · intro part inside
      refine (smaller budget (Nat.le_refl _)).1 scope part (plain.child ?_)
      simpa [Expression.children, kind] using inside
    · funext owners part
      exact surveyed.memberTypes_eq (smaller (budget - 2) (Nat.sub_le _ _)).1 owners part
  | literal _ => rfl
  | operator _ => rfl

theorem pathTypesWithin_alike (surveyed : Surveyed tree) {budget : Nat}
    (smaller : ∀ less ≤ budget, BudgetAlike tree less) {path : List String} (plain : PlainPath path) :
    (indexed tree).pathTypesWithin (budget + 1) scope use path =
      (walking tree).pathTypesWithin (budget + 1) scope use path := by
  cases path with
  | nil => rw [pathTypesWithin, pathTypesWithin]
  | cons first rest =>
    have single : PlainPath [first] := fun part member =>
      plain part (by simp [List.mem_singleton.mp member])
    have declared : ((walking tree).lexicalVariables scope first use).flatMap
          ((indexed tree).variableTypes (fun inner value =>
            (indexed tree).typesWithin (budget - 1) inner value) use) =
        ((walking tree).lexicalVariables scope first use).flatMap
          ((walking tree).variableTypes (fun inner value =>
            (walking tree).typesWithin (budget - 1) inner value) use) := by
      apply List.flatMap_congr
      intro found member
      exact surveyed.variableTypes_eq (smaller (budget - 1) (Nat.sub_le _ _)).1
        (surveyed.lexicalVariables_plain found member)
    have members (owners : List StatementId) (part : String) :=
      @memberNamed_eq tree use _ _ surveyed (smaller (budget - 2) (Nat.sub_le _ _)).1 owners part
    rw [pathTypesWithin, pathTypesWithin]
    simp only [surveyed.keywordTypes?_eq, surveyed.lexicalVariables_eq, members,
      surveyed.findScopes_eq single]
    cases (walking tree).keywordTypes? scope first with
    | some types => rfl
    | none =>
      cases listed : (walking tree).lexicalVariables scope first use with
      | nil => rfl
      | cons found others =>
        rw [listed] at declared
        simp only [declared]

theorem budget_alike (surveyed : Surveyed tree) (budget : Nat) : BudgetAlike tree budget := by
  induction budget using Nat.strong_induction_on with
  | _ budget ih =>
    cases budget with
    | zero =>
      refine ⟨fun scope expression _ => ?_, fun scope use path _ => ?_⟩
      · rw [typesWithin, typesWithin]
      · rw [pathTypesWithin, pathTypesWithin]
    | succ budget =>
      have smaller : ∀ less ≤ budget, BudgetAlike tree less :=
        fun less below => ih less (Nat.lt_succ_of_le below)
      exact ⟨surveyed.typesWithin_alike smaller, fun scope use path plain =>
        surveyed.pathTypesWithin_alike smaller plain⟩

theorem findMethods_eq (surveyed : Surveyed tree) {call : Call} (plain : Plainly call.paths) :
    (indexed tree).findMethods scope call use = (walking tree).findMethods scope call use := by
  obtain ⟨types, paths⟩ := surveyed.budget_alike (inferenceBudget - 1)
  apply surveyed.methodsWith_eq plain
  · exact fun object objectAt => types scope object (object_plain plain object objectAt)
  · exact fun qualifier qualifierAt => paths scope use _ (qualifier_plain plain qualifier qualifierAt)

end Inference

end Surveyed

theorem Assembled.holds {language : Language} {tree : ScopeTree} (assembled : Assembled language tree)
    (property : ScopeTree → Prop) (start : property (.empty language))
    (merged : ∀ {tree unit file}, tree.WellFormed → Traced tree.get? → property tree →
      FileTree file unit → property (tree.merge unit))
    (removed : ∀ {tree file}, tree.WellFormed → Traced tree.get? → property tree →
      property (tree.removeFile file).1) : property tree := by
  induction assembled with
  | start => exact start
  | merge before parsed ih =>
    obtain ⟨file, _, ofUnit⟩ := readAs_fileTree parsed
    exact merged before.sound.1 before.sound.2 ih ofUnit
  | remove file before ih => exact removed before.sound.1 before.sound.2 ih

/-- In a regular tree the inventory changes no answer: scopes, types and methods are the same as
those found by walking the tree. -/
theorem inventory_changes_nothing {language : Language} {tree : ScopeTree}
    (assembled : Assembled language tree) (regular : Regular tree) (scope : StatementId)
    (use : Location) :
    (∀ path accept, PlainPath path →
      (indexed tree).findScopes scope use path accept =
        (walking tree).findScopes scope use path accept) ∧
    (∀ type : TypeUse, PlainPath type.path →
      (indexed tree).findTypes scope type use = (walking tree).findTypes scope type use) ∧
    ∀ call : Call, Plainly call.paths →
      (indexed tree).findMethods scope call use = (walking tree).findMethods scope call use := by
  have represented : Represented tree.get? :=
    assembled.holds (fun tree => Represented tree.get?) (empty_represented language)
      merge_represented removeFile_represented
  have surveyed : Surveyed tree := ⟨assembled.sound.1, assembled.sound.2, represented, regular⟩
  exact ⟨fun path accept plain => surveyed.findScopes_eq plain accept,
    fun type plain => surveyed.findTypes_eq plain, fun call plain => surveyed.findMethods_eq plain⟩

def nestedClassUnit : Element :=
  ⟨.make "unit" [("filename", "a.h")] "/unit",
    [scopeNode "namespace" "N" "/unit/namespace[1]"
      [scopeNode "class" "A" "/unit/namespace[1]/class[1]"
        [scopeNode "class" "B" "/unit/namespace[1]/class[1]/class[1]"
          [scopeNode "function" "g" "/unit/namespace[1]/class[1]/class[1]/function[1]" []],
        scopeNode "function" "f" "/unit/namespace[1]/class[1]/function[1]"
          [.element (.make "union" [] "/unit/namespace[1]/class[1]/function[1]/union[1]")
            [.element (.make "block" [] "/unit/namespace[1]/class[1]/function[1]/union[1]/block[1]") []]]]]]⟩

def nestedClassTree : ScopeTree := (empty .cPlusPlus).merge (treeOf nestedClassUnit)

def innerUse : Location := .point "a.h" 1 1

def innerQualifier : Qualifier := ⟨[⟨"A", innerUse⟩, ⟨"B", innerUse⟩]⟩

theorem inventory_changes_nothing_nested_class :
    (walking nestedClassTree).findScopes 7 innerUse ["A", "B"] NamedScope.isContainer = [4] ∧
      (walking nestedClassTree).findTypes 7 ⟨"B", some ⟨[⟨"A", innerUse⟩]⟩, []⟩ innerUse = [4] ∧
      (walking nestedClassTree).findMethods 7 ⟨"g", some innerQualifier, [], [], false, false, none⟩
        innerUse = [5] := by
  have assembled : Assembled .cPlusPlus nestedClassTree :=
    .merge .start (show readAs .cPlusPlus nestedClassUnit = .ok (treeOf nestedClassUnit) from rfl)
  have regular : Regular nestedClassTree := by decide +kernel
  obtain ⟨scopes, types, methods⟩ := inventory_changes_nothing assembled regular 7 innerUse
  refine ⟨?_, ?_, ?_⟩
  · rw [← scopes _ _ (by decide +kernel)]
    decide +kernel
  · rw [← types _ (by decide +kernel)]
    decide +kernel
  · rw [← methods _ (by decide +kernel)]
    decide +kernel

def localClassUnit : Element :=
  ⟨.make "unit" [("filename", "a.cpp")] "/unit",
    [scopeNode "function" "f" "/unit/function[1]"
      [scopeNode "class" "A" "/unit/function[1]/block[1]/class[1]" []]]⟩

def localClassTree : ScopeTree := (empty .cPlusPlus).merge (treeOf localClassUnit)

/-- The inventory knows a local class as a member of its function, a walk goes through containers
only. -/
theorem inventory_finds_local_class :
    let use := Location.point "a.cpp" 9 1
    let type : TypeUse := ⟨"A", some ⟨[⟨"f", use⟩]⟩, []⟩
    Assembled .cPlusPlus localClassTree ∧
      (indexed localClassTree).findTypes root type use = [3] ∧
      (walking localClassTree).findTypes root type use = [] := by
  refine ⟨?_, ?_, ?_⟩
  · exact .merge .start
      (show readAs .cPlusPlus localClassUnit = .ok (treeOf localClassUnit) from rfl)
  · decide +kernel
  · decide +kernel

end ScopeAtlas
