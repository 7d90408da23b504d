import ScopeAtlas.Proofs.UnplacedContent

/-!
What the statements of a unit are, apart from places. The outlines that are read from nodes are the
same without places whether the nodes have places or not, so nodes that are the same without places
give outlines that are the same without places. Trees into which such outlines are placed differ in
nothing but the locations of their statements.
-/

namespace ScopeAtlas

open Markup

namespace SourceUnit

def Runs.unplaced (runs : Runs) : Runs :=
  ⟨runs.run.map Outline.unplaced, runs.later.map Outline.unplaced⟩

section Definitions

variable {source : SourceFile} {around : Surroundings}

@[simp]
theorem segmentNames_unplaced (element : Element) :
    segmentNames source element.unplaced = segmentNames source element := by
  rw [segmentNames, Element.child?_unplaced, segmentNames]
  cases element.child? "name" with
  | none => rfl
  | some name =>
    have names := congrArg (List.map Segment.name) (@unplaced_segments source.name name)
    simpa [Function.comp_def] using names

theorem unplaced_placingQualifier {segments others : List Segment}
    (same : segments.map Segment.unplaced = others.map Segment.unplaced) :
    (placingQualifier source segments).map Qualifier.unplaced =
      (placingQualifier source others).map Qualifier.unplaced := by
  unfold placingQualifier
  split
  · rw [Qualifier.unplaced_ofSegments?, same, Qualifier.unplaced_ofSegments?]
  · rfl

theorem unplaced_typeName (element : Element) :
    (typeName source element.unplaced).1 = (typeName source element).1 ∧
      (typeName source element.unplaced).2.map Segment.unplaced =
        (typeName source element).2.map Segment.unplaced := by
  have declared := @unplaced_declaredName? source.name element
  unfold typeName
  generalize declaredName? source.name element.unplaced = left at declared ⊢
  generalize declaredName? source.name element = right at declared ⊢
  obtain ⟨rfl, rfl⟩ | ⟨first, second, rfl, rfl, same⟩ := missing_or_found_of_map_eq declared
  · exact ⟨rfl, rfl⟩
  · exact Prod.mk.inj same

theorem unplaced_ofFacet (name : String) {qualifier other : Option Qualifier} {facet : Facet}
    {written : Facet} (path : qualifier.map Qualifier.unplaced = other.map Qualifier.unplaced)
    (same : facet.unplaced = written.unplaced) :
    (NamedScope.ofFacet name qualifier facet).unplaced =
      (NamedScope.ofFacet name other written).unplaced := by
  have kept (qualifier : Option Qualifier) :
      (qualifier.filter fun path => !path.segments.isEmpty).map Qualifier.unplaced =
        (qualifier.map Qualifier.unplaced).filter fun path => !path.segments.isEmpty := by
    cases qualifier with
    | none => rfl
    | some path => simp [Option.filter, Qualifier.unplaced, apply_ite]
  simp only [NamedScope.ofFacet, NamedScope.unplaced, kept, path, List.map_cons, List.map_nil, same]

theorem unplaced_scopeOutline (name : String) (access : Access) {qualifier other : Option Qualifier}
    {definition written : Definition} {location elsewhere : Location}
    {content others : List Expression} {children below : List Outline}
    (path : qualifier.map Qualifier.unplaced = other.map Qualifier.unplaced)
    (defined : definition.unplaced = written.unplaced) (file : location.file = elsewhere.file)
    (reference : location.isReference = elsewhere.isReference)
    (expressions : content.map Expression.unplaced = others.map Expression.unplaced)
    (inside : children.map Outline.unplaced = below.map Outline.unplaced) :
    (scopeOutline name qualifier definition access location content children).unplaced =
      (scopeOutline name other written access elsewhere others below).unplaced := by
  have scope := @unplaced_ofFacet name qualifier other
    ⟨location.file, location.isReference, access, definition⟩
    ⟨elsewhere.file, elsewhere.isReference, access, written⟩ path
    (by simp only [Facet.unplaced, file, reference, defined])
  simp only [scopeOutline, Outline.unplaced_node, StatementKind.unplaced, StatementKind.mapScope,
    scope, expressions, inside]

theorem unplaced_nestNamespaces {location elsewhere : Location} {children below : List Outline}
    (file : location.file = elsewhere.file)
    (reference : location.isReference = elsewhere.isReference) (names : List String)
    (inside : children.map Outline.unplaced = below.map Outline.unplaced) :
    (nestNamespaces location names children).map Outline.unplaced =
      (nestNamespaces elsewhere names below).map Outline.unplaced := by
  induction names with
  | nil => exact inside
  | cons name rest ih =>
    exact congrArg List.singleton
      (unplaced_scopeOutline name .unstated rfl rfl file reference rfl ih)

theorem unplaced_namespaceOutline (element : Element) {children below : List Outline}
    (inside : children.map Outline.unplaced = below.map Outline.unplaced) :
    (namespaceOutline source element.unplaced children).map Outline.unplaced =
      (namespaceOutline source element below).map Outline.unplaced := by
  simp only [namespaceOutline, segmentNames_unplaced]
  split
  · exact congrArg List.singleton (unplaced_scopeOutline "" .unstated rfl rfl rfl rfl rfl inside)
  · exact @unplaced_nestNamespaces (element.unplaced.location source.name)
      (element.location source.name) _ _ rfl rfl _ inside

theorem isReferenceElement_unplaced (head : Head) :
    isReferenceElement head.unplaced = isReferenceElement head := by
  rw [isReferenceElement, Head.name_unplaced, isReferenceElement]

theorem unplaced_typeOutline (kind : TypeKind) (element : Element) {children below : List Outline}
    (inside : children.map Outline.unplaced = below.map Outline.unplaced) :
    (typeOutline source around kind element.unplaced children).unplaced =
      (typeOutline source around kind element below).unplaced := by
  have named := @unplaced_typeName source element
  have parents := @Element.map_getD_child?_unplaced element _ _ TypeUse.unplaced
    (fun list => parentTypes source.name list.children)
    (fun list => unplaced_parentTypes list.children) "super"
  unfold typeOutline
  generalize typeName source element.unplaced = left at named ⊢
  generalize typeName source element = right at named ⊢
  obtain ⟨name, before⟩ := left
  obtain ⟨other, earlier⟩ := right
  obtain ⟨rfl, path⟩ := named
  simp only [statedAccess_unplaced, isPartial_unplaced]
  refine unplaced_scopeOutline _ _ (unplaced_placingQualifier path) ?_ rfl ?_ rfl inside
  · simp only [Definition.unplaced, TypeDefinition.unplaced, parents]
  · exact isReferenceElement_unplaced element.head

theorem unplaced_methodDefinition (element : Element) (name : String) (owner : Option String) :
    (methodDefinition source around element.unplaced name owner).unplaced =
      (methodDefinition source around element name owner).unplaced := by
  have stated := element.map_getD_child?_unplaced Variable.unplaced
    (@unplaced_parameters source.name) "parameter_list"
  have returned := element.map_bind_child?_unplaced TypeUse.unplaced
    (@unplaced_typeOf? source.name) "type"
  have typed : (element.unplaced.child? "type").isNone = (element.child? "type").isNone := by
    rw [Element.child?_unplaced, Option.isNone_map]
  simp only [methodDefinition, MethodDefinition.unplaced, Element.name_unplaced, typed, stated,
    isPartial_unplaced, apply_ite (Option.map TypeUse.unplaced), returned]

theorem unplaced_memberInitializers (element : Element) :
    (memberInitializers source element.unplaced).map Expression.unplaced =
      (memberInitializers source element).map Expression.unplaced := by
  simp only [memberInitializers, Element.childrenNamed_unplaced, List.flatMap_map,
    ← List.map_flatMap, List.filterMap_map, List.map_filterMap, Function.comp_def, unplaced_call?]

theorem unplaced_methodOutline (element : Element) {children below : List Outline}
    (inside : children.map Outline.unplaced = below.map Outline.unplaced) :
    (methodOutline source around element.unplaced children).map Outline.unplaced =
      (methodOutline source around element below).map Outline.unplaced := by
  have declared := @unplaced_declaredName? source.name element
  unfold methodOutline
  generalize declaredName? source.name element.unplaced = left at declared ⊢
  generalize declaredName? source.name element = right at declared ⊢
  obtain ⟨rfl, rfl⟩ | ⟨first, second, rfl, rfl, same⟩ := missing_or_found_of_map_eq declared
  · rfl
  · obtain ⟨name, before⟩ := first
    obtain ⟨other, earlier⟩ := second
    simp only [Prod.map_apply, id_eq, Prod.mk.injEq] at same
    obtain ⟨rfl, path⟩ := same
    have owner := congrArg (fun segments => segments.getLast?.map Segment.name) path
    simp only [List.getLast?_map, Option.map_map, Function.comp_def, Segment.name_unplaced] at owner
    simp only [List.map_singleton, owner, statedAccess_unplaced]
    refine congrArg List.singleton (unplaced_scopeOutline _ _ (unplaced_placingQualifier path)
      ?_ rfl ?_ (unplaced_memberInitializers element) inside)
    · simp only [Definition.unplaced, unplaced_methodDefinition]
    · exact isReferenceElement_unplaced element.head

theorem unplaced_declarationOutline (element : Element) :
    (declarationOutline source around element.unplaced).map Outline.unplaced =
      (declarationOutline source around element).map Outline.unplaced := by
  have content := @unplaced_declaredContent source.name around.access (declarators element) none
    none rfl
  unfold declarationOutline
  rw [declarators_unplaced]
  generalize declaredContent source.name around.access none
    ((declarators element).map Element.unplaced) = left at content ⊢
  generalize declaredContent source.name around.access none (declarators element) = right
    at content ⊢
  match left, right with
  | [], [] => rfl
  | _ :: _, _ :: _ => simp only [List.map_singleton, Outline.unplaced_node, content]
  | [], _ :: _ | _ :: _, [] => simp at content

theorem unplaced_filterMap_expression? (file : String) (elements : List Element) :
    ((elements.map Element.unplaced).filterMap (expression? file)).map Expression.unplaced =
      (elements.filterMap (expression? file)).map Expression.unplaced := by
  simp only [List.filterMap_map, List.map_filterMap, Function.comp_def, unplaced_expression?]

theorem unplaced_initContent (element : Element) :
    (((element.unplaced.child? "init").map (headerContent source.name)).getD []).map
        Expression.unplaced =
      (((element.child? "init").map (headerContent source.name)).getD []).map
        Expression.unplaced :=
  element.map_getD_child?_unplaced Expression.unplaced unplaced_headerContent "init"

theorem unplaced_lockContent (element : Element) :
    (lockContent source element.unplaced).map Expression.unplaced =
      (lockContent source element).map Expression.unplaced := by
  simp only [lockContent, List.map_append, unplaced_initContent, Element.childrenNamed_unplaced,
    unplaced_filterMap_expression?]

theorem unplaced_loopHeader (element : Element) :
    (loopHeader source element.unplaced).1 = (loopHeader source element).1 ∧
      (loopHeader source element.unplaced).2.map Expression.unplaced =
        (loopHeader source element).2.map Expression.unplaced := by
  have header : (element.unplaced.child? "control").getD element.unplaced =
      ((element.child? "control").getD element).unplaced := by
    rw [Element.child?_unplaced]
    cases element.child? "control" <;> rfl
  have initial (header : Element) (name : String) :
      (((header.unplaced.child? "init").map fun init => init.childrenNamed name).getD []) =
        (((header.child? "init").map fun init => init.childrenNamed name).getD []).map
          Element.unplaced := by
    rw [Element.child?_unplaced]
    cases header.child? "init" with
    | none => rfl
    | some init => exact init.childrenNamed_unplaced name
  simp only [loopHeader, header, initial]
  simp only [Element.name_unplaced, Element.child?_unplaced, Option.isSome_map, List.any_map,
    Function.comp_def, true_and, List.map_append, unplaced_expressionsOfChild,
    unplaced_filterMap_expression?]
  simp only [List.flatMap_map, List.map_flatMap, List.map_cons, unplaced_headerDeclaration,
    unplaced_expressionsOfChild]

theorem unplaced_catchContent (clause : Element) :
    ((catchDeclarators clause.unplaced).map (headerDeclaration source.name)).map
        Expression.unplaced =
      ((catchDeclarators clause).map (headerDeclaration source.name)).map Expression.unplaced := by
  simp only [catchDeclarators_unplaced, List.map_map, Function.comp_def, unplaced_headerDeclaration]

theorem aliasParts?_unplaced (element : Element) :
    aliasParts? element.unplaced = aliasParts? element := by
  simp only [aliasParts?, Element.child?_unplaced, Element.ownText_unplaced,
    Element.childrenNamed_unplaced]
  cases element.child? "init" with
  | some value =>
    simp only [Option.map_some, leafNames_unplaced, Option.bind_map, Function.comp_def,
      ownLeafNames_unplaced]
  | none =>
    cases element.childrenNamed "name" with
    | nil => rfl
    | cons first rest =>
      simp only [Option.map_none, List.map_cons, List.flatMap_map, ownLeafNames_unplaced]

theorem usingStatement?_unplaced (language : Language) (element : Element) :
    usingStatement? language element.unplaced = usingStatement? language element := by
  have about : usesNamespace element.unplaced = usesNamespace element := by
    simp only [usesNamespace, Element.child?_unplaced, Option.isSome_map, Element.ownText_unplaced]
  cases language <;>
    simp only [usingStatement?, aliasParts?_unplaced, about, leafNames_unplaced,
      Element.text_unplaced]

end Definitions

/-! ### Outlines -/

section Outlines

@[simp]
theorem named?_unplaced (name : String) (node : Node) :
    named? name node.unplaced = (named? name node).map Element.unplaced := by
  rw [named?, Node.element?_unplaced, named?]
  cases node.element? with
  | none => rfl
  | some element =>
    simp only [Option.map_some, Option.filter_some, Element.name_unplaced]
    split <;> rfl

@[simp]
theorem hasBlock_unplaced (nodes : List Node) :
    hasBlock (nodes.map Node.unplaced) = hasBlock nodes := by
  simp only [hasBlock, List.any_map, Function.comp_def, named?_unplaced, Option.isSome_map]

@[simp]
theorem isLabel_unplaced (node : Node) : isLabel node.unplaced = isLabel node := by
  rw [isLabel, Node.element?_unplaced, isLabel]
  cases node.element? with
  | none => rfl
  | some element => simp only [Option.map_some, Element.name_unplaced]

@[simp]
theorem treatmentOf_unplaced (treat : String → Treatment) (node : Node) :
    treatmentOf treat node.unplaced = treatmentOf treat node := by
  cases node with
  | text content => rfl
  | element head children =>
    rw [Node.unplaced_element, treatmentOf, treatmentOf, Head.name_unplaced]

theorem unplaced_single (kind : StatementKind) {location elsewhere : Location}
    {content others : List Expression} {children below : List Outline}
    (expressions : content.map Expression.unplaced = others.map Expression.unplaced)
    (inside : children.map Outline.unplaced = below.map Outline.unplaced) :
    [Outline.node kind location content children].map Outline.unplaced =
      [Outline.node kind elsewhere others below].map Outline.unplaced := by
  simp only [List.map_singleton, Outline.unplaced_node, expressions, inside]

theorem Runs.unplaced_all (runs : Runs) :
    runs.all.map Outline.unplaced = runs.unplaced.all :=
  List.map_append

variable {source : SourceFile}

theorem unplaced_packageRuns (package : Element) {rest others : Runs}
    (same : rest.unplaced = others.unplaced) :
    (packageRuns source package.unplaced rest).unplaced =
      (packageRuns source package others).unplaced := by
  obtain ⟨run, later⟩ := Runs.mk.inj same
  have nested := @unplaced_nestNamespaces
    (Location.span source.name package.unplaced.head.start .unbounded)
    (Location.span source.name package.head.start .unbounded) _ _ rfl rfl
    (segmentNames source package) run
  simp only [packageRuns, segmentNames_unplaced]
  split
  · exact same
  · simp only [Runs.unplaced, List.map_append, later, nested]

theorem unplaced_labelRuns (label : Element) {stop other : Position} {following behind : List Node}
    {rest others : Runs} (same : rest.unplaced = others.unplaced) :
    (labelRuns source stop label.unplaced following rest).unplaced =
      (labelRuns source other label behind others).unplaced := by
  obtain ⟨run, later⟩ := Runs.mk.inj same
  simp only [labelRuns, Runs.unplaced, List.map_cons, later, Outline.unplaced_node, run,
    unplaced_expressionsIn, Element.name_unplaced]

mutual

theorem unplaced_outlines : ∀ (node : Node) (around : Surroundings) (treatment : Treatment),
    (outlines source around treatment node.unplaced).map Outline.unplaced =
      (outlines source around treatment node).map Outline.unplaced
  | .text _, around, treatment => by rw [Node.unplaced_text]
  | .element head children, around, treatment => by
    have runs (around : Surroundings) :
        (statementRuns source around (children.map Node.unplaced)).all.map Outline.unplaced =
          (statementRuns source around children).all.map Outline.unplaced := by
      rw [Runs.unplaced_all, unplaced_statementRuns children, Runs.unplaced_all]
    have inside := unplaced_parts children
    have blocks := unplaced_blockStatements children
    have switches := unplaced_switchBlock children
    have chains := unplaced_chainRuns children around false
    have condition := @unplaced_expressionsOfChild source.name ⟨head, children⟩ "condition"
    have element : Element.unplaced ⟨head, children⟩ =
      ⟨head.unplaced, children.map Node.unplaced⟩ := rfl
    cases treatment with
    | skip => simp only [Node.unplaced_element, outlines]
    | «open» =>
      simp only [Node.unplaced_element, outlines]
      exact runs around
    | branch kind =>
      simp only [Node.unplaced_element, outlines, Head.name_unplaced]
      refine unplaced_single kind rfl ?_
      split
      · exact runs around
      · exact inside around .ofBodyPart
    | handler =>
      simp only [Node.unplaced_element, outlines]
      exact unplaced_single .catchClause (unplaced_catchContent ⟨head, children⟩)
        (inside around .ofBodyPart)
    | whole =>
      simp only [Node.unplaced_element, outlines, Head.isPreprocessor_unplaced, Head.name_unplaced]
      split
      · rfl
      · generalize Construct.ofName head.name = construct
        cases construct with
        | namespaceBlock => exact unplaced_namespaceOutline ⟨head, children⟩ (blocks _)
        | typeBlock kind =>
          have name := (@unplaced_typeName source ⟨head, children⟩).1
          simp only [← element, name, List.map_singleton]
          exact congrArg List.singleton (unplaced_typeOutline kind ⟨head, children⟩ (blocks _))
        | method => exact unplaced_methodOutline ⟨head, children⟩ (blocks _)
        | declaration => exact unplaced_declarationOutline ⟨head, children⟩
        | simple kind => exact unplaced_single kind (unplaced_expressionsIn ⟨head, children⟩) rfl
        | label =>
          simp only [← element, Element.child?_unplaced, Option.map_map, Function.comp_def,
            Element.text_unplaced]
          exact unplaced_single _ rfl rfl
        | conditional => exact unplaced_single _ condition (inside around .ofConditionalPart)
        | conditionalChain =>
          rw [Runs.unplaced_all, chains, Runs.unplaced_all]
        | conditionLoop kind => exact unplaced_single kind condition (inside around .ofBodyPart)
        | controlLoop =>
          obtain ⟨kind, content⟩ := @unplaced_loopHeader source ⟨head, children⟩
          simp only [← element, kind]
          exact unplaced_single _ content (inside around .ofBodyPart)
        | switch => exact unplaced_single _ condition (switches around)
        | guarded =>
          exact unplaced_single _ (unplaced_initContent ⟨head, children⟩)
            (inside around .ofGuardedPart)
        | lock =>
          exact unplaced_single _ (unplaced_lockContent ⟨head, children⟩)
            (inside around .ofBodyPart)
        | «using» =>
          simp only [hasBlock_unplaced, ← element, usingStatement?_unplaced]
          split
          · exact unplaced_single _ (unplaced_lockContent ⟨head, children⟩)
              (inside around .ofBodyPart)
          · simp only [← Option.toList_map, Option.map_map, Function.comp_def,
              Outline.unplaced_node]
        | block =>
          simp only [hasBlock_unplaced]
          refine unplaced_single _ rfl ?_
          split
          · exact blocks around
          · exact runs around
        | region access => exact runs _
        | wrapper => exact runs around
        | skipped => rfl

theorem unplaced_parts : ∀ (nodes : List Node) (around : Surroundings) (treat : String → Treatment),
    (parts source around treat (nodes.map Node.unplaced)).map Outline.unplaced =
      (parts source around treat nodes).map Outline.unplaced
  | [], around, treat => by rw [List.map_nil]
  | node :: rest, around, treat => by
    rw [List.map_cons, parts, parts, List.map_append, List.map_append, treatmentOf_unplaced,
      unplaced_outlines node, unplaced_parts rest]

theorem unplaced_statementRuns : ∀ (nodes : List Node) (around : Surroundings),
    (statementRuns source around (nodes.map Node.unplaced)).unplaced =
      (statementRuns source around nodes).unplaced
  | [], around => by rw [List.map_nil]
  | node :: rest, around => by
    have here := unplaced_outlines node around .whole
    have after := unplaced_statementRuns rest around
    rw [List.map_cons, statementRuns, statementRuns, named?_unplaced]
    cases named? "package" node with
    | some package => exact unplaced_packageRuns package after
    | none =>
      obtain ⟨run, later⟩ := Runs.mk.inj after
      simp only [Option.map_none, Runs.unplaced, List.map_append, here, run, later]

theorem unplaced_blockStatements : ∀ (nodes : List Node) (around : Surroundings),
    (blockStatements source around (nodes.map Node.unplaced)).map Outline.unplaced =
      (blockStatements source around nodes).map Outline.unplaced
  | [], around => by rw [List.map_nil]
  | .text _ :: rest, around => by
    rw [List.map_cons, Node.unplaced_text, blockStatements, blockStatements]
    exact unplaced_blockStatements rest around
  | .element head children :: rest, around => by
    have runs := unplaced_statementRuns children around
    have after := unplaced_blockStatements rest around
    simp only [List.map_cons, Node.unplaced_element, blockStatements, Head.name_unplaced]
    split
    · rw [Runs.unplaced_all, runs, Runs.unplaced_all]
    · exact after

theorem unplaced_chainRuns : ∀ (nodes : List Node) (around : Surroundings) (follows : Bool),
    (chainRuns source around follows (nodes.map Node.unplaced)).unplaced =
      (chainRuns source around follows nodes).unplaced
  | [], around, follows => by rw [List.map_nil]
  | .text _ :: rest, around, follows => by
    rw [List.map_cons, Node.unplaced_text, chainRuns, chainRuns]
    exact unplaced_chainRuns rest around follows
  | .element head children :: rest, around, follows => by
    have inside := unplaced_parts children around
    have after := unplaced_chainRuns rest around
    have condition := @unplaced_expressionsOfChild source.name ⟨head, children⟩ "condition"
    simp only [List.map_cons, Node.unplaced_element, chainRuns, Head.name_unplaced,
      head.attribute?_unplaced (show Text.startsWith "type" "pos:" = false by decide)]
    split
    · obtain ⟨run, later⟩ := Runs.mk.inj (after true)
      split
      · simp only [Runs.unplaced, List.map_singleton, Outline.unplaced_node, List.map_append, later,
          run, inside]
        rw [← condition]
        rfl
      · simp only [Runs.unplaced, List.map_cons, Outline.unplaced_node, List.map_append, later, run,
          inside]
        rw [← condition]
        rfl
    · obtain ⟨run, later⟩ := Runs.mk.inj (after follows)
      split
      · simp only [Runs.unplaced, List.map_cons, List.map_nil, Outline.unplaced_node, run, later,
          inside]
      · simp only [Runs.unplaced, List.map_cons, List.map_nil, Outline.unplaced_node, run, later,
          inside]
    · exact after follows

theorem unplaced_switchBlock : ∀ (nodes : List Node) (around : Surroundings),
    (switchBlock source around (nodes.map Node.unplaced)).map Outline.unplaced =
      (switchBlock source around nodes).map Outline.unplaced
  | [], around => by rw [List.map_nil]
  | .text _ :: rest, around => by
    rw [List.map_cons, Node.unplaced_text, switchBlock, switchBlock]
    exact unplaced_switchBlock rest around
  | .element head children :: rest, around => by
    have runs := unplaced_caseRuns children around head.unplaced.stop head.stop
    have after := unplaced_switchBlock rest around
    simp only [List.map_cons, Node.unplaced_element, switchBlock, Head.name_unplaced]
    split
    · rw [Runs.unplaced_all, runs, Runs.unplaced_all]
    · exact after

theorem unplaced_caseRuns : ∀ (nodes : List Node) (around : Surroundings) (stop other : Position),
    (caseRuns source around stop (nodes.map Node.unplaced)).unplaced =
      (caseRuns source around other nodes).unplaced
  | [], around, stop, other => by rw [List.map_nil, caseRuns, caseRuns]
  | node :: rest, around, stop, other => by
    have here := unplaced_outlines node around .whole
    have after := unplaced_caseRuns rest around stop other
    have label : (node.unplaced.element?.filter fun _ => isLabel node.unplaced) =
        (node.element?.filter fun _ => isLabel node).map Element.unplaced := by
      rw [isLabel_unplaced, Node.element?_unplaced]
      cases node.element? with
      | none => rfl
      | some element =>
        simp only [Option.map_some, Option.filter_some]
        split <;> rfl
    rw [List.map_cons, caseRuns, caseRuns, label]
    cases node.element?.filter fun _ => isLabel node with
    | some label => exact unplaced_labelRuns label after
    | none =>
      obtain ⟨run, later⟩ := Runs.mk.inj after
      simp only [Option.map_none, Runs.unplaced, List.map_append, here, run, later]

end

theorem statementRuns_same (around : Surroundings) {nodes others : List Node}
    (same : nodes.map Node.unplaced = others.map Node.unplaced) :
    (statementRuns source around nodes).all.map Outline.unplaced =
      (statementRuns source around others).all.map Outline.unplaced := by
  rw [Runs.unplaced_all, Runs.unplaced_all, ← unplaced_statementRuns nodes, same,
    unplaced_statementRuns others]

end Outlines

end SourceUnit

/-! ### Trees -/

def Statement.unplaced (statement : Statement) : Statement :=
  { statement with
    kind := statement.kind.unplaced
    locations := statement.locations.map fun _ => default
    content := statement.content.map Expression.unplaced }

def ScopeTree.unplaced (tree : ScopeTree) : ScopeTree :=
  ⟨tree.slots.map (Option.map Statement.unplaced)⟩

section Trees

theorem ScopeTree.unplaced_modify (tree : ScopeTree) (id : StatementId)
    {change : Statement → Statement}
    (same : ∀ statement, (change statement).unplaced = change statement.unplaced) :
    (tree.modify id change).unplaced = tree.unplaced.modify id change := by
  simp only [modify, unplaced, mk.injEq]
  refine Array.ext_getElem? fun index => ?_
  simp only [Array.getElem?_map, Array.getElem?_modify]
  split
  · rcases tree.slots[index]? with _ | _ | statement
    · rfl
    · rfl
    · simp only [Option.map_some, same]
  · rfl

theorem ScopeTree.nextId_unplaced (tree : ScopeTree) : tree.unplaced.nextId = tree.nextId := by
  simp [nextId, unplaced]

theorem ScopeTree.unplaced_store (tree : ScopeTree) (statement : Statement) :
    (tree.store statement).unplaced = tree.unplaced.store statement.unplaced := by
  simp only [store, unplaced, Array.map_push]
  rfl

theorem ScopeTree.unplaced_attach (tree : ScopeTree) (parent child : StatementId) :
    (tree.attach parent child).unplaced = tree.unplaced.attach parent child := by
  rw [attach, unplaced_modify, unplaced_modify, attach]
  · exact fun _ => rfl
  · exact fun _ => rfl

theorem ScopeTree.unplaced_add (tree : ScopeTree) (parent : StatementId) (statement : Statement) :
    (tree.add parent statement).unplaced = tree.unplaced.add parent statement.unplaced := by
  rw [add, unplaced_attach, unplaced_store, add, nextId_unplaced]

namespace Outline

variable {language : Language}

mutual

theorem unplaced_place : ∀ (outline : Outline) (parent : StatementId) (tree : ScopeTree),
    (place language parent outline tree).unplaced =
      place language parent outline.unplaced tree.unplaced
  | .node kind location content children, parent, tree => by
    rw [unplaced_node, place, place, unplaced_placeAll children, ScopeTree.unplaced_add,
      ScopeTree.nextId_unplaced]
    rfl

theorem unplaced_placeAll : ∀ (outlines : List Outline) (parent : StatementId) (tree : ScopeTree),
    (placeAll language parent outlines tree).unplaced =
      placeAll language parent (outlines.map unplaced) tree.unplaced
  | [], _, _ => rfl
  | first :: rest, parent, tree => by
    rw [placeAll, unplaced_placeAll rest, unplaced_place first, List.map_cons, placeAll]

end

/-- Outlines that are the same without places make trees that are the same without places. -/
theorem placeAll_same {outlines others : List Outline}
    (same : outlines.map unplaced = others.map unplaced) (parent : StatementId) (tree : ScopeTree) :
    (placeAll language parent outlines tree).unplaced =
      (placeAll language parent others tree).unplaced := by
  rw [unplaced_placeAll, same, unplaced_placeAll]

end Outline

end Trees

end ScopeAtlas
