import ScopeAtlas.Proofs.Unplaced

/-!
What the elements of a unit spell, apart from places. Names, types, expressions and declared
variables are the same without places whether they are read from an element or from the element
without its places. Where a function takes more than markup, as a declarator takes the type of the
one before it, what it takes need only be the same without places.
-/

namespace ScopeAtlas

/-! ### Names -/

namespace SourceUnit

open Markup

def NamePart.unplaced : NamePart → NamePart
  | .segment found => .segment found.unplaced
  | .separator text => .separator text

def NamePieces.unplaced (pieces : NamePieces) : NamePieces :=
  ⟨pieces.parts.map NamePart.unplaced, pieces.typeArguments.map TypeUse.unplaced⟩

section Names

variable {file : String}

theorem NamePieces.unplaced_append (left right : NamePieces) :
    (left.append right).unplaced = left.unplaced.append right.unplaced := by
  simp [append, unplaced]

theorem unplaced_filterMap_segment? (parts : List NamePart) :
    (parts.filterMap NamePart.segment?).map Segment.unplaced =
      (parts.map NamePart.unplaced).filterMap NamePart.segment? := by
  rw [List.map_filterMap, List.filterMap_map]
  congr 1
  funext part
  cases part <;> rfl

theorem NamePieces.unplaced_segments (pieces : NamePieces) :
    pieces.segments.map Segment.unplaced = pieces.unplaced.segments :=
  unplaced_filterMap_segment? pieces.parts

theorem NamePieces.unplaced_typeUse? (pieces : NamePieces) :
    pieces.typeUse?.map TypeUse.unplaced = pieces.unplaced.typeUse? := by
  simp only [typeUse?, ← unplaced_segments, List.getLast?_map, ← List.map_dropLast,
    ← Qualifier.unplaced_ofSegments?, Option.map_map]
  congr 1
  funext last
  exact TypeUse.unplaced_mk _ _ _

@[simp]
theorem hasElement_unplaced (nodes : List Node) :
    hasElement (nodes.map Node.unplaced) = hasElement nodes := by
  simp [hasElement, List.any_map, Function.comp_def]

theorem unplaced_bareName (head : Head) (children : List Node) :
    (bareName file head.unplaced (children.map Node.unplaced)).unplaced =
      (bareName file head children).unplaced := by
  simp only [bareName, Node.textOf_unplaced]
  split <;> rfl

theorem unplaced_piecesOf (head : Head) (children : List Node) {inner other : NamePieces}
    (same : inner.unplaced = other.unplaced) :
    (piecesOf file head.unplaced (children.map Node.unplaced) inner).unplaced =
      (piecesOf file head children other).unplaced := by
  simp only [piecesOf, hasElement_unplaced]
  split
  · exact same
  · exact unplaced_bareName head children

mutual

theorem unplaced_innerPieces : ∀ nodes : List Node,
    (innerPieces file (nodes.map Node.unplaced)).unplaced = (innerPieces file nodes).unplaced
  | [] => rfl
  | .text content :: rest => by
    have after := unplaced_innerPieces rest
    simp only [List.map_cons, Node.unplaced_text, innerPieces, NamePieces.unplaced_append, after]
  | .element head children :: rest => by
    have below := unplaced_innerPieces children
    have types := unplaced_typeArguments children
    have after := unplaced_innerPieces rest
    simp only [List.map_cons, Node.unplaced_element, innerPieces, NamePieces.unplaced_append, after,
      Head.name_unplaced, Node.textOf_unplaced]
    congr 1
    split
    · exact unplaced_piecesOf head children below
    · split
      · rfl
      · split
        · simp only [NamePieces.unplaced, types]
        · rfl

theorem unplaced_typeArguments : ∀ nodes : List Node,
    (typeArguments file (nodes.map Node.unplaced)).map TypeUse.unplaced =
      (typeArguments file nodes).map TypeUse.unplaced
  | [] => rfl
  | .text _ :: rest => by
    simp only [List.map_cons, Node.unplaced_text, typeArguments]
    exact unplaced_typeArguments rest
  | .element head children :: rest => by
    have first := unplaced_firstType? children
    have after := unplaced_typeArguments rest
    simp only [List.map_cons, Node.unplaced_element, typeArguments, List.map_append, after,
      Head.name_unplaced]
    congr 1
    split
    · obtain ⟨missing, missingToo⟩ | ⟨other, type, here, there, same⟩ :=
        missing_or_found_of_map_eq first
      · rw [missing, missingToo]
      · rw [here, there, Option.getD_some, Option.getD_some, ← Option.toList_map, same,
          Option.toList_map]
    · rfl

theorem unplaced_firstType? : ∀ nodes : List Node,
    (firstType? file (nodes.map Node.unplaced)).map (Option.map TypeUse.unplaced) =
      (firstType? file nodes).map (Option.map TypeUse.unplaced)
  | [] => rfl
  | .text _ :: rest => by
    simp only [List.map_cons, Node.unplaced_text, firstType?]
    exact unplaced_firstType? rest
  | .element head children :: rest => by
    have below := unplaced_innerPieces children
    have inner := unplaced_firstType? children
    have after := unplaced_firstType? rest
    simp only [List.map_cons, Node.unplaced_element, firstType?, Head.name_unplaced]
    split
    · simp only [Option.map_some, NamePieces.unplaced_typeUse?,
        unplaced_piecesOf head children below]
    · obtain ⟨missing, missingToo⟩ | ⟨other, type, here, there, same⟩ :=
        missing_or_found_of_map_eq inner
      · rw [missing, missingToo]
        exact after
      · rw [here, there, Option.map_some, Option.map_some, same]

end

theorem unplaced_namePieces (name : Element) :
    (namePieces file name.unplaced).unplaced = (namePieces file name).unplaced :=
  unplaced_piecesOf name.head name.children (unplaced_innerPieces name.children)

theorem unplaced_segments (name : Element) :
    (segments file name.unplaced).map Segment.unplaced =
      (segments file name).map Segment.unplaced := by
  rw [segments, NamePieces.unplaced_segments, unplaced_namePieces, ← NamePieces.unplaced_segments,
    segments]

theorem unplaced_typeOfName? (name : Element) :
    (typeOfName? file name.unplaced).map TypeUse.unplaced =
      (typeOfName? file name).map TypeUse.unplaced := by
  rw [typeOfName?, NamePieces.unplaced_typeUse?, unplaced_namePieces,
    ← NamePieces.unplaced_typeUse?, typeOfName?]

theorem unplaced_typeOf? (type : Element) :
    (typeOf? file type.unplaced).map TypeUse.unplaced =
      (typeOf? file type).map TypeUse.unplaced :=
  type.map_bind_child?_unplaced TypeUse.unplaced unplaced_typeOfName? "name"

theorem unplaced_declaredName? (element : Element) :
    (declaredName? file element.unplaced).map (Prod.map id (List.map Segment.unplaced)) =
      (declaredName? file element).map (Prod.map id (List.map Segment.unplaced)) := by
  have last (found : List Segment) :
      (found.getLast?.map fun last => (last.name, found.dropLast)).map
          (Prod.map id (List.map Segment.unplaced)) =
        (found.map Segment.unplaced).getLast?.map fun last =>
          (last.name, (found.map Segment.unplaced).dropLast) := by
    simp [List.getLast?_map, List.map_dropLast, Function.comp_def]
  simp only [declaredName?, Element.child?_unplaced]
  cases element.child? "name" with
  | none => rfl
  | some name => simp only [Option.map_some, last, unplaced_segments]

theorem unplaced_parentTypes : ∀ nodes : List Node,
    (parentTypes file (nodes.map Node.unplaced)).map TypeUse.unplaced =
      (parentTypes file nodes).map TypeUse.unplaced
  | [] => rfl
  | .text _ :: rest => by
    simp only [List.map_cons, Node.unplaced_text, parentTypes]
    exact unplaced_parentTypes rest
  | .element head children :: rest => by
    have below := unplaced_parentTypes children
    have after := unplaced_parentTypes rest
    have name := @unplaced_typeOfName? file ⟨head, children⟩
    simp only [List.map_cons, Node.unplaced_element, parentTypes, List.map_append, after,
      Head.name_unplaced]
    congr 1
    split
    · rw [← Option.toList_map, ← Option.toList_map]
      exact congrArg Option.toList name
    · rfl
    · rfl
    · exact below

@[simp]
theorem hasName_unplaced (nodes : List Node) :
    hasName (nodes.map Node.unplaced) = hasName nodes := by
  rw [hasName, hasName, List.any_map]
  congr 1
  funext node
  cases node with
  | text content => rfl
  | element head children => exact congrArg (· == "name") head.name_unplaced

@[simp]
theorem leafText_unplaced (children : List Node) :
    leafText (children.map Node.unplaced) = leafText children := by
  rw [leafText, leafText, Node.textOf_unplaced]

theorem leafNamesIn_unplaced : ∀ nodes : List Node,
    leafNamesIn (nodes.map Node.unplaced) = leafNamesIn nodes
  | [] => rfl
  | .text _ :: rest => by
    simp only [List.map_cons, Node.unplaced_text, leafNamesIn, leafNamesIn_unplaced rest]
  | .element head children :: rest => by
    simp only [List.map_cons, Node.unplaced_element, leafNamesIn, leafNamesIn_unplaced children,
      leafNamesIn_unplaced rest, Head.name_unplaced, hasName_unplaced, leafText_unplaced]

@[simp]
theorem leafNames_unplaced (element : Element) : leafNames element.unplaced = leafNames element :=
  leafNamesIn_unplaced element.children

@[simp]
theorem ownLeafNames_unplaced (name : Element) :
    ownLeafNames name.unplaced = ownLeafNames name := by
  have inner := hasName_unplaced name.children
  have text := leafText_unplaced name.children
  simp only [ownLeafNames, leafNames_unplaced]
  simp only [Element.unplaced, inner, text]

end Names

/-! ### Calls -/

section Calls

variable {file : String}

theorem unplaced_segmentOperand (gathered : List Segment) :
    (segmentOperand gathered).map Expression.unplaced =
      segmentOperand (gathered.map Segment.unplaced) := by
  simp only [segmentOperand, List.getLast?_map]
  cases gathered.getLast? with
  | none => rfl
  | some last =>
    simp [ExpressionKind.unplaced, NameUse.unplaced, Qualifier.unplaced_ofSegments?,
      List.map_dropLast, Segment.unplaced]

/-- What the parts of a name give depends on places only in its own places, whatever was gathered
before them. -/
theorem unplaced_receiverParts : ∀ (parts : List NamePart) {operands others : List Expression}
    {gathered found : List Segment},
      operands.map Expression.unplaced = others.map Expression.unplaced →
      gathered.map Segment.unplaced = found.map Segment.unplaced →
      (receiverParts file operands gathered (parts.map NamePart.unplaced)).map Expression.unplaced =
        (receiverParts file others found parts).map Expression.unplaced := by
  intro parts
  induction parts with
  | nil =>
    intro operands others gathered found sameOperands sameGathered
    simp only [List.map_nil, receiverParts, List.map_append, unplaced_segmentOperand, sameOperands,
      sameGathered]
  | cons part rest ih =>
    intro operands others gathered found sameOperands sameGathered
    cases part with
    | segment written =>
      simp only [List.map_cons, NamePart.unplaced, receiverParts]
      refine ih sameOperands ?_
      simp [sameGathered, Segment.unplaced]
    | separator text =>
      simp only [List.map_cons, NamePart.unplaced, receiverParts]
      split
      · refine ih ?_ rfl
        simp [sameOperands, unplaced_segmentOperand, sameGathered]
      · exact ih sameOperands sameGathered

theorem unplaced_receiver? (parts : List NamePart) :
    (receiver? file (parts.map NamePart.unplaced)).map Expression.unplaced =
      (receiver? file parts).map Expression.unplaced := by
  have same := @unplaced_receiverParts file parts [] [] [] [] rfl rfl
  unfold receiver?
  generalize receiverParts file [] [] (parts.map NamePart.unplaced) = left at same ⊢
  generalize receiverParts file [] [] parts = right at same ⊢
  cases left with
  | nil =>
    obtain rfl : right = [] := by simpa using same
    rfl
  | cons first rest =>
    cases right with
    | nil => simp at same
    | cons other others =>
      simp only [List.map_cons, List.cons.injEq] at same
      simp only [Option.map_some, unplaced_chainExpression, same.1, same.2]

theorem isAccessPart_unplaced (part : NamePart) :
    isAccessPart part.unplaced = isAccessPart part := by
  cases part <;> rfl

theorem splitReceiver_unplaced (parts : List NamePart) :
    splitReceiver (parts.map NamePart.unplaced) =
      ((splitReceiver parts).1.map NamePart.unplaced,
        (splitReceiver parts).2.map NamePart.unplaced) := by
  simp only [splitReceiver, ← List.map_reverse, List.takeWhile_map, List.length_map,
    List.map_take, Function.comp_def, isAccessPart_unplaced]

theorem unplaced_callExpression? (element : Element) {arguments others : List Expression}
    (same : arguments.map Expression.unplaced = others.map Expression.unplaced) :
    (callExpression? file element.unplaced arguments).map Expression.unplaced =
      (callExpression? file element others).map Expression.unplaced := by
  simp only [callExpression?, Element.child?_unplaced]
  cases element.child? "name" with
  | none => rfl
  | some name =>
    have pieces := @unplaced_namePieces file name
    simp only [NamePieces.unplaced, NamePieces.mk.injEq] at pieces
    have split := congrArg splitReceiver pieces.1
    simp only [splitReceiver_unplaced, Prod.mk.injEq] at split
    have object : (receiver? file (splitReceiver (namePieces file name.unplaced).parts).1).map
          Expression.unplaced =
        (receiver? file (splitReceiver (namePieces file name).parts).1).map
          Expression.unplaced := by
      rw [← unplaced_receiver?, split.1, unplaced_receiver?]
    have own := congrArg (List.filterMap NamePart.segment?) split.2
    simp only [← unplaced_filterMap_segment?] at own
    have last := congrArg List.getLast? own
    have path := congrArg (fun found => Qualifier.ofSegments? found.dropLast) own
    simp only [List.getLast?_map, ← List.map_dropLast, ← Qualifier.unplaced_ofSegments?]
      at last path
    simp only [Option.map_some]
    obtain ⟨missing, missingToo⟩ | ⟨other, segment, otherAt, lastAt, sameLast⟩ :=
      missing_or_found_of_map_eq last
    · rw [missing, missingToo]
    · have sameName : other.name = segment.name := by
        simpa using congrArg Segment.name sameLast
      have sameObject := congrArg Option.isNone object
      simp only [Option.isNone_map] at sameObject
      simp only [otherAt, lastAt, Option.map_some, Expression.unplaced_ofKind, ExpressionKind.unplaced,
        Call.unplaced_mk, path, same, pieces.2, object, sameName, Call.isKeyword, sameObject]

end Calls

/-! ### Expressions -/

section Expressions

variable {file : String}

theorem unplaced_expressionOf? (location : Location) (parts : List Expression) :
    (expressionOf? location parts).map Expression.unplaced =
      expressionOf? default (parts.map Expression.unplaced) := by
  match parts with
  | [] => rfl
  | [_] => rfl
  | first :: second :: rest => exact congrArg some (Expression.unplaced_compound _ _)

theorem unplaced_textOperators (start : Position) (text : String) :
    (textOperators file start text).map Expression.unplaced =
      ((Text.words text).filter fun word => word == "new" || memberAccess.contains word).map
        fun word => .ofKind (.operator word) default := by
  simp [textOperators, ExpressionKind.unplaced, Function.comp_def]

theorem unplaced_nameExpression? (element : Element) :
    (nameExpression? file element.unplaced).map Expression.unplaced =
      (nameExpression? file element).map Expression.unplaced := by
  have spelled (found : List Segment) (location : Location) :
      (found.getLast?.map fun last => Expression.ofKind
          (.name ⟨last.name, Qualifier.ofSegments? found.dropLast⟩) location).map
            Expression.unplaced =
        (found.map Segment.unplaced).getLast?.map fun last => Expression.ofKind
          (.name ⟨last.name, Qualifier.ofSegments? (found.map Segment.unplaced).dropLast⟩)
            default := by
    simp only [List.getLast?_map, ← List.map_dropLast, Option.map_map, Function.comp_def,
      Expression.unplaced_ofKind, ExpressionKind.unplaced, NameUse.unplaced,
      Qualifier.unplaced_ofSegments?, Segment.name_unplaced]
  simp only [nameExpression?, spelled, unplaced_segments]

theorem unplaced_literalExpression (element : Element) :
    (literalExpression file element.unplaced).unplaced =
      (literalExpression file element).unplaced := by
  simp only [literalExpression, Expression.unplaced_ofKind, Element.text_unplaced,
    element.attribute?_unplaced (show Text.startsWith "type" "pos:" = false by decide)]

theorem unplaced_operatorExpression? (element : Element) :
    (operatorExpression? file element.unplaced).map Expression.unplaced =
      (operatorExpression? file element).map Expression.unplaced := by
  simp only [operatorExpression?, Element.text_unplaced]
  split
  · rfl
  · simp

mutual

theorem unplaced_partsIn : ∀ (nodes : List Node) (start other : Position),
    (partsIn file start (nodes.map Node.unplaced)).map Expression.unplaced =
      (partsIn file other nodes).map Expression.unplaced
  | [], _, _ => by rw [List.map_nil, partsIn, partsIn]
  | .text content :: rest, start, other => by
    have after := unplaced_partsIn rest start other
    simp only [List.map_cons, Node.unplaced_text, partsIn, List.map_append, unplaced_textOperators,
      after]
  | .element head children :: rest, start, other => by
    have below := unplaced_partsIn children head.unplaced.start head.start
    have arguments := unplaced_callArguments children
    have after := unplaced_partsIn rest start other
    have name := @unplaced_nameExpression? file ⟨head, children⟩
    have call := @unplaced_callExpression? file ⟨head, children⟩ _ _ arguments
    have literal := @unplaced_literalExpression file ⟨head, children⟩
    have operator := @unplaced_operatorExpression? file ⟨head, children⟩
    simp only [List.map_cons, Node.unplaced_element, partsIn, List.map_append, after,
      Head.name_unplaced]
    congr 1
    split
    · simp only [← Option.toList_map]
      exact congrArg Option.toList name
    · simp only [← Option.toList_map]
      exact congrArg Option.toList call
    · exact congrArg List.singleton literal
    · simp only [← Option.toList_map]
      exact congrArg Option.toList operator
    · simp only [← Option.toList_map, unplaced_expressionOf?, unplaced_link, below]
    · rfl
    · have linked := congrArg link below
      simp only [← unplaced_link] at linked
      have blank := congrArg List.isEmpty linked
      simp only [List.isEmpty_map] at blank
      simp only [blank]
      split
      · rfl
      · simp only [List.map_cons, List.map_nil, Expression.unplaced_compound, linked]

theorem unplaced_callArguments : ∀ nodes : List Node,
    (callArguments file (nodes.map Node.unplaced)).map Expression.unplaced =
      (callArguments file nodes).map Expression.unplaced
  | [] => rfl
  | .text _ :: rest => by
    simp only [List.map_cons, Node.unplaced_text, callArguments]
    exact unplaced_callArguments rest
  | .element head children :: rest => by
    have inner := unplaced_argumentsIn children
    have after := unplaced_callArguments rest
    simp only [List.map_cons, Node.unplaced_element, callArguments, List.map_append, after,
      Head.name_unplaced,
      head.attribute?_unplaced (show Text.startsWith "type" "pos:" = false by decide)]
    congr 1
    split
    · exact inner
    · rfl

theorem unplaced_argumentsIn : ∀ nodes : List Node,
    (argumentsIn file (nodes.map Node.unplaced)).map Expression.unplaced =
      (argumentsIn file nodes).map Expression.unplaced
  | [] => rfl
  | .text _ :: rest => by
    simp only [List.map_cons, Node.unplaced_text, argumentsIn]
    exact unplaced_argumentsIn rest
  | .element head children :: rest => by
    have first := unplaced_firstExpression? children
    have below := unplaced_partsIn children head.unplaced.start head.start
    have after := unplaced_argumentsIn rest
    simp only [List.map_cons, Node.unplaced_element, argumentsIn, List.map_append, after,
      Head.name_unplaced]
    congr 1
    split
    · simp only [← Option.toList_map]
      congr 1
      obtain ⟨missing, missingToo⟩ | ⟨other, inner, here, there, same⟩ :=
        missing_or_found_of_map_eq first
      · simp only [missing, missingToo, unplaced_expressionOf?, unplaced_link, below]
      · simp only [here, there, same]
    · rfl

theorem unplaced_firstExpression? : ∀ nodes : List Node,
    (firstExpression? file (nodes.map Node.unplaced)).map (Option.map Expression.unplaced) =
      (firstExpression? file nodes).map (Option.map Expression.unplaced)
  | [] => rfl
  | .text _ :: rest => by
    simp only [List.map_cons, Node.unplaced_text, firstExpression?]
    exact unplaced_firstExpression? rest
  | .element head children :: rest => by
    have below := unplaced_partsIn children head.unplaced.start head.start
    have after := unplaced_firstExpression? rest
    simp only [List.map_cons, Node.unplaced_element, firstExpression?, Head.name_unplaced]
    split
    · simp only [Option.map_some, unplaced_expressionOf?, unplaced_link, below]
    · exact after

end

theorem unplaced_expression? (element : Element) :
    (expression? file element.unplaced).map Expression.unplaced =
      (expression? file element).map Expression.unplaced := by
  have parts := @unplaced_partsIn file element.children element.unplaced.head.start
    element.head.start
  simp only [expression?, unplaced_expressionOf?, unplaced_link, ← parts]
  rfl

theorem unplaced_call? (element : Element) :
    (call? file element.unplaced).map Expression.unplaced =
      (call? file element).map Expression.unplaced :=
  unplaced_callExpression? element (unplaced_callArguments element.children)

end Expressions

/-! ### Declarations and headers -/

section Declarations

variable {file : String}

@[simp]
theorem specifierTexts_unplaced (element : Element) :
    specifierTexts element.unplaced = specifierTexts element := by
  simp [specifierTexts, Function.comp_def]

@[simp]
theorem statedAccess_unplaced (element : Element) :
    statedAccess element.unplaced = statedAccess element := by
  rw [statedAccess, statedAccess, specifierTexts_unplaced]

@[simp]
theorem isPartial_unplaced (element : Element) :
    isPartial element.unplaced = isPartial element := by
  rw [isPartial, isPartial, specifierTexts_unplaced]

theorem unplaced_declaratorType (declarator : Element) {previous other : Option TypeUse}
    (same : previous.map TypeUse.unplaced = other.map TypeUse.unplaced) :
    (declaratorType file declarator.unplaced previous).map TypeUse.unplaced =
      (declaratorType file declarator other).map TypeUse.unplaced := by
  simp only [declaratorType, Element.child?_unplaced]
  cases declarator.child? "type" with
  | none => rfl
  | some type =>
    simp only [Option.map_some,
      type.attribute?_unplaced (show Text.startsWith "ref" "pos:" = false by decide)]
    split
    · exact same
    · exact unplaced_typeOf? type

theorem unplaced_initialValue (declarator : Element) {type other : Option TypeUse}
    (same : type.map TypeUse.unplaced = other.map TypeUse.unplaced) :
    (initialValue file declarator.unplaced type).map Expression.unplaced =
      (initialValue file declarator other).map Expression.unplaced := by
  simp only [initialValue, Element.child?_unplaced, ← Option.map_or]
  cases (declarator.child? "init").or (declarator.child? "default") with
  | some value => exact unplaced_expression? value
  | none =>
    cases declarator.child? "argument_list" with
    | none => rfl
    | some list =>
      have arguments := @unplaced_argumentsIn file list.children
      obtain ⟨rfl, rfl⟩ | ⟨use, written, rfl, rfl, sameUse⟩ := missing_or_found_of_map_eq same
      · rfl
      · have sameName := congrArg TypeUse.name sameUse
        have samePath := congrArg TypeUse.qualifier sameUse
        simp only [TypeUse.name_unplaced, TypeUse.qualifier_unplaced] at sameName samePath
        simp only [Option.map_none, Option.map_some, Expression.unplaced_ofKind,
          ExpressionKind.unplaced, Call.unplaced_mk, sameName, samePath, Element.unplaced,
          arguments]

theorem unplaced_declaredVariable (declarator : Element) (fallback : Access)
    {previous other : Option TypeUse}
    (same : previous.map TypeUse.unplaced = other.map TypeUse.unplaced) :
    (declaredVariable file declarator.unplaced previous fallback).unplaced =
      (declaredVariable file declarator other fallback).unplaced := by
  have name := congrArg (Option.map Prod.fst) (@unplaced_declaredName? file declarator)
  simp only [Option.map_map, Function.comp_def, Prod.map_fst, id_eq] at name
  have type := @unplaced_declaratorType file declarator previous other same
  simp only [declaredVariable, Variable.unplaced_mk, name, type,
    unplaced_initialValue declarator type, statedAccess_unplaced, Element.child?_unplaced,
    Option.map_map, Function.comp_def]

theorem unplaced_headerDeclaration (declarator : Element) :
    (headerDeclaration file declarator.unplaced).unplaced =
      (headerDeclaration file declarator).unplaced := by
  simp only [headerDeclaration, Expression.unplaced_ofKind, ExpressionKind.unplaced,
    unplaced_declaredVariable declarator .unstated rfl]

@[simp]
theorem Variable.name_unplaced (declared : Variable) : declared.unplaced.name = declared.name := by
  cases declared
  rfl

@[simp]
theorem Variable.type_unplaced (declared : Variable) :
    declared.unplaced.type = declared.type.map TypeUse.unplaced := by
  cases declared
  rfl

theorem unplaced_declaredContent (access : Access) (declarators : List Element) :
    ∀ {previous other : Option TypeUse},
      previous.map TypeUse.unplaced = other.map TypeUse.unplaced →
      (declaredContent file access previous (declarators.map Element.unplaced)).map
          Expression.unplaced =
        (declaredContent file access other declarators).map Expression.unplaced := by
  induction declarators with
  | nil => exact fun _ => rfl
  | cons declarator rest ih =>
    intro previous other same
    have declared := @unplaced_declaredVariable file declarator access previous other same
    have name := congrArg Variable.name declared
    have type := congrArg Variable.type declared
    simp only [Variable.name_unplaced, Variable.type_unplaced] at name type
    simp only [List.map_cons, declaredContent, name]
    split
    · exact ih type
    · simp only [List.map_cons, Expression.unplaced_ofKind, ExpressionKind.unplaced, declared,
        ih type]

@[simp]
theorem declarators_unplaced (element : Element) :
    declarators element.unplaced = (declarators element).map Element.unplaced := by
  simp only [declarators, Element.name_unplaced, Element.childrenNamed_unplaced]
  split <;> rfl

theorem unplaced_parameters (list : Element) :
    (parameters file list.unplaced).map Variable.unplaced =
      (parameters file list).map Variable.unplaced := by
  have each (parameter : Element) :
      (declaredVariable file ((parameter.unplaced.child? "decl").getD parameter.unplaced) none
          .unstated).unplaced =
        (declaredVariable file ((parameter.child? "decl").getD parameter) none
          .unstated).unplaced := by
    rw [Element.child?_unplaced]
    cases parameter.child? "decl" with
    | none => exact unplaced_declaredVariable parameter .unstated rfl
    | some declarator => exact unplaced_declaredVariable declarator .unstated rfl
  have found : ((list.unplaced.childrenNamed "param").map fun parameter =>
        declaredVariable file ((parameter.child? "decl").getD parameter) none .unstated).map
          Variable.unplaced =
      ((list.childrenNamed "param").map fun parameter =>
        declaredVariable file ((parameter.child? "decl").getD parameter) none .unstated).map
          Variable.unplaced := by
    simp only [Element.childrenNamed_unplaced, List.map_map, Function.comp_def, each]
  unfold parameters
  generalize (list.unplaced.childrenNamed "param").map _ = left at found ⊢
  generalize (list.childrenNamed "param").map _ = right at found ⊢
  match left, right with
  | [], [] => rfl
  | [only], [other] =>
    rw [List.map_singleton, List.map_singleton, List.singleton_inj] at found
    have name := congrArg Variable.name found
    have type := congrArg (fun declared => declared.type.map TypeUse.name) found
    simp only [Variable.name_unplaced, Variable.type_unplaced, Option.map_map, Function.comp_def,
      TypeUse.name_unplaced] at name type
    simp only [name, type]
    split
    · rfl
    · rw [List.map_singleton, List.map_singleton, found]
  | _ :: _ :: _, _ :: _ :: _ => exact found
  | [], _ :: _ | _ :: _, [] | [_], _ :: _ :: _ | _ :: _ :: _, [_] => simp at found

theorem catchDeclarators_unplaced (clause : Element) :
    catchDeclarators clause.unplaced = (catchDeclarators clause).map Element.unplaced := by
  simp only [catchDeclarators, Element.elements_unplaced, List.map_flatMap, List.flatMap_map]
  congr 1
  funext child
  simp only [Element.name_unplaced]
  split
  · simp only [Element.childrenNamed_unplaced, List.filterMap_map, List.map_filterMap,
      Function.comp_def, Element.child?_unplaced]
  · split
    · rw [Element.child?_unplaced, Option.toList_map]
    · rfl

theorem unplaced_headerContent (header : Element) :
    (headerContent file header.unplaced).map Expression.unplaced =
      (headerContent file header).map Expression.unplaced := by
  simp only [headerContent, Element.elements_unplaced, List.map_flatMap, List.flatMap_map]
  congr 1
  funext child
  simp only [Element.name_unplaced]
  split
  · exact congrArg List.singleton (unplaced_headerDeclaration child)
  · split
    · simp only [← Option.toList_map, unplaced_expression?]
    · rfl

theorem unplaced_expressionsIn (element : Element) :
    (expressionsIn file element.unplaced).map Expression.unplaced =
      (expressionsIn file element).map Expression.unplaced := by
  simp only [expressionsIn, Element.elements_unplaced, List.map_flatMap, List.flatMap_map]
  congr 1
  funext child
  simp only [Element.name_unplaced]
  split
  · simp only [← Option.toList_map, unplaced_expression?]
  · simp only [← Option.toList_map, unplaced_nameExpression?]
  · simp only [← Option.toList_map, unplaced_call?]
  · exact congrArg List.singleton (unplaced_headerDeclaration child)
  · rfl

theorem unplaced_expressionsOfChild (element : Element) (name : String) :
    (expressionsOfChild file element.unplaced name).map Expression.unplaced =
      (expressionsOfChild file element name).map Expression.unplaced := by
  exact element.map_getD_child?_unplaced Expression.unplaced unplaced_expressionsIn name

end Declarations

end SourceUnit

end ScopeAtlas
