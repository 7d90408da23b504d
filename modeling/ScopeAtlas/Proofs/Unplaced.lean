import ScopeAtlas.SourceUnit.Statement

/-!
What a unit says, apart from places. An element without places keeps its name, its text and its
attributes other than positions; an expression or an outline without places keeps all but its
locations. Reading looks at places only to write them down: two elements that are the same without
places give the same expressions and definitions without places.

The functions that put expressions together commute with leaving places out. Those that read
elements are shown, in the modules after this one, to give the same whether the places of the
elements are left out or not.
-/

namespace ScopeAtlas

/-! ### Expressions and definitions without places -/

def Segment.unplaced (segment : Segment) : Segment :=
  { segment with location := default }

def Qualifier.unplaced (qualifier : Qualifier) : Qualifier :=
  ⟨qualifier.segments.map Segment.unplaced⟩

def NameUse.unplaced (use : NameUse) : NameUse :=
  { use with qualifier := use.qualifier.map Qualifier.unplaced }

mutual

def TypeUse.unplaced : TypeUse → TypeUse
  | ⟨name, qualifier, arguments⟩ =>
    ⟨name, qualifier.map Qualifier.unplaced, TypeUse.unplacedAll arguments⟩

def TypeUse.unplacedAll : List TypeUse → List TypeUse
  | [] => []
  | first :: rest => first.unplaced :: TypeUse.unplacedAll rest

end

mutual

def Expression.unplaced : Expression → Expression
  | ⟨kind, _, components⟩ => ⟨kind.unplaced, default, Expression.unplacedAll components⟩

def ExpressionKind.unplaced : ExpressionKind → ExpressionKind
  | .compound => .compound
  | .name use => .name use.unplaced
  | .type use => .type use.unplaced
  | .literal literal => .literal literal
  | .operator text => .operator text
  | .call call => .call call.unplaced
  | .declaration declared => .declaration declared.unplaced

def Call.unplaced : Call → Call
  | ⟨name, qualifier, arguments, typeArguments, isConstructor, isDestructor, object⟩ =>
    ⟨name, qualifier.map Qualifier.unplaced, Expression.unplacedAll arguments,
      typeArguments.map TypeUse.unplaced, isConstructor, isDestructor,
      Expression.unplacedOption object⟩

def Variable.unplaced : Variable → Variable
  | ⟨name, type, access, initializer⟩ =>
    ⟨name, type.map TypeUse.unplaced, access, Expression.unplacedOption initializer⟩

def Expression.unplacedAll : List Expression → List Expression
  | [] => []
  | first :: rest => first.unplaced :: Expression.unplacedAll rest

def Expression.unplacedOption : Option Expression → Option Expression
  | none => none
  | some expression => some expression.unplaced

end

def TypeDefinition.unplaced (type : TypeDefinition) : TypeDefinition :=
  { type with parents := type.parents.map TypeUse.unplaced }

def MethodDefinition.unplaced (method : MethodDefinition) : MethodDefinition :=
  { method with
    parameters := method.parameters.map Variable.unplaced
    returnType := method.returnType.map TypeUse.unplaced }

def Definition.unplaced : Definition → Definition
  | .namespaceScope definition => .namespaceScope definition
  | .typeScope definition => .typeScope definition.unplaced
  | .methodScope definition => .methodScope definition.unplaced
  | .placeholder => .placeholder

def Facet.unplaced (facet : Facet) : Facet :=
  { facet with definition := facet.definition.unplaced }

def NamedScope.unplaced (scope : NamedScope) : NamedScope :=
  { scope with
    qualifier := scope.qualifier.map Qualifier.unplaced
    facets := scope.facets.map Facet.unplaced }

def StatementKind.unplaced (kind : StatementKind) : StatementKind :=
  kind.mapScope NamedScope.unplaced

mutual

def Outline.unplaced : Outline → Outline
  | .node kind _ content children =>
    .node kind.unplaced default (content.map Expression.unplaced) (Outline.unplacedAll children)

def Outline.unplacedAll : List Outline → List Outline
  | [] => []
  | first :: rest => first.unplaced :: Outline.unplacedAll rest

end

theorem missing_or_found_of_map_eq {α β : Type} {f : α → β} {left right : Option α}
    (same : left.map f = right.map f) : (left = none ∧ right = none) ∨
      ∃ first second, left = some first ∧ right = some second ∧ f first = f second := by
  cases left with
  | none => exact .inl ⟨rfl, Option.map_eq_none_iff.mp same.symm⟩
  | some first =>
    obtain ⟨second, there, equal⟩ := Option.map_eq_some_iff.mp same.symm
    exact .inr ⟨first, second, rfl, there, equal.symm⟩

section Parts

@[simp]
theorem Segment.name_unplaced (segment : Segment) : segment.unplaced.name = segment.name := rfl

theorem Qualifier.unplaced_ofSegments? (segments : List Segment) :
    (ofSegments? segments).map unplaced = ofSegments? (segments.map Segment.unplaced) := by
  cases segments <;> rfl

theorem TypeUse.unplacedAll_eq_map (uses : List TypeUse) :
    unplacedAll uses = uses.map unplaced := by
  induction uses with
  | nil => rfl
  | cons first rest ih => rw [unplacedAll, ih, List.map_cons]

@[simp]
theorem TypeUse.unplaced_mk (name : String) (qualifier : Option Qualifier)
    (arguments : List TypeUse) :
    (TypeUse.mk name qualifier arguments).unplaced =
      ⟨name, qualifier.map Qualifier.unplaced, arguments.map unplaced⟩ := by
  rw [unplaced, unplacedAll_eq_map]

@[simp]
theorem TypeUse.name_unplaced (use : TypeUse) : use.unplaced.name = use.name := by
  cases use
  rfl

@[simp]
theorem TypeUse.qualifier_unplaced (use : TypeUse) :
    use.unplaced.qualifier = use.qualifier.map Qualifier.unplaced := by
  cases use
  rfl

theorem Expression.unplacedAll_eq_map (expressions : List Expression) :
    unplacedAll expressions = expressions.map unplaced := by
  induction expressions with
  | nil => rfl
  | cons first rest ih => rw [unplacedAll, ih, List.map_cons]

theorem Expression.unplacedOption_eq_map (expression : Option Expression) :
    unplacedOption expression = expression.map unplaced := by
  cases expression <;> rfl

@[simp]
theorem Expression.unplaced_mk (kind : ExpressionKind) (location : Location)
    (components : List Expression) :
    (Expression.mk kind location components).unplaced =
      ⟨kind.unplaced, default, components.map unplaced⟩ := by
  rw [unplaced, unplacedAll_eq_map]

@[simp]
theorem Expression.unplaced_ofKind (kind : ExpressionKind) (location : Location) :
    (ofKind kind location).unplaced = ofKind kind.unplaced default :=
  unplaced_mk kind location []

@[simp]
theorem Expression.unplaced_compound (location : Location) (parts : List Expression) :
    (compound location parts).unplaced = compound default (parts.map unplaced) :=
  unplaced_mk .compound location parts

@[simp]
theorem Expression.location_unplaced (expression : Expression) :
    expression.unplaced.location = default := by
  cases expression
  rw [unplaced_mk]

@[simp]
theorem Call.unplaced_mk (name : String) (qualifier : Option Qualifier)
    (arguments : List Expression) (typeArguments : List TypeUse)
    (isConstructor isDestructor : Bool) (object : Option Expression) :
    (Call.mk name qualifier arguments typeArguments isConstructor isDestructor object).unplaced =
      ⟨name, qualifier.map Qualifier.unplaced, arguments.map Expression.unplaced,
        typeArguments.map TypeUse.unplaced, isConstructor, isDestructor,
        object.map Expression.unplaced⟩ := by
  rw [unplaced, Expression.unplacedAll_eq_map, Expression.unplacedOption_eq_map]

@[simp]
theorem Variable.unplaced_mk (name : String) (type : Option TypeUse) (access : Access)
    (initializer : Option Expression) :
    (Variable.mk name type access initializer).unplaced =
      ⟨name, type.map TypeUse.unplaced, access, initializer.map Expression.unplaced⟩ := by
  rw [unplaced, Expression.unplacedOption_eq_map]

theorem Outline.unplacedAll_eq_map (outlines : List Outline) :
    unplacedAll outlines = outlines.map unplaced := by
  induction outlines with
  | nil => rfl
  | cons first rest ih => rw [unplacedAll, ih, List.map_cons]

@[simp]
theorem Outline.unplaced_node (kind : StatementKind) (location : Location)
    (content : List Expression) (children : List Outline) :
    (Outline.node kind location content children).unplaced =
      .node kind.unplaced default (content.map Expression.unplaced) (children.map unplaced) := by
  rw [unplaced, unplacedAll_eq_map]

end Parts

/-! ### Linking -/

namespace SourceUnit

section Linking

@[simp]
theorem isMemberAccess_unplaced (part : Expression) :
    isMemberAccess part.unplaced = isMemberAccess part := by
  obtain ⟨kind, location, components⟩ := part
  cases kind <;> rfl

@[simp]
theorem isOperand_unplaced (part : Expression) : isOperand part.unplaced = isOperand part := by
  obtain ⟨kind, location, components⟩ := part
  cases kind <;> rfl

@[simp]
theorem isNew_unplaced (part : Expression) : isNew part.unplaced = isNew part := by
  obtain ⟨kind, location, components⟩ := part
  cases kind <;> rfl

theorem unplaced_asConstructor? (part : Expression) :
    (asConstructor? part).map Expression.unplaced = asConstructor? part.unplaced := by
  obtain ⟨kind, location, components⟩ := part
  cases kind with
  | name use => simp [asConstructor?, ExpressionKind.unplaced, NameUse.unplaced, Call.ofName]
  | call call =>
    obtain ⟨name, qualifier, arguments, types, isConstructor, isDestructor, object⟩ := call
    simp [asConstructor?, ExpressionKind.unplaced]
  | _ => rfl

theorem takePairs_unplaced : ∀ parts : List Expression,
    takePairs (parts.map Expression.unplaced) =
      ((takePairs parts).1.map Expression.unplaced, (takePairs parts).2.map Expression.unplaced)
  | [] => rfl
  | [_] => rfl
  | access :: operand :: earlier => by
    simp only [List.map_cons, takePairs, isMemberAccess_unplaced, isOperand_unplaced,
      takePairs_unplaced earlier]
    split <;> rfl

theorem unplaced_chainExpression (first : Expression) (rest : List Expression) :
    (chainExpression first rest).unplaced =
      chainExpression first.unplaced (rest.map Expression.unplaced) := by
  simp only [chainExpression, List.getLast?_map]
  cases rest.getLast? with
  | none => rfl
  | some last =>
    simp only [Expression.unplaced_compound, Option.map_some, spanOf, Expression.location_unplaced]
    rfl

theorem takeReceiver?_unplaced (parts : List Expression) :
    takeReceiver? (parts.map Expression.unplaced) =
      (takeReceiver? parts).map fun taken =>
        (taken.1.unplaced, taken.2.map Expression.unplaced) := by
  match parts with
  | [] => rfl
  | [_] => rfl
  | access :: operand :: earlier =>
    have reversed : (operand.unplaced :: (takePairs earlier).1.map Expression.unplaced).reverse =
        (operand :: (takePairs earlier).1).reverse.map Expression.unplaced := by
      rw [List.map_reverse, List.map_cons]
    simp only [List.map_cons, takeReceiver?, isMemberAccess_unplaced, isOperand_unplaced,
      takePairs_unplaced, reversed]
    split
    · cases (operand :: (takePairs earlier).1).reverse with
      | nil => rfl
      | cons first rest => simp [unplaced_chainExpression]
    · rfl

theorem unplaced_attachReceiver (parts : List Expression) (part : Expression) :
    (attachReceiver parts part).map Expression.unplaced =
      attachReceiver (parts.map Expression.unplaced) part.unplaced := by
  obtain ⟨kind, location, components⟩ := part
  cases kind with
  | call call =>
    obtain ⟨name, qualifier, arguments, types, isConstructor, isDestructor, object⟩ := call
    simp only [attachReceiver, Expression.unplaced_mk, ExpressionKind.unplaced, Call.unplaced_mk,
      Option.isSome_map, takeReceiver?_unplaced]
    split
    · simp [ExpressionKind.unplaced]
    · cases takeReceiver? parts <;> simp [ExpressionKind.unplaced]
  | _ => simp [attachReceiver, ExpressionKind.unplaced]

theorem unplaced_linkStep (parts : List Expression) (part : Expression) :
    (linkStep parts part).map Expression.unplaced =
      linkStep (parts.map Expression.unplaced) part.unplaced := by
  cases parts with
  | nil => exact unplaced_attachReceiver [] part
  | cons previous earlier =>
    simp only [linkStep, List.map_cons, isNew_unplaced, ← unplaced_asConstructor?]
    split
    · cases asConstructor? part with
      | none => exact unplaced_attachReceiver _ part
      | some constructed => exact unplaced_attachReceiver earlier constructed
    · exact unplaced_attachReceiver _ part

theorem unplaced_link (parts : List Expression) :
    (link parts).map Expression.unplaced = link (parts.map Expression.unplaced) := by
  have run : ∀ sofar : List Expression,
      (parts.foldl linkStep sofar).map Expression.unplaced =
        (parts.map Expression.unplaced).foldl linkStep (sofar.map Expression.unplaced) := by
    induction parts with
    | nil => exact fun _ => rfl
    | cons part rest ih =>
      intro sofar
      rw [List.foldl_cons, ih, unplaced_linkStep]
      rfl
  rw [link, link, List.map_reverse, run []]
  rfl

end Linking

end SourceUnit

/-! ### Elements without places -/

namespace Markup

def isPositional (entry : String × String) : Bool :=
  Text.startsWith entry.1 "pos:"

/-- The head without its positions, stated or inferred, and without its locator. -/
def Head.unplaced (head : Head) : Head :=
  { head with
    attributes := head.attributes.filter fun entry => !isPositional entry
    start := default
    stop := default
    locator := default
    hasStart := false
    hasStop := false }

mutual

def Node.unplaced : Node → Node
  | .text content => .text content
  | .element head children => .element head.unplaced (Node.unplacedAll children)

def Node.unplacedAll : List Node → List Node
  | [] => []
  | node :: rest => node.unplaced :: Node.unplacedAll rest

end

def Element.unplaced (element : Element) : Element :=
  ⟨element.head.unplaced, element.children.map Node.unplaced⟩

theorem Node.unplacedAll_eq_map (nodes : List Node) : unplacedAll nodes = nodes.map unplaced := by
  induction nodes with
  | nil => rfl
  | cons node rest ih => rw [unplacedAll, ih, List.map_cons]

@[simp]
theorem Node.unplaced_text (content : String) : (Node.text content).unplaced = .text content := rfl

@[simp]
theorem Node.unplaced_element (head : Head) (children : List Node) :
    (Node.element head children).unplaced = .element head.unplaced (children.map unplaced) := by
  rw [unplaced, unplacedAll_eq_map]

@[simp]
theorem Node.element?_unplaced (node : Node) :
    node.unplaced.element? = node.element?.map Element.unplaced := by
  cases node with
  | text content => rfl
  | element head children => rw [unplaced_element]; rfl

@[simp]
theorem Node.text?_unplaced (node : Node) : node.unplaced.text? = node.text? := by
  cases node <;> rfl

mutual

@[simp]
theorem Node.allText_unplaced : ∀ node : Node, node.unplaced.allText = node.allText
  | .text _ => rfl
  | .element head children => by rw [unplaced_element, allText, allText, textOf_unplaced children]

@[simp]
theorem Node.textOf_unplaced : ∀ nodes : List Node, textOf (nodes.map unplaced) = textOf nodes
  | [] => rfl
  | node :: rest => by
    rw [List.map_cons, textOf, textOf, allText_unplaced node, textOf_unplaced rest]

end

-- The two equations are not closed by `rfl` alone: simp would then use them in a condition without
-- the decision that belongs to it.
@[simp]
theorem Head.name_unplaced (head : Head) : head.unplaced.name = head.name := by
  cases head
  rfl

@[simp]
theorem Head.isPreprocessor_unplaced (head : Head) :
    head.unplaced.isPreprocessor = head.isPreprocessor := by
  cases head
  rfl

theorem Head.attribute?_unplaced (head : Head) {key : String}
    (other : Text.startsWith key "pos:" = false) :
    head.unplaced.attribute? key = head.attribute? key := by
  simp only [attribute?, unplaced, List.find?_filter]
  congr 2
  funext entry
  by_cases asked : entry.1 = key
  · simp [isPositional, asked, other]
  · simp [asked]

namespace Element

variable (element : Element)

@[simp]
theorem name_unplaced : element.unplaced.name = element.name := element.head.name_unplaced

theorem attribute?_unplaced {key : String} (other : Text.startsWith key "pos:" = false) :
    element.unplaced.attribute? key = element.attribute? key :=
  element.head.attribute?_unplaced other

@[simp]
theorem elements_unplaced : element.unplaced.elements = element.elements.map unplaced := by
  simp only [elements, unplaced, List.filterMap_map, List.map_filterMap]
  congr 1
  funext node
  exact node.element?_unplaced

@[simp]
theorem child?_unplaced (name : String) :
    element.unplaced.child? name = (element.child? name).map unplaced := by
  rw [child?, elements_unplaced, List.find?_map]
  rfl

@[simp]
theorem childrenNamed_unplaced (name : String) :
    element.unplaced.childrenNamed name = (element.childrenNamed name).map unplaced := by
  rw [childrenNamed, elements_unplaced, List.filter_map]
  rfl

theorem map_getD_child?_unplaced {α β : Type} (f : α → β) {read : Element → List α}
    (same : ∀ child, (read child.unplaced).map f = (read child).map f) (name : String) :
    (((element.unplaced.child? name).map read).getD []).map f =
      (((element.child? name).map read).getD []).map f := by
  rw [child?_unplaced]
  cases element.child? name with
  | none => rfl
  | some child => exact same child

theorem map_bind_child?_unplaced {α β : Type} (f : α → β) {read : Element → Option α}
    (same : ∀ child, (read child.unplaced).map f = (read child).map f) (name : String) :
    ((element.unplaced.child? name).bind read).map f =
      ((element.child? name).bind read).map f := by
  rw [child?_unplaced]
  cases element.child? name with
  | none => rfl
  | some child => exact same child

@[simp]
theorem text_unplaced : element.unplaced.text = element.text :=
  Node.textOf_unplaced element.children

@[simp]
theorem ownText_unplaced : element.unplaced.ownText = element.ownText := by
  simp only [ownText, unplaced, List.filterMap_map]
  congr 2
  funext node
  exact node.text?_unplaced

end Element

end Markup

end ScopeAtlas
