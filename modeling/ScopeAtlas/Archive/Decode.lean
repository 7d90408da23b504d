import ScopeAtlas.Json.Basic
import ScopeAtlas.ScopeTree.Basic

/-!
Reading the archived form. A record may have further keys, an absent optional field is `none`, and
anything else that is absent, repeated or of another form is refused.

Every reader is told how many levels of arrays and objects it may still open, and refuses a value
that needs more. What stands under a further key is not opened and so costs no levels.
-/

namespace ScopeAtlas

namespace Json

def required? {α : Type} (decode : Json → Option α) (field : Option Json) : Option α :=
  field.bind decode

def count? (json : Json) : Option Nat :=
  json.naturalUpTo? Position.limit

mutual

def depth : Json → Nat
  | .array values => depthOfValues values + 1
  | .object members => depthOfMembers members + 1
  | _ => 0

def depthOfValues : List Json → Nat
  | [] => 0
  | value :: values => max value.depth (depthOfValues values)

def depthOfMembers : List (Option String × Json) → Nat
  | [] => 0
  | (_, value) :: members => max value.depth (depthOfMembers members)

end

def whole? {α : Type} (decode : Nat → Json → Option α) (json : Json) : Option α :=
  decode json.depth json

def listWithin? {α : Type} (decode : Nat → Json → Option α) : Nat → Json → Option (List α)
  | 0, _ => none
  | levels + 1, json => json.listOf? (decode levels)

def stringsWithin? : Nat → Json → Option (List String) :=
  listWithin? fun _ => string?

/-- The word of an alternative that nothing belongs to, which may be written as an object. -/
def wordWithin? (levels : Nat) (json : Json) : Option String :=
  match json.choice? with
  | some (word, none) => some word
  | some (word, some .null) => if levels = 0 then none else some word
  | _ => none

end Json

def Language.ofJson? (levels : Nat) (json : Json) : Option Language :=
  match json.wordWithin? levels with
  | some "C" => some .c
  | some "CPlusPlus" => some .cPlusPlus
  | some "CSharp" => some .cSharp
  | some "Java" => some .java
  | _ => none

def Access.ofJson? (levels : Nat) (json : Json) : Option Access :=
  match json.wordWithin? levels with
  | some "none" => some .unstated
  | some "public" => some .publicAccess
  | some "internal" => some .internalAccess
  | some "protected_internal" => some .protectedInternal
  | some "protected" => some .protectedAccess
  | some "private" => some .privateAccess
  | _ => none

def TypeKind.ofJson? (levels : Nat) (json : Json) : Option TypeKind :=
  (json.wordWithin? levels).bind TypeKind.ofName?

def LiteralKind.ofJson? (levels : Nat) (json : Json) : Option LiteralKind :=
  match json.wordWithin? levels with
  | some "number" => some .number
  | some "string" => some .string
  | some "character" => some .character
  | some "boolean" => some .boolean
  | some "null" => some .null
  | _ => none

def Position.ofJson? : Nat → Json → Option Position
  | 0, _ => none
  | _ + 1, json => do
    match ← json.fields? ["line", "column"] with
    | [line, column] =>
      return ⟨← Json.required? Json.count? line, ← Json.required? Json.count? column⟩
    | _ => none

def Location.ofJson? : Nat → Json → Option Location
  | 0, _ => none
  | levels + 1, json => do
    match ← json.fields? ["file", "start", "end", "xpath", "is_reference"] with
    | [file, start, stop, locator, isReference] =>
      return ⟨← Json.required? Json.string? file, ← Json.required? (Position.ofJson? levels) start,
        ← Json.required? (Position.ofJson? levels) stop, ← Json.optional? Json.string? locator,
        ← Json.required? Json.boolean? isReference⟩
    | _ => none

def Segment.ofJson? : Nat → Json → Option Segment
  | 0, _ => none
  | levels + 1, json => do
    match ← json.fields? ["name", "location"] with
    | [name, location] =>
      return ⟨← Json.required? Json.string? name, ← Json.required? (Location.ofJson? levels) location⟩
    | _ => none

def Qualifier.ofJson? : Nat → Json → Option Qualifier
  | 0, _ => none
  | levels + 1, json => do
    match ← json.fields? ["segments"] with
    | [segments] => return ⟨← Json.required? (Json.listWithin? Segment.ofJson? levels) segments⟩
    | _ => none

def NameUse.ofJson? : Nat → Json → Option NameUse
  | 0, _ => none
  | levels + 1, json => do
    match ← json.fields? ["name", "prefix"] with
    | [name, qualifier] =>
      return ⟨← Json.required? Json.string? name, ← Json.optional? (Qualifier.ofJson? levels) qualifier⟩
    | _ => none

mutual

def TypeUse.ofJson? : Nat → Json → Option TypeUse
  | 0, _ => none
  | levels + 1, json => do
    match ← json.fields? ["name", "prefix", "type_arguments"] with
    | [name, qualifier, arguments] =>
      return ⟨← Json.required? Json.string? name,
        ← Json.optional? (Qualifier.ofJson? levels) qualifier,
        ← Json.required? (TypeUse.listOfJson? levels) arguments⟩
    | _ => none

def TypeUse.listOfJson? : Nat → Json → Option (List TypeUse)
  | 0, _ => none
  | levels + 1, json => json.listOf? (TypeUse.ofJson? levels)

end

def Literal.ofJson? : Nat → Json → Option Literal
  | 0, _ => none
  | levels + 1, json => do
    match ← json.fields? ["kind", "text"] with
    | [kind, text] =>
      return ⟨← Json.required? (LiteralKind.ofJson? levels) kind, ← Json.required? Json.string? text⟩
    | _ => none

mutual

def Expression.ofJson? : Nat → Json → Option Expression
  | 0, _ => none
  | levels + 1, json => do
    match ← json.fields? ["kind", "location", "components"] with
    | [kind, location, components] =>
      return ⟨← Json.required? (ExpressionKind.ofJson? levels) kind,
        ← Json.required? (Location.ofJson? levels) location,
        ← Json.required? (Expression.listOfJson? levels) components⟩
    | _ => none

def Expression.listOfJson? : Nat → Json → Option (List Expression)
  | 0, _ => none
  | levels + 1, json => json.listOf? (Expression.ofJson? levels)

def ExpressionKind.ofJson? : Nat → Json → Option ExpressionKind
  | 0, json => if json.string? = some "Compound" then some .compound else none
  | levels + 1, json => do
    match ← json.choice? with
    | ("Compound", none) | ("Compound", some .null) => return .compound
    | ("Name", some content) => return .name (← NameUse.ofJson? levels content)
    | ("Type", some content) => return .type (← TypeUse.ofJson? levels content)
    | ("Literal", some content) => return .literal (← Literal.ofJson? levels content)
    | ("Operator", some content) => return .operator (← content.string?)
    | ("Call", some content) => return .call (← Call.ofJson? levels content)
    | ("Declaration", some content) => return .declaration (← Variable.ofJson? levels content)
    | _ => none

def Call.ofJson? : Nat → Json → Option Call
  | 0, _ => none
  | levels + 1, json => do
    match ← json.fields? ["name", "prefix", "arguments", "type_arguments", "is_constructor",
      "is_destructor", "calling_object"] with
    | [name, qualifier, arguments, typeArguments, isConstructor, isDestructor, object] =>
      return ⟨← Json.required? Json.string? name,
        ← Json.optional? (Qualifier.ofJson? levels) qualifier,
        ← Json.required? (Expression.listOfJson? levels) arguments,
        ← Json.required? (TypeUse.listOfJson? levels) typeArguments,
        ← Json.required? Json.boolean? isConstructor, ← Json.required? Json.boolean? isDestructor,
        ← Json.optional? (Expression.ofJson? levels) object⟩
    | _ => none

def Variable.ofJson? : Nat → Json → Option Variable
  | 0, _ => none
  | levels + 1, json => do
    match ← json.fields? ["name", "variable_type", "accessibility", "initializer"] with
    | [name, type, access, initializer] =>
      return ⟨← Json.required? Json.string? name, ← Json.optional? (TypeUse.ofJson? levels) type,
        ← Json.required? (Access.ofJson? levels) access,
        ← Json.optional? (Expression.ofJson? levels) initializer⟩
    | _ => none

end

def MethodDefinition.ofJson? : Nat → Json → Option MethodDefinition
  | 0, _ => none
  | levels + 1, json => do
    match ← json.fields? ["parameters", "return_type", "is_constructor", "is_destructor",
      "is_partial"] with
    | [parameters, returnType, isConstructor, isDestructor, isPartial] =>
      return ⟨← Json.required? (Json.listWithin? Variable.ofJson? levels) parameters,
        ← Json.optional? (TypeUse.ofJson? levels) returnType, ← Json.required? Json.boolean? isConstructor,
        ← Json.required? Json.boolean? isDestructor, ← Json.required? Json.boolean? isPartial⟩
    | _ => none

def NamespaceDefinition.ofJson? : Nat → Json → Option NamespaceDefinition
  | 0, _ => none
  | _ + 1, json => do
    match ← json.fields? ["is_anonymous"] with
    | [isAnonymous] => return ⟨← Json.required? Json.boolean? isAnonymous⟩
    | _ => none

def TypeDefinition.ofJson? : Nat → Json → Option TypeDefinition
  | 0, _ => none
  | levels + 1, json => do
    match ← json.fields? ["kind", "parent_types", "is_partial"] with
    | [kind, parents, isPartial] =>
      return ⟨← Json.required? (TypeKind.ofJson? levels) kind,
        ← Json.required? (Json.listWithin? TypeUse.ofJson? levels) parents,
        ← Json.required? Json.boolean? isPartial⟩
    | _ => none

def Definition.ofJson? : Nat → Json → Option Definition
  | 0, json => if json.string? = some "Synthetic" then some .placeholder else none
  | levels + 1, json => do
    match ← json.choice? with
    | ("Namespace", some content) =>
      return .namespaceScope (← NamespaceDefinition.ofJson? levels content)
    | ("Type", some content) => return .typeScope (← TypeDefinition.ofJson? levels content)
    | ("Method", some content) => return .methodScope (← MethodDefinition.ofJson? levels content)
    | ("Synthetic", none) | ("Synthetic", some .null) => return .placeholder
    | _ => none

def Facet.ofJson? : Nat → Json → Option Facet
  | 0, _ => none
  | levels + 1, json => do
    match ← json.fields? ["file", "is_reference", "accessibility", "definition"] with
    | [file, isReference, access, definition] =>
      return ⟨← Json.required? Json.string? file, ← Json.required? Json.boolean? isReference,
        ← Json.required? (Access.ofJson? levels) access, ← Json.required? (Definition.ofJson? levels) definition⟩
    | _ => none

def NamedScope.ofJson? : Nat → Json → Option NamedScope
  | 0, _ => none
  | levels + 1, json => do
    match ← json.fields? ["name", "prefix", "facets"] with
    | [name, qualifier, facets] =>
      return ⟨← Json.required? Json.string? name, ← Json.optional? (Qualifier.ofJson? levels) qualifier,
        ← Json.required? (Json.listWithin? Facet.ofJson? levels) facets⟩
    | _ => none

namespace StatementKind

def ofWord? : String → Option StatementKind
  | "Global" => some .global
  | "Block" => some .block
  | "If" => some .ifBranch
  | "Else" => some .elseBranch
  | "While" => some .whileLoop
  | "DoWhile" => some .doWhile
  | "For" => some .forLoop
  | "Foreach" => some .foreach
  | "Switch" => some .switch
  | "Try" => some .tryBlock
  | "Catch" => some .catchClause
  | "Finally" => some .finallyClause
  | "Lock" => some .lock
  | "Return" => some .return
  | "Throw" => some .throw
  | "Break" => some .break
  | "Continue" => some .continue
  | "Goto" => some .goto
  | "Expression" => some .expression
  | "Declaration" => some .declaration
  | _ => none

def caseOfJson? : Nat → Json → Option StatementKind
  | 0, _ => none
  | _ + 1, json => do
    match ← json.fields? ["is_default"] with
    | [isDefault] => return .case (← Json.required? Json.boolean? isDefault)
    | _ => none

def aliasingOfJson? : Nat → Json → Option StatementKind
  | 0, _ => none
  | levels + 1, json => do
    match ← json.fields? ["target", "alias_name"] with
    | [target, name] =>
      return .aliasing (← Json.required? (Json.stringsWithin? levels) target)
        (← Json.required? Json.string? name)
    | _ => none

def importingOfJson? : Nat → Json → Option StatementKind
  | 0, _ => none
  | levels + 1, json => do
    match ← json.fields? ["namespace"] with
    | [path] => return .importing (← Json.required? (Json.stringsWithin? levels) path)
    | _ => none

def ofJson? : Nat → Json → Option StatementKind
  | 0, json => json.string?.bind ofWord?
  | levels + 1, json => do
    match ← json.choice? with
    | (word, none) | (word, some .null) => ofWord? word
    | ("Named", some content) => return .named (← NamedScope.ofJson? levels content)
    | ("Case", some content) => caseOfJson? levels content
    | ("Label", some content) => return .label (← content.string?)
    | ("Alias", some content) => aliasingOfJson? levels content
    | ("Import", some content) => importingOfJson? levels content
    | _ => none

end StatementKind

def Statement.ofJson? : Nat → Json → Option Statement
  | 0, _ => none
  | levels + 1, json => do
    match ← json.fields? ["kind", "language", "locations", "content", "parent", "children"] with
    | [kind, language, locations, content, parent, children] =>
      return ⟨← Json.required? (StatementKind.ofJson? levels) kind, ← Json.required? (Language.ofJson? levels) language,
        ← Json.required? (Json.listWithin? Location.ofJson? levels) locations,
        ← Json.required? (Json.listWithin? Expression.ofJson? levels) content,
        ← Json.optional? Json.count? parent,
        ← Json.required? (Json.listWithin? (fun _ => Json.count?) levels) children⟩
    | _ => none

def ScopeTree.slotOfJson? (levels : Nat) : Json → Option (Option Statement)
  | .null => some none
  | json => (Statement.ofJson? levels json).map some

def ScopeTree.ofJson? : Nat → Json → Option ScopeTree
  | 0, _ => none
  | levels + 1, json => do
    match ← json.fields? ["nodes"] with
    | [slots] => return ⟨(← Json.required? (Json.listWithin? ScopeTree.slotOfJson? levels) slots).toArray⟩
    | _ => none

end ScopeAtlas
