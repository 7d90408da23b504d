import ScopeAtlas.Location
import ScopeAtlas.Vocabulary

/-!
Expressions. An expression keeps the order of its parts as written. Calls own their receiver
and arguments, declared variables own their initial value; all other parts are components.
-/

namespace ScopeAtlas

structure Segment where
  name : String
  location : Location
  deriving DecidableEq, Repr, Inhabited

/-- The names in front of a name, outermost first. -/
structure Qualifier where
  segments : List Segment
  deriving DecidableEq, Repr, Inhabited

namespace Qualifier

def names (qualifier : Qualifier) : List String :=
  qualifier.segments.map (·.name)

def display (qualifier : Qualifier) : String :=
  ".".intercalate qualifier.names

def ofSegments? (segments : List Segment) : Option Qualifier :=
  if segments.isEmpty then none else some ⟨segments⟩

end Qualifier

structure NameUse where
  name : String
  qualifier : Option Qualifier
  deriving DecidableEq, Repr, Inhabited

structure TypeUse where
  name : String
  qualifier : Option Qualifier
  arguments : List TypeUse
  deriving Repr, Inhabited

structure Literal where
  kind : LiteralKind
  text : String
  deriving DecidableEq, Repr, Inhabited

mutual

structure Expression where
  kind : ExpressionKind
  location : Location
  components : List Expression

inductive ExpressionKind
  | compound
  | name (use : NameUse)
  | type (use : TypeUse)
  | literal (literal : Literal)
  | operator (text : String)
  | call (call : Call)
  | declaration (declared : Variable)

structure Call where
  name : String
  qualifier : Option Qualifier
  arguments : List Expression
  typeArguments : List TypeUse
  isConstructor : Bool
  isDestructor : Bool
  object : Option Expression

structure Variable where
  name : String
  type : Option TypeUse
  access : Access
  initializer : Option Expression

end

instance : Inhabited Expression := ⟨⟨.compound, default, []⟩⟩

/-! Equality of the nested types is decided part by part. -/

mutual

def TypeUse.decEq : (left right : TypeUse) → Decidable (left = right)
  | ⟨name₁, qualifier₁, arguments₁⟩, ⟨name₂, qualifier₂, arguments₂⟩ =>
    have := TypeUse.decEqList arguments₁ arguments₂
    decidable_of_iff (name₁ = name₂ ∧ qualifier₁ = qualifier₂ ∧ arguments₁ = arguments₂) (by simp)

def TypeUse.decEqList : (left right : List TypeUse) → Decidable (left = right)
  | [], [] => isTrue rfl
  | [], _ :: _ => isFalse (by simp)
  | _ :: _, [] => isFalse (by simp)
  | first :: rest, second :: others =>
    have := TypeUse.decEq first second
    have := TypeUse.decEqList rest others
    decidable_of_iff (first = second ∧ rest = others) (by simp)

end

instance : DecidableEq TypeUse := TypeUse.decEq

mutual

def Expression.decEq : (left right : Expression) → Decidable (left = right)
  | ⟨kind₁, location₁, components₁⟩, ⟨kind₂, location₂, components₂⟩ =>
    have := ExpressionKind.decEq kind₁ kind₂
    have := Expression.decEqList components₁ components₂
    decidable_of_iff (kind₁ = kind₂ ∧ location₁ = location₂ ∧ components₁ = components₂) (by simp)

def ExpressionKind.decEq : (left right : ExpressionKind) → Decidable (left = right)
  | .compound, right => match right with
    | .compound => isTrue rfl
    | .name _ | .type _ | .literal _ | .operator _ | .call _ | .declaration _ => isFalse nofun
  | .name use, right => match right with
    | .name other => decidable_of_iff (use = other) (by simp)
    | .compound | .type _ | .literal _ | .operator _ | .call _ | .declaration _ => isFalse nofun
  | .type use, right => match right with
    | .type other => decidable_of_iff (use = other) (by simp)
    | .compound | .name _ | .literal _ | .operator _ | .call _ | .declaration _ => isFalse nofun
  | .literal literal, right => match right with
    | .literal other => decidable_of_iff (literal = other) (by simp)
    | .compound | .name _ | .type _ | .operator _ | .call _ | .declaration _ => isFalse nofun
  | .operator text, right => match right with
    | .operator other => decidable_of_iff (text = other) (by simp)
    | .compound | .name _ | .type _ | .literal _ | .call _ | .declaration _ => isFalse nofun
  | .call call, right => match right with
    | .call other =>
      have := Call.decEq call other
      decidable_of_iff (call = other) (by simp)
    | .compound | .name _ | .type _ | .literal _ | .operator _ | .declaration _ => isFalse nofun
  | .declaration declared, right => match right with
    | .declaration other =>
      have := Variable.decEq declared other
      decidable_of_iff (declared = other) (by simp)
    | .compound | .name _ | .type _ | .literal _ | .operator _ | .call _ => isFalse nofun

def Call.decEq : (left right : Call) → Decidable (left = right)
  | ⟨name₁, qualifier₁, arguments₁, types₁, constructor₁, destructor₁, object₁⟩,
    ⟨name₂, qualifier₂, arguments₂, types₂, constructor₂, destructor₂, object₂⟩ =>
    have := Expression.decEqList arguments₁ arguments₂
    have := Expression.decEqOption object₁ object₂
    decidable_of_iff (name₁ = name₂ ∧ qualifier₁ = qualifier₂ ∧ arguments₁ = arguments₂ ∧
      types₁ = types₂ ∧ constructor₁ = constructor₂ ∧ destructor₁ = destructor₂ ∧
      object₁ = object₂) (by simp)

def Variable.decEq : (left right : Variable) → Decidable (left = right)
  | ⟨name₁, type₁, access₁, initializer₁⟩, ⟨name₂, type₂, access₂, initializer₂⟩ =>
    have := Expression.decEqOption initializer₁ initializer₂
    decidable_of_iff (name₁ = name₂ ∧ type₁ = type₂ ∧ access₁ = access₂ ∧
      initializer₁ = initializer₂) (by simp)

def Expression.decEqList : (left right : List Expression) → Decidable (left = right)
  | [], [] => isTrue rfl
  | [], _ :: _ => isFalse (by simp)
  | _ :: _, [] => isFalse (by simp)
  | first :: rest, second :: others =>
    have := Expression.decEq first second
    have := Expression.decEqList rest others
    decidable_of_iff (first = second ∧ rest = others) (by simp)

def Expression.decEqOption : (left right : Option Expression) → Decidable (left = right)
  | none, none => isTrue rfl
  | none, some _ => isFalse (by simp)
  | some _, none => isFalse (by simp)
  | some first, some second =>
    have := Expression.decEq first second
    decidable_of_iff (first = second) (by simp)

end

instance : DecidableEq Expression := Expression.decEq
instance : DecidableEq ExpressionKind := ExpressionKind.decEq
instance : DecidableEq Call := Call.decEq
instance : DecidableEq Variable := Variable.decEq

namespace NameUse

def path (use : NameUse) : List String :=
  (use.qualifier.map Qualifier.names).getD [] ++ [use.name]

end NameUse

namespace TypeUse

def ofName (name : String) : TypeUse := ⟨name, none, []⟩

def path (use : TypeUse) : List String :=
  (use.qualifier.map Qualifier.names).getD [] ++ [use.name]

end TypeUse

namespace Variable

def hasDefault (declared : Variable) : Bool :=
  declared.initializer.isSome

end Variable

namespace Call

def ofName (name : String) : Call := ⟨name, none, [], [], false, false, none⟩

/-- `this(…)`, `base(…)` and `super(…)` name no method of their own. -/
def isKeyword (call : Call) : Bool :=
  call.name == "this" || call.name == "base" || call.name == "super"

def arity (call : Call) : Nat :=
  call.arguments.length

def constructedType (call : Call) : TypeUse :=
  ⟨call.name, call.qualifier, call.typeArguments⟩

end Call

namespace Expression

def ofKind (kind : ExpressionKind) (location : Location) : Expression :=
  ⟨kind, location, []⟩

def compound (location : Location) (components : List Expression) : Expression :=
  ⟨.compound, location, components⟩

def call? (expression : Expression) : Option Call :=
  match expression.kind with
  | .call call => some call
  | _ => none

def declaration? (expression : Expression) : Option Variable :=
  match expression.kind with
  | .declaration declared => some declared
  | _ => none

def isCall (expression : Expression) : Bool :=
  expression.call?.isSome

def children (expression : Expression) : List Expression :=
  match expression.kind with
  | .call call => call.object.toList ++ expression.components ++ call.arguments
  | .declaration declared => expression.components ++ declared.initializer.toList
  | _ => expression.components

end Expression

end ScopeAtlas
