import ScopeAtlas.Expression.Basic

/-!
The text shown for type uses and expressions. It is a reading aid and drops detail: a call
shows neither its qualifier nor its type arguments.
-/

namespace ScopeAtlas

def Qualifier.displayBefore : Option Qualifier → String
  | some qualifier => qualifier.display ++ "."
  | none => ""

def NameUse.display (use : NameUse) : String :=
  Qualifier.displayBefore use.qualifier ++ use.name

mutual

def TypeUse.display : TypeUse → String
  | ⟨name, qualifier, arguments⟩ =>
    Qualifier.displayBefore qualifier ++ name ++
      if arguments.isEmpty then "" else "<" ++ ", ".intercalate (TypeUse.displayAll arguments) ++ ">"

def TypeUse.displayAll : List TypeUse → List String
  | [] => []
  | use :: rest => use.display :: TypeUse.displayAll rest

end

mutual

def Expression.display : Expression → String
  | ⟨kind, _, components⟩ => match kind with
    | .compound => " ".intercalate (Expression.displayAll components)
    | .name use => use.display
    | .type use => use.display
    | .literal literal => literal.text
    | .operator text => text
    | .call call => call.display
    | .declaration declared => declared.display

def Call.display : Call → String
  | ⟨name, qualifier, arguments, typeArguments, isConstructor, isDestructor, object⟩ =>
    let call : Call :=
      ⟨name, qualifier, arguments, typeArguments, isConstructor, isDestructor, object⟩
    Expression.displayReceiver object ++
      (if isConstructor && !call.isKeyword then "new " else "") ++
      name ++ "(" ++ ", ".intercalate (Expression.displayAll arguments) ++ ")"

def Variable.display : Variable → String
  | ⟨name, type, _, initializer⟩ =>
    (match type with
      | some use => use.display ++ " "
      | none => "") ++ name ++ Expression.displayInitializer initializer

def Expression.displayAll : List Expression → List String
  | [] => []
  | expression :: rest => expression.display :: Expression.displayAll rest

def Expression.displayReceiver : Option Expression → String
  | some expression => expression.display ++ "."
  | none => ""

def Expression.displayInitializer : Option Expression → String
  | some expression => " = " ++ expression.display
  | none => ""

end

end ScopeAtlas
