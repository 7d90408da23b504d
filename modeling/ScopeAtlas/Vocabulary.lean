import ScopeAtlas.Failure
import ScopeAtlas.Text.Blank
import ScopeAtlas.Text.Lowercase

/-!
The closed vocabularies of the model: languages, accessibility of members, kinds of type and
kinds of literal, each with the words that spell it.
-/

namespace ScopeAtlas

inductive Language
  | c
  | cPlusPlus
  | cSharp
  | java
  deriving DecidableEq, Repr, Inhabited

namespace Language

def all : List Language := [.c, .cPlusPlus, .cSharp, .java]

def word : Language → String
  | .c => "C"
  | .cPlusPlus => "C++"
  | .cSharp => "C#"
  | .java => "Java"

def isCFamily : Language → Bool
  | .c | .cPlusPlus => true
  | .cSharp | .java => false

def ofWord (word : String) : Except Failure Language :=
  match Text.lowercase word with
  | "c" => .ok .c
  | "c++" | "cpp" | "cplusplus" | "cxx" => .ok .cPlusPlus
  | "c#" | "csharp" | "cs" => .ok .cSharp
  | "java" => .ok .java
  | _ => .error (.unknownLanguage word)

end Language

/-- Accessibility of a member; `unstated` when neither the source nor a default says. -/
inductive Access
  | unstated
  | publicAccess
  | internalAccess
  | protectedInternal
  | protectedAccess
  | privateAccess
  deriving DecidableEq, Repr, Inhabited

namespace Access

def keyword : Access → String
  | .unstated => ""
  | .publicAccess => "public"
  | .internalAccess => "internal"
  | .protectedInternal => "protected internal"
  | .protectedAccess => "protected"
  | .privateAccess => "private"

def display : Access → String
  | .unstated => "none"
  | stated => stated.keyword

def ofKeyword? (word : String) : Option Access :=
  match Text.trim word with
  | "public" => some .publicAccess
  | "internal" => some .internalAccess
  | "protected" => some .protectedAccess
  | "private" => some .privateAccess
  | _ => none

/-- Two keywords on one declaration: `protected` and `internal` join, otherwise the later
stated one holds. -/
def combine : Access → Access → Access
  | .unstated, later => later
  | earlier, .unstated => earlier
  | .protectedAccess, .internalAccess => .protectedInternal
  | .internalAccess, .protectedAccess => .protectedInternal
  | _, later => later

def orDefault (access fallback : Access) : Access :=
  if access = .unstated then fallback else access

end Access

inductive TypeKind
  | classType
  | structType
  | unionType
  | interfaceType
  | enumType
  deriving DecidableEq, Repr, Inhabited

namespace TypeKind

def word : TypeKind → String
  | .classType => "class"
  | .structType => "struct"
  | .unionType => "union"
  | .interfaceType => "interface"
  | .enumType => "enum"

def ofName? : String → Option TypeKind
  | "class" => some .classType
  | "struct" => some .structType
  | "union" => some .unionType
  | "interface" => some .interfaceType
  | "enum" => some .enumType
  | _ => none

end TypeKind

def dropDeclarationMarks : List Char → List Char
  | 'l' :: 'c' :: 'e' :: 'd' :: '_' :: rest => dropDeclarationMarks rest
  | letters => letters

namespace TypeKind

def ofElement? (name : String) : Option TypeKind :=
  ofName? (String.ofList (dropDeclarationMarks name.toList.reverse).reverse)

def ofWord (word : String) : Except Failure TypeKind :=
  match ofElement? (Text.lowercase word) with
  | some kind => .ok kind
  | none => .error (.unknownTypeKind word)

end TypeKind

inductive LiteralKind
  | number
  | string
  | character
  | boolean
  | null
  deriving DecidableEq, Repr, Inhabited

def LiteralKind.ofAttribute : String → LiteralKind
  | "string" => .string
  | "char" => .character
  | "boolean" => .boolean
  | "null" => .null
  | _ => .number

end ScopeAtlas
