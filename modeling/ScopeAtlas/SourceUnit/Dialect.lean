import ScopeAtlas.SourceUnit.Name
import ScopeAtlas.Statement.Basic

/-!
Where the languages differ: source file extensions, accessibility of members that state none,
whether a qualified declaration belongs inside its qualifier, and what `using` and `import`
mean.
-/

namespace ScopeAtlas

open Markup

namespace Language

def extensions : Language → List String
  | .c => ["c"]
  | .cPlusPlus => ["cpp", "cc", "cxx", "c++", "hpp", "hh", "hxx", "h", "inl"]
  | .cSharp => ["cs"]
  | .java => ["java"]

def defaultAccess : Language → Option TypeKind → Access
  | .c, some .classType | .cPlusPlus, some .classType => .privateAccess
  | .c, some _ | .cPlusPlus, some _ => .publicAccess
  | .cSharp, some .interfaceType | .cSharp, some .enumType => .publicAccess
  | .cSharp, some _ => .privateAccess
  | .java, some .interfaceType => .publicAccess
  | _, _ => .unstated

/-- Whether a qualified name such as `A::f` places its declaration inside `A`. -/
def placesQualified (language : Language) : Bool :=
  language.isCFamily

end Language

namespace SourceUnit

/-- The alias and its target in `using A = X.Y`, whether the target is marked as an initial
value or only follows an equals sign. -/
def aliasParts? (element : Element) : Option (String × List String) :=
  let make (name : Option String) (target : List String) :=
    match name with
    | some name => if target.isEmpty then none else some (name, target)
    | none => none
  match element.child? "init" with
  | some value =>
    make ((element.child? "name").bind fun name => (ownLeafNames name).getLast?) (leafNames value)
  | none =>
    if element.ownText.toList.contains '=' then
      match element.childrenNamed "name" with
      | [] => none
      | first :: rest => make (ownLeafNames first).getLast? (rest.flatMap ownLeafNames)
    else none

def aliasOfPath? (path : List String) : Option StatementKind :=
  path.getLast?.map fun last => .aliasing path last

def importOfPath? (path : List String) : Option StatementKind :=
  if path.isEmpty then none else some (.importing path)

def usesNamespace (element : Element) : Bool :=
  (element.child? "namespace").isSome || (Text.words element.ownText).contains "namespace"

def usingStatement? (language : Language) (element : Element) : Option StatementKind :=
  match language with
  | .java =>
    let path := (leafNames element).filter fun name => name != "*"
    if element.text.toList.contains '*' then importOfPath? path else aliasOfPath? path
  | .cSharp =>
    match aliasParts? element with
    | some (name, target) => some (.aliasing target name)
    | none => importOfPath? (leafNames element)
  | .c | .cPlusPlus =>
    match aliasParts? element with
    | some (name, target) => some (.aliasing target name)
    | none =>
      if usesNamespace element then importOfPath? (leafNames element)
      else aliasOfPath? (leafNames element)

end SourceUnit

end ScopeAtlas
