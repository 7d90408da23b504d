import ScopeAtlas.Markup.Document
import ScopeAtlas.SourceUnit.Statement
import ScopeAtlas.Storage.Path
import ScopeAtlas.Text.Lowercase

/-!
Units: from a document to the scope trees of the source files it describes.
-/

namespace ScopeAtlas

open Markup

namespace Language

def byExtension : List Language := [.cPlusPlus, .c, .cSharp, .java]

def hasExtension (language : Language) (extension : String) : Bool :=
  language.extensions.any (Text.sameFolded extension)

def ofPath? (path : Path) : Option Language :=
  path.extension?.bind fun extension => byExtension.find? (·.hasExtension extension)

end Language

namespace SourceUnit

def readAs (language : Language) (unit : Element) : Except Failure ScopeTree :=
  if unit.name != "unit" then .error (.notAUnit unit.head.qualifiedName)
  else match unit.filename? with
    | none => .error .unnamedUnit
    | some file =>
      let source : SourceFile := ⟨file, language⟩
      let location :=
        { Location.span file unit.head.start .unbounded with locator := some unit.head.locator }
      .ok (Outline.tree language location (statements source source.topLevel unit.children))

/-- The language of a unit: the one it states, or else the one of its file. -/
def languageOf (unit : Element) : Except Failure Language :=
  match unit.language? with
  | some word => Language.ofWord word
  | none =>
    match unit.filename? with
    | none => .error (.unknownLanguage "<unnamed unit>")
    | some file =>
      match Language.ofPath? ⟨file⟩ with
      | some language => .ok language
      | none => .error (.unknownLanguage file)

def read (unit : Element) : Except Failure ScopeTree := do
  readAs (← languageOf unit) unit

def readDocument (text : String) : Except Failure (List ScopeTree) := do
  (← parseUnits text).mapM read

end SourceUnit

end ScopeAtlas
