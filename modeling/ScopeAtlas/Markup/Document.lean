import ScopeAtlas.Markup.Attribute
import ScopeAtlas.Markup.Element

/-!
From the events of a document to its element tree, and from there to its units. The elements
still open are kept on a stack, innermost first.
-/

namespace ScopeAtlas.Markup

structure OpenElement where
  qualified : String
  head : Head
  content : List Node
  childNames : List String
  deriving DecidableEq

structure Reading where
  stack : List OpenElement
  root : Option Element
  deriving DecidableEq

namespace OpenElement

/-- The locator of the next child: its name and how many of that name there are by now. A unit
inside a unit starts a document of its own. -/
def childLocator (parent : OpenElement) (qualified : String) : String :=
  if qualified == "unit" && parent.head.name == "unit" then "/unit"
  else parent.head.locator ++ "/" ++ qualified ++ "[" ++
    toString (parent.childNames.count qualified + 1) ++ "]"

def noteChild (parent : OpenElement) (qualified : String) : OpenElement :=
  if qualified == "unit" && parent.head.name == "unit" then parent
  else { parent with childNames := parent.childNames ++ [qualified] }

def addText (parent : OpenElement) (text : String) : OpenElement :=
  match parent.content with
  | .text earlier :: others => { parent with content := .text (earlier ++ text) :: others }
  | content => { parent with content := .text text :: content }

/-- The finished element; without a start of its own it takes that of its first child that has
one. -/
def close (element : OpenElement) : Element :=
  let children := element.content.reverse
  if element.head.hasStart then ⟨element.head, children⟩
  else match Node.firstStart? children with
    | some start => ⟨{ element.head with start, hasStart := true }, children⟩
    | none => ⟨element.head, children⟩

end OpenElement

namespace Reading

def begin : Reading := ⟨[], none⟩

def openTag (reading : Reading) (content : List Char) : Except Failure Reading := do
  let qualified := tagName content
  let locator := match reading.stack with
    | [] => "/" ++ qualified
    | parent :: _ => parent.childLocator qualified
  let stack := match reading.stack with
    | [] => []
    | parent :: others => parent.noteChild qualified :: others
  let attributes ← tagAttributes content
  return { reading with
    stack := ⟨qualified, Head.make qualified attributes locator, [], []⟩ :: stack }

def closeTag (reading : Reading) : Reading :=
  match reading.stack with
  | [] => reading
  | [last] => ⟨[], some last.close⟩
  | inner :: parent :: others =>
    { reading with stack := { parent with content := inner.close.toNode :: parent.content } :: others }

def addText (reading : Reading) (text : String) : Reading :=
  match reading.stack with
  | [] => reading
  | inner :: others => { reading with stack := inner.addText text :: others }

def step (reading : Reading) : Event → Except Failure Reading
  | .start content => reading.openTag content
  | .whole content => do return (← reading.openTag content).closeTag
  | .finish name =>
    match reading.stack with
    | [] => .error (.markup (.unmatchedEnd (String.ofList name)))
    | inner :: _ =>
      if inner.qualified == String.ofList name then .ok reading.closeTag
      else .error (.markup (.mismatchedEnd inner.qualified (String.ofList name)))
  | .text content => .ok (reading.addText (String.ofList content))
  | .reference name =>
    match resolveName 1 name with
    | .ok letter => .ok (reading.addText letter.toString)
    | .error fault => .error (.reference fault)
  | .characterData content => .ok (reading.addText (String.ofList content))
  | .passed => .ok reading
  | .fault cause => .error (.markup cause)

def finish (reading : Reading) : Except Failure Element :=
  if !reading.stack.isEmpty then .error .truncatedDocument
  else match reading.root with
    | none => .error .emptyDocument
    | some root =>
      match Node.inferPositions ⟨1, 1⟩ .unbounded root.toNode with
      | .element head children => .ok ⟨head, children⟩
      | .text _ => .error .emptyDocument

end Reading

/-- Reads a whole document; of several root elements the last one counts. -/
def parseDocument (text : String) : Except Failure Element := do
  let reading ← (eventsOf text).foldlM Reading.step Reading.begin
  reading.finish

/-- The units of a document: the units directly inside the root, or else the root itself. -/
def parseUnits (text : String) : Except Failure (List Element) := do
  let root ← parseDocument text
  if root.name != "unit" then .error (.notAUnit root.head.qualifiedName)
  else if (root.child? "unit").isNone then return [root]
  else return root.childrenNamed "unit"

end ScopeAtlas.Markup
