import ScopeAtlas.Location
import ScopeAtlas.Text.Blank

/-!
The element tree of a document. Every element knows where it starts and stops in its source
file and has a locator such as `/unit/class[1]/block[1]`.

Positions come from the attributes `pos:line` and `pos:column`, or `pos:start` and `pos:end`.
An element without them starts where its first child with a start does, else where its parent
starts; it stops where the next sibling with a start begins, else where its parent stops.
-/

namespace ScopeAtlas.Markup

structure Head where
  name : String
  space : Option String
  attributes : List (String × String)
  start : Position
  stop : Position
  locator : String
  /-- The start is stated or taken over from a child. -/
  hasStart : Bool
  hasStop : Bool
  deriving DecidableEq, Repr, Inhabited

inductive Node
  | text (content : String)
  | element (head : Head) (children : List Node)

/-! Equality of the nested types is decided part by part. -/

mutual

def Node.decEq : (left right : Node) → Decidable (left = right)
  | .text content, .text other => decidable_of_iff (content = other) (by simp)
  | .text _, .element _ _ => isFalse nofun
  | .element _ _, .text _ => isFalse nofun
  | .element head₁ children₁, .element head₂ children₂ =>
    have := Node.decEqList children₁ children₂
    decidable_of_iff (head₁ = head₂ ∧ children₁ = children₂) (by simp)

def Node.decEqList : (left right : List Node) → Decidable (left = right)
  | [], [] => isTrue rfl
  | [], _ :: _ => isFalse (by simp)
  | _ :: _, [] => isFalse (by simp)
  | first :: rest, second :: others =>
    have := Node.decEq first second
    have := Node.decEqList rest others
    decidable_of_iff (first = second ∧ rest = others) (by simp)

end

instance : DecidableEq Node := Node.decEq

structure Element where
  head : Head
  children : List Node
  deriving DecidableEq

instance : Inhabited Element := ⟨⟨default, []⟩⟩

namespace Head

def attribute? (head : Head) (key : String) : Option String :=
  (head.attributes.find? fun entry => entry.1 == key).map (·.2)

def qualifiedName (head : Head) : String :=
  match head.space with
  | some space => space ++ ":" ++ head.name
  | none => head.name

def isPreprocessor (head : Head) : Bool :=
  head.space == some "cpp"

def location (head : Head) (file : String) : Location :=
  { Location.span file head.start head.stop with locator := some head.locator }

end Head

def number? (text : String) : Option Nat :=
  let digits := match text.toList with
    | '+' :: rest => rest
    | letters => letters
  if digits.isEmpty || !digits.all Char.isDigit then none
  else
    let value := digits.foldl (fun value digit => value * 10 + (digit.toNat - '0'.toNat)) 0
    if value ≤ Position.limit then some value else none

def position? (text : String) : Option Position :=
  let line := text.toList.takeWhile (· != ':')
  match text.toList.drop line.length with
  | [] => none
  | _ :: column => do
    let line ← number? (Text.trim (String.ofList line))
    let column ← number? (Text.trim (String.ofList column))
    return ⟨line, column⟩

def statedStart? (head : Head) : Option Position :=
  let pair := do
    let line ← (head.attribute? "pos:line").bind number?
    let column ← (head.attribute? "pos:column").bind number?
    return (⟨line, column⟩ : Position)
  pair.or ((head.attribute? "pos:start").bind position?)

/-- The stop that the attributes state: one column after the last character. -/
def statedStop? (head : Head) : Option Position :=
  ((head.attribute? "pos:end").bind position?).map fun last =>
    ⟨last.line, min (last.column + 1) Position.limit⟩

def Head.make (qualified : String) (attributes : List (String × String)) (locator : String) :
    Head :=
  let before := qualified.toList.takeWhile (· != ':')
  let bare : Head := match qualified.toList.drop before.length with
    | [] => ⟨qualified, none, attributes, ⟨1, 1⟩, .unbounded, locator, false, false⟩
    | _ :: after =>
      ⟨String.ofList after, some (String.ofList before), attributes, ⟨1, 1⟩, .unbounded, locator,
        false, false⟩
  let start := statedStart? bare
  let stop := statedStop? bare
  { bare with
    start := start.getD bare.start
    stop := stop.getD bare.stop
    hasStart := start.isSome
    hasStop := stop.isSome }

namespace Node

def element? : Node → Option Element
  | .element head children => some ⟨head, children⟩
  | .text _ => none

def text? : Node → Option String
  | .text content => some content
  | .element _ _ => none

def start? : Node → Option Position
  | .element head _ => if head.hasStart then some head.start else none
  | .text _ => none

mutual

def allText : Node → String
  | .text content => content
  | .element _ children => textOf children

def textOf : List Node → String
  | [] => ""
  | node :: rest => node.allText ++ textOf rest

end

def findIn (name : String) : List Node → Option Element
  | [] => none
  | .text _ :: rest => findIn name rest
  | .element head children :: rest =>
    if head.name == name then some ⟨head, children⟩
    else (findIn name children).or (findIn name rest)

def firstStart? (nodes : List Node) : Option Position :=
  nodes.findSome? start?

mutual

def inferPositions (inherited bound : Position) : Node → Node
  | .text content => .text content
  | .element head children =>
    let start := if head.hasStart then head.start else inherited
    let stop := if head.hasStop then head.stop else bound
    .element { head with start, stop } (inferAll start stop children)

/-- Fills in positions of children: each is bounded by the next start among its siblings, the
last ones by the stop of the parent. -/
def inferAll (start stop : Position) : List Node → List Node
  | [] => []
  | node :: rest =>
    inferPositions start ((firstStart? rest).getD stop) node :: inferAll start stop rest

end

end Node

namespace Element

def toNode (element : Element) : Node := .element element.head element.children

def name (element : Element) : String := element.head.name

def attribute? (element : Element) (key : String) : Option String := element.head.attribute? key

def elements (element : Element) : List Element :=
  element.children.filterMap Node.element?

def child? (element : Element) (name : String) : Option Element :=
  element.elements.find? fun child => child.name == name

def childrenNamed (element : Element) (name : String) : List Element :=
  element.elements.filter fun child => child.name == name

def find? (element : Element) (name : String) : Option Element :=
  Node.findIn name element.children

def text (element : Element) : String :=
  Node.textOf element.children

def ownText (element : Element) : String :=
  String.join (element.children.filterMap Node.text?)

def location (element : Element) (file : String) : Location := element.head.location file

def filename? (element : Element) : Option String := element.attribute? "filename"

def language? (element : Element) : Option String := element.attribute? "language"

end Element

end ScopeAtlas.Markup
