import ScopeAtlas.ScopeTree.Walk

/-!
Merging one tree into another. Scopes that are the same entity are folded into one: their
locations, expressions and facets are appended. Everything else becomes a new child. A scope
written with a qualifier goes where the qualifier leads; for a segment that leads nowhere yet
a placeholder scope is made, which a later declaration will fold into.

The incoming tree is first appended slot by slot and then placed piece by piece, so every
statement that is not folded away keeps the number it got when it was appended.
-/

namespace ScopeAtlas

namespace ScopeTree

def partner? (tree : ScopeTree) (target child : StatementId) : Option StatementId :=
  match tree.scope? child with
  | none => none
  | some incoming => (tree.children target).find? fun candidate =>
      candidate != child && match tree.scope? candidate with
        | some existing => existing.sameIdentity incoming
        | none => false

def containerChild? (tree : ScopeTree) (scope : StatementId) (name : String) : Option StatementId :=
  (tree.children scope).find? fun child => match tree.scope? child with
    | some existing => existing.name == name && existing.qualifier.isNone && existing.isContainer
    | none => false

def absorbStatement (target incoming : Statement) : Statement :=
  { target with
    locations := target.locations ++ incoming.locations
    content := target.content ++ incoming.content
    kind := match target.kind, incoming.kind with
      | .named existing, .named added => .named (existing.absorb added)
      | kind, _ => kind }

def segmentFacet (location : Location) : Facet :=
  ⟨location.file, true, .unstated, .placeholder⟩

/-- Steps into the scope that a segment names, making a placeholder when there is none. The
segment's location is recorded as a reference in both cases. -/
def enterSegment (tree : ScopeTree) (scope : StatementId) (segment : Segment)
    (language : Language) : ScopeTree × StatementId :=
  let location := segment.location.asReference true
  let facet := segmentFacet location
  match tree.containerChild? scope segment.name with
  | some existing =>
    (tree.modify existing fun statement =>
      { statement with
        locations := statement.locations ++ [location]
        kind := statement.kind.mapScope fun named => named.addFacet facet }, existing)
  | none =>
    let placeholder := NamedScope.ofFacet segment.name none facet
    (tree.add scope (.detached (.named placeholder) language [location] []), tree.nextId)

def enterSegments (tree : ScopeTree) (scope : StatementId) (language : Language) :
    List Segment → ScopeTree × StatementId
  | [] => (tree, scope)
  | segment :: rest =>
    let (next, inner) := tree.enterSegment scope segment language
    next.enterSegments inner language rest

/-- Where a qualifier starts: the nearest level at or above `target` that has a container of
the first segment's name, or else `target`. -/
def qualifierStart (tree : ScopeTree) (target : StatementId) (name : String) : StatementId :=
  ((tree.lineage target).find? fun level => (tree.containerChild? level name).isSome).getD target

def dropQualifier (tree : ScopeTree) (id : StatementId) : ScopeTree :=
  tree.modify id fun statement =>
    { statement with kind := statement.kind.mapScope fun named => { named with qualifier := none } }

def foldInto (placeAll : ScopeTree → StatementId → List StatementId → ScopeTree)
    (tree : ScopeTree) (target incoming : StatementId) : ScopeTree :=
  if target = incoming then tree
  else match tree.get? incoming with
    | none => tree
    | some statement =>
      placeAll ((tree.vacate incoming).modify target fun existing =>
        absorbStatement existing statement) target statement.children

def placeChild (placeAll : ScopeTree → StatementId → List StatementId → ScopeTree)
    (tree : ScopeTree) (target child : StatementId) : ScopeTree :=
  match tree.partner? target child with
  | some existing => foldInto placeAll tree existing child
  | none => match tree.get? child with
    | none => tree
    | some statement =>
      let bare := tree.modify child fun own => { own with parent := none, children := [] }
      placeAll (bare.attach target child) child statement.children

def placeQualified (placeAll : ScopeTree → StatementId → List StatementId → ScopeTree)
    (tree : ScopeTree) (target child : StatementId) : ScopeTree :=
  match (tree.scope? child).bind NamedScope.qualifier with
  | none => placeChild placeAll tree target child
  | some qualifier =>
    let freed := tree.dropQualifier child
    match qualifier.segments with
    | [] => placeChild placeAll freed target child
    | first :: rest =>
      let language := ((freed.get? child).map Statement.language).getD .cPlusPlus
      let start := freed.qualifierStart target first.name
      let (entered, scope) := freed.enterSegments start language (first :: rest)
      placeChild placeAll entered scope child

def isQualified (tree : ScopeTree) (id : StatementId) : Bool :=
  match tree.scope? id with
  | some scope => scope.qualifier.isSome
  | none => false

/-- Places statements under `target`, those with a qualifier last, so that the scopes their
qualifiers name are in place. Goes at most `depth` levels down. -/
def placeAll : Nat → ScopeTree → StatementId → List StatementId → ScopeTree
  | 0, tree, _, _ => tree
  | depth + 1, tree, target, children =>
    let plain := children.filter fun child => !tree.isQualified child
    let qualified := children.filter tree.isQualified
    let placed := plain.foldl (fun current child => placeChild (placeAll depth) current target child)
      tree
    qualified.foldl (fun current child => placeQualified (placeAll depth) current target child) placed

def merge (tree other : ScopeTree) : ScopeTree :=
  let joined := tree.append other
  foldInto (placeAll (joined.slots.size + 1)) joined root tree.nextId

end ScopeTree

end ScopeAtlas
