import ScopeAtlas.SourceUnit.Construct
import ScopeAtlas.SourceUnit.Declaration
import ScopeAtlas.SourceUnit.Dialect
import ScopeAtlas.SourceUnit.Outline

/-!
Statements of a unit: from the elements of a source file to the outline of its statements.
-/

namespace ScopeAtlas.SourceUnit

open Markup

structure SourceFile where
  name : String
  language : Language

structure Surroundings where
  access : Access
  typeName : Option String

def Surroundings.plain : Surroundings := ⟨.unstated, none⟩

def SourceFile.topLevel (source : SourceFile) : Surroundings :=
  ⟨source.language.defaultAccess none, none⟩

def SourceFile.memberLevel (source : SourceFile) (kind : TypeKind) (name : String) : Surroundings :=
  ⟨source.language.defaultAccess (some kind), some name⟩

def scopeOutline (name : String) (qualifier : Option Qualifier) (definition : Definition)
    (access : Access) (location : Location) (content : List Expression) (children : List Outline) :
    Outline :=
  .node (.named (.ofFacet name qualifier ⟨location.file, location.isReference, access, definition⟩))
    location content children

def nestNamespaces (location : Location) (names : List String) (children : List Outline) :
    List Outline :=
  names.foldr (fun name inner =>
    [scopeOutline name none (.namespaceScope ⟨false⟩) .unstated location [] inner]) children

def placingQualifier (source : SourceFile) (segments : List Segment) : Option Qualifier :=
  if source.language.placesQualified then Qualifier.ofSegments? segments else none

def segmentNames (source : SourceFile) (element : Element) : List String :=
  ((element.child? "name").map fun name => (segments source.name name).map (·.name)).getD []

def namespaceOutline (source : SourceFile) (element : Element) (children : List Outline) :
    List Outline :=
  let location := element.location source.name
  match segmentNames source element with
  | [] => [scopeOutline "" none (.namespaceScope ⟨true⟩) .unstated location [] children]
  | names => nestNamespaces location names children

mutual

def parentTypes (file : String) : List Node → List TypeUse
  | [] => []
  | .text _ :: rest => parentTypes file rest
  | .element head children :: rest =>
    (match head.name with
      | "name" => (typeOfName? file ⟨head, children⟩).toList
      | "specifier" => []
      | "comment" => []
      | _ => parentTypes file children) ++ parentTypes file rest

end

def isReferenceElement (head : Head) : Bool :=
  Text.endsWith head.name "_decl"

def typeName (source : SourceFile) (element : Element) : String × List Segment :=
  (declaredName? source.name element).getD ("", [])

def typeOutline (source : SourceFile) (around : Surroundings) (kind : TypeKind) (element : Element)
    (children : List Outline) : Outline :=
  let (name, before) := typeName source element
  let parents := ((element.child? "super").map fun list =>
    parentTypes source.name list.children).getD []
  scopeOutline name (placingQualifier source before)
    (.typeScope ⟨kind, parents, isPartial element⟩)
    ((statedAccess element).orDefault around.access)
    ((element.location source.name).asReference (isReferenceElement element.head)) [] children

def methodDefinition (source : SourceFile) (around : Surroundings) (element : Element)
    (name : String) (owner : Option String) : MethodDefinition :=
  let isDestructor := Text.startsWith element.name "destructor" || Text.startsWith name "~"
  let isConstructor := !isDestructor &&
    (Text.startsWith element.name "constructor" || owner == some name ||
      ((element.child? "type").isNone && around.typeName == some name))
  let parameters := ((element.child? "parameter_list").map (parameters source.name)).getD []
  let returnType :=
    if isConstructor || isDestructor then none
    else (element.child? "type").bind (typeOf? source.name)
  ⟨parameters, returnType, isConstructor, isDestructor, isPartial element⟩

def memberInitializers (source : SourceFile) (element : Element) : List Expression :=
  ((element.childrenNamed "member_init_list").flatMap fun list =>
    list.childrenNamed "call").filterMap (call? source.name)

def methodOutline (source : SourceFile) (around : Surroundings) (element : Element)
    (children : List Outline) : List Outline :=
  match declaredName? source.name element with
  | none => []
  | some (name, before) =>
    let definition := methodDefinition source around element name (before.getLast?.map (·.name))
    [scopeOutline name (placingQualifier source before) (.methodScope definition)
      ((statedAccess element).orDefault around.access)
      ((element.location source.name).asReference (isReferenceElement element.head))
      (memberInitializers source element) children]

def declarationOutline (source : SourceFile) (around : Surroundings) (element : Element) :
    List Outline :=
  match declaredContent source.name around.access none (declarators element) with
  | [] => []
  | content => [.node .declaration (element.location source.name) content []]

/-- The kind and the header of a loop over a control part. A range makes it a loop over the
elements of something. -/
def loopHeader (source : SourceFile) (element : Element) : StatementKind × List Expression :=
  let file := source.name
  let header := (element.child? "control").getD element
  let initial := header.child? "init"
  let declarators := (initial.map fun init => init.childrenNamed "decl").getD []
  let declared := declarators.flatMap fun declarator =>
    headerDeclaration file declarator :: expressionsOfChild file declarator "range"
  let expressions := ((initial.map fun init => init.childrenNamed "expr").getD []).filterMap
    (expression? file)
  let ranges := declarators.any fun declarator => (declarator.child? "range").isSome
  let isForeach := element.name == "foreach" || ranges || (header.child? "range").isSome
  (if isForeach then .foreach else .forLoop,
    declared ++ expressions ++ expressionsOfChild file header "range" ++
      expressionsOfChild file header "condition" ++ expressionsOfChild file header "incr")

def lockContent (source : SourceFile) (element : Element) : List Expression :=
  ((element.child? "init").map (headerContent source.name)).getD [] ++
    (element.childrenNamed "expr").filterMap (expression? source.name)

def isLabel (node : Node) : Bool :=
  match node.element? with
  | some element => element.name == "case" || element.name == "default"
  | none => false

def nextLabelStart? (nodes : List Node) : Option Position :=
  ((nodes.find? isLabel).bind Node.element?).map (·.head.start)

def named? (name : String) (node : Node) : Option Element :=
  node.element?.filter fun element => element.name == name

def hasBlock (nodes : List Node) : Bool :=
  nodes.any fun node => (named? "block" node).isSome

def treatmentOf (treat : String → Treatment) : Node → Treatment
  | .text _ => .skip
  | .element head _ => treat head.name

structure Runs where
  run : List Outline
  later : List Outline

def Runs.none : Runs := ⟨[], []⟩

def Runs.all (runs : Runs) : List Outline := runs.run ++ runs.later

/-- The statements of a package and those after it: a package encloses what follows it, up to the
next one. -/
def packageRuns (source : SourceFile) (package : Element) (rest : Runs) : Runs :=
  match segmentNames source package with
  | [] => rest
  | names =>
    let location := Location.span source.name package.head.start .unbounded
    ⟨[], nestNamespaces location names rest.run ++ rest.later⟩

/-- One case of a switch and those after it. A case extends to the label after it, the last one
to `stop`. -/
def labelRuns (source : SourceFile) (stop : Position) (label : Element) (following : List Node)
    (rest : Runs) : Runs :=
  let location := Location.span source.name label.head.start
    ((nextLabelStart? following).getD stop)
  ⟨[], .node (.case (label.name == "default")) location (expressionsIn source.name label) rest.run
    :: rest.later⟩

mutual

def outlines (source : SourceFile) (around : Surroundings) (treatment : Treatment) :
    Node → List Outline
  | .text _ => []
  | .element head children =>
    let element : Element := ⟨head, children⟩
    let location := head.location source.name
    let condition := expressionsOfChild source.name element "condition"
    match treatment with
    | .skip => []
    | .open => (statementRuns source around children).all
    | .branch kind =>
      [.node kind location []
        (if head.name == "block" then (statementRuns source around children).all
          else parts source around .ofBodyPart children)]
    | .handler =>
      [.node .catchClause location
        ((catchDeclarators element).map (headerDeclaration source.name))
        (parts source around .ofBodyPart children)]
    | .whole =>
      if head.isPreprocessor then []
      else match Construct.ofName head.name with
        | .namespaceBlock =>
          namespaceOutline source element (blockStatements source source.topLevel children)
        | .typeBlock kind =>
          let inner := source.memberLevel kind (typeName source element).1
          [typeOutline source around kind element (blockStatements source inner children)]
        | .method => methodOutline source around element (blockStatements source .plain children)
        | .declaration => declarationOutline source around element
        | .simple kind => [.node kind location (expressionsIn source.name element) []]
        | .label =>
          let name := ((element.child? "name").map Element.text).getD ""
          [.node (.label (Text.trim name)) location [] []]
        | .conditional =>
          [.node .ifBranch location condition (parts source around .ofConditionalPart children)]
        | .conditionalChain => (chainRuns source around false children).all
        | .conditionLoop kind =>
          [.node kind location condition (parts source around .ofBodyPart children)]
        | .controlLoop =>
          let (kind, content) := loopHeader source element
          [.node kind location content (parts source around .ofBodyPart children)]
        | .switch => [.node .switch location condition (switchBlock source around children)]
        | .guarded =>
          let content := ((element.child? "init").map (headerContent source.name)).getD []
          [.node .tryBlock location content (parts source around .ofGuardedPart children)]
        | .lock =>
          [.node .lock location (lockContent source element)
            (parts source around .ofBodyPart children)]
        | .using =>
          if hasBlock children then
            [.node .lock location (lockContent source element)
              (parts source around .ofBodyPart children)]
          else ((usingStatement? source.language element).map fun kind =>
            .node kind location [] []).toList
        | .block =>
          [.node .block location []
            (if hasBlock children then blockStatements source around children
              else (statementRuns source around children).all)]
        | .region access => (statementRuns source { around with access } children).all
        | .wrapper => (statementRuns source around children).all
        | .skipped => []

def parts (source : SourceFile) (around : Surroundings) (treat : String → Treatment) :
    List Node → List Outline
  | [] => []
  | node :: rest =>
    outlines source around (treatmentOf treat node) node ++ parts source around treat rest

def statementRuns (source : SourceFile) (around : Surroundings) : List Node → Runs
  | [] => .none
  | node :: rest =>
    let after := statementRuns source around rest
    match named? "package" node with
    | some package => packageRuns source package after
    | none => { after with run := outlines source around .whole node ++ after.run }

def blockStatements (source : SourceFile) (around : Surroundings) : List Node → List Outline
  | [] => []
  | .text _ :: rest => blockStatements source around rest
  | .element head children :: rest =>
    if head.name == "block" then (statementRuns source around children).all
    else blockStatements source around rest

/-- The statements of a chain of `if`, `else if` and `else`: those that belong to the `if` before
them, when there is one, and those beside it. -/
def chainRuns (source : SourceFile) (around : Surroundings) (follows : Bool) : List Node → Runs
  | [] => .none
  | .text _ :: rest => chainRuns source around follows rest
  | .element head children :: rest =>
    let location := head.location source.name
    match head.name with
    | "if" =>
      let after := chainRuns source around true rest
      let conditional : Outline :=
        .node .ifBranch location (expressionsOfChild source.name ⟨head, children⟩ "condition")
          (parts source around .ofConditionalPart children ++ after.run)
      if follows && head.attribute? "type" == some "elseif" then
        { after with run := [.node .elseBranch location [] [conditional]] }
      else ⟨[], conditional :: after.later⟩
    | "else" =>
      let after := chainRuns source around follows rest
      let alternative : Outline :=
        .node .elseBranch location [] (parts source around .ofBodyPart children)
      if follows then { after with run := alternative :: after.run }
      else { after with later := alternative :: after.later }
    | _ => chainRuns source around follows rest

def switchBlock (source : SourceFile) (around : Surroundings) : List Node → List Outline
  | [] => []
  | .text _ :: rest => switchBlock source around rest
  | .element head children :: rest =>
    if head.name == "block" then (caseRuns source around head.stop children).all
    else switchBlock source around rest

def caseRuns (source : SourceFile) (around : Surroundings) (stop : Position) : List Node → Runs
  | [] => .none
  | node :: rest =>
    let after := caseRuns source around stop rest
    match node.element?.filter fun _ => isLabel node with
    | some label => labelRuns source stop label rest after
    | none => { after with run := outlines source around .whole node ++ after.run }

end

def statements (source : SourceFile) (around : Surroundings) (nodes : List Node) : List Outline :=
  (statementRuns source around nodes).all

end ScopeAtlas.SourceUnit
