import ScopeAtlas.Proofs.Provenance
import ScopeAtlas.Proofs.UnitContent
import ScopeAtlas.SourceUnit.Basic

/-!
The trees that units are read into. Every statement of such a tree is seen at one place of the file
that the unit names and holds only what is written there, and the statements form one tree below a
global namespace. The outlines are built by functions that follow the nesting of the markup, with
one case for every construct; each case adds statements of the file to statements of the file.
-/

namespace ScopeAtlas

open Markup

def StatementKind.hasHeader : StatementKind → Bool
  | .ifBranch | .whileLoop | .doWhile | .forLoop | .foreach | .switch | .case _ | .tryBlock
  | .catchClause | .lock => true
  | _ => false

/-- A scope without a header declares nothing in its own expressions. -/
def Headed (kind : StatementKind) (content : List Expression) : Prop :=
  kind.isScope = true → kind.hasHeader = false → ∀ expression ∈ content,
    expression.declaration? = none

/-- A statement as it is read from one place of a source file. -/
structure ReadFrom (source : SourceUnit.SourceFile) (statement : Statement) : Prop where
  located : ∃ location, statement.locations = [location] ∧ location.file = source.name ∧
    ∀ scope, statement.scope? = some scope → ∃ facet : Facet, scope.facets = [facet] ∧
      facet.file = source.name ∧ facet.isReference = location.isReference ∧
      facet.definition.FromFile source.name
  content : SourceUnit.AllFrom source.name statement.content
  qualifier : ∀ scope qualifier, statement.scope? = some scope → scope.qualifier = some qualifier →
    source.language.isCFamily = true ∧ qualifier.segments ≠ [] ∧
      ∀ segment ∈ qualifier.segments, SegmentIn source.name segment
  titled : ∀ scope, statement.scope? = some scope → scope.name = "" →
    ∀ facet ∈ scope.facets, facet.definition.isContainer = true
  headed : Headed statement.kind statement.content

theorem Headed.nil (kind : StatementKind) : Headed kind [] := by
  simp [Headed]

theorem Headed.of_header {kind : StatementKind} (header : kind.hasHeader = true)
    (content : List Expression) : Headed kind content := by
  simp [Headed, header]

theorem Headed.of_inner {kind : StatementKind} (inner : kind.isScope = false)
    (content : List Expression) : Headed kind content := by
  simp [Headed, inner]

namespace SourceUnit

inductive OutlineIn (source : SourceFile) : Outline → Prop
  | node {kind location content children} :
      ReadFrom source (.detached kind source.language [location] content) →
      (∀ child ∈ children, OutlineIn source child) →
      OutlineIn source (.node kind location content children)

def OutlinesIn (source : SourceFile) (outlines : List Outline) : Prop :=
  ∀ outline ∈ outlines, OutlineIn source outline

def RunsIn (source : SourceFile) (runs : Runs) : Prop :=
  OutlinesIn source runs.run ∧ OutlinesIn source runs.later

section Outlines

variable {source : SourceFile} {around : Surroundings}

theorem readFrom_plain {kind : StatementKind} {location : Location} {content : List Expression}
    (unnamed : kind.scope? = none) (here : location.file = source.name)
    (all : AllFrom source.name content) (headed : Headed kind content) :
    ReadFrom source (.detached kind source.language [location] content) := by
  have noScope (scope : NamedScope) : (Statement.detached kind source.language [location]
      content).scope? ≠ some scope := by
    simp [Statement.scope?, Statement.detached, unnamed]
  exact ⟨⟨location, rfl, here, fun scope found => absurd found (noScope scope)⟩, all,
    fun scope _ found => absurd found (noScope scope),
    fun scope found => absurd found (noScope scope), headed⟩

theorem OutlinesIn.nil : OutlinesIn source [] := by
  simp [OutlinesIn]

theorem OutlinesIn.cons {outline : Outline} {rest : List Outline}
    (first : OutlineIn source outline) (others : OutlinesIn source rest) :
    OutlinesIn source (outline :: rest) :=
  List.forall_mem_cons.mpr ⟨first, others⟩

theorem OutlinesIn.single {outline : Outline} (only : OutlineIn source outline) :
    OutlinesIn source [outline] :=
  OutlinesIn.nil.cons only

theorem OutlinesIn.append {left right : List Outline} (first : OutlinesIn source left)
    (second : OutlinesIn source right) : OutlinesIn source (left ++ right) :=
  List.forall_mem_append.mpr ⟨first, second⟩

theorem scopeOutline_in {name : String} {qualifier : Option Qualifier} {definition : Definition}
    {access : Access} {location : Location} {content : List Expression} {children : List Outline}
    (here : location.file = source.name) (defined : definition.FromFile source.name)
    (all : AllFrom source.name content) (below : OutlinesIn source children)
    (titled : name = "" → definition.isContainer = true)
    (undeclared : ∀ expression ∈ content, expression.declaration? = none)
    (path : ∀ found ∈ qualifier, source.language.isCFamily = true ∧
      ∀ segment ∈ found.segments, SegmentIn source.name segment) :
    OutlineIn source
      (scopeOutline name qualifier definition access location content children) := by
  refine .node ⟨⟨location, rfl, here, ?_⟩, all, ?_, ?_, fun _ _ => undeclared⟩ below
  · intro scope found
    obtain rfl := Option.some.inj found
    exact ⟨_, rfl, here, rfl, defined⟩
  · intro scope pending found pendingAt
    obtain rfl := Option.some.inj found
    obtain ⟨stated, inhabited⟩ := Option.filter_eq_some_iff.mp pendingAt
    obtain ⟨family, segments⟩ := path pending stated
    exact ⟨family, by simpa using inhabited, segments⟩
  · intro scope found blank facet member
    obtain rfl := Option.some.inj found
    rw [List.mem_singleton.mp member]
    exact titled blank

theorem placingQualifier_in {before : List Segment}
    (all : ∀ segment ∈ before, SegmentIn source.name segment) :
    ∀ found ∈ placingQualifier source before, source.language.isCFamily = true ∧
      ∀ segment ∈ found.segments, SegmentIn source.name segment := by
  intro found placed
  rw [Option.mem_def, placingQualifier, Qualifier.ofSegments?] at placed
  split at placed
  · rename_i family
    split at placed
    · simp at placed
    · obtain rfl := Option.some.inj placed
      exact ⟨family, all⟩
  · simp at placed

theorem nestNamespaces_in {location : Location} (here : location.file = source.name)
    (names : List String) {children : List Outline} (below : OutlinesIn source children) :
    OutlinesIn source (nestNamespaces location names children) := by
  induction names with
  | nil => exact below
  | cons name rest ih =>
    exact .single (scopeOutline_in here trivial .nil ih (fun _ => rfl) (by simp) (by simp))

theorem namespaceOutline_in {element : Element} {children : List Outline}
    (below : OutlinesIn source children) :
    OutlinesIn source (namespaceOutline source element children) := by
  unfold namespaceOutline
  split
  · exact .single (scopeOutline_in rfl trivial .nil below (fun _ => rfl) (by simp) (by simp))
  · exact nestNamespaces_in rfl _ below

theorem typeOutline_in {kind : TypeKind} {element : Element} {children : List Outline}
    (below : OutlinesIn source children) :
    OutlineIn source (typeOutline source around kind element children) := by
  have before : ∀ segment ∈ (typeName source element).2, SegmentIn source.name segment := by
    cases named : declaredName? source.name element with
    | none => simp [typeName, named]
    | some pair =>
      simp only [typeName, named, Option.getD_some]
      exact @segmentsIn_declaredName? _ _ pair.1 pair.2 named
  refine scopeOutline_in rfl ?_ .nil below (fun _ => rfl) (by simp) (placingQualifier_in before)
  intro use member
  cases list : element.child? "super" with
  | none => simp [list] at member
  | some found =>
    simp only [list, Option.map_some, Option.getD_some] at member
    exact fromFile_parentTypes found.children use member

theorem methodOutline_in {element : Element} {children : List Outline}
    (below : OutlinesIn source children) :
    OutlinesIn source (methodOutline source around element children) := by
  unfold methodOutline
  split
  · exact .nil
  · rename_i name before named
    exact .single (scopeOutline_in rfl (fromFile_methodDefinition source around element _ _)
      (fromFile_memberInitializers source element) below
      (fun blank => absurd blank (declaredName?_ne_empty named))
      (memberInitializers_undeclared source element)
      (placingQualifier_in (segmentsIn_declaredName? named)))

theorem plain_in {kind : StatementKind} {head : Head} {content : List Expression}
    {children : List Outline} (unnamed : kind.scope? = none) (all : AllFrom source.name content)
    (headed : Headed kind content) (below : OutlinesIn source children) :
    OutlinesIn source [.node kind (head.location source.name) content children] :=
  .single (.node (readFrom_plain unnamed rfl all headed) below)

theorem declarationOutline_in {element : Element} :
    OutlinesIn source (declarationOutline source around element) := by
  have all := @fromFile_declaredContent source.name around.access (declarators element) none
    (by simp)
  unfold declarationOutline
  split
  · exact .nil
  · exact plain_in rfl all (.of_inner rfl _) .nil

theorem RunsIn.none : RunsIn source .none := ⟨.nil, .nil⟩

theorem RunsIn.all {runs : Runs} (runsIn : RunsIn source runs) : OutlinesIn source runs.all :=
  runsIn.1.append runsIn.2

theorem packageRuns_in {package : Element} {rest : Runs} (after : RunsIn source rest) :
    RunsIn source (packageRuns source package rest) := by
  unfold packageRuns
  split
  · exact after
  · exact ⟨.nil, (nestNamespaces_in rfl _ after.1).append after.2⟩

theorem labelRuns_in {stop : Position} {label : Element} {following : List Node} {rest : Runs}
    (after : RunsIn source rest) :
    RunsIn source (labelRuns source stop label following rest) :=
  ⟨.nil, after.2.cons
    (.node (readFrom_plain rfl rfl (fromFile_expressionsIn label) (.of_header rfl _)) after.1)⟩

end Outlines

def Construct.Plain : Construct → Prop
  | .simple kind => kind.scope? = none ∧ kind.isScope = false
  | .conditionLoop kind => kind.scope? = none ∧ kind.hasHeader = true
  | _ => True

def Treatment.Plain : Treatment → Prop
  | .branch kind => kind.scope? = none
  | _ => True

theorem Construct.plain_ofName (name : String) : (Construct.ofName name).Plain := by
  unfold Construct.ofName
  split <;> first | exact ⟨rfl, rfl⟩ | trivial

theorem Treatment.plain_ofBodyPart (name : String) : (Treatment.ofBodyPart name).Plain := by
  unfold Treatment.ofBodyPart
  split <;> trivial

theorem Treatment.plain_ofConditionalPart (name : String) :
    (Treatment.ofConditionalPart name).Plain := by
  unfold Treatment.ofConditionalPart
  split <;> first | rfl | trivial

theorem Treatment.plain_ofGuardedPart (name : String) : (Treatment.ofGuardedPart name).Plain := by
  unfold Treatment.ofGuardedPart
  split <;> first | rfl | trivial

theorem usingStatement?_plain {language : Language} {element : Element} {kind : StatementKind}
    (found : usingStatement? language element = some kind) : kind.scope? = none := by
  have aliased {path : List String} (isAlias : aliasOfPath? path = some kind) :
      kind.scope? = none := by
    simp only [aliasOfPath?, Option.map_eq_some_iff] at isAlias
    obtain ⟨_, _, rfl⟩ := isAlias
    rfl
  have imported {path : List String} (isImport : importOfPath? path = some kind) :
      kind.scope? = none := by
    unfold importOfPath? at isImport
    split at isImport
    · simp at isImport
    · obtain rfl := Option.some.inj isImport
      rfl
  unfold usingStatement? at found
  split at found
  · simp only at found
    split at found
    · exact imported found
    · exact aliased found
  · split at found
    · obtain rfl := Option.some.inj found
      rfl
    · exact imported found
  · split at found
    · obtain rfl := Option.some.inj found
      rfl
    · split at found
      · exact imported found
      · exact aliased found
  · split at found
    · obtain rfl := Option.some.inj found
      rfl
    · split at found
      · exact imported found
      · exact aliased found

section Reading

variable {source : SourceFile}

mutual

theorem outlines_in : ∀ (node : Node) (around : Surroundings) (treatment : Treatment),
    treatment.Plain → OutlinesIn source (outlines source around treatment node)
  | .text _, around, treatment, _ => by
    rw [outlines]
    exact .nil
  | .element head children, around, treatment, plain => by
    have runs := statementRuns_in children
    have bodies := fun around => parts_in children around .ofBodyPart Treatment.plain_ofBodyPart
    have conditionals := fun around =>
      parts_in children around .ofConditionalPart Treatment.plain_ofConditionalPart
    have guarded := fun around =>
      parts_in children around .ofGuardedPart Treatment.plain_ofGuardedPart
    have blocks := blockStatements_in children
    have chains := chainRuns_in children
    have switches := switchBlock_in children
    have condition := @fromFile_expressionsOfChild source.name ⟨head, children⟩ "condition"
    unfold outlines
    split
    · exact .nil
    · exact (runs around).all
    · refine plain_in plain .nil (.nil _) ?_
      split
      · exact (runs around).all
      · exact bodies around
    · exact plain_in rfl (fromFile_catchDeclarations source _) (.of_header rfl _) (bodies around)
    · split
      · exact .nil
      · have unnamed := Construct.plain_ofName head.name
        generalize Construct.ofName head.name = construct at unnamed
        cases construct with
        | namespaceBlock => exact namespaceOutline_in (blocks _)
        | typeBlock kind => exact .single (typeOutline_in (blocks _))
        | method => exact methodOutline_in (blocks _)
        | declaration => exact declarationOutline_in
        | simple kind => exact plain_in unnamed.1 (fromFile_expressionsIn _) (.of_inner unnamed.2 _) .nil
        | label => exact plain_in rfl .nil (.nil _) .nil
        | conditional => exact plain_in rfl condition (.of_header rfl _) (conditionals around)
        | conditionalChain => exact (chains around false).all
        | conditionLoop kind =>
          exact plain_in unnamed.1 condition (.of_header unnamed.2 _) (bodies around)
        | controlLoop =>
          refine plain_in ?_ (fromFile_loopHeader source _) (.of_header ?_ _) (bodies around)
          · split
            · rfl
            · rfl
          · split
            · rfl
            · rfl
        | switch => exact plain_in rfl condition (.of_header rfl _) (switches around)
        | guarded =>
          exact plain_in rfl (.optional fromFile_headerContent) (.of_header rfl _) (guarded around)
        | lock => exact plain_in rfl (fromFile_lockContent source _) (.of_header rfl _) (bodies around)
        | «using» =>
          simp only
          split
          · exact plain_in rfl (fromFile_lockContent source _) (.of_header rfl _) (bodies around)
          · intro outline member
            simp only [Option.mem_toList, Option.map_eq_some_iff] at member
            obtain ⟨kind, stated, rfl⟩ := member
            exact .node (readFrom_plain (usingStatement?_plain stated) rfl .nil (.nil _)) OutlinesIn.nil
        | block =>
          refine plain_in rfl .nil (.nil _) ?_
          split
          · exact blocks around
          · exact (runs around).all
        | region access => exact (runs _).all
        | wrapper => exact (runs around).all
        | skipped => exact .nil

theorem parts_in : ∀ (nodes : List Node) (around : Surroundings) (treat : String → Treatment),
    (∀ name, (treat name).Plain) → OutlinesIn source (parts source around treat nodes)
  | [], around, treat, _ => by
    rw [parts]
    exact .nil
  | node :: rest, around, treat, plain => by
    rw [parts]
    refine .append (outlines_in node around _ ?_) (parts_in rest around treat plain)
    cases node with
    | text _ => trivial
    | element head _ => exact plain head.name

theorem statementRuns_in : ∀ (nodes : List Node) (around : Surroundings),
    RunsIn source (statementRuns source around nodes)
  | [], around => by
    rw [statementRuns]
    exact .none
  | node :: rest, around => by
    have after := statementRuns_in rest around
    rw [statementRuns]
    split
    · exact packageRuns_in after
    · exact ⟨(outlines_in node around .whole trivial).append after.1, after.2⟩

theorem blockStatements_in : ∀ (nodes : List Node) (around : Surroundings),
    OutlinesIn source (blockStatements source around nodes)
  | [], around => by
    rw [blockStatements]
    exact .nil
  | .text _ :: rest, around => by
    rw [blockStatements]
    exact blockStatements_in rest around
  | .element head children :: rest, around => by
    rw [blockStatements]
    split
    · exact (statementRuns_in children around).all
    · exact blockStatements_in rest around

theorem chainRuns_in : ∀ (nodes : List Node) (around : Surroundings) (follows : Bool),
    RunsIn source (chainRuns source around follows nodes)
  | [], around, follows => by
    rw [chainRuns]
    exact .none
  | .text _ :: rest, around, follows => by
    rw [chainRuns]
    exact chainRuns_in rest around follows
  | .element head children :: rest, around, follows => by
    have after := chainRuns_in rest around
    have bodies := parts_in children around .ofBodyPart Treatment.plain_ofBodyPart
    have conditionals :=
      parts_in children around .ofConditionalPart Treatment.plain_ofConditionalPart
    rw [chainRuns]
    split
    · have conditional : OutlineIn source (.node .ifBranch (head.location source.name)
          (expressionsOfChild source.name ⟨head, children⟩ "condition")
          (parts source around .ofConditionalPart children ++
            (chainRuns source around true rest).run)) :=
        .node (readFrom_plain rfl rfl (fromFile_expressionsOfChild _ _) (.of_header rfl _))
          (conditionals.append (after true).1)
      simp only
      split
      · exact ⟨plain_in rfl .nil (.nil _) (.single conditional), (after true).2⟩
      · exact ⟨.nil, (after true).2.cons conditional⟩
    · have alternative : OutlineIn source (.node .elseBranch (head.location source.name) []
          (parts source around .ofBodyPart children)) :=
        .node (readFrom_plain rfl rfl .nil (.nil _)) bodies
      simp only
      split
      · exact ⟨(after follows).1.cons alternative, (after follows).2⟩
      · exact ⟨(after follows).1, (after follows).2.cons alternative⟩
    · exact after follows

theorem switchBlock_in : ∀ (nodes : List Node) (around : Surroundings),
    OutlinesIn source (switchBlock source around nodes)
  | [], around => by
    rw [switchBlock]
    exact .nil
  | .text _ :: rest, around => by
    rw [switchBlock]
    exact switchBlock_in rest around
  | .element head children :: rest, around => by
    rw [switchBlock]
    split
    · exact (caseRuns_in children around head.stop).all
    · exact switchBlock_in rest around

theorem caseRuns_in : ∀ (nodes : List Node) (around : Surroundings) (stop : Position),
    RunsIn source (caseRuns source around stop nodes)
  | [], around, stop => by
    rw [caseRuns]
    exact .none
  | node :: rest, around, stop => by
    have after := caseRuns_in rest around stop
    rw [caseRuns]
    split
    · exact labelRuns_in after
    · exact ⟨(outlines_in node around .whole trivial).append after.1, after.2⟩

end

end Reading

end SourceUnit

open ScopeTree SourceUnit

/-- A tree of statements that are read from one source file, below a global namespace. -/
structure UnitTree (source : SourceFile) (unit : ScopeTree) : Prop where
  formed : unit.WellFormed
  readFrom : ∀ {id statement}, unit.get? id = some statement → ReadFrom source statement
  top : ∀ {statement}, unit.get? root = some statement → statement.kind = .global

structure Extends (source : SourceFile) (before after : ScopeTree) : Prop where
  ofUnit : UnitTree source after
  live : ∀ {id statement}, before.get? id = some statement →
    ∃ later, after.get? id = some later

section Placing

variable {source : SourceFile}

theorem get?_add {tree : ScopeTree} {parent : StatementId} {above leaf : Statement}
    (aboveAt : tree.get? parent = some above) (bare : leaf.children = []) :
    (tree.add parent leaf).get? = View.grow tree.get? tree.nextId parent leaf := by
  have settled := @settled_add tree [] parent leaf (by simp) (by simp)
    (lt_nextId_of_get? aboveAt) bare
  simpa only [settled_nil] using settled

theorem Extends.trans {first second third : ScopeTree} (left : Extends source first second)
    (right : Extends source second third) : Extends source first third := by
  refine ⟨right.ofUnit, ?_⟩
  intro id statement found
  obtain ⟨middle, middleAt⟩ := left.live found
  exact right.live middleAt

theorem ReadFrom.relink {statement : Statement} (readFrom : ReadFrom source statement)
    (parent : Option StatementId) (children : List StatementId) :
    ReadFrom source { statement with parent, children } :=
  ⟨readFrom.located, readFrom.content, readFrom.qualifier, readFrom.titled, readFrom.headed⟩

theorem UnitTree.add {tree : ScopeTree} (ofUnit : UnitTree source tree) {parent : StatementId}
    {above leaf : Statement} (aboveAt : tree.get? parent = some above)
    (readFrom : ReadFrom source leaf) (bare : leaf.children = []) :
    Extends source tree (tree.add parent leaf) := by
  have grown := get?_add aboveAt bare
  have vacant : tree.get? tree.nextId = none := get?_eq_none_of_nextId_le (Nat.le_refl _)
  refine ⟨⟨?_, ?_, ?_⟩, ?_⟩
  · rw [ScopeTree.WellFormed, grown]
    exact View.WellFormed.grow ofUnit.formed vacant aboveAt
  · intro id statement found
    rw [grown] at found
    rcases View.grow_eq_some found with ⟨_, rfl⟩ | ⟨_, before, beforeAt, ⟨_, rfl⟩ | ⟨_, rfl⟩⟩
    · exact readFrom.relink _ _
    · exact (ofUnit.readFrom beforeAt).relink _ _
    · exact ofUnit.readFrom beforeAt
  · intro statement found
    rw [grown] at found
    rcases View.grow_eq_some found with ⟨same, _⟩ | ⟨_, before, beforeAt, ⟨_, rfl⟩ | ⟨_, rfl⟩⟩
    · have positive := root_lt_nextId ofUnit.formed
      rw [← same] at positive
      exact absurd positive (Nat.lt_irrefl _)
    · have isGlobal := ofUnit.top beforeAt
      exact isGlobal
    · exact ofUnit.top beforeAt
  · intro id statement found
    obtain ⟨later, laterAt, _⟩ := View.exists_grow parent leaf vacant found
    exact ⟨later, by rw [grown, laterAt]⟩

mutual

theorem place_extends : ∀ (outline : Outline) (parent : StatementId) (tree : ScopeTree)
    (above : Statement), OutlineIn source outline → UnitTree source tree →
    tree.get? parent = some above →
    Extends source tree (Outline.place source.language parent outline tree)
  | .node kind location content children, parent, tree, above, outlineIn, ofUnit, aboveAt => by
    rw [Outline.place]
    cases outlineIn with
    | node readFrom below =>
      have added := ofUnit.add aboveAt readFrom rfl
      obtain ⟨leaf, leafAt⟩ : ∃ leaf, (tree.add parent
          (.detached kind source.language [location] content)).get? tree.nextId = some leaf := by
        rw [get?_add aboveAt rfl]
        exact ⟨_, View.grow_self⟩
      exact added.trans (placeAll_extends children tree.nextId _ _ below added.ofUnit leafAt)

theorem placeAll_extends : ∀ (outlines : List Outline) (parent : StatementId) (tree : ScopeTree)
    (above : Statement), OutlinesIn source outlines → UnitTree source tree →
    tree.get? parent = some above →
    Extends source tree (Outline.placeAll source.language parent outlines tree)
  | [], parent, tree, above, _, ofUnit, _ => by
    rw [Outline.placeAll]
    exact ⟨ofUnit, fun found => ⟨_, found⟩⟩
  | outline :: rest, parent, tree, above, outlinesIn, ofUnit, aboveAt => by
    rw [Outline.placeAll]
    have first := place_extends outline parent tree above (outlinesIn outline List.mem_cons_self)
      ofUnit aboveAt
    obtain ⟨later, laterAt⟩ := first.live aboveAt
    exact first.trans (placeAll_extends rest parent _ later
      (fun other member => outlinesIn other (List.mem_cons_of_mem _ member)) first.ofUnit laterAt)

end

theorem single_unitTree {top : Statement} (readFrom : ReadFrom source top)
    (isGlobal : top.kind = .global) (free : top.parent = none) (bare : top.children = []) :
    UnitTree source ⟨#[some top]⟩ := by
  refine ⟨single_wellFormed free bare, ?_, ?_⟩
  · intro id statement found
    exact (get?_single found).2 ▸ readFrom
  · intro statement found
    exact (get?_single found).2 ▸ isGlobal

end Placing

section Units

variable {language : Language} {element : Element} {unit : ScopeTree}

theorem readAs_unitTree (parsed : readAs language element = .ok unit) :
    ∃ file, element.filename? = some file ∧ UnitTree ⟨file, language⟩ unit := by
  unfold readAs at parsed
  split at parsed
  · simp at parsed
  · split at parsed
    · simp at parsed
    · rename_i file named
      refine ⟨file, named, ?_⟩
      simp only [Except.ok.injEq] at parsed
      have runs := @statementRuns_in ⟨file, language⟩ element.children
        (SourceFile.topLevel ⟨file, language⟩)
      have top : ReadFrom ⟨file, language⟩ (.detached .global language
          [{ Location.span file element.head.start .unbounded with
            locator := some element.head.locator }] []) := readFrom_plain rfl rfl .nil (.nil _)
      rw [← parsed]
      exact (placeAll_extends _ root _ _ runs.all (single_unitTree top rfl rfl rfl) rfl).ofUnit

theorem ReadFrom.ofFile {source : SourceFile} {statement : Statement}
    (readFrom : ReadFrom source statement) : OfFile source.name statement := by
  obtain ⟨location, only, here, scopes⟩ := readFrom.located
  constructor
  · intro other member
    rw [only, List.mem_singleton] at member
    rw [member, here]
  · simp [only]
  · exact fun expression member =>
      (Expression.fromFile_iff.mp (readFrom.content expression member)).1
  · intro scope found
    obtain ⟨facet, facets, facetFile, _⟩ := scopes scope found
    exact ⟨facet, facets, facetFile⟩
  · intro scope found
    obtain ⟨facet, facets, _, flag, _⟩ := scopes scope found
    refine ⟨location, only, fun other member => ?_⟩
    rw [facets, List.mem_singleton] at member
    rw [member, flag]
  · exact fun scope qualifier found pending => (readFrom.qualifier scope qualifier found pending).2.2

theorem readAs_fileTree (parsed : readAs language element = .ok unit) :
    ∃ file, element.filename? = some file ∧ FileTree file unit := by
  obtain ⟨file, named, ofUnit⟩ := readAs_unitTree parsed
  exact ⟨file, named, ofUnit.formed, fun found => (ofUnit.readFrom found).ofFile, ofUnit.top⟩

/-- Every unit that can be read gives one tree below a global namespace. Each statement was seen at
one location, and whatever it holds, at any depth, is of the file that the unit names. A named scope
has one facet, which is a reference exactly where the location is one. A pending qualifier has
segments, all with names, and stands only in C and C++. -/
theorem unit_seen_in_one_file (parsed : readAs language element = .ok unit) :
    ∃ file, element.filename? = some file ∧ unit.WellFormed ∧
      (∃ top, unit.get? root = some top ∧ top.kind = .global) ∧
      ∀ id statement, unit.get? id = some statement →
        ∃ location, statement.locations = [location] ∧ location.file = file ∧
          (∀ expression ∈ statement.content, ∀ part ∈ expression.subtree,
            part.location.file = file ∧
              ∀ segment ∈ part.kind.segments, segment.location.file = file) ∧
          ∀ scope, statement.scope? = some scope →
            (∃ facet : Facet, scope.facets = [facet] ∧ facet.file = file ∧
              facet.isReference = location.isReference ∧ facet.definition.FromFile file) ∧
            ∀ qualifier, scope.qualifier = some qualifier → qualifier.segments ≠ [] ∧
              (∀ segment ∈ qualifier.segments, segment.location.file = file ∧ segment.name ≠ "") ∧
              (language = .c ∨ language = .cPlusPlus) := by
  obtain ⟨file, named, ofUnit⟩ := readAs_unitTree parsed
  obtain ⟨top, topAt, _⟩ := ofUnit.formed.top
  refine ⟨file, named, ofUnit.formed, ⟨top, topAt, ofUnit.top topAt⟩, ?_⟩
  intro id statement found
  obtain ⟨⟨location, only, here, scopes⟩, content, pending⟩ := ofUnit.readFrom found
  refine ⟨location, only, here, ?_, ?_⟩
  · intro expression member part inside
    obtain ⟨place, segments⟩ := content expression member part inside
    exact ⟨place, fun segment written => (segments segment written).1⟩
  · intro scope scopeAt
    refine ⟨scopes scope scopeAt, fun qualifier qualifierAt => ?_⟩
    obtain ⟨family, inhabited, segments⟩ := pending scope qualifier scopeAt qualifierAt
    refine ⟨inhabited, segments, ?_⟩
    cases language with
    | c => exact .inl rfl
    | cPlusPlus => exact .inr rfl
    | cSharp => simp [Language.isCFamily] at family
    | java => simp [Language.isCFamily] at family

end Units

def qualifiedNode (outer inner locator : String) : Node :=
  .element (.make "name" [] locator)
    [.element (.make "name" [] (locator ++ "/name[1]")) [.text outer],
      .element (.make "operator" [] (locator ++ "/operator[1]")) [.text "::"],
      .element (.make "name" [] (locator ++ "/name[2]")) [.text inner]]

def memberCallUnit (file : String) : Element :=
  ⟨.make "unit" [("filename", file)] "/unit",
    [.element (.make "function" [] "/unit/function[1]")
      [qualifiedNode "A" "f" "/unit/function[1]/name[1]",
        .element (.make "block" [] "/unit/function[1]/block[1]")
          [.element (.make "expr_stmt" [] "/unit/function[1]/block[1]/expr_stmt[1]")
            [.element (.make "expr" [] "/unit/function[1]/block[1]/expr_stmt[1]/expr[1]")
              [.element (.make "name" [] "/b") [.text "b"],
                .element (.make "operator" [] "/dot") [.text "."],
                .element (.make "call" [] "/call")
                  [.element (.make "name" [] "/call/name[1]") [.text "c"],
                    .element (.make "argument_list" [] "/call/list")
                      [.element (.make "argument" [] "/call/list/argument[1]")
                        [.element (.make "expr" [] "/call/list/argument[1]/expr[1]")
                          [qualifiedNode "N" "d" "/call/list/argument[1]/expr[1]/name[1]"]]]]]]]]]⟩

theorem unit_seen_in_one_file_member_call :
    let unit := (readAs .cPlusPlus (memberCallUnit "a.cpp")).toOption.getD (.empty .cPlusPlus)
    readAs .cPlusPlus (memberCallUnit "a.cpp") = .ok unit ∧ unit.WellFormed ∧
      (∃ statement scope qualifier, unit.get? 1 = some statement ∧
        statement.scope? = some scope ∧ scope.qualifier = some qualifier ∧
        qualifier.names = ["A"] ∧ ∀ segment ∈ qualifier.segments, segment.location.file = "a.cpp") ∧
      ∃ statement, unit.get? 2 = some statement ∧
        (statement.content.flatMap Expression.subtree).length = 3 ∧
        ∀ expression ∈ statement.content, ∀ part ∈ expression.subtree,
          part.location.file = "a.cpp" := by
  intro unit
  have parsed : readAs .cPlusPlus (memberCallUnit "a.cpp") = .ok unit := rfl
  have written : ((unit.scope? 1).bind NamedScope.qualifier).map Qualifier.names = some ["A"] := by
    decide +kernel
  have body : (unit.get? 2).map (fun inner =>
      (inner.content.flatMap Expression.subtree).length) = some 3 := by
    decide +kernel
  obtain ⟨file, named, formed, _, each⟩ := unit_seen_in_one_file parsed
  obtain rfl : "a.cpp" = file := Option.some.inj named
  obtain ⟨qualifier, pendingAt, names⟩ := Option.map_eq_some_iff.mp written
  obtain ⟨scope, methodAt, qualifierAt⟩ := Option.bind_eq_some_iff.mp pendingAt
  obtain ⟨statement, found, scopeAt⟩ := Option.bind_eq_some_iff.mp methodAt
  obtain ⟨_, _, _, _, scopes⟩ := each 1 statement found
  have pending := ((scopes scope scopeAt).2 qualifier qualifierAt).2.1
  obtain ⟨inner, innerAt, parts⟩ := Option.map_eq_some_iff.mp body
  obtain ⟨_, _, _, expressions, _⟩ := each 2 inner innerAt
  exact ⟨parsed, formed, ⟨statement, scope, qualifier, found, scopeAt, qualifierAt, names,
      fun segment member => (pending segment member).1⟩,
    inner, innerAt, parts, fun expression member part inside =>
      (expressions expression member part inside).1⟩

end ScopeAtlas
