import ScopeAtlas.Proofs.UnplacedStatements

/-!
The two forms in which a chain of `if`, `else if` and `else` is marked up. In one form the clauses
stand one behind the other in an `if_stmt`, and reading goes along them while the statement that the
next one belongs to is moved on. In the other form each clause is an `if` that holds the next one in
its `else`, and reading follows the nesting. Whatever the clauses are, both forms give the same
statements.

Main statement: `conditional_forms_agree`.
-/

namespace ScopeAtlas.SourceUnit

open Markup

/-! ### Clauses and their two forms -/

structure Named (name : String) where
  element : Element
  named : element.name = name

structure Clause where
  condition : Named "condition"
  block : Named "block"

structure Conditional where
  first : Clause
  others : List Clause
  last : Option (Named "block")

/-- The same element but for places. -/
def Copy (original copy : Element) : Prop :=
  copy.unplaced = original.unplaced

def contents (element : Element) : List Element :=
  element.elements.filter fun child => child.name != "comment"

structure Holds (name : String) (element : Element) (parts : List Element) : Prop where
  named : element.name = name
  ordinary : element.head.isPreprocessor = false
  contents : contents element = parts

inductive Behind : List Clause → Option (Named "block") → List Element → Prop
  | nothing : Behind [] none []
  | alternative {last : Named "block"} {element block : Element}
      (holds : Holds "else" element [block]) (sameBlock : Copy last.element block) :
      Behind [] (some last) [element]
  | clause {clause : Clause} {others : List Clause} {last : Option (Named "block")}
      {element condition block : Element} {rest : List Element}
      (holds : Holds "if" element [condition, block])
      (marked : element.attribute? "type" = some "elseif")
      (sameCondition : Copy clause.condition.element condition)
      (sameBlock : Copy clause.block.element block) (behind : Behind others last rest) :
      Behind (clause :: others) last (element :: rest)

/-- The form with one clause behind the other. -/
inductive ChainForm : Conditional → Element → Prop
  | mk {first : Clause} {others : List Clause} {last : Option (Named "block")}
      {chain element condition block : Element} {rest : List Element}
      (chained : Holds "if_stmt" chain (element :: rest))
      (holds : Holds "if" element [condition, block])
      (sameCondition : Copy first.condition.element condition)
      (sameBlock : Copy first.block.element block) (behind : Behind others last rest) :
      ChainForm ⟨first, others, last⟩ chain

/-- The form in which the `else` of a clause holds the next one. -/
inductive NestedForm : Conditional → Element → Prop
  | alone {first : Clause} {element condition consequence block : Element}
      (holds : Holds "if" element [condition, consequence])
      (consequent : Holds "then" consequence [block])
      (sameCondition : Copy first.condition.element condition)
      (sameBlock : Copy first.block.element block) :
      NestedForm ⟨first, [], none⟩ element
  | alternative {first : Clause} {last : Named "block"}
      {element condition consequence block alternative lastBlock : Element}
      (holds : Holds "if" element [condition, consequence, alternative])
      (consequent : Holds "then" consequence [block])
      (sameCondition : Copy first.condition.element condition)
      (sameBlock : Copy first.block.element block)
      (otherwise : Holds "else" alternative [lastBlock])
      (sameLast : Copy last.element lastBlock) :
      NestedForm ⟨first, [], some last⟩ element
  | clause {first next : Clause} {others : List Clause} {last : Option (Named "block")}
      {element condition consequence block alternative nested : Element}
      (holds : Holds "if" element [condition, consequence, alternative])
      (consequent : Holds "then" consequence [block])
      (sameCondition : Copy first.condition.element condition)
      (sameBlock : Copy first.block.element block)
      (otherwise : Holds "else" alternative [nested])
      (inside : NestedForm ⟨next, others, last⟩ nested) :
      NestedForm ⟨first, next :: others, last⟩ element

/-! ### What a conditional stands for -/

section Meaning

variable (source : SourceFile) (around : Surroundings)

def blockOutlines (block : Named "block") : List Outline :=
  (statementRuns source around block.element.children).all.map Outline.unplaced

def Clause.outline (clause : Clause) (alternatives : List Outline) : Outline :=
  .node .ifBranch default
    ((expressionsIn source.name clause.condition.element).map Expression.unplaced)
    (.node .block default [] (blockOutlines source around clause.block) :: alternatives)

def alternatives (last : Option (Named "block")) : List Clause → List Outline
  | [] => (last.map fun block =>
      .node .elseBranch default [] (blockOutlines source around block)).toList
  | next :: others =>
    [.node .elseBranch default [] [next.outline source around (alternatives last others)]]

def Conditional.outline (conditional : Conditional) : Outline :=
  conditional.first.outline source around
    (alternatives source around conditional.last conditional.others)

end Meaning

/-! ### Reading past text and comments -/

section Contents

variable {source : SourceFile} {around : Surroundings}

theorem Copy.name {original copy : Element} (same : Copy original copy) :
    copy.name = original.name := by
  simpa using congrArg Element.name same

theorem child?_eq_find?_contents (element : Element) {name : String} (other : name ≠ "comment") :
    element.child? name = (contents element).find? fun child => child.name == name := by
  rw [contents, List.find?_filter, Element.child?]
  congr 1
  funext child
  by_cases asked : child.name = name
  · simp [asked, other]
  · simp [asked]

/-- Text has no part in a statement, and neither has a comment where it is skipped. -/
theorem parts_eq_flatMap_contents {treat : String → Treatment} (skips : treat "comment" = .skip)
    (element : Element) :
    parts source around treat element.children =
      (contents element).flatMap fun part =>
        outlines source around (treat part.name) part.toNode := by
  obtain ⟨head, children⟩ := element
  simp only [contents, Element.elements]
  induction children with
  | nil => rw [parts]; rfl
  | cons node rest ih =>
    rw [parts, ih]
    cases node with
    | text content => rw [outlines]; rfl
    | element inner below =>
      by_cases comment : inner.name = "comment"
      · simp [Node.element?, Element.name, comment, treatmentOf, skips, outlines]
      · simp [Node.element?, Element.name, comment, treatmentOf, Element.toNode]

theorem chainRuns_eq_contents (element : Element) : ∀ follows : Bool,
    chainRuns source around follows element.children =
      chainRuns source around follows ((contents element).map Element.toNode) := by
  obtain ⟨head, children⟩ := element
  simp only [contents, Element.elements]
  induction children with
  | nil => exact fun _ => rfl
  | cons node rest ih =>
    intro follows
    cases node with
    | text content =>
      rw [chainRuns, ih]
      rfl
    | element inner below =>
      by_cases comment : inner.name = "comment"
      · simp [Node.element?, Element.name, comment, chainRuns, ih]
      · simp [Node.element?, Element.name, comment, Element.toNode, chainRuns, ih]

theorem unplaced_block_copy {block : Named "block"} {copy : Element}
    (same : Copy block.element copy) :
    (statementRuns source around copy.children).all.map Outline.unplaced =
      blockOutlines source around block :=
  statementRuns_same around (congrArg Element.children same)

theorem unplaced_condition {condition : Named "condition"} {element copy : Element}
    {rest : List Element} (held : contents element = copy :: rest)
    (same : Copy condition.element copy) :
    (expressionsOfChild source.name element "condition").map Expression.unplaced =
      (expressionsIn source.name condition.element).map Expression.unplaced := by
  have named : copy.name = "condition" := same.name.trans condition.named
  rw [expressionsOfChild, child?_eq_find?_contents element (by decide), held]
  simp only [List.find?_cons, named, beq_self_eq_true, Option.map_some, Option.getD_some]
  rw [← unplaced_expressionsIn copy, same, unplaced_expressionsIn]

theorem unplaced_body {name : String} {block : Named "block"} {element copy : Element}
    (holds : Holds name element [copy]) (same : Copy block.element copy) :
    (parts source around .ofBodyPart element.children).map Outline.unplaced =
      blockOutlines source around block := by
  rw [parts_eq_flatMap_contents rfl, holds.contents, List.flatMap_singleton,
    same.name.trans block.named, Element.toNode,
    show Treatment.ofBodyPart "block" = .open from rfl, outlines]
  exact unplaced_block_copy same

theorem unplaced_conditionalParts {clause : Clause} {element condition : Element}
    {rest : List Element} (holds : Holds "if" element (condition :: rest))
    (same : Copy clause.condition.element condition) :
    parts source around .ofConditionalPart element.children =
      rest.flatMap fun part =>
        outlines source around (Treatment.ofConditionalPart part.name) part.toNode := by
  rw [parts_eq_flatMap_contents rfl, holds.contents, List.flatMap_cons,
    same.name.trans clause.condition.named, Element.toNode,
    show Treatment.ofConditionalPart "condition" = .skip from rfl, outlines, List.nil_append]

theorem unplaced_branch {kind : StatementKind} {element : Element} (other : element.name ≠ "block") :
    (outlines source around (.branch kind) element.toNode).map Outline.unplaced =
      [.node kind.unplaced default []
        ((parts source around .ofBodyPart element.children).map Outline.unplaced)] := by
  have named : (element.head.name == "block") = false := beq_eq_false_iff_ne.mpr other
  rw [Element.toNode]
  simp only [outlines, named, Bool.false_eq_true, if_false, List.map_singleton,
    Outline.unplaced_node, List.map_nil]

theorem unplaced_else {element : Element} {held : List Element}
    (holds : Holds "else" element held) :
    (outlines source around (Treatment.ofConditionalPart element.name) element.toNode).map
        Outline.unplaced =
      [.node .elseBranch default []
        ((parts source around .ofBodyPart element.children).map Outline.unplaced)] := by
  rw [holds.named]
  exact unplaced_branch (by simp [holds.named])

theorem unplaced_then {block : Named "block"} {element copy : Element}
    (holds : Holds "then" element [copy]) (same : Copy block.element copy) :
    (outlines source around (Treatment.ofConditionalPart element.name) element.toNode).map
        Outline.unplaced =
      [.node .block default [] (blockOutlines source around block)] := by
  rw [holds.named, ← unplaced_body holds same]
  exact unplaced_branch (by simp [holds.named])

theorem unplaced_guarded {block : Named "block"} {copy : Element}
    (same : Copy block.element copy) :
    (outlines source around (Treatment.ofConditionalPart copy.name) copy.toNode).map
        Outline.unplaced =
      [.node .block default [] (blockOutlines source around block)] := by
  have named : copy.head.name = "block" := same.name.trans block.named
  rw [show copy.name = "block" from named, Element.toNode, Treatment.ofConditionalPart]
  simp only [outlines, named, beq_self_eq_true, if_true, List.map_singleton,
    Outline.unplaced_node, List.map_nil, unplaced_block_copy same]
  rfl

/-! ### One clause behind the other -/

theorem unplaced_clause {clause : Clause} {element condition block : Element} {location : Location}
    (holds : Holds "if" element [condition, block])
    (sameCondition : Copy clause.condition.element condition)
    (sameBlock : Copy clause.block.element block) (run : List Outline) :
    (Outline.node .ifBranch location (expressionsOfChild source.name element "condition")
        (parts source around .ofConditionalPart element.children ++ run)).unplaced =
      clause.outline source around (run.map Outline.unplaced) := by
  rw [Outline.unplaced_node, unplaced_condition holds.contents sameCondition, List.map_append,
    unplaced_conditionalParts holds sameCondition, List.flatMap_singleton,
    unplaced_guarded sameBlock]
  rfl

theorem unplaced_behind {others : List Clause} {last : Option (Named "block")} {rest : List Element}
    (behind : Behind others last rest) :
    (chainRuns source around true (rest.map Element.toNode)).unplaced =
      ⟨alternatives source around last others, []⟩ := by
  induction behind with
  | nothing => rfl
  | @alternative last element block holds sameBlock =>
    have named : element.head.name = "else" := holds.named
    simp only [List.map_cons, List.map_nil, Element.toNode, chainRuns, named, if_true,
      Runs.unplaced, Runs.none, Outline.unplaced_node, unplaced_body holds sameBlock]
    rfl
  | @clause clause others last element condition block rest holds marked sameCondition sameBlock
      behind ih =>
    have named : element.head.name = "if" := holds.named
    have marked : element.head.attribute? "type" = some "elseif" := marked
    obtain ⟨run, later⟩ := Runs.mk.inj ih
    simp only [List.map_cons, Element.toNode, chainRuns, named, marked, beq_self_eq_true,
      Bool.and_self, if_true, Runs.unplaced, later, List.map_nil]
    rw [Outline.unplaced_node, List.map_singleton, unplaced_clause holds sameCondition sameBlock,
      run]
    rfl

theorem unplaced_chain {conditional : Conditional} {chain : Element}
    (form : ChainForm conditional chain) :
    (outlines source around .whole chain.toNode).map Outline.unplaced =
      [conditional.outline source around] := by
  obtain ⟨chained, holds, sameCondition, sameBlock, behind⟩ := form
  rename_i first others last element condition block rest
  have construct : Construct.ofName chain.head.name = .conditionalChain := by
    rw [show chain.head.name = "if_stmt" from chained.named]
    rfl
  have named : element.head.name = "if" := holds.named
  obtain ⟨run, later⟩ := Runs.mk.inj (@unplaced_behind source around _ _ _ behind)
  rw [Element.toNode, outlines]
  simp only [chained.ordinary, Bool.false_eq_true, if_false, construct,
    chainRuns_eq_contents, chained.contents, List.map_cons, Element.toNode, chainRuns, named,
    Bool.false_and, Runs.all, List.nil_append]
  rw [unplaced_clause holds sameCondition sameBlock, run, later]
  rfl

/-! ### One clause inside the other -/

theorem unplaced_if {clause : Clause} {element condition : Element} {rest : List Element}
    (holds : Holds "if" element (condition :: rest))
    (sameCondition : Copy clause.condition.element condition) :
    (outlines source around .whole element.toNode).map Outline.unplaced =
      [.node .ifBranch default
        ((expressionsIn source.name clause.condition.element).map Expression.unplaced)
        (rest.flatMap fun part => (outlines source around (Treatment.ofConditionalPart part.name)
          part.toNode).map Outline.unplaced)] := by
  have construct : Construct.ofName element.head.name = .conditional := by
    rw [show element.head.name = "if" from holds.named]
    rfl
  have parts := @unplaced_conditionalParts source around _ _ _ _ holds sameCondition
  rw [Element.toNode, outlines]
  simp only [holds.ordinary, Bool.false_eq_true, if_false, construct]
  rw [List.map_singleton, Outline.unplaced_node, unplaced_condition holds.contents sameCondition,
    parts, List.map_flatMap]
  rfl

theorem NestedForm.named {conditional : Conditional} {nested : Element}
    (form : NestedForm conditional nested) : nested.name = "if" := by
  cases form with
  | alone holds => exact holds.named
  | alternative holds => exact holds.named
  | clause holds => exact holds.named

theorem unplaced_nested {conditional : Conditional} {nested : Element}
    (form : NestedForm conditional nested) :
    (outlines source around .whole nested.toNode).map Outline.unplaced =
      [conditional.outline source around] := by
  induction form with
  | alone holds consequent sameCondition sameBlock =>
    simp only [unplaced_if holds sameCondition, List.flatMap_cons, List.flatMap_nil,
      List.append_nil, unplaced_then consequent sameBlock]
    rfl
  | alternative holds consequent sameCondition sameBlock otherwise sameLast =>
    simp only [unplaced_if holds sameCondition, List.flatMap_cons, List.flatMap_nil,
      List.append_nil, unplaced_then consequent sameBlock, unplaced_else otherwise,
      unplaced_body otherwise sameLast]
    rfl
  | clause holds consequent sameCondition sameBlock otherwise inside ih =>
    simp only [unplaced_if holds sameCondition, List.flatMap_cons, List.flatMap_nil,
      List.append_nil, unplaced_then consequent sameBlock, unplaced_else otherwise,
      parts_eq_flatMap_contents (show Treatment.ofBodyPart "comment" = .skip from rfl),
      otherwise.contents, inside.named]
    rw [show Treatment.ofBodyPart "if" = .whole from rfl, ih]
    rfl

/-- The two forms of a conditional stand for the same statement but for places: the one that its
clauses describe. Wherever it is added to a tree, the trees are the same but for locations. -/
theorem conditional_forms_agree (source : SourceFile) (around : Surroundings)
    {conditional : Conditional} {chain nested : Element} (chained : ChainForm conditional chain)
    (within : NestedForm conditional nested) :
    (outlines source around .whole chain.toNode).map Outline.unplaced =
        [conditional.outline source around] ∧
      (outlines source around .whole nested.toNode).map Outline.unplaced =
        [conditional.outline source around] ∧
      ∀ (language : Language) (parent : StatementId) (tree : ScopeTree),
        (Outline.placeAll language parent (outlines source around .whole chain.toNode)
            tree).unplaced =
          (Outline.placeAll language parent (outlines source around .whole nested.toNode)
            tree).unplaced := by
  have first := @unplaced_chain source around _ _ chained
  have second := @unplaced_nested source around _ _ within
  exact ⟨first, second, fun language => Outline.placeAll_same (first.trans second.symm)⟩

end Contents

/-! A conditional of two clauses and an `else`, in both forms. -/

def placedElement (name : String) (attributes : List (String × String)) (locator place : String)
    (children : List Node) : Element :=
  ⟨⟨name, none, ("pos:start", place) :: attributes, ⟨1, 1⟩, .unbounded, locator, true, false⟩,
    children⟩

def nameCondition (name locator place : String) : Named "condition" where
  element := placedElement "condition" [] locator place
    [.text "(", (placedElement "name" [] (locator ++ "/name[1]") place [.text name]).toNode,
      .text ")"]
  named := rfl

def jumpBlock (jump locator place : String) : Named "block" where
  element := placedElement "block" [] locator place
    [(placedElement jump [] (locator ++ "/" ++ jump ++ "[1]") place
      [.text jump, .text ";"]).toNode]
  named := rfl

def jumps : Conditional where
  first := ⟨nameCondition "a" "/condition[1]" "1:1", jumpBlock "break" "/block[1]" "1:1"⟩
  others := [⟨nameCondition "b" "/condition[2]" "1:1", jumpBlock "return" "/block[2]" "1:1"⟩]
  last := some (jumpBlock "continue" "/block[3]" "1:1")

def jumpsChain : Element :=
  placedElement "if_stmt" [] "/if_stmt[1]" "1:1"
    [(placedElement "if" [] "/if_stmt[1]/if[1]" "1:1"
      [.text "if ", (nameCondition "a" "/if_stmt[1]/if[1]/condition[1]" "1:4").element.toNode,
        (jumpBlock "break" "/if_stmt[1]/if[1]/block[1]" "1:8").element.toNode]).toNode,
      .text " ",
      (placedElement "if" [("type", "elseif")] "/if_stmt[1]/if[2]" "1:19"
        [.text "else if ",
          (nameCondition "b" "/if_stmt[1]/if[2]/condition[1]" "1:27").element.toNode,
          (jumpBlock "return" "/if_stmt[1]/if[2]/block[1]" "1:31").element.toNode]).toNode,
      (placedElement "comment" [] "/if_stmt[1]/comment[1]" "1:43" [.text "// next"]).toNode,
      (placedElement "else" [] "/if_stmt[1]/else[1]" "2:1"
        [.text "else ",
          (jumpBlock "continue" "/if_stmt[1]/else[1]/block[1]" "2:6").element.toNode]).toNode]

def jumpsNested : Element :=
  placedElement "if" [] "/if[1]" "1:1"
    [.text "if ", (nameCondition "a" "/if[1]/condition[1]" "1:4").element.toNode,
      (placedElement "then" [] "/if[1]/then[1]" "1:8"
        [(jumpBlock "break" "/if[1]/then[1]/block[1]" "1:8").element.toNode]).toNode,
      (placedElement "else" [] "/if[1]/else[1]" "1:19"
        [.text "else ", (placedElement "if" [] "/if[1]/else[1]/if[1]" "1:24"
          [.text "if ",
            (nameCondition "b" "/if[1]/else[1]/if[1]/condition[1]" "1:27").element.toNode,
            (placedElement "then" [] "/if[1]/else[1]/if[1]/then[1]" "1:31"
              [(jumpBlock "return" "/if[1]/else[1]/if[1]/then[1]/block[1]"
                "1:31").element.toNode]).toNode,
            (placedElement "else" [] "/if[1]/else[1]/if[1]/else[1]" "2:1"
              [.text "else ", (jumpBlock "continue" "/if[1]/else[1]/if[1]/else[1]/block[1]"
                "2:6").element.toNode]).toNode]).toNode]).toNode]

theorem jumps_forms_agree :
    ChainForm jumps jumpsChain ∧ NestedForm jumps jumpsNested ∧
      (outlines ⟨"jumps.c", .c⟩ .plain .whole jumpsChain.toNode).map Outline.unplaced =
        [jumps.outline ⟨"jumps.c", .c⟩ .plain] ∧
      (outlines ⟨"jumps.c", .c⟩ .plain .whole jumpsNested.toNode).map Outline.unplaced =
        [jumps.outline ⟨"jumps.c", .c⟩ .plain] := by
  have chained : ChainForm jumps jumpsChain :=
    .mk ⟨rfl, rfl, rfl⟩ ⟨rfl, rfl, rfl⟩ rfl rfl
      (.clause ⟨rfl, rfl, rfl⟩ rfl rfl rfl (.alternative ⟨rfl, rfl, rfl⟩ rfl))
  have within : NestedForm jumps jumpsNested :=
    .clause ⟨rfl, rfl, rfl⟩ ⟨rfl, rfl, rfl⟩ rfl rfl ⟨rfl, rfl, rfl⟩
      (.alternative ⟨rfl, rfl, rfl⟩ ⟨rfl, rfl, rfl⟩ rfl rfl ⟨rfl, rfl, rfl⟩ rfl)
  have agree := conditional_forms_agree ⟨"jumps.c", .c⟩ .plain chained within
  exact ⟨chained, within, agree.1, agree.2.1⟩

end ScopeAtlas.SourceUnit
