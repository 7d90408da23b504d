import ScopeAtlas.Expression.Walk
import ScopeAtlas.SourceUnit.Statement

/-!
What the elements of a unit spell. Names, types, expressions and definitions are read from markup
by functions that follow its nesting and then move parts about: receivers are gathered from the
parts in front of a call, and a declarator may repeat the type of the one before it. Whatever the
markup is, each location in the result, at any depth, is in the file of the unit, and each segment
of a qualifier has a name.
-/

namespace ScopeAtlas

open Markup SourceUnit

/-! The segments that are written in a type and in one part of an expression. -/

def Qualifier.segmentsOf (qualifier : Option Qualifier) : List Segment :=
  qualifier.toList.flatMap Qualifier.segments

mutual

def TypeUse.segments : TypeUse → List Segment
  | ⟨_, qualifier, arguments⟩ => Qualifier.segmentsOf qualifier ++ TypeUse.segmentsOfAll arguments

def TypeUse.segmentsOfAll : List TypeUse → List Segment
  | [] => []
  | first :: rest => first.segments ++ TypeUse.segmentsOfAll rest

end

def ExpressionKind.segments : ExpressionKind → List Segment
  | .name use => Qualifier.segmentsOf use.qualifier
  | .type use => use.segments
  | .call invoked =>
    Qualifier.segmentsOf invoked.qualifier ++ invoked.typeArguments.flatMap TypeUse.segments
  | .declaration declared => declared.type.toList.flatMap TypeUse.segments
  | .compound | .literal _ | .operator _ => []

def SegmentIn (file : String) (segment : Segment) : Prop :=
  segment.location.file = file ∧ segment.name ≠ ""

def TypeUse.FromFile (file : String) (use : TypeUse) : Prop :=
  ∀ segment ∈ use.segments, SegmentIn file segment

def Expression.FromFile (file : String) (expression : Expression) : Prop :=
  ∀ part ∈ expression.subtree, part.location.file = file ∧
    ∀ segment ∈ part.kind.segments, SegmentIn file segment

structure Variable.FromFile (file : String) (declared : Variable) : Prop where
  type : ∀ use ∈ declared.type, use.FromFile file
  initializer : ∀ value ∈ declared.initializer, value.FromFile file

def Definition.FromFile (file : String) : Definition → Prop
  | .typeScope type => ∀ use ∈ type.parents, use.FromFile file
  | .methodScope method => (∀ use ∈ method.returnType, use.FromFile file) ∧
      ∀ parameter ∈ method.parameters, parameter.FromFile file
  | .namespaceScope _ | .placeholder => True

namespace SourceUnit

def AllFrom (file : String) (expressions : List Expression) : Prop :=
  ∀ expression ∈ expressions, expression.FromFile file

structure NamePieces.FromFile (file : String) (pieces : NamePieces) : Prop where
  segments : ∀ segment ∈ pieces.segments, SegmentIn file segment
  types : ∀ use ∈ pieces.typeArguments, use.FromFile file

end SourceUnit

section Parts

variable {file : String}

theorem segmentsOf_ofSegments? (segments : List Segment) :
    Qualifier.segmentsOf (Qualifier.ofSegments? segments) = segments := by
  cases segments with
  | nil => rfl
  | cons first rest => simp [Qualifier.segmentsOf, Qualifier.ofSegments?]

theorem segmentsOfAll_eq (uses : List TypeUse) :
    TypeUse.segmentsOfAll uses = uses.flatMap TypeUse.segments := by
  induction uses with
  | nil => simp [TypeUse.segmentsOfAll]
  | cons first rest ih => simp [TypeUse.segmentsOfAll, ih]

theorem TypeUse.fromFile_iff {use : TypeUse} : use.FromFile file ↔
    (∀ segment ∈ Qualifier.segmentsOf use.qualifier, SegmentIn file segment) ∧
      ∀ argument ∈ use.arguments, argument.FromFile file := by
  obtain ⟨name, qualifier, arguments⟩ := use
  simp only [TypeUse.FromFile, TypeUse.segments, segmentsOfAll_eq, List.forall_mem_append,
    List.mem_flatMap]
  exact and_congr_right fun _ => ⟨fun all argument member segment inside =>
    all segment ⟨argument, member, inside⟩,
    fun all segment ⟨argument, member, inside⟩ => all argument member segment inside⟩

/-- An expression is of the file when its own place and segments are and its direct parts are. -/
theorem Expression.fromFile_iff {expression : Expression} : expression.FromFile file ↔
    expression.location.file = file ∧
      (∀ segment ∈ expression.kind.segments, SegmentIn file segment) ∧
      AllFrom file expression.children := by
  rw [Expression.FromFile, subtree_eq, List.forall_mem_cons, and_assoc]
  refine and_congr_right fun _ => and_congr_right fun _ => ?_
  simp only [List.mem_flatMap, AllFrom, Expression.FromFile]
  exact ⟨fun all child member part inside => all part ⟨child, member, inside⟩,
    fun all part ⟨child, member, inside⟩ => all child member part inside⟩

theorem fromFile_name {name : String} {qualifier : Option Qualifier} {location : Location}
    (here : location.file = file)
    (path : ∀ segment ∈ Qualifier.segmentsOf qualifier, SegmentIn file segment) :
    (Expression.ofKind (.name ⟨name, qualifier⟩) location).FromFile file :=
  Expression.fromFile_iff.mpr ⟨here, path, by simp [AllFrom, Expression.children, Expression.ofKind]⟩

theorem fromFile_operator {text : String} {location : Location} (here : location.file = file) :
    (Expression.ofKind (.operator text) location).FromFile file :=
  Expression.fromFile_iff.mpr ⟨here, by simp [Expression.ofKind, ExpressionKind.segments],
    by simp [AllFrom, Expression.children, Expression.ofKind]⟩

theorem fromFile_compound {location : Location} {components : List Expression}
    (here : location.file = file) (all : AllFrom file components) :
    (Expression.compound location components).FromFile file :=
  Expression.fromFile_iff.mpr
    ⟨here, by simp [Expression.compound, ExpressionKind.segments], all⟩

theorem fromFile_call {call : Call} {location : Location} (here : location.file = file)
    (path : ∀ segment ∈ Qualifier.segmentsOf call.qualifier, SegmentIn file segment)
    (types : ∀ use ∈ call.typeArguments, use.FromFile file)
    (object : ∀ receiver ∈ call.object, receiver.FromFile file)
    (arguments : AllFrom file call.arguments) :
    (Expression.ofKind (.call call) location).FromFile file := by
  refine Expression.fromFile_iff.mpr ⟨here, ?_, ?_⟩
  · simp only [Expression.ofKind, ExpressionKind.segments, List.forall_mem_append, List.mem_flatMap]
    exact ⟨path, fun segment ⟨use, member, inside⟩ => types use member segment inside⟩
  · intro child member
    simp only [Expression.children, Expression.ofKind, List.append_nil, List.mem_append,
      Option.mem_toList] at member
    rcases member with receiver | argument
    · exact object child receiver
    · exact arguments child argument

theorem fromFile_declaration {declared : Variable} {location : Location}
    (here : location.file = file) (fromFile : declared.FromFile file) :
    (Expression.ofKind (.declaration declared) location).FromFile file := by
  refine Expression.fromFile_iff.mpr ⟨here, ?_, ?_⟩
  · simp only [Expression.ofKind, ExpressionKind.segments, List.mem_flatMap, Option.mem_toList]
    exact fun segment ⟨use, member, inside⟩ => fromFile.type use member segment inside
  · intro child member
    simp only [Expression.children, Expression.ofKind, List.nil_append, Option.mem_toList] at member
    exact fromFile.initializer child member

end Parts

namespace SourceUnit

section Lists

variable {file : String}

theorem AllFrom.nil : AllFrom file [] := by
  simp [AllFrom]

theorem AllFrom.append {left right : List Expression} (first : AllFrom file left)
    (second : AllFrom file right) : AllFrom file (left ++ right) :=
  List.forall_mem_append.mpr ⟨first, second⟩

theorem AllFrom.cons {expression : Expression} {rest : List Expression}
    (first : expression.FromFile file) (others : AllFrom file rest) :
    AllFrom file (expression :: rest) :=
  List.forall_mem_cons.mpr ⟨first, others⟩

theorem AllFrom.single {expression : Expression} (only : expression.FromFile file) :
    AllFrom file [expression] :=
  AllFrom.nil.cons only

theorem AllFrom.subset {left right : List Expression} (all : AllFrom file right)
    (inside : left ⊆ right) : AllFrom file left :=
  fun expression member => all expression (inside member)

theorem AllFrom.toList {found : Option Expression}
    (here : ∀ expression ∈ found, expression.FromFile file) : AllFrom file found.toList :=
  fun expression member => here expression (Option.mem_toList.mp member)

theorem AllFrom.flatMap {α : Type} {items : List α} {expressions : α → List Expression}
    (each : ∀ item, AllFrom file (expressions item)) : AllFrom file (items.flatMap expressions) := by
  intro expression member
  obtain ⟨item, _, inside⟩ := List.mem_flatMap.mp member
  exact each item expression inside

theorem AllFrom.filterMap {α : Type} {items : List α} {expression? : α → Option Expression}
    (each : ∀ item, ∀ expression ∈ expression? item, expression.FromFile file) :
    AllFrom file (items.filterMap expression?) := by
  intro expression member
  obtain ⟨item, _, found⟩ := List.mem_filterMap.mp member
  exact each item expression found

theorem AllFrom.optional {element : Option Element} {read : Element → List Expression}
    (each : ∀ child, AllFrom file (read child)) : AllFrom file ((element.map read).getD []) := by
  cases element with
  | none => exact .nil
  | some child => exact each child

end Lists

/-! ### Names -/

section Names

variable {file : String}

theorem fromFile_noPieces : NamePieces.none.FromFile file := by
  constructor
  · simp [NamePieces.none, NamePieces.segments]
  · simp [NamePieces.none]

theorem NamePieces.FromFile.append {left right : NamePieces} (first : left.FromFile file)
    (second : right.FromFile file) : (left.append right).FromFile file := by
  constructor
  · simp only [NamePieces.segments, NamePieces.append, List.filterMap_append,
      List.forall_mem_append]
    exact ⟨first.segments, second.segments⟩
  · exact List.forall_mem_append.mpr ⟨first.types, second.types⟩

theorem fromFile_separator (text : String) :
    (NamePieces.mk [.separator text] []).FromFile file := by
  constructor
  · simp [NamePieces.segments, NamePart.segment?]
  · simp

theorem fromFile_bareName (head : Head) (children : List Node) :
    (bareName file head children).FromFile file := by
  unfold bareName
  by_cases blank : (Text.trim (Node.textOf children) == "") = true
  · rw [if_pos blank]
    exact fromFile_noPieces
  · rw [if_neg blank]
    refine ⟨?_, by simp⟩
    intro segment member
    obtain rfl : segment = ⟨Text.trim (Node.textOf children), head.location file⟩ := by
      simpa [NamePieces.segments, NamePart.segment?] using member
    exact ⟨rfl, by simpa using blank⟩

theorem fromFile_piecesOf {head : Head} {children : List Node} {inner : NamePieces}
    (below : inner.FromFile file) : (piecesOf file head children inner).FromFile file := by
  unfold piecesOf
  split
  · exact below
  · exact fromFile_bareName head children

theorem NamePieces.FromFile.typeUse? {pieces : NamePieces} (fromFile : pieces.FromFile file) :
    ∀ use ∈ pieces.typeUse?, use.FromFile file := by
  intro use found
  obtain ⟨last, _, rfl⟩ := Option.map_eq_some_iff.mp found
  refine TypeUse.fromFile_iff.mpr ⟨?_, fromFile.types⟩
  rw [segmentsOf_ofSegments?]
  exact fun segment member => fromFile.segments segment (List.dropLast_subset _ member)

mutual

theorem fromFile_innerPieces : ∀ nodes : List Node, (innerPieces file nodes).FromFile file
  | [] => by
    rw [innerPieces]
    exact fromFile_noPieces
  | .text content :: rest => by
    have after := fromFile_innerPieces rest
    rw [innerPieces, textPieces]
    refine NamePieces.FromFile.append ?_ after
    split
    · exact fromFile_separator _
    · exact fromFile_noPieces
  | .element head children :: rest => by
    have below := fromFile_innerPieces children
    have types := fromFile_typeArguments children
    have after := fromFile_innerPieces rest
    rw [innerPieces]
    refine NamePieces.FromFile.append ?_ after
    split
    · exact fromFile_piecesOf below
    · split
      · exact fromFile_separator _
      · split
        · exact ⟨by simp [NamePieces.segments], types⟩
        · exact fromFile_noPieces

theorem fromFile_typeArguments : ∀ nodes : List Node,
    ∀ use ∈ typeArguments file nodes, use.FromFile file
  | [] => by simp [typeArguments]
  | .text _ :: rest => by
    rw [typeArguments]
    exact fromFile_typeArguments rest
  | .element head children :: rest => by
    have first := fromFile_firstType? children
    have after := fromFile_typeArguments rest
    rw [typeArguments]
    refine List.forall_mem_append.mpr ⟨?_, after⟩
    intro use member
    split at member
    · cases found : firstType? file children with
      | none => simp [found] at member
      | some type =>
        rw [found, Option.getD_some, Option.mem_toList] at member
        exact first type found use member
    · simp at member

theorem fromFile_firstType? : ∀ nodes : List Node,
    ∀ type ∈ firstType? file nodes, ∀ use ∈ type, TypeUse.FromFile file use
  | [] => by simp [firstType?]
  | .text _ :: rest => by
    rw [firstType?]
    exact fromFile_firstType? rest
  | .element head children :: rest => by
    have below := fromFile_innerPieces children
    have inner := fromFile_firstType? children
    have after := fromFile_firstType? rest
    rw [firstType?]
    intro type found
    split at found
    · obtain rfl := Option.some.inj found
      exact (fromFile_piecesOf below).typeUse?
    · split at found
      · rename_i earlier earlierAt
        exact inner type (earlierAt.trans found)
      · exact after type found

end

theorem fromFile_namePieces (name : Element) : (namePieces file name).FromFile file :=
  fromFile_piecesOf (fromFile_innerPieces name.children)

theorem fromFile_typeOf? (type : Element) : ∀ use ∈ typeOf? file type, use.FromFile file := by
  intro use found
  obtain ⟨name, _, spelled⟩ := Option.bind_eq_some_iff.mp found
  exact (fromFile_namePieces name).typeUse? use spelled

theorem segmentsIn_declaredName? {element : Element} {name : String} {before : List Segment}
    (found : declaredName? file element = some (name, before)) :
    ∀ segment ∈ before, SegmentIn file segment := by
  intro segment member
  unfold declaredName? at found
  split at found
  · simp at found
  · rename_i own _
    simp only [Option.map_eq_some_iff, Prod.mk.injEq] at found
    obtain ⟨last, _, _, rfl⟩ := found
    exact (fromFile_namePieces own).segments segment (List.dropLast_subset _ member)

theorem declaredName?_ne_empty {element : Element} {name : String} {before : List Segment}
    (found : declaredName? file element = some (name, before)) : name ≠ "" := by
  unfold declaredName? at found
  split at found
  · simp at found
  · rename_i own _
    simp only [Option.map_eq_some_iff, Prod.mk.injEq] at found
    obtain ⟨last, ends, rfl, _⟩ := found
    exact ((fromFile_namePieces own).segments last (List.mem_of_getLast? ends)).2

theorem fromFile_parentTypes : ∀ nodes : List Node,
    ∀ use ∈ parentTypes file nodes, use.FromFile file
  | [] => by simp [parentTypes]
  | .text _ :: rest => by
    rw [parentTypes]
    exact fromFile_parentTypes rest
  | .element head children :: rest => by
    have below := fromFile_parentTypes children
    have after := fromFile_parentTypes rest
    rw [parentTypes]
    refine List.forall_mem_append.mpr ⟨?_, after⟩
    intro use member
    split at member
    · exact (fromFile_namePieces _).typeUse? use (Option.mem_toList.mp member)
    · simp at member
    · simp at member
    · exact below use member

end Names

/-! ### Linking -/

section Linking

variable {file : String}

theorem takePairs_subset : ∀ parts : List Expression,
    (takePairs parts).1 ⊆ parts ∧ (takePairs parts).2 ⊆ parts
  | [] => by simp [takePairs]
  | [part] => by simp [takePairs]
  | access :: operand :: earlier => by
    obtain ⟨chain, before⟩ := takePairs_subset earlier
    unfold takePairs
    split
    · constructor
      · intro part member
        simp only [List.mem_cons] at member ⊢
        exact member.imp_right (Or.imp_right fun inside => chain inside)
      · exact fun part member => by simp [before member]
    · simp

theorem fromFile_chainExpression {first : Expression} {rest : List Expression}
    (all : AllFrom file (first :: rest)) : (chainExpression first rest).FromFile file := by
  have here := all first List.mem_cons_self
  unfold chainExpression
  split
  · exact here
  · exact fromFile_compound (Expression.fromFile_iff.mp here).1 all

theorem fromFile_takeReceiver? {parts before : List Expression} {receiver : Expression}
    (all : AllFrom file parts) (found : takeReceiver? parts = some (receiver, before)) :
    receiver.FromFile file ∧ AllFrom file before := by
  unfold takeReceiver? at found
  split at found
  · rename_i access operand earlier
    obtain ⟨chain, remaining⟩ := takePairs_subset earlier
    have earlierFrom : AllFrom file earlier := all.subset fun part member => by simp [member]
    split at found
    · simp only at found
      split at found
      · simp at found
      · rename_i first rest reversed
        simp only [Option.some.injEq, Prod.mk.injEq] at found
        have operandFrom : AllFrom file (operand :: (takePairs earlier).1) :=
          (earlierFrom.subset chain).cons (all operand (by simp))
        rw [← found.1, ← found.2]
        refine ⟨fromFile_chainExpression ?_, earlierFrom.subset remaining⟩
        exact operandFrom.subset fun part member => List.mem_reverse.mp (reversed ▸ member)
    · simp at found
  · simp at found

theorem fromFile_withObject {part receiver : Expression} {call : Call}
    (isCall : part.kind = .call call) (here : part.FromFile file) (object : receiver.FromFile file) :
    Expression.FromFile file { part with kind := .call { call with object := some receiver } } := by
  obtain ⟨place, path, below⟩ := Expression.fromFile_iff.mp here
  rw [isCall] at path
  refine Expression.fromFile_iff.mpr ⟨place, path, ?_⟩
  simp only [AllFrom, Expression.children, isCall, List.forall_mem_append] at below ⊢
  refine ⟨⟨?_, below.1.2⟩, below.2⟩
  simpa using object

theorem fromFile_attachReceiver {parts : List Expression} {part : Expression}
    (all : AllFrom file parts) (here : part.FromFile file) :
    AllFrom file (attachReceiver parts part) := by
  unfold attachReceiver
  split
  · rename_i call isCall
    split
    · exact all.cons here
    · split
      · rename_i receiver before found
        obtain ⟨object, remaining⟩ := fromFile_takeReceiver? all found
        exact remaining.cons (fromFile_withObject isCall here object)
      · exact all.cons here
  · exact all.cons here

theorem fromFile_asConstructor? {part constructed : Expression} (here : part.FromFile file)
    (found : asConstructor? part = some constructed) : constructed.FromFile file := by
  obtain ⟨place, path, below⟩ := Expression.fromFile_iff.mp here
  unfold asConstructor? at found
  split at found
  · rename_i call isCall
    obtain rfl := Option.some.inj found
    rw [isCall] at path
    refine Expression.fromFile_iff.mpr ⟨place, path, ?_⟩
    simpa [Expression.children, isCall] using below
  · rename_i use isName
    obtain rfl := Option.some.inj found
    rw [isName] at path
    refine Expression.fromFile_iff.mpr ⟨place, ?_, ?_⟩
    · simpa [ExpressionKind.segments, Call.ofName] using path
    · simpa [Expression.children, isName, Call.ofName] using below
  · simp at found

theorem fromFile_linkStep {parts : List Expression} {part : Expression} (all : AllFrom file parts)
    (here : part.FromFile file) : AllFrom file (linkStep parts part) := by
  unfold linkStep
  split
  · split
    · split
      · rename_i constructed found
        exact fromFile_attachReceiver (all.subset (List.subset_cons_self _ _))
          (fromFile_asConstructor? here found)
      · exact fromFile_attachReceiver all here
    · exact fromFile_attachReceiver all here
  · exact fromFile_attachReceiver all here

theorem fromFile_link {parts : List Expression} (all : AllFrom file parts) :
    AllFrom file (link parts) := by
  have linked : AllFrom file (parts.foldl linkStep []) :=
    List.foldlRecOn parts linkStep .nil fun _ sofar part member =>
      fromFile_linkStep sofar (all part member)
  exact linked.subset fun part member => List.mem_reverse.mp member

end Linking

/-! ### Calls -/

section Calls

variable {file : String}

theorem fromFile_segmentOperand {gathered : List Segment}
    (all : ∀ segment ∈ gathered, SegmentIn file segment) :
    AllFrom file (segmentOperand gathered) := by
  unfold segmentOperand
  split
  · exact .nil
  · rename_i last lastAt
    refine .single (fromFile_name (all last (List.mem_of_getLast? lastAt)).1 ?_)
    rw [segmentsOf_ofSegments?]
    exact fun segment member => all segment (List.dropLast_subset _ member)

theorem fromFile_receiverParts (parts : List NamePart) :
    ∀ (operands : List Expression) (gathered : List Segment), AllFrom file operands →
      (∀ segment ∈ gathered, SegmentIn file segment) →
      (∀ segment ∈ parts.filterMap NamePart.segment?, SegmentIn file segment) →
      AllFrom file (receiverParts file operands gathered parts) := by
  induction parts with
  | nil => exact fun _ _ operandsFrom all _ => operandsFrom.append (fromFile_segmentOperand all)
  | cons part rest ih =>
    intro operands gathered operandsFrom all written
    cases part with
    | segment found =>
      simp only [List.filterMap_cons, NamePart.segment?, List.forall_mem_cons] at written
      refine ih operands (gathered ++ [found]) operandsFrom ?_ written.2
      simp only [List.forall_mem_append, List.forall_mem_singleton]
      exact ⟨all, written.1⟩
    | separator text =>
      simp only [List.filterMap_cons, NamePart.segment?] at written
      unfold receiverParts
      split
      · have flushed := operandsFrom.append (fromFile_segmentOperand all)
        refine ih _ [] (flushed.append (.single (fromFile_operator ?_))) (by simp) written
        cases lastAt : (operands ++ segmentOperand gathered).getLast? with
        | none => rfl
        | some last =>
          exact (Expression.fromFile_iff.mp (flushed last (List.mem_of_getLast? lastAt))).1
      · exact ih operands gathered operandsFrom all written

theorem fromFile_receiver? {parts : List NamePart}
    (written : ∀ segment ∈ parts.filterMap NamePart.segment?, SegmentIn file segment) :
    ∀ receiver ∈ receiver? file parts, receiver.FromFile file := by
  intro receiver found
  have all := fromFile_receiverParts parts [] [] .nil (by simp) written
  rw [Option.mem_def, receiver?] at found
  split at found
  · simp at found
  · rename_i first rest made
    obtain rfl := Option.some.inj found
    exact fromFile_chainExpression (made ▸ all)

theorem splitReceiver_subset (parts : List NamePart) :
    (splitReceiver parts).1 ⊆ parts ∧ (splitReceiver parts).2 ⊆ parts := by
  constructor
  · exact List.take_subset _ _
  · intro part member
    rw [splitReceiver, List.mem_reverse] at member
    exact List.mem_reverse.mp (List.takeWhile_subset _ member)

theorem fromFile_callExpression? {element : Element} {arguments : List Expression}
    (all : AllFrom file arguments) :
    ∀ expression ∈ callExpression? file element arguments, expression.FromFile file := by
  intro expression found
  rw [Option.mem_def, callExpression?] at found
  split at found
  · simp at found
  · rename_i name _
    have pieces := @fromFile_namePieces file name
    obtain ⟨before, own⟩ := splitReceiver_subset (namePieces file name).parts
    have inside {parts : List NamePart} (subset : parts ⊆ (namePieces file name).parts) :
        ∀ segment ∈ parts.filterMap NamePart.segment?, SegmentIn file segment :=
      fun segment member => pieces.segments segment (List.filterMap_subset _ subset member)
    simp only at found
    split at found
    · simp at found
    · obtain rfl := Option.some.inj found
      refine fromFile_call rfl ?_ pieces.types (fromFile_receiver? (inside before)) all
      simp only [segmentsOf_ofSegments?]
      exact fun segment member => inside own segment (List.dropLast_subset _ member)

end Calls

/-! ### Expressions -/

section Expressions

variable {file : String}

theorem fromFile_textOperators (start : Position) (text : String) :
    AllFrom file (textOperators file start text) := by
  intro expression member
  obtain ⟨word, _, rfl⟩ := List.mem_map.mp member
  exact fromFile_operator rfl

theorem fromFile_nameExpression? (element : Element) :
    ∀ expression ∈ nameExpression? file element, expression.FromFile file := by
  intro expression found
  obtain ⟨last, _, rfl⟩ := Option.map_eq_some_iff.mp found
  refine fromFile_name rfl ?_
  rw [segmentsOf_ofSegments?]
  exact fun segment member =>
    (fromFile_namePieces element).segments segment (List.dropLast_subset _ member)

theorem fromFile_literalExpression (element : Element) :
    (literalExpression file element).FromFile file :=
  Expression.fromFile_iff.mpr ⟨rfl,
    by simp [literalExpression, Expression.ofKind, ExpressionKind.segments],
    by simp [AllFrom, literalExpression, Expression.children, Expression.ofKind]⟩

theorem fromFile_operatorExpression? (element : Element) :
    ∀ expression ∈ operatorExpression? file element, expression.FromFile file := by
  intro expression found
  rw [Option.mem_def, operatorExpression?] at found
  split at found
  · simp at found
  · obtain rfl := Option.some.inj found
    exact fromFile_operator rfl

theorem fromFile_expressionOf? {location : Location} {parts : List Expression}
    (here : location.file = file) (all : AllFrom file parts) :
    ∀ expression ∈ expressionOf? location parts, expression.FromFile file := by
  intro expression found
  rw [Option.mem_def] at found
  unfold expressionOf? at found
  split at found
  · simp at found
  · obtain rfl := Option.some.inj found
    exact all _ List.mem_cons_self
  · obtain rfl := Option.some.inj found
    exact fromFile_compound here all

mutual

theorem fromFile_partsIn : ∀ (nodes : List Node) (start : Position),
    AllFrom file (partsIn file start nodes)
  | [], _ => by
    rw [partsIn]
    exact .nil
  | .text content :: rest, start => by
    have after := fromFile_partsIn rest start
    rw [partsIn]
    exact (fromFile_textOperators start content).append after
  | .element head children :: rest, start => by
    have below := fromFile_link (fromFile_partsIn children head.start)
    have arguments := fromFile_callArguments children
    have after := fromFile_partsIn rest start
    rw [partsIn]
    refine AllFrom.append ?_ after
    split
    · exact .toList (fromFile_nameExpression? _)
    · exact .toList (fromFile_callExpression? arguments)
    · exact .single (fromFile_literalExpression _)
    · exact .toList (fromFile_operatorExpression? _)
    · exact .toList (fromFile_expressionOf? rfl below)
    · exact .nil
    · simp only
      split
      · exact .nil
      · exact .single (fromFile_compound rfl below)

theorem fromFile_callArguments : ∀ nodes : List Node, AllFrom file (callArguments file nodes)
  | [] => by
    rw [callArguments]
    exact .nil
  | .text _ :: rest => by
    rw [callArguments]
    exact fromFile_callArguments rest
  | .element head children :: rest => by
    have inner := fromFile_argumentsIn children
    have after := fromFile_callArguments rest
    rw [callArguments]
    refine AllFrom.append ?_ after
    split
    · exact inner
    · exact .nil

theorem fromFile_argumentsIn : ∀ nodes : List Node, AllFrom file (argumentsIn file nodes)
  | [] => by
    rw [argumentsIn]
    exact .nil
  | .text _ :: rest => by
    rw [argumentsIn]
    exact fromFile_argumentsIn rest
  | .element head children :: rest => by
    have first := fromFile_firstExpression? children
    have below := fromFile_link (fromFile_partsIn children head.start)
    have after := fromFile_argumentsIn rest
    rw [argumentsIn]
    refine AllFrom.append ?_ after
    split
    · cases found : firstExpression? file children with
      | none => exact .toList (fromFile_expressionOf? rfl below)
      | some inner => exact .toList (first inner found)
    · exact .nil

theorem fromFile_firstExpression? : ∀ nodes : List Node, ∀ found ∈ firstExpression? file nodes,
    ∀ expression ∈ found, Expression.FromFile file expression
  | [] => by simp [firstExpression?]
  | .text _ :: rest => by
    rw [firstExpression?]
    exact fromFile_firstExpression? rest
  | .element head children :: rest => by
    have below := fromFile_link (fromFile_partsIn children head.start)
    have after := fromFile_firstExpression? rest
    rw [firstExpression?]
    intro found made
    split at made
    · obtain rfl := Option.some.inj made
      exact fromFile_expressionOf? rfl below
    · exact after found made

end

theorem fromFile_expression? (element : Element) :
    ∀ expression ∈ expression? file element, expression.FromFile file :=
  fromFile_expressionOf? rfl (fromFile_link (fromFile_partsIn _ _))

theorem fromFile_call? (element : Element) :
    ∀ expression ∈ call? file element, expression.FromFile file :=
  fromFile_callExpression? (fromFile_callArguments _)

end Expressions

/-! ### Declarations and headers -/

section Declarations

variable {file : String}

theorem fromFile_declaratorType {previous : Option TypeUse}
    (before : ∀ use ∈ previous, use.FromFile file) (declarator : Element) :
    ∀ use ∈ declaratorType file declarator previous, use.FromFile file := by
  unfold declaratorType
  split
  · simp
  · split
    · exact before
    · exact fromFile_typeOf? _

theorem fromFile_initialValue {type : Option TypeUse} (typed : ∀ use ∈ type, use.FromFile file)
    (declarator : Element) :
    ∀ value ∈ initialValue file declarator type, value.FromFile file := by
  unfold initialValue
  split
  · exact fromFile_expression? _
  · split
    · rename_i list use _
      intro value found
      obtain rfl := Option.some.inj found
      have path := (TypeUse.fromFile_iff.mp (typed use rfl)).1
      exact fromFile_call rfl path (by simp) (by simp) (fromFile_argumentsIn _)
    · simp

theorem fromFile_declaredVariable {previous : Option TypeUse}
    (before : ∀ use ∈ previous, use.FromFile file) (declarator : Element) (fallback : Access) :
    (declaredVariable file declarator previous fallback).FromFile file := by
  have typed := fromFile_declaratorType before declarator
  exact ⟨typed, fromFile_initialValue typed declarator⟩

theorem fromFile_headerDeclaration (declarator : Element) :
    (headerDeclaration file declarator).FromFile file :=
  fromFile_declaration rfl (fromFile_declaredVariable (by simp) declarator .unstated)

theorem fromFile_declaredContent (access : Access) (declarators : List Element) :
    ∀ previous : Option TypeUse, (∀ use ∈ previous, use.FromFile file) →
      AllFrom file (declaredContent file access previous declarators) := by
  induction declarators with
  | nil => exact fun _ _ => .nil
  | cons declarator rest ih =>
    intro previous before
    have declared := fromFile_declaredVariable before declarator access
    have others := ih _ declared.type
    rw [declaredContent]
    split
    · exact others
    · exact others.cons (fromFile_declaration rfl declared)

theorem fromFile_parameters (list : Element) :
    ∀ parameter ∈ parameters file list, parameter.FromFile file := by
  have all : ∀ parameter ∈ (list.childrenNamed "param").map fun parameter =>
      declaredVariable file ((parameter.child? "decl").getD parameter) none .unstated,
      Variable.FromFile file parameter := by
    intro parameter member
    obtain ⟨element, _, rfl⟩ := List.mem_map.mp member
    exact fromFile_declaredVariable (by simp) _ _
  unfold parameters
  simp only
  split
  · split
    · simp
    · exact all
  · exact all

theorem fromFile_headerContent (header : Element) : AllFrom file (headerContent file header) := by
  refine .flatMap fun child => ?_
  split
  · exact .single (fromFile_headerDeclaration child)
  · split
    · exact .toList (fromFile_expression? child)
    · exact .nil

theorem fromFile_expressionsIn (element : Element) : AllFrom file (expressionsIn file element) := by
  refine .flatMap fun child => ?_
  split
  · exact .toList (fromFile_expression? child)
  · exact .toList (fromFile_nameExpression? child)
  · exact .toList (fromFile_call? child)
  · exact .single (fromFile_headerDeclaration child)
  · exact .nil

theorem fromFile_expressionsOfChild (element : Element) (name : String) :
    AllFrom file (expressionsOfChild file element name) :=
  .optional fromFile_expressionsIn

theorem fromFile_loopHeader (source : SourceFile) (element : Element) :
    AllFrom source.name (loopHeader source element).2 := by
  refine .append (.append (.append (.append (.flatMap fun declarator => ?_) ?_) ?_) ?_) ?_
  · exact (fromFile_expressionsOfChild declarator "range").cons
      (fromFile_headerDeclaration declarator)
  · exact .filterMap fromFile_expression?
  · exact fromFile_expressionsOfChild _ _
  · exact fromFile_expressionsOfChild _ _
  · exact fromFile_expressionsOfChild _ _

theorem fromFile_lockContent (source : SourceFile) (element : Element) :
    AllFrom source.name (lockContent source element) :=
  .append (.optional fromFile_headerContent) (.filterMap fromFile_expression?)

theorem fromFile_memberInitializers (source : SourceFile) (element : Element) :
    AllFrom source.name (memberInitializers source element) :=
  .filterMap fromFile_call?

theorem memberInitializers_undeclared (source : SourceFile) (element : Element) :
    ∀ expression ∈ memberInitializers source element, expression.declaration? = none := by
  intro expression member
  obtain ⟨written, _, found⟩ := List.mem_filterMap.mp member
  unfold call? callExpression? at found
  split at found
  · simp at found
  · simp only at found
    split at found
    · simp at found
    · obtain rfl := Option.some.inj found
      rfl

theorem fromFile_catchDeclarations (source : SourceFile) (element : Element) :
    AllFrom source.name ((catchDeclarators element).map (headerDeclaration source.name)) := by
  intro expression member
  obtain ⟨declarator, _, rfl⟩ := List.mem_map.mp member
  exact fromFile_headerDeclaration declarator

theorem fromFile_methodDefinition (source : SourceFile) (around : Surroundings) (element : Element)
    (name : String) (owner : Option String) :
    (Definition.methodScope (methodDefinition source around element name owner)).FromFile
      source.name := by
  constructor
  · intro use found
    simp only [methodDefinition] at found
    split at found
    · simp at found
    · obtain ⟨type, _, spelled⟩ := Option.bind_eq_some_iff.mp found
      exact fromFile_typeOf? type use spelled
  · intro parameter member
    simp only [methodDefinition] at member
    cases list : element.child? "parameter_list" with
    | none => simp [list] at member
    | some found =>
      rw [list, Option.map_some, Option.getD_some] at member
      exact fromFile_parameters found parameter member

end Declarations

end SourceUnit

end ScopeAtlas
