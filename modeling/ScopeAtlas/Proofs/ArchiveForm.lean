import ScopeAtlas.Archive.Decode
import ScopeAtlas.Archive.Encode
import ScopeAtlas.Proofs.JsonText
import Mathlib.Data.List.Nodup

/-!
The archived form of a tree keeps the whole tree: every part is read back from the value that was
written for it, provided the reader may open as many levels as the value has and the lines, columns
and slot numbers are in range.

One relation, `Json.Carries`, says so of a reader, a value and a part. Each kind of field hands it on
to the record around it, and the nested parts are taken through it by recursion on the part.

Main statement: `ScopeTree.carries`.
-/

namespace ScopeAtlas

namespace Json

/-! ### Values that carry a part -/

/-- `json` carries `value` for a reader: text can spell it, and the reader finds the value there
whenever it may open as many levels as there are. -/
structure Carries {α : Type} (decode : Nat → Json → Option α) (json : Json) (value : α) : Prop where
  plain : json.Plain
  decoded : ∀ levels, json.depth ≤ levels → decode levels json = some value

theorem depthOfValues_le {values : List Json} {levels : Nat} :
    depthOfValues values ≤ levels ↔ ∀ value ∈ values, value.depth ≤ levels := by
  induction values with
  | nil => simp [depthOfValues]
  | cons value values ih => simp only [depthOfValues, Nat.max_le, ih, List.forall_mem_cons]

theorem depthOfMembers_le {members : List (Option String × Json)} {levels : Nat} :
    depthOfMembers members ≤ levels ↔ ∀ member ∈ members, member.2.depth ≤ levels := by
  induction members with
  | nil => simp [depthOfMembers]
  | cons member members ih =>
    obtain ⟨key, value⟩ := member
    simp only [depthOfMembers, Nat.max_le, ih, List.forall_mem_cons]

theorem hasKeyFault_record {members : List (String × Json)} (distinct : (members.map Prod.fst).Nodup)
    (names : List String) :
    hasKeyFault names (members.map fun (key, value) => (some key, value)) = false := by
  have once (name : String) : ¬ 1 < members.countP fun member => some member.1 == some name := by
    have := List.nodup_iff_count_le_one.mp distinct name
    rw [List.count, List.countP_map] at this
    exact Nat.not_lt.mpr this
  simp only [hasKeyFault, Bool.or_eq_false_iff, List.any_eq_false, List.countP_map,
    Function.comp_def, decide_eq_true_eq]
  refine ⟨fun member found => ?_, fun name _ => once name⟩
  obtain ⟨listed, _, rfl⟩ := List.mem_map.mp found
  simp

theorem member?_record {members : List (String × Json)} (distinct : (members.map Prod.fst).Nodup)
    {key : String} {value : Json} (found : (key, value) ∈ members) :
    member? key (members.map fun (key, value) => (some key, value)) = some value := by
  induction members with
  | nil => simp at found
  | cons first members ih =>
    obtain ⟨name, content⟩ := first
    obtain ⟨absent, distinct⟩ := List.nodup_cons.mp distinct
    by_cases same : name = key
    · subst same
      have only : content = value := by
        rcases List.mem_cons.mp found with same | later
        · exact (Prod.mk.inj same).2.symm
        · exact absurd (List.mem_map_of_mem later) absent
      simp [member?, only]
    · have later : (key, value) ∈ members := by
        rcases List.mem_cons.mp found with first | later
        · exact absurd (Prod.mk.inj first).1.symm same
        · exact later
      simpa [member?, same] using ih distinct later

theorem fields?_record {names : List String} {members : List (String × Json)}
    (named : members.map Prod.fst = names) (distinct : names.Nodup) :
    fields? names (record members) = some (members.map fun member => some member.2) := by
  subst named
  rw [record, fields?, hasKeyFault_record distinct]
  simp only [Bool.false_eq_true, if_false, List.map_map, Option.some.injEq]
  exact List.map_congr_left fun member found => member?_record distinct found

theorem Carries.record {α : Type} {decode : Nat → Json → Option α} {members : List (String × Json)}
    {value : α} (plain : ∀ member ∈ members, member.2.Plain)
    (decoded : ∀ levels, (∀ member ∈ members, member.2.depth ≤ levels) →
      decode (levels + 1) (.record members) = some value) :
    Carries decode (.record members) value where
  plain := by
    refine .object ?_ ?_ <;> intro member found <;>
      obtain ⟨listed, known, rfl⟩ := List.mem_map.mp found
    · rfl
    · exact plain listed known
  decoded levels deep := by
    rw [Json.record, depth] at deep
    obtain ⟨below, rfl⟩ : ∃ below, levels = below + 1 := ⟨levels - 1, by omega⟩
    refine decoded below fun member found => ?_
    refine depthOfMembers_le.mp (Nat.le_of_succ_le_succ deep) (some member.1, member.2) ?_
    exact List.mem_map.mpr ⟨member, found, rfl⟩

theorem mapM_map_eq_some {α : Type} {decode : Json → Option α} {encode : α → Json} {values : List α}
    (each : ∀ value ∈ values, decode (encode value) = some value) :
    (values.map encode).mapM decode = some values := by
  induction values with
  | nil => rfl
  | cons value values ih =>
    have rest := ih fun other member => each other (List.mem_cons_of_mem _ member)
    simp only [List.map_cons, List.mapM_cons, each value (by simp), rest]
    rfl

theorem Carries.list {α : Type} {decode : Nat → Json → Option α} {encode : α → Json} {values : List α}
    (each : ∀ value ∈ values, Carries decode (encode value) value) :
    Carries (listWithin? decode) (ofList encode values) values where
  plain := .array (by simpa using fun value member => (each value member).plain)
  decoded levels deep := by
    rw [ofList, depth] at deep
    obtain ⟨below, rfl⟩ : ∃ below, levels = below + 1 := ⟨levels - 1, by omega⟩
    have deep := depthOfValues_le.mp (Nat.le_of_succ_le_succ deep)
    have read (value : α) (member : value ∈ values) : decode below (encode value) = some value :=
      (each value member).decoded below (deep _ (List.mem_map_of_mem member))
    rw [listWithin?, listOf?, ofList, list?, Option.bind_some, mapM_map_eq_some read]

theorem Carries.option {α : Type} {decode : Nat → Json → Option α} {encode : α → Json}
    {value : Option α} (each : ∀ inner ∈ value, Carries decode (encode inner) inner)
    (solid : ∀ inner ∈ value, encode inner ≠ .null) :
    Carries (fun levels json => optional? (decode levels) (some json)) (ofOption encode value)
      value where
  plain := by
    cases value with
    | none => exact .null
    | some inner => exact (each inner rfl).plain
  decoded levels deep := by
    cases value with
    | none => rfl
    | some inner =>
      have read := (each inner rfl).decoded levels deep
      have solid := solid inner rfl
      rw [ofOption, optional?]
      · rw [read, Option.map_some]
      · exact solid

@[simp] theorem plain_ofString (value : String) : (ofString value).Plain := .text value

@[simp] theorem plain_boolean (value : Bool) : (boolean value).Plain := .boolean value

@[simp] theorem string?_ofString (value : String) : (ofString value).string? = some value := rfl

@[simp] theorem boolean?_boolean (value : Bool) : (boolean value).boolean? = some value := rfl

theorem carries_string (value : String) : Carries (fun _ => string?) (ofString value) value :=
  ⟨plain_ofString value, fun _ _ => rfl⟩

theorem carries_count {value : Nat} (inRange : value ≤ Position.limit) :
    Carries (fun _ => count?) (ofNat value) value :=
  ⟨plain_ofNat value, fun _ _ => by simp [count?, naturalUpTo?, natural?_ofNat, inRange]⟩

end Json

/-! ### The numbers of a part -/

/-- Every number is a possible line, column or slot number. -/
def InRange (counts : List Nat) : Prop :=
  ∀ count ∈ counts, count ≤ Position.limit

instance (counts : List Nat) : Decidable (InRange counts) :=
  inferInstanceAs (Decidable (∀ count ∈ counts, count ≤ Position.limit))

@[simp] theorem inRange_append {left right : List Nat} :
    InRange (left ++ right) ↔ InRange left ∧ InRange right :=
  List.forall_mem_append

@[simp] theorem inRange_flatMap {α : Type} {parts : List α} {counts : α → List Nat} :
    InRange (parts.flatMap counts) ↔ ∀ part ∈ parts, InRange (counts part) := by
  simp only [InRange, List.mem_flatMap]
  exact ⟨fun h part member count found => h count ⟨part, member, found⟩,
    fun h count ⟨part, member, found⟩ => h part member count found⟩

def Position.counts (position : Position) : List Nat :=
  [position.line, position.column]

def Location.counts (location : Location) : List Nat :=
  location.start.counts ++ location.stop.counts

def Qualifier.counts (qualifier : Qualifier) : List Nat :=
  qualifier.segments.flatMap fun segment => segment.location.counts

def NameUse.counts (use : NameUse) : List Nat :=
  use.qualifier.toList.flatMap Qualifier.counts

mutual

def TypeUse.counts : TypeUse → List Nat
  | ⟨_, qualifier, arguments⟩ =>
    qualifier.toList.flatMap Qualifier.counts ++ TypeUse.listCounts arguments

def TypeUse.listCounts : List TypeUse → List Nat
  | [] => []
  | first :: rest => first.counts ++ TypeUse.listCounts rest

end

mutual

def Expression.counts : Expression → List Nat
  | ⟨kind, location, components⟩ =>
    kind.counts ++ location.counts ++ Expression.listCounts components

def ExpressionKind.counts : ExpressionKind → List Nat
  | .compound | .literal _ | .operator _ => []
  | .name use => use.counts
  | .type use => use.counts
  | .call call => call.counts
  | .declaration declared => declared.counts

def Call.counts : Call → List Nat
  | ⟨_, qualifier, arguments, typeArguments, _, _, object⟩ =>
    qualifier.toList.flatMap Qualifier.counts ++ Expression.listCounts arguments ++
      typeArguments.flatMap TypeUse.counts ++ Expression.optionCounts object

def Variable.counts : Variable → List Nat
  | ⟨_, type, _, initializer⟩ =>
    type.toList.flatMap TypeUse.counts ++ Expression.optionCounts initializer

def Expression.listCounts : List Expression → List Nat
  | [] => []
  | first :: rest => first.counts ++ Expression.listCounts rest

def Expression.optionCounts : Option Expression → List Nat
  | none => []
  | some expression => expression.counts

end

def MethodDefinition.counts (method : MethodDefinition) : List Nat :=
  method.parameters.flatMap Variable.counts ++ method.returnType.toList.flatMap TypeUse.counts

def Definition.counts : Definition → List Nat
  | .namespaceScope _ | .placeholder => []
  | .typeScope definition => definition.parents.flatMap TypeUse.counts
  | .methodScope definition => definition.counts

def NamedScope.counts (scope : NamedScope) : List Nat :=
  scope.qualifier.toList.flatMap Qualifier.counts ++
    scope.facets.flatMap fun facet => facet.definition.counts

def StatementKind.counts (kind : StatementKind) : List Nat :=
  kind.scope?.toList.flatMap NamedScope.counts

def Statement.counts (statement : Statement) : List Nat :=
  statement.kind.counts ++ statement.locations.flatMap Location.counts ++
    statement.content.flatMap Expression.counts ++ statement.parent.toList ++ statement.children

def ScopeTree.counts (tree : ScopeTree) : List Nat :=
  tree.slots.toList.flatMap fun slot => slot.toList.flatMap Statement.counts

/-! ### The parts of a tree -/

open Json

theorem Language.carries (language : Language) :
    Carries Language.ofJson? (.ofString language.archiveWord) language :=
  ⟨.text _, fun _ _ => by cases language <;> rfl⟩

theorem Access.carries (access : Access) :
    Carries Access.ofJson? (.ofString access.archiveWord) access :=
  ⟨.text _, fun _ _ => by cases access <;> rfl⟩

theorem TypeKind.carries (kind : TypeKind) : Carries TypeKind.ofJson? (.ofString kind.word) kind :=
  ⟨.text _, fun _ _ => by cases kind <;> rfl⟩

theorem LiteralKind.carries (kind : LiteralKind) :
    Carries LiteralKind.ofJson? (.ofString kind.archiveWord) kind :=
  ⟨.text _, fun _ _ => by cases kind <;> rfl⟩

theorem Position.carries {position : Position} (counted : InRange position.counts) :
    Carries Position.ofJson? position.toJson position := by
  have line := carries_count (counted position.line (by simp [counts]))
  have column := carries_count (counted position.column (by simp [counts]))
  refine .record (by simp [line.plain, column.plain]) fun levels deep => ?_
  simp only [List.forall_mem_cons] at deep
  simp [ofJson?, fields?_record, required?, line.decoded levels, column.decoded levels, deep]

theorem Location.carries {location : Location} (counted : InRange location.counts) :
    Carries Location.ofJson? location.toJson location := by
  obtain ⟨countedStart, countedStop⟩ := inRange_append.mp counted
  have start := Position.carries countedStart
  have stop := Position.carries countedStop
  have locator : Carries _ _ location.locator :=
    .option (fun text _ => carries_string text) (fun _ _ => nofun)
  refine .record (by simp [start.plain, stop.plain, locator.plain]) fun levels deep => ?_
  simp only [List.forall_mem_cons] at deep
  simp [ofJson?, fields?_record, required?, start.decoded, stop.decoded, locator.decoded levels, deep]

theorem Segment.carries {segment : Segment} (counted : InRange segment.location.counts) :
    Carries Segment.ofJson? segment.toJson segment := by
  have location := Location.carries counted
  refine .record (by simp [location.plain]) fun levels deep => ?_
  simp only [List.forall_mem_cons] at deep
  simp [ofJson?, fields?_record, required?, location.decoded, deep]

theorem Qualifier.carries {qualifier : Qualifier} (counted : InRange qualifier.counts) :
    Carries Qualifier.ofJson? qualifier.toJson qualifier := by
  have segments : Carries _ _ qualifier.segments :=
    .list fun segment member => Segment.carries (inRange_flatMap.mp counted segment member)
  refine .record (by simp [segments.plain]) fun levels deep => ?_
  simp only [List.forall_mem_cons] at deep
  simp [ofJson?, fields?_record, required?, segments.decoded, deep]

theorem Qualifier.carriesOption {qualifier : Option Qualifier}
    (counted : InRange (qualifier.toList.flatMap Qualifier.counts)) :
    Carries (fun levels json => optional? (Qualifier.ofJson? levels) (some json))
      (.ofOption Qualifier.toJson qualifier) qualifier :=
  .option (fun inner member => Qualifier.carries
    (inRange_flatMap.mp counted inner (Option.mem_toList.mpr member))) (fun _ _ => nofun)

theorem NameUse.carries {use : NameUse} (counted : InRange use.counts) :
    Carries NameUse.ofJson? use.toJson use := by
  have qualifier := Qualifier.carriesOption counted
  refine .record (by simp [qualifier.plain]) fun levels deep => ?_
  simp only [List.forall_mem_cons] at deep
  simp [ofJson?, fields?_record, required?, qualifier.decoded levels, deep]

theorem TypeUse.listToJson_eq (uses : List TypeUse) :
    Json.array (TypeUse.listToJson uses) = .ofList TypeUse.toJson uses := by
  have mapped : TypeUse.listToJson uses = uses.map TypeUse.toJson := by
    induction uses with
    | nil => rw [TypeUse.listToJson, List.map_nil]
    | cons first rest ih => rw [TypeUse.listToJson, List.map_cons, ih]
  rw [mapped, Json.ofList]

theorem TypeUse.listOfJson?_eq : TypeUse.listOfJson? = Json.listWithin? TypeUse.ofJson? := by
  funext levels json
  cases levels <;> simp [TypeUse.listOfJson?, listWithin?]

mutual

theorem TypeUse.carries : ∀ use : TypeUse, InRange use.counts →
    Carries TypeUse.ofJson? use.toJson use
  | ⟨name, qualifier, arguments⟩, counted => by
    rw [TypeUse.counts, inRange_append] at counted
    have qualifier := Qualifier.carriesOption counted.1
    have arguments := Carries.list (TypeUse.carriesEach arguments counted.2)
    rw [TypeUse.toJson, TypeUse.listToJson_eq]
    refine .record (by simp [qualifier.plain, arguments.plain]) fun levels deep => ?_
    simp only [List.forall_mem_cons] at deep
    simp [ofJson?, TypeUse.listOfJson?_eq, fields?_record, required?, qualifier.decoded levels,
      arguments.decoded, deep]

theorem TypeUse.carriesEach : ∀ uses : List TypeUse, InRange (TypeUse.listCounts uses) →
    ∀ use ∈ uses, Carries TypeUse.ofJson? use.toJson use
  | [], _ => by simp
  | first :: rest, counted => by
    rw [TypeUse.listCounts, inRange_append] at counted
    exact List.forall_mem_cons.mpr ⟨TypeUse.carries first counted.1, TypeUse.carriesEach rest counted.2⟩

end

theorem Literal.carries (literal : Literal) : Carries Literal.ofJson? literal.toJson literal := by
  have kind := LiteralKind.carries literal.kind
  refine .record (by simp) fun levels deep => ?_
  simp only [List.forall_mem_cons] at deep
  simp [ofJson?, fields?_record, required?, kind.decoded, deep]

theorem Json.Carries.tagged {α β : Type} {decode : Nat → Json → Option α}
    {inside : Nat → Json → Option β} {word : String} {content : Json} {value : α} {inner : β}
    (carried : Carries inside content inner)
    (decoded : ∀ levels, inside levels content = some inner →
      decode (levels + 1) (.tagged word content) = some value) :
    Carries decode (.tagged word content) value :=
  .record (by simpa using carried.plain) fun levels deep =>
    decoded levels (carried.decoded levels (by simpa using deep))

@[simp] theorem Json.choice?_tagged (word : String) (content : Json) :
    (Json.tagged word content).choice? = some (word, some content) := rfl

theorem Expression.listToJson_eq (expressions : List Expression) :
    Json.array (Expression.listToJson expressions) = .ofList Expression.toJson expressions := by
  have mapped : Expression.listToJson expressions = expressions.map Expression.toJson := by
    induction expressions with
    | nil => rw [Expression.listToJson, List.map_nil]
    | cons first rest ih => rw [Expression.listToJson, List.map_cons, ih]
  rw [mapped, Json.ofList]

theorem Expression.listOfJson?_eq : Expression.listOfJson? = Json.listWithin? Expression.ofJson? := by
  funext levels json
  cases levels <;> simp [Expression.listOfJson?, listWithin?]

theorem Expression.optionToJson_eq (expression : Option Expression) :
    Expression.optionToJson expression = .ofOption Expression.toJson expression := by
  cases expression <;> simp [Expression.optionToJson, ofOption]

theorem Expression.toJson_ne_null (expression : Expression) : expression.toJson ≠ .null := by
  cases expression
  simp [Expression.toJson, record]

theorem TypeUse.toJson_ne_null (use : TypeUse) : use.toJson ≠ .null := by
  cases use
  simp [TypeUse.toJson, record]

theorem TypeUse.carriesOption {use : Option TypeUse}
    (counted : InRange (use.toList.flatMap TypeUse.counts)) :
    Carries (fun levels json => optional? (TypeUse.ofJson? levels) (some json))
      (.ofOption TypeUse.toJson use) use :=
  .option (fun inner member => TypeUse.carries inner
    (inRange_flatMap.mp counted inner (Option.mem_toList.mpr member)))
    (fun inner _ => inner.toJson_ne_null)

theorem TypeUse.carriesList {uses : List TypeUse} (counted : InRange (uses.flatMap TypeUse.counts)) :
    Carries (listWithin? TypeUse.ofJson?) (.ofList TypeUse.toJson uses) uses :=
  .list fun use member => TypeUse.carries use (inRange_flatMap.mp counted use member)

mutual

theorem Expression.carries : ∀ expression : Expression, InRange expression.counts →
    Carries Expression.ofJson? expression.toJson expression
  | ⟨kind, location, components⟩, counted => by
    rw [Expression.counts, inRange_append, inRange_append] at counted
    have kind := ExpressionKind.carries kind counted.1.1
    have location := Location.carries counted.1.2
    have components := Carries.list (Expression.carriesEach components counted.2)
    rw [Expression.toJson, Expression.listToJson_eq]
    refine .record (by simp [kind.plain, location.plain, components.plain]) fun levels deep => ?_
    simp only [List.forall_mem_cons] at deep
    simp [Expression.ofJson?, Expression.listOfJson?_eq, fields?_record, required?, kind.decoded,
      location.decoded, components.decoded, deep]

theorem ExpressionKind.carries : ∀ kind : ExpressionKind, InRange kind.counts →
    Carries ExpressionKind.ofJson? kind.toJson kind
  | .compound, _ => by
    rw [ExpressionKind.toJson]
    exact ⟨plain_ofString _, fun levels _ => by cases levels <;> rfl⟩
  | .name use, counted => by
    rw [ExpressionKind.toJson]
    rw [ExpressionKind.counts] at counted
    exact .tagged (NameUse.carries counted) fun levels read => by
      simp [ExpressionKind.ofJson?, read]
  | .type use, counted => by
    rw [ExpressionKind.toJson]
    rw [ExpressionKind.counts] at counted
    exact .tagged (TypeUse.carries use counted) fun levels read => by
      simp [ExpressionKind.ofJson?, read]
  | .literal literal, _ => by
    rw [ExpressionKind.toJson]
    exact .tagged (Literal.carries literal) fun levels read => by
      simp [ExpressionKind.ofJson?, read]
  | .operator symbol, _ => by
    rw [ExpressionKind.toJson]
    exact .tagged (carries_string symbol) fun levels read => by
      simp [ExpressionKind.ofJson?]
  | .call call, counted => by
    rw [ExpressionKind.toJson]
    rw [ExpressionKind.counts] at counted
    exact .tagged (Call.carries call counted) fun levels read => by
      simp [ExpressionKind.ofJson?, read]
  | .declaration declared, counted => by
    rw [ExpressionKind.toJson]
    rw [ExpressionKind.counts] at counted
    exact .tagged (Variable.carries declared counted) fun levels read => by
      simp [ExpressionKind.ofJson?, read]

theorem Call.carries : ∀ call : Call, InRange call.counts → Carries Call.ofJson? call.toJson call
  | ⟨name, qualifier, arguments, typeArguments, isConstructor, isDestructor, receiver⟩, counted => by
    rw [Call.counts, inRange_append, inRange_append, inRange_append] at counted
    obtain ⟨⟨⟨countedQualifier, countedArguments⟩, countedTypes⟩, countedReceiver⟩ := counted
    have qualifier := Qualifier.carriesOption countedQualifier
    have arguments := Carries.list (Expression.carriesEach arguments countedArguments)
    have typeArguments := TypeUse.carriesList countedTypes
    have receiver := Carries.option (Expression.carriesOption receiver countedReceiver)
      fun inner _ => inner.toJson_ne_null
    rw [Call.toJson, Expression.listToJson_eq, TypeUse.listToJson_eq, Expression.optionToJson_eq]
    refine .record (by simp [qualifier.plain, arguments.plain, typeArguments.plain, receiver.plain])
      fun levels deep => ?_
    simp only [List.forall_mem_cons] at deep
    simp [Call.ofJson?, Expression.listOfJson?_eq, TypeUse.listOfJson?_eq, fields?_record, required?,
      qualifier.decoded levels, arguments.decoded, typeArguments.decoded, receiver.decoded levels, deep]

theorem Variable.carries : ∀ declared : Variable, InRange declared.counts →
    Carries Variable.ofJson? declared.toJson declared
  | ⟨name, type, access, initializer⟩, counted => by
    rw [Variable.counts, inRange_append] at counted
    have type := TypeUse.carriesOption counted.1
    have access := Access.carries access
    have initializer := Carries.option (Expression.carriesOption initializer counted.2)
      fun inner _ => inner.toJson_ne_null
    rw [Variable.toJson, Expression.optionToJson_eq]
    refine .record (by simp [type.plain, initializer.plain]) fun levels deep => ?_
    simp only [List.forall_mem_cons] at deep
    simp [Variable.ofJson?, fields?_record, required?, type.decoded levels, access.decoded,
      initializer.decoded levels, deep]

theorem Expression.carriesEach : ∀ expressions : List Expression,
    InRange (Expression.listCounts expressions) →
      ∀ expression ∈ expressions, Carries Expression.ofJson? expression.toJson expression
  | [], _ => by simp
  | first :: rest, counted => by
    rw [Expression.listCounts, inRange_append] at counted
    exact List.forall_mem_cons.mpr
      ⟨Expression.carries first counted.1, Expression.carriesEach rest counted.2⟩

theorem Expression.carriesOption : ∀ expression : Option Expression,
    InRange (Expression.optionCounts expression) →
      ∀ inner ∈ expression, Carries Expression.ofJson? inner.toJson inner
  | none, _ => by simp
  | some expression, counted => by
    rw [Expression.optionCounts] at counted
    rintro inner ⟨⟩
    exact Expression.carries expression counted

end

theorem Expression.carriesList {expressions : List Expression}
    (counted : InRange (expressions.flatMap Expression.counts)) :
    Carries (listWithin? Expression.ofJson?) (.ofList Expression.toJson expressions) expressions :=
  .list fun expression member =>
    Expression.carries expression (inRange_flatMap.mp counted expression member)

theorem MethodDefinition.carries {method : MethodDefinition} (counted : InRange method.counts) :
    Carries MethodDefinition.ofJson? method.toJson method := by
  obtain ⟨countedParameters, countedReturn⟩ := inRange_append.mp counted
  have parameters : Carries _ _ method.parameters := .list fun parameter member =>
    Variable.carries parameter (inRange_flatMap.mp countedParameters parameter member)
  have returnType := TypeUse.carriesOption countedReturn
  refine .record (by simp [parameters.plain, returnType.plain]) fun levels deep => ?_
  simp only [List.forall_mem_cons] at deep
  simp [ofJson?, fields?_record, required?, parameters.decoded, returnType.decoded levels, deep]

theorem NamespaceDefinition.carries (definition : NamespaceDefinition) :
    Carries NamespaceDefinition.ofJson?
      (.record [("is_anonymous", .boolean definition.isAnonymous)]) definition := by
  refine .record (by simp) fun levels _ => ?_
  simp [ofJson?, fields?_record, required?]

theorem TypeDefinition.carries {definition : TypeDefinition}
    (counted : InRange (definition.parents.flatMap TypeUse.counts)) :
    Carries TypeDefinition.ofJson? definition.toJson definition := by
  have kind := TypeKind.carries definition.kind
  have parents := TypeUse.carriesList counted
  refine .record (by simp [parents.plain]) fun levels deep => ?_
  simp only [List.forall_mem_cons] at deep
  simp [ofJson?, fields?_record, required?, kind.decoded, parents.decoded, deep]

theorem Definition.carries : ∀ {definition : Definition}, InRange definition.counts →
    Carries Definition.ofJson? definition.toJson definition
  | .namespaceScope definition, _ =>
    .tagged (NamespaceDefinition.carries definition) fun levels read => by
      simp [ofJson?, read]
  | .typeScope definition, counted =>
    .tagged (TypeDefinition.carries counted) fun levels read => by
      simp [ofJson?, read]
  | .methodScope definition, counted =>
    .tagged (MethodDefinition.carries counted) fun levels read => by
      simp [ofJson?, read]
  | .placeholder, _ => ⟨plain_ofString _, fun levels _ => by cases levels <;> rfl⟩

theorem Facet.carries {facet : Facet} (counted : InRange facet.definition.counts) :
    Carries Facet.ofJson? facet.toJson facet := by
  have access := Access.carries facet.access
  have definition := Definition.carries counted
  refine .record (by simp [definition.plain]) fun levels deep => ?_
  simp only [List.forall_mem_cons] at deep
  simp [ofJson?, fields?_record, required?, access.decoded, definition.decoded, deep]

theorem NamedScope.carries {scope : NamedScope} (counted : InRange scope.counts) :
    Carries NamedScope.ofJson? scope.toJson scope := by
  obtain ⟨countedQualifier, countedFacets⟩ := inRange_append.mp counted
  have qualifier := Qualifier.carriesOption countedQualifier
  have facets : Carries _ _ scope.facets :=
    .list fun facet member => Facet.carries (inRange_flatMap.mp countedFacets facet member)
  refine .record (by simp [qualifier.plain, facets.plain]) fun levels deep => ?_
  simp only [List.forall_mem_cons] at deep
  simp [ofJson?, fields?_record, required?, qualifier.decoded levels, facets.decoded, deep]

namespace StatementKind

theorem carries_case (isDefault : Bool) :
    Carries caseOfJson? (.record [("is_default", .boolean isDefault)]) (.case isDefault) := by
  refine .record (by simp) fun levels _ => ?_
  simp [caseOfJson?, fields?_record, required?]

theorem carries_aliasing (target : List String) (name : String) :
    Carries aliasingOfJson?
      (.record [("target", .ofList .ofString target), ("alias_name", .ofString name)])
      (.aliasing target name) := by
  have path := Carries.list fun step (_ : step ∈ target) => carries_string step
  refine .record (by simp [path.plain]) fun levels deep => ?_
  simp only [List.forall_mem_cons] at deep
  simp [aliasingOfJson?, fields?_record, required?, stringsWithin?, path.decoded, deep]

theorem carries_importing (path : List String) :
    Carries importingOfJson? (.record [("namespace", .ofList .ofString path)]) (.importing path) := by
  have steps := Carries.list fun step (_ : step ∈ path) => carries_string step
  refine .record (by simp [steps.plain]) fun levels deep => ?_
  simp only [List.forall_mem_cons] at deep
  simp [importingOfJson?, fields?_record, required?, stringsWithin?, steps.decoded, deep]

theorem carries_word {word : String} {kind : StatementKind} (known : ofWord? word = some kind) :
    Carries ofJson? (.ofString word) kind :=
  ⟨plain_ofString word, fun levels _ => by cases levels <;> exact known⟩

theorem carries {kind : StatementKind} (counted : InRange kind.counts) :
    Carries ofJson? kind.toJson kind := by
  cases kind with
  | named scope =>
    have carried : Carries _ _ scope := NamedScope.carries (by simpa [counts, scope?] using counted)
    refine .tagged carried fun levels read => ?_
    show (do return named (← NamedScope.ofJson? levels scope.toJson)) = some (named scope)
    rw [read]
    rfl
  | case isDefault =>
    exact .tagged (carries_case isDefault) fun levels read => read
  | label name =>
    exact .tagged (carries_string name) fun levels _ => rfl
  | aliasing target name =>
    exact .tagged (carries_aliasing target name) fun levels read => read
  | importing path =>
    exact .tagged (carries_importing path) fun levels read => read
  | _ => exact carries_word rfl

end StatementKind

theorem Statement.carries {statement : Statement} (counted : InRange statement.counts) :
    Carries Statement.ofJson? statement.toJson statement := by
  simp only [counts, inRange_append] at counted
  obtain ⟨⟨⟨⟨countedKind, countedLocations⟩, countedContent⟩, countedParent⟩, countedChildren⟩ :=
    counted
  have kind := StatementKind.carries countedKind
  have language := Language.carries statement.language
  have locations : Carries _ _ statement.locations := .list fun location member =>
    Location.carries (inRange_flatMap.mp countedLocations location member)
  have content := Expression.carriesList countedContent
  have parent : Carries _ _ statement.parent :=
    .option (fun id member => carries_count (countedParent id (Option.mem_toList.mpr member)))
      (fun _ _ => nofun)
  have children : Carries _ _ statement.children :=
    .list fun id member => carries_count (countedChildren id member)
  refine .record (by simp [kind.plain, locations.plain, content.plain, parent.plain, children.plain])
    fun levels deep => ?_
  simp only [List.forall_mem_cons] at deep
  simp [ofJson?, fields?_record, required?, kind.decoded, language.decoded, locations.decoded,
    content.decoded, parent.decoded levels, children.decoded, deep]

namespace ScopeTree

theorem carries_slot {slot : Option Statement} (counted : InRange (slot.toList.flatMap Statement.counts)) :
    Carries slotOfJson? (.ofOption Statement.toJson slot) slot := by
  cases slot with
  | none => exact ⟨.null, fun _ _ => rfl⟩
  | some statement =>
    have filled := Statement.carries (inRange_flatMap.mp counted statement (by simp))
    refine ⟨filled.plain, fun levels deep => ?_⟩
    have read := filled.decoded levels deep
    show (Statement.ofJson? levels statement.toJson).map some = some (some statement)
    rw [read, Option.map_some]

/-- The archived form of a tree carries the tree. -/
theorem carries {tree : ScopeTree} (counted : InRange tree.counts) :
    Carries ScopeTree.ofJson? tree.toJson tree := by
  have slots : Carries _ _ tree.slots.toList :=
    .list fun slot member => carries_slot (inRange_flatMap.mp counted slot member)
  refine .record (by simp [slots.plain]) fun levels deep => ?_
  simp only [List.forall_mem_cons] at deep
  simp [ofJson?, fields?_record, required?, slots.decoded, deep]

end ScopeTree

end ScopeAtlas
