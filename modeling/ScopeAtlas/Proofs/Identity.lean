import Mathlib.Data.List.Basic
import ScopeAtlas.ScopeTree.Merge

/-!
What named scopes are paired by. A scope stands for an entity: a container by its name, or a
method by its name and signature. Scopes whose parameters all state a type are the same entity in
the sense of `sameIdentity` exactly when they stand for equal entities, and a scope stands for
what each of its facets stands for when the facets agree.
-/

namespace ScopeAtlas

/-- What a named scope is known by among the scopes of one parent. -/
inductive Entity
  | container (name : String)
  | method (name : String) (isConstructor isDestructor : Bool) (types : List (Option String))
  deriving DecidableEq

namespace Entity

def name : Entity → String
  | .container name => name
  | .method name _ _ _ => name

def Typed : Entity → Prop
  | .container _ => True
  | .method _ _ _ types => none ∉ types

end Entity

def MethodDefinition.typeNames (method : MethodDefinition) : List (Option String) :=
  method.parameters.map fun parameter => parameter.type.map TypeUse.name

def Definition.entity? (name : String) : Definition → Option Entity
  | .methodScope method =>
    some (.method name method.isConstructor method.isDestructor method.typeNames)
  | .namespaceScope _ | .typeScope _ | .placeholder =>
    if name = "" then none else some (.container name)

def NamedScope.entity? (scope : NamedScope) : Option Entity :=
  scope.definition.entity? scope.name

theorem entity?_container {name : String} {definition : Definition}
    (holds : definition.isContainer = true) :
    definition.entity? name = if name = "" then none else some (.container name) := by
  cases definition with
  | methodScope method => simp [Definition.isContainer] at holds
  | _ => rfl

theorem entity?_cases {name : String} {definition : Definition} {entity : Entity}
    (found : definition.entity? name = some entity) :
    (∃ method : MethodDefinition, definition = .methodScope method ∧
        entity = .method name method.isConstructor method.isDestructor method.typeNames) ∨
      definition.isContainer = true ∧ name ≠ "" ∧ entity = .container name := by
  cases kind : definition with
  | methodScope method =>
    rw [kind] at found
    exact .inl ⟨method, rfl, (Option.some.inj found).symm⟩
  | _ =>
    rw [kind] at found
    by_cases blank : name = ""
    · simp [Definition.entity?, blank] at found
    · simp only [Definition.entity?, if_neg blank, Option.some.injEq] at found
      exact .inr ⟨rfl, blank, found.symm⟩

theorem name_of_entity? {name : String} {definition : Definition} {entity : Entity}
    (found : definition.entity? name = some entity) : entity.name = name := by
  rcases entity?_cases found with ⟨method, _, rfl⟩ | ⟨_, _, rfl⟩
  · rfl
  · rfl

theorem parameters_agree_iff : ∀ {left right : List Variable},
    none ∉ left.map (fun parameter => parameter.type.map TypeUse.name) →
    none ∉ right.map (fun parameter => parameter.type.map TypeUse.name) →
    ((left.length = right.length ∧ ((left.zip right).all fun (first, second) =>
        MethodDefinition.parameterAgrees first second) = true) ↔
      left.map (fun parameter => parameter.type.map TypeUse.name) =
        right.map fun parameter => parameter.type.map TypeUse.name)
  | [], [], _, _ => by simp
  | [], _ :: _, _, _ => by simp
  | _ :: _, [], _, _ => by simp
  | first :: left, second :: right, leftTyped, rightTyped => by
    simp only [List.map_cons, List.mem_cons, not_or] at leftTyped rightTyped
    have rest := parameters_agree_iff leftTyped.2 rightTyped.2
    obtain ⟨firstType, firstAt⟩ : ∃ use, first.type = some use := by
      cases stated : first.type with
      | none => simp [stated] at leftTyped
      | some use => exact ⟨use, rfl⟩
    obtain ⟨secondType, secondAt⟩ : ∃ use, second.type = some use := by
      cases stated : second.type with
      | none => simp [stated] at rightTyped
      | some use => exact ⟨use, rfl⟩
    simp only [List.length_cons, Nat.add_right_cancel_iff, List.zip_cons_cons, List.all_cons,
      Bool.and_eq_true, List.map_cons, List.cons.injEq, firstAt, secondAt, Option.map_some,
      Option.some.injEq, MethodDefinition.parameterAgrees, beq_iff_eq, ← rest]
    tauto

theorem signatureMatches_iff {left right : MethodDefinition} (leftTyped : none ∉ left.typeNames)
    (rightTyped : none ∉ right.typeNames) : left.signatureMatches right = true ↔
      left.isConstructor = right.isConstructor ∧ left.isDestructor = right.isDestructor ∧
        left.typeNames = right.typeNames := by
  have agree := parameters_agree_iff leftTyped rightTyped
  simp only [MethodDefinition.signatureMatches, Bool.and_eq_true, beq_iff_eq, and_assoc]
  rw [MethodDefinition.typeNames, MethodDefinition.typeNames, ← agree]

theorem sameIdentity_free {left right : NamedScope} (paired : left.sameIdentity right = true) :
    left.qualifier = none ∧ right.qualifier = none := by
  simp only [NamedScope.sameIdentity, Bool.and_eq_true, Option.isNone_iff_eq_none] at paired
  exact ⟨paired.1.1.2, paired.1.2⟩

theorem sameIdentity_eq {left right : NamedScope} (leftFree : left.qualifier = none)
    (rightFree : right.qualifier = none) : left.sameIdentity right = true ↔
      left.name = right.name ∧
        ((∃ first second, left.definition = .methodScope first ∧
            right.definition = .methodScope second ∧ first.signatureMatches second = true) ∨
          left.definition.isContainer = true ∧ right.definition.isContainer = true ∧
            left.name ≠ "") := by
  simp only [NamedScope.sameIdentity, leftFree, rightFree, Option.isNone_none, Bool.and_true,
    Bool.and_eq_true, beq_iff_eq]
  cases left.definition <;> cases right.definition <;> simp [Definition.isContainer]

/-- Scopes without a pending qualifier are paired when they stand for the same entity. -/
theorem sameIdentity_iff {left right : NamedScope} (leftFree : left.qualifier = none)
    (rightFree : right.qualifier = none)
    (leftTyped : ∀ entity, left.entity? = some entity → entity.Typed)
    (rightTyped : ∀ entity, right.entity? = some entity → entity.Typed) :
    left.sameIdentity right = true ↔
      ∃ entity, left.entity? = some entity ∧ right.entity? = some entity := by
  rw [sameIdentity_eq leftFree rightFree]
  unfold NamedScope.entity? at leftTyped rightTyped ⊢
  constructor
  · rintro ⟨names, ⟨first, second, leftAt, rightAt, matching⟩ | ⟨leftHolds, rightHolds, nonempty⟩⟩
    · rw [leftAt] at leftTyped ⊢
      rw [rightAt] at rightTyped ⊢
      have same := (signatureMatches_iff (leftTyped _ rfl) (rightTyped _ rfl)).mp matching
      refine ⟨_, rfl, ?_⟩
      simp only [Definition.entity?, same, names]
    · refine ⟨.container left.name, ?_, ?_⟩
      · rw [entity?_container leftHolds, if_neg nonempty]
      · rw [entity?_container rightHolds, ← names, if_neg nonempty]
  · rintro ⟨entity, leftAt, rightAt⟩
    have names : left.name = right.name :=
      (name_of_entity? leftAt).symm.trans (name_of_entity? rightAt)
    refine ⟨names, ?_⟩
    rcases entity?_cases leftAt with ⟨first, firstAt, isFirst⟩ | ⟨leftHolds, nonempty, isLeft⟩
    · rcases entity?_cases rightAt with ⟨second, secondAt, isSecond⟩ | ⟨_, _, isRight⟩
      · have firstTyped := isFirst ▸ leftTyped entity leftAt
        have secondTyped := isSecond ▸ rightTyped entity rightAt
        refine .inl ⟨first, second, firstAt, secondAt, ?_⟩
        rw [signatureMatches_iff firstTyped secondTyped]
        rw [isFirst, Entity.method.injEq] at isSecond
        exact isSecond.2
      · simp [isFirst] at isRight
    · rcases entity?_cases rightAt with ⟨second, _, isSecond⟩ | ⟨rightHolds, _, _⟩
      · simp [isLeft] at isSecond
      · exact .inr ⟨leftHolds, rightHolds, nonempty⟩

theorem entity?_eq_container {scope : NamedScope} {name : String} (nonempty : name ≠ "") :
    scope.entity? = some (.container name) ↔ scope.name = name ∧ scope.isContainer = true := by
  constructor
  · intro found
    rcases entity?_cases found with ⟨_, _, isMethod⟩ | ⟨holds, _, same⟩
    · simp at isMethod
    · exact ⟨(Entity.container.inj same).symm, holds⟩
  · rintro ⟨rfl, holds⟩
    rw [NamedScope.entity?, entity?_container holds, if_neg nonempty]

theorem foremost?_mem {facets : List Facet} {facet : Facet}
    (found : Facet.foremost? facets = some facet) : facet ∈ facets := by
  have chosen : ∀ (rest : List Facet) (best : Facet),
      rest.foldl (fun best facet => if best.rank < facet.rank then facet else best) best ∈
        best :: rest := by
    intro rest
    induction rest with
    | nil => simp
    | cons next rest ih =>
      intro best
      rw [List.foldl_cons]
      by_cases higher : best.rank < next.rank
      · rw [if_pos higher]
        exact List.mem_cons_of_mem _ (ih next)
      · rw [if_neg higher]
        have inside : best :: rest ⊆ best :: next :: rest := by simp
        exact inside (ih best)
  cases facets with
  | nil => simp [Facet.foremost?] at found
  | cons first rest =>
    obtain rfl := Option.some.inj found
    exact chosen rest first

theorem exists_definition {scope : NamedScope} (spoken : scope.facets ≠ []) :
    ∃ facet ∈ scope.facets, scope.definition = facet.definition := by
  obtain ⟨first, rest, facets⟩ := List.exists_cons_of_ne_nil spoken
  obtain ⟨primary, primaryAt⟩ : ∃ primary, scope.primary? = some primary :=
    ⟨_, by rw [NamedScope.primary?, facets]; rfl⟩
  exact ⟨primary, foremost?_mem primaryAt, by rw [NamedScope.definition, primaryAt]⟩

theorem entity?_of_facets {scope : NamedScope} {entity : Option Entity}
    (spoken : scope.facets ≠ [])
    (agree : ∀ facet ∈ scope.facets, facet.definition.entity? scope.name = entity) :
    scope.entity? = entity := by
  obtain ⟨facet, member, same⟩ := exists_definition spoken
  rw [NamedScope.entity?, same, agree facet member]

end ScopeAtlas
