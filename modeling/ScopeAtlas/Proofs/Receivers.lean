import Mathlib.Data.List.Chain
import Mathlib.Data.List.Induction
import ScopeAtlas.SourceUnit.Linking

/-!
What linking makes of the parts of an expression. The parts so far stand on a stack. Each step takes
one part, and either it goes on top, or it makes a constructor call with the `new` on top, or it takes
a chain of operands from the top as its receiver. So what is on the stack was made, in this order, of
all the parts so far: an operand is still there, if need be inside a receiver, and an operator is
missing only where the part behind it was made with it.

Main statement: `link_keeps_operands`.
-/

namespace ScopeAtlas.SourceUnit

/-! ### Parts and what becomes of them -/

inductive Fate
  | kept
  | constructed
  | received
  | dropped
  deriving DecidableEq

/-- A part as it was written, and what became of it. -/
structure Written where
  part : Expression
  fate : Fate

inductive MemberChain : List Expression → Prop
  | single {operand : Expression} (operates : isOperand operand = true) : MemberChain [operand]
  | access {operand access : Expression} {rest : List Expression}
      (operates : isOperand operand = true) (accesses : isMemberAccess access = true)
      (chain : MemberChain rest) : MemberChain (operand :: access :: rest)

mutual

/-- A part of the result, and what it was made of in the order written. All that a call changes is
that it constructs, or that it has a receiver where it had none. -/
inductive Formed : Expression → List Written → Prop
  | kept (part : Expression) : Formed part [⟨part, .kept⟩]
  | constructedCall {sign part : Expression} {call : Call} (isSign : isNew sign = true)
      (kind : part.kind = .call call) :
      Formed { part with kind := .call { call with isConstructor := true } }
        [⟨sign, .dropped⟩, ⟨part, .constructed⟩]
  | constructedName {sign part : Expression} {use : NameUse} (isSign : isNew sign = true)
      (kind : part.kind = .name use) :
      Formed
        { part with
          kind := .call
            { Call.ofName use.name with qualifier := use.qualifier, isConstructor := true } }
        [⟨sign, .dropped⟩, ⟨part, .constructed⟩]
  | received {first access part : Expression} {rest : List Expression} {within : List Written}
      {call : Call} (chain : MemberChain (first :: rest)) (formed : FormedAll (first :: rest) within)
      (accesses : isMemberAccess access = true) (kind : part.kind = .call call)
      (free : call.object = none) (ordinary : call.isConstructor = false) :
      Formed { part with kind := .call { call with object := some (chainExpression first rest) } }
        (within ++ [⟨access, .dropped⟩, ⟨part, .received⟩])

inductive FormedAll : List Expression → List Written → Prop
  | nil : FormedAll [] []
  | cons {part : Expression} {rest : List Expression} {own others : List Written}
      (formed : Formed part own) (following : FormedAll rest others) :
      FormedAll (part :: rest) (own ++ others)

end

def isCallOrName (part : Expression) : Bool :=
  match part.kind with
  | .call _ | .name _ => true
  | _ => false

/-- A part and the one written directly behind it. The first is missing exactly if it is the `new`
of a call or name, or the access to a call that gained its receiver. -/
structure Adjacent (left right : Written) : Prop where
  drops : left.fate = .dropped ↔
    (isNew left.part = true ∧ isCallOrName right.part = true) ∨
      (isMemberAccess left.part = true ∧ right.fate = .received)
  constructs : right.fate = .constructed ↔
    isNew left.part = true ∧ isCallOrName right.part = true

section Kinds

variable {part made : Expression}

theorem isOperand_of_isNew (isSign : isNew part = true) : isOperand part = false := by
  unfold isNew at isSign
  unfold isOperand
  split at isSign
  · rfl
  · simp at isSign

theorem isOperand_of_isMemberAccess (accesses : isMemberAccess part = true) :
    isOperand part = false := by
  unfold isMemberAccess at accesses
  unfold isOperand
  split at accesses
  · rfl
  · simp at accesses

theorem isNew_of_isMemberAccess (accesses : isMemberAccess part = true) : isNew part = false := by
  unfold isMemberAccess at accesses
  unfold isNew
  split at accesses
  next text _ =>
    rw [beq_eq_false_iff_ne]
    rintro rfl
    simp [memberAccess] at accesses
  next => simp at accesses

theorem asConstructor?_eq_none_iff : asConstructor? part = none ↔ isCallOrName part = false := by
  unfold asConstructor? isCallOrName
  cases part.kind <;> simp

theorem attachReceiver_constructor (made_of : asConstructor? part = some made)
    (parts : List Expression) : attachReceiver parts made = made :: parts := by
  unfold asConstructor? at made_of
  split at made_of
  · obtain rfl := Option.some.inj made_of
    simp [attachReceiver]
  · obtain rfl := Option.some.inj made_of
    simp [attachReceiver]
  · simp at made_of

theorem formed_constructor {sign : Expression} (isSign : isNew sign = true)
    (made_of : asConstructor? part = some made) :
    Formed made [⟨sign, .dropped⟩, ⟨part, .constructed⟩] := by
  unfold asConstructor? at made_of
  split at made_of
  next call kind =>
    obtain rfl := Option.some.inj made_of
    exact .constructedCall isSign kind
  next use kind =>
    obtain rfl := Option.some.inj made_of
    exact .constructedName isSign kind
  next => simp at made_of

end Kinds

/-! ### What one step can do -/

theorem MemberChain.snoc {chain : List Expression} (members : MemberChain chain)
    {access operand : Expression} (accesses : isMemberAccess access = true)
    (operates : isOperand operand = true) : MemberChain (chain ++ [access, operand]) := by
  induction members with
  | single first => exact .access first accesses (.single operates)
  | access first between _ ih => exact .access first between ih

theorem takePairs_chain (parts : List Expression) :
    (takePairs parts).1 ++ (takePairs parts).2 = parts ∧
      ∀ operand, isOperand operand = true →
        MemberChain (operand :: (takePairs parts).1).reverse := by
  induction parts using takePairs.induct with
  | case1 access operand earlier taken _ _ _ ih =>
    rw [takePairs, if_pos taken]
    obtain ⟨accesses, operates⟩ := Bool.and_eq_true_iff.mp taken
    refine ⟨by simp [ih.1], fun last ends => ?_⟩
    have longer := (ih.2 operand operates).snoc accesses ends
    simpa using longer
  | case2 access operand earlier stays =>
    rw [takePairs, if_neg stays]
    exact ⟨rfl, fun last ends => .single ends⟩
  | case3 parts short =>
    rw [takePairs]
    · exact ⟨rfl, fun last ends => .single ends⟩
    · exact short

theorem takeReceiver?_eq_some {parts before : List Expression} {receiver : Expression}
    (taken : takeReceiver? parts = some (receiver, before)) :
    ∃ access first rest, isMemberAccess access = true ∧ MemberChain (first :: rest) ∧
      receiver = chainExpression first rest ∧
      parts = access :: ((first :: rest).reverse ++ before) := by
  unfold takeReceiver? at taken
  split at taken
  next access operand earlier =>
    split at taken
    next fits =>
      obtain ⟨accesses, operates⟩ := Bool.and_eq_true_iff.mp fits
      obtain ⟨whole, chains⟩ := takePairs_chain earlier
      have chain := chains operand operates
      dsimp only at taken
      cases turned : (operand :: (takePairs earlier).1).reverse with
      | nil => simp at turned
      | cons first rest =>
        rw [turned] at chain taken
        obtain ⟨rfl, rfl⟩ := Prod.mk.inj (Option.some.inj taken)
        refine ⟨access, first, rest, accesses, chain, rfl, ?_⟩
        rw [← turned, List.reverse_reverse, List.cons_append, whole]
    next => simp at taken
  next => simp at taken

theorem attachReceiver_cases (parts : List Expression) (part : Expression) :
    attachReceiver parts part = part :: parts ∨
      ∃ call access first rest before, part.kind = .call call ∧ call.object = none ∧
        call.isConstructor = false ∧ isMemberAccess access = true ∧ MemberChain (first :: rest) ∧
        parts = access :: ((first :: rest).reverse ++ before) ∧
        attachReceiver parts part =
          { part with kind := .call { call with object := some (chainExpression first rest) } } ::
            before := by
  unfold attachReceiver
  split
  next call kind =>
    split
    next => exact .inl rfl
    next open_ =>
      cases taken : takeReceiver? parts with
      | none => exact .inl rfl
      | some found =>
        obtain ⟨receiver, before⟩ := found
        obtain ⟨access, first, rest, accesses, chain, rfl, whole⟩ := takeReceiver?_eq_some taken
        rw [Bool.or_eq_true, not_or, Option.not_isSome_iff_eq_none, Bool.not_eq_true] at open_
        exact .inr ⟨call, access, first, rest, before, kind, open_.1, open_.2, accesses, chain, whole,
          rfl⟩
  next => exact .inl rfl

theorem linkStep_cases (parts : List Expression) (part : Expression) :
    (∃ sign earlier made, parts = sign :: earlier ∧ isNew sign = true ∧
      asConstructor? part = some made ∧ linkStep parts part = made :: earlier) ∨
    ((∀ sign earlier, parts = sign :: earlier → isNew sign = true → isCallOrName part = false) ∧
      linkStep parts part = attachReceiver parts part) := by
  cases parts with
  | nil => exact .inr ⟨by simp, rfl⟩
  | cons previous earlier =>
    rw [linkStep]
    split
    next isSign =>
      cases made_of : asConstructor? part with
      | none =>
        refine .inr ⟨?_, rfl⟩
        rintro sign others ⟨⟩ _
        exact asConstructor?_eq_none_iff.mp made_of
      | some made =>
        exact .inl ⟨previous, earlier, made, rfl, isSign, rfl, attachReceiver_constructor made_of _⟩
    next other =>
      refine .inr ⟨?_, rfl⟩
      rintro sign others ⟨⟩ isSign
      exact absurd isSign other

/-! ### What the stack is made of -/

theorem formedAll_append {left right : List Expression} {written : List Written} :
    FormedAll (left ++ right) written ↔ ∃ first second, written = first ++ second ∧
      FormedAll left first ∧ FormedAll right second := by
  induction left generalizing written with
  | nil =>
    constructor
    · exact fun formed => ⟨[], written, rfl, .nil, formed⟩
    · rintro ⟨first, second, rfl, ⟨⟩, formed⟩
      exact formed
  | cons part rest ih =>
    constructor
    · intro formed
      cases formed with
      | cons own following =>
        obtain ⟨first, second, rfl, front, back⟩ := ih.mp following
        exact ⟨_, second, (List.append_assoc _ _ _).symm, .cons own front, back⟩
    · rintro ⟨first, second, rfl, front, back⟩
      cases front with
      | cons own following =>
        rw [List.append_assoc]
        exact .cons own (ih.mpr ⟨_, second, rfl, following, back⟩)

theorem formedAll_singleton {part : Expression} {written : List Written} :
    FormedAll [part] written ↔ Formed part written := by
  constructor
  · intro formed
    cases formed with
    | cons own following =>
      cases following
      rwa [List.append_nil]
  · intro formed
    simpa using FormedAll.cons formed .nil

theorem Formed.of_operator {part : Expression} {own : List Written} (formed : Formed part own)
    (operator : isOperand part = false) : own = [⟨part, .kept⟩] := by
  cases formed with
  | kept => rfl
  | constructedCall => simp [isOperand] at operator
  | constructedName => simp [isOperand] at operator
  | received => simp [isOperand] at operator

theorem Formed.getLast? {part : Expression} {own : List Written} (formed : Formed part own) :
    ∃ last ∈ own.getLast?, last.fate ≠ .dropped ∧ (isOperand last.part = false → part = last.part) := by
  cases formed with
  | kept => exact ⟨_, rfl, by simp, fun _ => rfl⟩
  | constructedCall _ kind =>
    exact ⟨_, rfl, by simp, fun operator => by simp [isOperand, kind] at operator⟩
  | constructedName _ kind =>
    exact ⟨_, rfl, by simp, fun operator => by simp [isOperand, kind] at operator⟩
  | @received _ _ part _ _ _ _ _ _ kind =>
    refine ⟨⟨part, .received⟩, by simp, by simp, fun operator => ?_⟩
    simp [isOperand, kind] at operator

/-- The stack after the given parts, the latest on top, and what it was made of. -/
structure Stacked (parts stack : List Expression) (written : List Written) : Prop where
  parts : written.map Written.part = parts
  formed : FormedAll stack.reverse written
  adjacent : written.IsChain Adjacent

section Step

variable {parts stack : List Expression} {written : List Written} {part : Expression}

theorem stacked_nil : Stacked [] [] [] :=
  ⟨rfl, .nil, .nil⟩

theorem Stacked.last (stacked : Stacked parts stack written) {last : Written}
    (ends : written.getLast? = some last) :
    last.fate ≠ .dropped ∧
      (isOperand last.part = false → ∃ earlier, stack = last.part :: earlier) := by
  cases stack with
  | nil =>
    cases stacked.formed
    simp at ends
  | cons top earlier =>
    have formed := stacked.formed
    rw [List.reverse_cons, formedAll_append] at formed
    obtain ⟨front, own, rfl, _, single⟩ := formed
    obtain ⟨final, finalAt, stays, whole⟩ := (formedAll_singleton.mp single).getLast?
    rw [List.getLast?_append, finalAt, Option.some_or, Option.some.injEq] at ends
    subst ends
    exact ⟨stays, fun operator => ⟨earlier, by rw [whole operator]⟩⟩

theorem Stacked.operator_top {top : Expression} {earlier : List Expression}
    (stacked : Stacked parts (top :: earlier) written) (operator : isOperand top = false) :
    ∃ front, written = front ++ [⟨top, .kept⟩] ∧ FormedAll earlier.reverse front := by
  have formed := stacked.formed
  rw [List.reverse_cons, formedAll_append] at formed
  obtain ⟨front, own, rfl, before, single⟩ := formed
  rw [(formedAll_singleton.mp single).of_operator operator]
  exact ⟨front, rfl, before⟩

theorem isChain_drop {front : List Written} {operator : Expression}
    (adjacent : List.IsChain Adjacent (front ++ [⟨operator, .kept⟩])) :
    List.IsChain Adjacent (front ++ [⟨operator, .dropped⟩]) := by
  rw [List.isChain_append] at adjacent ⊢
  obtain ⟨before, _, meet⟩ := adjacent
  refine ⟨before, .singleton _, fun last ends right isRight => ?_⟩
  obtain rfl : ⟨operator, .dropped⟩ = right := Option.some.inj isRight
  obtain ⟨drops, constructs⟩ := meet last ends ⟨operator, .kept⟩ rfl
  exact ⟨by simpa using drops, by simpa using constructs⟩

theorem isChain_snoc {front : List Written} {left right : Written}
    (adjacent : List.IsChain Adjacent (front ++ [left])) (meet : Adjacent left right) :
    List.IsChain Adjacent (front ++ [left, right]) := by
  rw [List.isChain_append_cons_cons]
  exact ⟨adjacent, meet, .singleton _⟩

theorem Stacked.construct {sign made : Expression} {earlier : List Expression}
    (stacked : Stacked parts (sign :: earlier) written) (isSign : isNew sign = true)
    (made_of : asConstructor? part = some made) :
    ∃ written, Stacked (parts ++ [part]) (made :: earlier) written := by
  obtain ⟨front, rfl, before⟩ := stacked.operator_top (isOperand_of_isNew isSign)
  have either : isCallOrName part = true := by
    by_contra neither
    rw [Bool.not_eq_true, ← asConstructor?_eq_none_iff, made_of] at neither
    simp at neither
  refine ⟨front ++ [⟨sign, .dropped⟩, ⟨part, .constructed⟩], ?_, ?_, ?_⟩
  · simp [← stacked.parts]
  · rw [List.reverse_cons, formedAll_append]
    exact ⟨front, _, rfl, before, formedAll_singleton.mpr (formed_constructor isSign made_of)⟩
  · refine isChain_snoc (isChain_drop stacked.adjacent) ?_
    exact ⟨by simp [isSign, either], by simp [isSign, either]⟩

theorem Stacked.receive {access first : Expression} {rest before : List Expression} {call : Call}
    (stacked : Stacked parts (access :: ((first :: rest).reverse ++ before)) written)
    (accesses : isMemberAccess access = true) (chain : MemberChain (first :: rest))
    (kind : part.kind = .call call) (free : call.object = none)
    (ordinary : call.isConstructor = false) :
    ∃ written, Stacked (parts ++ [part])
      ({ part with kind := .call { call with object := some (chainExpression first rest) } } :: before)
      written := by
  obtain ⟨front, rfl, inside⟩ := stacked.operator_top (isOperand_of_isMemberAccess accesses)
  rw [List.reverse_append, List.reverse_reverse, formedAll_append] at inside
  obtain ⟨outer, within, rfl, others, formed⟩ := inside
  refine ⟨outer ++ within ++ [⟨access, .dropped⟩, ⟨part, .received⟩], ?_, ?_, ?_⟩
  · simp [← stacked.parts]
  · rw [List.reverse_cons, formedAll_append]
    refine ⟨outer, _, List.append_assoc _ _ _, others, formedAll_singleton.mpr ?_⟩
    exact .received chain formed accesses kind free ordinary
  · refine isChain_snoc (isChain_drop stacked.adjacent) ?_
    exact ⟨by simp [accesses], by simp [isNew_of_isMemberAccess accesses]⟩

theorem Stacked.push (stacked : Stacked parts stack written)
    (ordinary : ∀ sign earlier, stack = sign :: earlier → isNew sign = true →
      isCallOrName part = false) :
    ∃ written, Stacked (parts ++ [part]) (part :: stack) written := by
  refine ⟨written ++ [⟨part, .kept⟩], by simp [← stacked.parts], ?_, ?_⟩
  · rw [List.reverse_cons, formedAll_append]
    exact ⟨written, _, rfl, stacked.formed, formedAll_singleton.mpr (.kept part)⟩
  · refine stacked.adjacent.append (.singleton _) fun last ends right isRight => ?_
    obtain rfl : ⟨part, .kept⟩ = right := Option.some.inj isRight
    obtain ⟨stays, top⟩ := stacked.last ends
    have none : ¬ (isNew last.part = true ∧ isCallOrName part = true) := by
      rintro ⟨isSign, either⟩
      obtain ⟨earlier, rfl⟩ := top (isOperand_of_isNew isSign)
      simp [ordinary _ _ rfl isSign] at either
    exact ⟨by simp [stays, none], by simp [none]⟩

theorem Stacked.step (stacked : Stacked parts stack written) (part : Expression) :
    ∃ written, Stacked (parts ++ [part]) (linkStep stack part) written := by
  rcases linkStep_cases stack part with
    ⟨sign, earlier, made, rfl, isSign, made_of, stepped⟩ | ⟨ordinary, stepped⟩
  · rw [stepped]
    exact stacked.construct isSign made_of
  · rw [stepped]
    rcases attachReceiver_cases stack part with
      pushed | ⟨call, access, first, rest, before, kind, free, plain, accesses, chain, rfl, attached⟩
    · rw [pushed]
      exact stacked.push ordinary
    · rw [attached]
      exact stacked.receive accesses chain kind free plain

end Step

theorem exists_stacked (parts : List Expression) :
    ∃ written, Stacked parts (parts.foldl linkStep []) written := by
  induction parts using List.reverseRecOn with
  | nil => exact ⟨[], stacked_nil⟩
  | append_singleton parts part ih =>
    obtain ⟨written, stacked⟩ := ih
    rw [List.foldl_append]
    exact stacked.step part

/-- Linking loses no part of an expression. Every part of the result was made of parts that were
written one behind the other, and together these are all the parts in their order. Every operand is
still there, on its own or inside the receiver of a later call. An operator is missing exactly if it
is a `new` directly before a call or name, which became a constructor call, or the member access
directly before a call that gained a receiver. -/
theorem link_keeps_operands (parts : List Expression) :
    ∃ written : List Written, written.map Written.part = parts ∧ FormedAll (link parts) written ∧
      (∀ entry ∈ written, isOperand entry.part = true → entry.fate ≠ .dropped) ∧
      (∀ before entry after, written = before ++ entry :: after →
        (entry.fate = .dropped ↔ ∃ next others, after = next :: others ∧
          ((isNew entry.part = true ∧ isCallOrName next.part = true) ∨
            (isMemberAccess entry.part = true ∧ next.fate = .received)))) ∧
      ∀ before entry next after, written = before ++ entry :: next :: after →
        (next.fate = .constructed ↔ isNew entry.part = true ∧ isCallOrName next.part = true) := by
  obtain ⟨written, stacked⟩ := exists_stacked parts
  have adjacent := stacked.adjacent
  have missing : ∀ before entry after, written = before ++ entry :: after →
      (entry.fate = .dropped ↔ ∃ next others, after = next :: others ∧
        ((isNew entry.part = true ∧ isCallOrName next.part = true) ∨
          (isMemberAccess entry.part = true ∧ next.fate = .received))) := by
    rintro before entry after whole
    cases after with
    | nil =>
      have ends : written.getLast? = some entry := by simp [whole]
      simp [(stacked.last ends).1]
    | cons next others =>
      rw [whole, List.isChain_append_cons_cons] at adjacent
      rw [adjacent.2.1.drops]
      constructor
      · exact fun reason => ⟨next, others, rfl, reason⟩
      · rintro ⟨_, _, ⟨⟩, reason⟩
        exact reason
  refine ⟨written, stacked.parts, stacked.formed, ?_, missing, ?_⟩
  · intro entry member operates drops
    obtain ⟨before, after, whole⟩ := List.append_of_mem member
    obtain ⟨next, others, _, ⟨isSign, _⟩ | ⟨accesses, _⟩⟩ := (missing before entry after whole).mp drops
    · simp [isOperand_of_isNew isSign] at operates
    · simp [isOperand_of_isMemberAccess accesses] at operates
  · intro before entry next after whole
    rw [whole, List.isChain_append_cons_cons] at adjacent
    exact adjacent.2.1.constructs

end ScopeAtlas.SourceUnit
