import ScopeAtlas.Proofs.Concatenation
import Mathlib.Data.List.Forall2

/-!
A document read inside an open element instead of on its own. The elements above the outer one
are opened, filled and closed as they are without it; only their locators may differ, since
these begin with the locator of the document's root. So a rewriting of locators is carried along
under which the two readings agree.
-/

namespace ScopeAtlas.Markup

def Head.relocate (change : String → String) (head : Head) : Head :=
  { head with locator := change head.locator }

namespace Node

mutual

def relocate (change : String → String) : Node → Node
  | .text content => .text content
  | .element head children => .element (head.relocate change) (relocateAll change children)

def relocateAll (change : String → String) : List Node → List Node
  | [] => []
  | node :: rest => node.relocate change :: relocateAll change rest

end

theorem relocateAll_eq_map (change : String → String) (nodes : List Node) :
    relocateAll change nodes = nodes.map (relocate change) := by
  induction nodes with
  | nil => rfl
  | cons node rest ih => rw [relocateAll, ih, List.map_cons]

theorem start?_relocate (change : String → String) (node : Node) :
    (node.relocate change).start? = node.start? := by
  cases node <;> rfl

theorem firstStart?_relocate (change : String → String) (nodes : List Node) :
    firstStart? (nodes.map (relocate change)) = firstStart? nodes := by
  simp only [firstStart?, List.findSome?_map]
  congr 1
  funext node
  exact start?_relocate change node

mutual

theorem relocate_id : ∀ node : Node, node.relocate id = node
  | .text _ => rfl
  | .element head children => by rw [relocate, relocateAll_id children]; rfl

theorem relocateAll_id : ∀ nodes : List Node, relocateAll id nodes = nodes
  | [] => rfl
  | node :: rest => by rw [relocateAll, relocate_id node, relocateAll_id rest]

end

end Node

def Element.relocate (change : String → String) (element : Element) : Element :=
  ⟨element.head.relocate change, element.children.map (Node.relocate change)⟩

theorem Element.relocate_id (element : Element) : element.relocate id = element := by
  rw [relocate, ← Node.relocateAll_eq_map, Node.relocateAll_id]
  rfl

theorem Element.relocate_toNode (change : String → String) (element : Element) :
    (element.relocate change).toNode = element.toNode.relocate change := by
  rw [toNode, toNode, Node.relocate, Node.relocateAll_eq_map]
  rfl

theorem Head.relocate_make (change : String → String) (qualified : String)
    (attributes : List (String × String)) (locator : String) :
    (make qualified attributes locator).relocate change =
      make qualified attributes (change locator) := by
  unfold make relocate
  dsimp only
  split <;> rfl

namespace OpenElement

def adopt (parent : OpenElement) (child : Element) : OpenElement :=
  { parent with content := child.toNode :: parent.content }

def fresh (qualified : String) (attributes : List (String × String)) (locator : String) :
    OpenElement :=
  ⟨qualified, Head.make qualified attributes locator, [], []⟩

def relocate (change : String → String) (element : OpenElement) : OpenElement :=
  { element with
    head := element.head.relocate change
    content := element.content.map (Node.relocate change) }

variable {change : String → String}

theorem relocate_addText (element : OpenElement) (text : String) :
    (element.addText text).relocate change = (element.relocate change).addText text := by
  obtain ⟨qualified, head, content, childNames⟩ := element
  rcases content with _ | ⟨before | child, others⟩ <;> rfl

theorem relocate_noteChild (element : OpenElement) (qualified : String) :
    (element.noteChild qualified).relocate change =
      (element.relocate change).noteChild qualified := by
  unfold noteChild
  split
  next unit =>
    rw [if_pos]
    exact unit
  next other =>
    rw [if_neg]
    · rfl
    · exact other

theorem relocate_adopt (parent : OpenElement) (child : Element) :
    (parent.adopt child).relocate change =
      (parent.relocate change).adopt (child.relocate change) := by
  simp only [adopt, relocate, List.map_cons, Element.relocate_toNode]

theorem relocate_close (element : OpenElement) :
    element.close.relocate change = (element.relocate change).close := by
  have children : (element.relocate change).content.reverse =
      element.content.reverse.map (Node.relocate change) := by
    rw [relocate, List.map_reverse]
  have stated : (element.relocate change).head.hasStart = element.head.hasStart := rfl
  unfold close
  simp only [stated, children, Node.firstStart?_relocate]
  split
  · rfl
  · split <;> rfl

def Alike (change : String → String) (first second : OpenElement) : Prop :=
  first.relocate change = second.relocate change

namespace Alike

variable {first second : OpenElement}

theorem addText (alike : Alike change first second) (text : String) :
    Alike change (first.addText text) (second.addText text) := by
  rw [Alike, relocate_addText, relocate_addText, alike]

theorem noteChild (alike : Alike change first second) (qualified : String) :
    Alike change (first.noteChild qualified) (second.noteChild qualified) := by
  rw [Alike, relocate_noteChild, relocate_noteChild, alike]

theorem adopt (alike : Alike change first second) {child other : Element}
    (same : child.relocate change = other.relocate change) :
    Alike change (first.adopt child) (second.adopt other) := by
  rw [Alike, relocate_adopt, relocate_adopt, alike, same]

theorem close (alike : Alike change first second) :
    first.close.relocate change = second.close.relocate change := by
  rw [relocate_close, relocate_close, alike]

theorem qualified (alike : Alike change first second) : first.qualified = second.qualified := by
  have same := congrArg OpenElement.qualified alike
  exact same

theorem fresh {here there : String} (same : change here = change there) (qualified : String)
    (attributes : List (String × String)) :
    Alike change (OpenElement.fresh qualified attributes here)
      (OpenElement.fresh qualified attributes there) := by
  simp only [Alike, relocate, OpenElement.fresh, Head.relocate_make, same]

theorem childLocator (alike : Alike change first second)
    (stable : ∀ here there rest, change here = change there →
      change (here ++ rest) = change (there ++ rest)) (qualified : String) :
    change (first.childLocator qualified) = change (second.childLocator qualified) := by
  have names := congrArg (fun element => element.head.name) alike
  have counted := congrArg OpenElement.childNames alike
  have locators := congrArg (fun element => element.head.locator) alike
  simp only [relocate, Head.relocate] at names counted locators
  unfold OpenElement.childLocator
  rw [names, counted]
  split
  · rfl
  · simp only [String.append_assoc]
    exact stable _ _ _ locators

end Alike

end OpenElement

def outermost : Nat → List Event → List String
  | _, [] => []
  | depth, .start content :: rest =>
    (if depth = 0 then [tagName content] else []) ++ outermost (depth + 1) rest
  | depth, .whole content :: rest =>
    (if depth = 0 then [tagName content] else []) ++ outermost depth rest
  | depth, .finish _ :: rest => outermost (depth - 1) rest
  | depth, .text _ :: rest => outermost depth rest
  | depth, .reference _ :: rest => outermost depth rest
  | depth, .characterData _ :: rest => outermost depth rest
  | depth, .passed :: rest => outermost depth rest
  | depth, .fault _ :: rest => outermost depth rest

namespace Reading

def opened (reading : Reading) (qualified : String) (attributes : List (String × String)) :
    Reading :=
  match reading.stack with
  | [] => { reading with stack := [.fresh qualified attributes ("/" ++ qualified)] }
  | parent :: others =>
    { reading with
      stack := .fresh qualified attributes (parent.childLocator qualified) ::
        parent.noteChild qualified :: others }

theorem openTag_eq {reading next : Reading} {content : List Char}
    (moved : reading.openTag content = .ok next) :
    ∃ attributes, next = reading.opened (tagName content) attributes ∧
      ∀ other : Reading,
        other.openTag content = .ok (other.opened (tagName content) attributes) := by
  cases read : tagAttributes content with
  | error failure => simp [openTag, read, bind, Except.bind] at moved
  | ok attributes =>
    have all (other : Reading) :
        other.openTag content = .ok (other.opened (tagName content) attributes) := by
      obtain ⟨stack, root⟩ := other
      cases stack <;> simp [openTag, opened, read, bind, Except.bind, pure, Except.pure,
        OpenElement.fresh]
    rw [all, Except.ok.injEq] at moved
    exact ⟨attributes, moved.symm, all⟩

/-- What one event does: it leaves the open elements as they are but for text in the innermost,
or opens an element, or opens and closes one, or closes the innermost. Only the last depends on
what is open. -/
theorem step_cases {reading next : Reading} {event : Event}
    (moved : reading.step event = .ok next) :
    (∃ change : Reading → Reading, (change = id ∨ ∃ text, change = (addText · text)) ∧
      (∀ depth rest, outermost depth (event :: rest) = outermost depth rest) ∧
      next = change reading ∧ ∀ other : Reading, other.step event = .ok (change other)) ∨
    (∃ content attributes, event = .start content ∧
      next = reading.opened (tagName content) attributes ∧
      ∀ other : Reading, other.step event = .ok (other.opened (tagName content) attributes)) ∨
    (∃ content attributes, event = .whole content ∧
      next = (reading.opened (tagName content) attributes).closeTag ∧
      ∀ other : Reading,
        other.step event = .ok (other.opened (tagName content) attributes).closeTag) ∨
    (∃ name, event = .finish name ∧ next = reading.closeTag ∧
      ∃ inner others, reading.stack = inner :: others ∧ inner.qualified = String.ofList name) := by
  cases event with
  | start content =>
    obtain ⟨attributes, same, all⟩ := openTag_eq moved
    exact .inr (.inl ⟨content, attributes, rfl, same, all⟩)
  | whole content =>
    cases opens : reading.openTag content with
    | error failure => simp [step, opens, bind, Except.bind] at moved
    | ok between =>
      obtain ⟨attributes, same, all⟩ := openTag_eq opens
      simp only [step, opens, bind, Except.bind, pure, Except.pure, Except.ok.injEq] at moved
      refine .inr (.inr (.inl ⟨content, attributes, rfl, ?_, ?_⟩))
      · rw [← moved, same]
      · intro other
        simp only [step, all other, bind, Except.bind, pure, Except.pure]
  | finish name =>
    refine .inr (.inr (.inr ⟨name, rfl, ?_⟩))
    obtain ⟨stack, root⟩ := reading
    cases stack with
    | nil => simp [step] at moved
    | cons inner others =>
      by_cases named : inner.qualified = String.ofList name
      · simp only [step, named, beq_self_eq_true, ↓reduceIte, Except.ok.injEq] at moved
        exact ⟨moved.symm, inner, others, rfl, named⟩
      · simp [step, named] at moved
  | text content =>
    simp only [step, Except.ok.injEq] at moved
    exact .inl ⟨(addText · (String.ofList content)), .inr ⟨_, rfl⟩, fun _ _ => rfl, moved.symm,
      fun _ => rfl⟩
  | reference name =>
    cases resolved : resolveName 1 name with
    | error fault => simp [step, resolved] at moved
    | ok letter =>
      simp only [step, resolved, Except.ok.injEq] at moved
      refine .inl ⟨(addText · letter.toString), .inr ⟨_, rfl⟩, fun _ _ => rfl, moved.symm, ?_⟩
      intro other
      simp only [step, resolved]
  | characterData content =>
    simp only [step, Except.ok.injEq] at moved
    exact .inl ⟨(addText · (String.ofList content)), .inr ⟨_, rfl⟩, fun _ _ => rfl, moved.symm,
      fun _ => rfl⟩
  | passed =>
    simp only [step, Except.ok.injEq] at moved
    exact .inl ⟨id, .inl rfl, fun _ _ => rfl, moved.symm, fun _ => rfl⟩
  | fault cause => simp [step] at moved

theorem run_cons {reading final : Reading} {event : Event} {rest : List Event} :
    (event :: rest).foldlM step reading = .ok final ↔
      ∃ between, reading.step event = .ok between ∧ rest.foldlM step between = .ok final := by
  rw [List.foldlM_cons]
  cases reading.step event <;> simp [bind, Except.bind]

theorem run_induction {property : Reading → Prop}
    (addText : ∀ reading text, property reading → property (reading.addText text))
    (opened : ∀ reading qualified attributes, property reading →
      property (reading.opened qualified attributes))
    (closeTag : ∀ reading, property reading → property reading.closeTag)
    {events : List Event} {reading last : Reading} (holds : property reading)
    (read : events.foldlM step reading = .ok last) : property last := by
  induction events generalizing reading with
  | nil =>
    simp only [List.foldlM_nil, pure, Except.pure, Except.ok.injEq] at read
    exact read ▸ holds
  | cons event rest ih =>
    obtain ⟨between, moved, read⟩ := run_cons.mp read
    refine ih ?_ read
    rcases step_cases moved with ⟨change, kind, _, rfl, _⟩ | ⟨content, attributes, _, rfl, _⟩ |
      ⟨content, attributes, _, rfl, _⟩ | ⟨name, _, rfl, _⟩
    · rcases kind with rfl | ⟨text, rfl⟩
      · exact holds
      · exact addText reading text holds
    · exact opened reading _ attributes holds
    · exact closeTag _ (opened reading _ attributes holds)
    · exact closeTag reading holds

end Reading

structure OpenElement.Gains (gained : List Element) (before after : OpenElement) : Prop where
  head : after.head = before.head
  qualified : after.qualified = before.qualified
  elements : after.content.filterMap Node.element? =
    gained ++ before.content.filterMap Node.element?

namespace OpenElement.Gains

variable {outer between later : OpenElement} {gained others : List Element}

theorem addText (gains : Gains gained outer later) (text : String) :
    Gains gained outer (later.addText text) := by
  obtain ⟨qualified, head, content, childNames⟩ := later
  rcases content with _ | ⟨before | child, others⟩
  · exact ⟨gains.head, gains.qualified, gains.elements⟩
  · exact ⟨gains.head, gains.qualified, gains.elements⟩
  · exact ⟨gains.head, gains.qualified, gains.elements⟩

theorem refl (outer : OpenElement) : Gains [] outer outer :=
  ⟨rfl, rfl, rfl⟩

theorem noteChild (outer : OpenElement) (qualified : String) :
    Gains [] outer (outer.noteChild qualified) := by
  unfold OpenElement.noteChild
  split <;> exact ⟨rfl, rfl, rfl⟩

theorem adopt (outer : OpenElement) (child : Element) : Gains [child] outer (outer.adopt child) :=
  ⟨rfl, rfl, rfl⟩

theorem trans (first : Gains gained outer between) (second : Gains others between later) :
    Gains (others ++ gained) outer later := by
  refine ⟨second.head.trans first.head, second.qualified.trans first.qualified, ?_⟩
  rw [second.elements, first.elements, List.append_assoc]

end OpenElement.Gains

def Head.SameTag (first second : Head) : Prop :=
  first.name = second.name ∧ first.space = second.space ∧ first.locator = second.locator

theorem OpenElement.close_sameTag (element : OpenElement) :
    element.close.head.SameTag element.head := by
  unfold close
  dsimp only
  split
  · exact ⟨rfl, rfl, rfl⟩
  · split <;> exact ⟨rfl, rfl, rfl⟩

namespace Reading

open OpenElement

theorem outside_run {rest : List Event} {root : Option Element} {final : Reading}
    (outer : OpenElement) (opens : outermost 0 rest = [])
    (read : rest.foldlM step ⟨[], root⟩ = .ok final) :
    final = ⟨[], root⟩ ∧ ∃ later, rest.foldlM step ⟨[outer], none⟩ = .ok ⟨[later], none⟩ ∧
      outer.Gains [] later := by
  induction rest generalizing outer with
  | nil =>
    simp only [List.foldlM_nil, pure, Except.pure, Except.ok.injEq] at read
    exact ⟨read.symm, outer, rfl, .refl outer⟩
  | cons event rest ih =>
    obtain ⟨between, moved, read⟩ := run_cons.mp read
    rcases step_cases moved with ⟨change, kind, quiet, same, all⟩ | ⟨content, attributes, rfl, _⟩ |
      ⟨content, attributes, rfl, _⟩ | ⟨name, rfl, _, inner, others, shape, _⟩
    · rw [quiet] at opens
      subst same
      have here : change ⟨[], root⟩ = ⟨[], root⟩ := by
        rcases kind with rfl | ⟨text, rfl⟩ <;> rfl
      obtain ⟨added, adds, gains⟩ :
          ∃ added, change ⟨[outer], none⟩ = ⟨[added], none⟩ ∧ outer.Gains [] added := by
        rcases kind with rfl | ⟨text, rfl⟩
        · exact ⟨outer, rfl, .refl outer⟩
        · exact ⟨outer.addText text, rfl, (Gains.refl outer).addText text⟩
      rw [here] at read
      obtain ⟨stays, later, nested, rest⟩ := ih added opens read
      refine ⟨stays, later, run_cons.mpr ⟨_, all _, ?_⟩, gains.trans rest⟩
      rw [adds]
      exact nested
    · simp [outermost] at opens
    · simp [outermost] at opens
    · simp at shape

theorem step_finish {inner : OpenElement} {name : List Char} (others : List OpenElement)
    (root : Option Element) (named : inner.qualified = String.ofList name) :
    step ⟨inner :: others, root⟩ (.finish name) = .ok (closeTag ⟨inner :: others, root⟩) := by
  simp only [step, named, beq_self_eq_true, ↓reduceIte]

/-- The open elements of a document as it is read on its own and above an outer element: they
are alike, and at the bottom of both stands the root, with its two heads. -/
structure Mirrors (change : String → String) (here there : Head)
    (stack above : List OpenElement) : Prop where
  alike : List.Forall₂ (Alike change) stack above
  bottom : (stack.map OpenElement.head).getLast? = some here
  nestedBottom : (above.map OpenElement.head).getLast? = some there

namespace Mirrors

variable {change : String → String} {here there : Head} {inner innerAbove : OpenElement}
  {others othersAbove : List OpenElement}

theorem retop {top topAbove : OpenElement}
    (mirrors : Mirrors change here there (inner :: others) (innerAbove :: othersAbove))
    (alike : Alike change top topAbove) (head : top.head = inner.head)
    (headAbove : topAbove.head = innerAbove.head) :
    Mirrors change here there (top :: others) (topAbove :: othersAbove) := by
  obtain ⟨all, bottom, nestedBottom⟩ := mirrors
  refine ⟨.cons alike (List.forall₂_cons.mp all).2, ?_, ?_⟩
  · rw [List.map_cons, head]
    exact bottom
  · rw [List.map_cons, headAbove]
    exact nestedBottom

theorem push {top topAbove : OpenElement}
    (mirrors : Mirrors change here there (inner :: others) (innerAbove :: othersAbove))
    (alike : Alike change top topAbove) :
    Mirrors change here there (top :: inner :: others) (topAbove :: innerAbove :: othersAbove) := by
  refine ⟨.cons alike mirrors.alike, ?_, ?_⟩
  · simpa only [List.map_cons, List.getLast?_cons_cons] using mirrors.bottom
  · simpa only [List.map_cons, List.getLast?_cons_cons] using mirrors.nestedBottom

theorem pop {top topAbove : OpenElement}
    (mirrors : Mirrors change here there (top :: inner :: others)
      (topAbove :: innerAbove :: othersAbove)) :
    Mirrors change here there (inner :: others) (innerAbove :: othersAbove) := by
  refine ⟨(List.forall₂_cons.mp mirrors.alike).2, ?_, ?_⟩
  · simpa only [List.map_cons, List.getLast?_cons_cons] using mirrors.bottom
  · simpa only [List.map_cons, List.getLast?_cons_cons] using mirrors.nestedBottom

end Mirrors

section Inside

variable {change : String → String} {here there : Head} {stack above : List OpenElement}
  {outer : OpenElement} {root : Option Element}
  (stable : ∀ first second rest, change first = change second →
    change (first ++ rest) = change (second ++ rest))
include stable

theorem inside_step {event : Event} {next : Reading}
    (mirrors : Mirrors change here there stack above)
    (moved : step ⟨stack, root⟩ event = .ok next) :
    (∃ later, step ⟨above ++ [outer], none⟩ event = .ok ⟨later ++ [outer], none⟩ ∧
      Mirrors change here there next.stack later ∧
      ∀ rest, outermost stack.length (event :: rest) = [] →
        outermost next.stack.length rest = []) ∨
    (∃ last lastAbove, next = ⟨[], some last.close⟩ ∧
      step ⟨above ++ [outer], none⟩ event = .ok ⟨[outer.adopt lastAbove.close], none⟩ ∧
      Alike change last lastAbove ∧ last.head = here ∧ lastAbove.head = there ∧
      ∀ rest, outermost stack.length (event :: rest) = [] → outermost 0 rest = []) := by
  have bottom := mirrors.bottom
  have nestedBottom := mirrors.nestedBottom
  have all := mirrors.alike
  cases all with
  | nil => simp at bottom
  | @cons inner innerAbove others othersAbove alike deeper =>
    rcases step_cases moved with ⟨effect, kind, quiet, rfl, same⟩ |
      ⟨content, attributes, rfl, rfl, same⟩ | ⟨content, attributes, rfl, rfl, same⟩ |
      ⟨name, rfl, rfl, _, _, shape, named⟩
    · left
      rcases kind with rfl | ⟨text, rfl⟩
      · exact ⟨_, same _, mirrors, fun rest opens => quiet _ rest ▸ opens⟩
      · refine ⟨innerAbove.addText text :: othersAbove, same _, ?_,
          fun rest opens => quiet _ rest ▸ opens⟩
        exact mirrors.retop (alike.addText text) ((Gains.refl inner).addText text).head
          ((Gains.refl innerAbove).addText text).head
    · left
      have noted := mirrors.retop (alike.noteChild (tagName content))
        (Gains.noteChild inner _).head (Gains.noteChild innerAbove _).head
      have child := Alike.fresh (alike.childLocator stable (tagName content)) (tagName content)
        attributes
      refine ⟨_ :: _ :: othersAbove, same _, noted.push child, ?_⟩
      intro rest opens
      simpa [outermost, opened] using opens
    · left
      have child := Alike.fresh (alike.childLocator stable (tagName content)) (tagName content)
        attributes
      refine ⟨_ :: othersAbove, same _,
        mirrors.retop ((alike.noteChild (tagName content)).adopt child.close)
          (Gains.noteChild inner _).head (Gains.noteChild innerAbove _).head, ?_⟩
      intro rest opens
      simpa [outermost, opened, closeTag] using opens
    · obtain ⟨rfl, rfl⟩ := List.cons.inj shape
      have closes : step ⟨innerAbove :: othersAbove ++ [outer], none⟩ (.finish name) =
          .ok (closeTag ⟨innerAbove :: othersAbove ++ [outer], none⟩) :=
        step_finish (othersAbove ++ [outer]) none (alike.qualified ▸ named)
      cases deeper with
      | nil =>
        right
        exact ⟨inner, innerAbove, rfl, closes, alike, by simpa using bottom,
          by simpa using nestedBottom, fun rest opens => opens⟩
      | @cons parent parentAbove others othersAbove alikeParent deeper =>
        left
        exact ⟨_ :: othersAbove, closes,
          mirrors.pop.retop (alikeParent.adopt alike.close) rfl rfl, fun rest opens => opens⟩

/-- The part of a document inside its root, read with an outer element below the root: the root
closes into the outer element, and is the same but for the rewriting of locators. -/
theorem inside_run {rest : List Event} {final : Element}
    (mirrors : Mirrors change here there stack above) (opens : outermost stack.length rest = [])
    (read : rest.foldlM step ⟨stack, root⟩ = .ok ⟨[], some final⟩) :
    ∃ later nested, rest.foldlM step ⟨above ++ [outer], none⟩ = .ok ⟨[later], none⟩ ∧
      outer.Gains [nested] later ∧ final.relocate change = nested.relocate change ∧
      final.head.SameTag here ∧ nested.head.SameTag there := by
  induction rest generalizing stack above root with
  | nil =>
    simp only [List.foldlM_nil, pure, Except.pure, Except.ok.injEq, mk.injEq] at read
    have bottom := mirrors.bottom
    simp [read.1] at bottom
  | cons event rest ih =>
    obtain ⟨⟨stack, root⟩, moved, read⟩ := run_cons.mp read
    rcases inside_step stable mirrors moved with ⟨later, nestedMove, deeper, inside⟩ |
      ⟨last, lastAbove, shape, nestedMove, alike, rfl, rfl, outside⟩
    · obtain ⟨after, nested, run, facts⟩ := ih deeper (inside rest opens) read
      exact ⟨after, nested, run_cons.mpr ⟨_, nestedMove, run⟩, facts⟩
    · -- the root is closed, so what is left stands outside all elements
      rw [shape] at read
      obtain ⟨same, later, run, gains⟩ :=
        outside_run (outer.adopt lastAbove.close) (outside rest opens) read
      simp only [mk.injEq, Option.some.injEq, true_and] at same
      subst same
      exact ⟨later, lastAbove.close, run_cons.mpr ⟨_, nestedMove, run⟩,
        (Gains.adopt outer lastAbove.close).trans gains, alike.close, close_sameTag last,
        close_sameTag lastAbove⟩

end Inside

end Reading

theorem Head.name_make {qualified : String} {attributes : List (String × String)} {locator : String}
    (bare : (make qualified attributes locator).space = none) :
    (make qualified attributes locator).name = qualified := by
  unfold make at bare ⊢
  dsimp only at bare ⊢
  split at bare
  · rfl
  · simp at bare

theorem Head.locator_make (qualified : String) (attributes : List (String × String))
    (locator : String) : (make qualified attributes locator).locator = locator := by
  unfold make
  dsimp only
  split <;> rfl

theorem Head.space_make_unit (attributes : List (String × String)) (locator : String) :
    (make "unit" attributes locator).space = none := by
  unfold make
  dsimp only
  rfl

structure Element.NestedAs (alone nested : Element) : Prop where
  named : nested.name = "unit"
  plain : alone.head.space = none → nested = alone
  spaced : alone.head.space ≠ none → nested.head.locator ≠ alone.head.locator

def siting (qualified : String) : String → String :=
  if qualified = "unit" then id else fun _ => ""

theorem siting_stable (qualified here there rest : String)
    (same : siting qualified here = siting qualified there) :
    siting qualified (here ++ rest) = siting qualified (there ++ rest) := by
  unfold siting at same ⊢
  split
  next unit =>
    rw [if_pos unit, id, id] at same
    rw [same]
  next => rfl

theorem siting_childLocator {outer : OpenElement} (unit : outer.head.name = "unit")
    (qualified : String) :
    siting qualified ("/" ++ qualified) = siting qualified (outer.childLocator qualified) := by
  unfold siting
  split
  next same =>
    subst same
    simp only [OpenElement.childLocator, unit, beq_self_eq_true, Bool.and_self, ↓reduceIte]
    rfl
  next => rfl

theorem childLocator_ne {outer : OpenElement} {qualified : String} (other : qualified ≠ "unit") :
    outer.childLocator qualified ≠ "/" ++ qualified := by
  intro same
  have lengths := congrArg String.length same
  simp only [OpenElement.childLocator, beq_iff_eq, other, Bool.and_eq_true, false_and,
    ↓reduceIte, String.length_append] at lengths
  have slash : "/".length = 1 := rfl
  have bracket : "[".length = 1 := rfl
  omega

theorem Element.nestedAs_of_siting {outer : OpenElement} {qualified : String}
    {attributes : List (String × String)} {alone nested : Element} (named : alone.name = "unit")
    (same : alone.relocate (siting qualified) = nested.relocate (siting qualified))
    (tag : alone.head.SameTag (Head.make qualified attributes ("/" ++ qualified)))
    (nestedTag : nested.head.SameTag
      (Head.make qualified attributes (outer.childLocator qualified))) :
    alone.NestedAs nested := by
  refine ⟨?_, ?_, ?_⟩
  · rw [← named]
    exact (congrArg (fun element => element.head.name) same).symm
  · intro bare
    have written : qualified = "unit" := by
      rw [tag.2.1] at bare
      rw [← Head.name_make bare, ← tag.1]
      exact named
    rw [siting, if_pos written, relocate_id, relocate_id] at same
    exact same.symm
  · intro spaced
    have other : qualified ≠ "unit" := by
      rintro rfl
      rw [tag.2.1] at spaced
      exact spaced (Head.space_make_unit attributes _)
    rw [nestedTag.2.2, tag.2.2, Head.locator_make, Head.locator_make]
    exact childLocator_ne other

namespace Reading

open OpenElement

theorem document_run {rest : List Event} {outer : OpenElement} {root : Option Element}
    {alone : Element} {name : String} (unit : outer.head.name = "unit")
    (single : outermost 0 rest = [name]) (named : alone.name = "unit")
    (read : rest.foldlM step ⟨[], root⟩ = .ok ⟨[], some alone⟩) :
    ∃ later nested, rest.foldlM step ⟨[outer], none⟩ = .ok ⟨[later], none⟩ ∧
      outer.Gains [nested] later ∧ alone.NestedAs nested := by
  induction rest generalizing outer with
  | nil => simp [outermost] at single
  | cons event rest ih =>
    obtain ⟨between, moved, read⟩ := run_cons.mp read
    rcases step_cases moved with ⟨effect, kind, quiet, rfl, all⟩ |
      ⟨content, attributes, rfl, rfl, all⟩ | ⟨content, attributes, rfl, rfl, all⟩ |
      ⟨name, rfl, _, inner, others, shape, _⟩
    · rw [quiet] at single
      rcases kind with rfl | ⟨text, rfl⟩
      · obtain ⟨later, nested, run, facts⟩ := ih unit single read
        exact ⟨later, nested, run_cons.mpr ⟨_, all _, run⟩, facts⟩
      · have added := (Gains.refl outer).addText text
        obtain ⟨later, nested, run, gains, same⟩ := @ih (outer.addText text)
          (by rw [added.head, unit]) single read
        exact ⟨later, nested, run_cons.mpr ⟨_, all _, run⟩, added.trans gains, same⟩
    · have inside := (List.cons.inj single).2
      have noted := Gains.noteChild outer (tagName content)
      have sited := siting_childLocator unit (tagName content)
      obtain ⟨later, nested, run, gains, same, tag, nestedTag⟩ :=
        inside_run (siting_stable (tagName content))
          ⟨.cons (.fresh sited (tagName content) attributes) .nil, rfl, rfl⟩ inside read
      exact ⟨later, nested, run_cons.mpr ⟨_, all _, run⟩, noted.trans gains,
        Element.nestedAs_of_siting named same tag nestedTag⟩
    · have inside := (List.cons.inj single).2
      have noted := Gains.noteChild outer (tagName content)
      have sited := siting_childLocator unit (tagName content)
      have child : Alike (siting (tagName content))
          (OpenElement.fresh (tagName content) attributes ("/" ++ tagName content))
          (OpenElement.fresh (tagName content) attributes (outer.childLocator (tagName content))) :=
        .fresh sited (tagName content) attributes
      obtain ⟨same, later, run, gains⟩ := outside_run
        ((outer.noteChild (tagName content)).adopt
          (OpenElement.fresh (tagName content) attributes
            (outer.childLocator (tagName content))).close)
        inside read
      simp only [mk.injEq, Option.some.injEq, true_and] at same
      refine ⟨later, _, run_cons.mpr ⟨_, all _, run⟩,
        (noted.trans (Gains.adopt _ _)).trans gains, ?_⟩
      rw [same] at named ⊢
      exact Element.nestedAs_of_siting named child.close (close_sameTag _) (close_sameTag _)
    · simp at shape

end Reading

end ScopeAtlas.Markup
