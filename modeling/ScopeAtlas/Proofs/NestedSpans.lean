import ScopeAtlas.Proofs.Locators

/-!
Spans that are filled in nest. While a document is read, an element without a start takes over the
first start that is stated below it, so that an element has a start exactly if one is stated at it or
below. Where the stated starts ascend and no stop is stated, what is then filled in from above and
from the next sibling keeps every element within its parent and siblings apart.

Main statement: `spans_nest`.
-/

namespace ScopeAtlas

namespace Position

variable {first second third : Position}

theorem le_iff : first ≤ second ↔
    first.line < second.line ∨ first.line = second.line ∧ first.column ≤ second.column := by
  change second.before first = false ↔ _
  simp only [before, Bool.or_eq_false_iff, Bool.and_eq_false_imp, decide_eq_false_iff_not,
    beq_iff_eq]
  omega

theorem le_refl (position : Position) : position ≤ position :=
  le_iff.mpr (.inr ⟨rfl, Nat.le_refl _⟩)

theorem le_trans (lower : first ≤ second) (upper : second ≤ third) : first ≤ third := by
  rw [le_iff] at lower upper ⊢
  omega

theorem le_unbounded (line : first.line ≤ limit) (column : first.column ≤ limit) :
    first ≤ unbounded := by
  rw [le_iff, unbounded]
  dsimp only
  omega

end Position

namespace Markup

/-! ### Heads in document order -/

namespace Node

mutual

def heads : Node → List Head
  | .text _ => []
  | .element head children => head :: headsOf children

def headsOf : List Node → List Head
  | [] => []
  | node :: rest => node.heads ++ headsOf rest

end

end Node

namespace Element

def heads (element : Element) : List Head := element.toNode.heads

/-- The starts that are stated at an element and below it, in document order. -/
def statedStarts (element : Element) : List Position :=
  element.heads.filterMap statedStart?

def statedStops (element : Element) : List Position :=
  element.heads.filterMap statedStop?

def start? (element : Element) : Option Position := element.toNode.start?

theorem headsOf_eq (nodes : List Node) :
    Node.headsOf nodes = (nodes.filterMap Node.element?).flatMap heads := by
  induction nodes with
  | nil => rfl
  | cons node rest ih =>
    cases node with
    | text content => exact ih
    | element head children =>
      rw [Node.headsOf, ih, elements_cons, List.flatMap_cons]
      rfl

theorem heads_eq (element : Element) :
    element.heads = element.head :: element.elements.flatMap heads := by
  rw [heads, toNode, Node.heads, headsOf_eq]
  rfl

theorem stated_eq (stated : Head → Option Position) (element : Element) :
    element.heads.filterMap stated = (stated element.head).toList ++
      element.elements.flatMap fun child => child.heads.filterMap stated := by
  rw [heads_eq, List.filterMap_cons, List.filterMap_flatMap]
  cases stated element.head with
  | none => rfl
  | some position => rfl

theorem statedStarts_eq (element : Element) : element.statedStarts =
    (statedStart? element.head).toList ++ element.elements.flatMap statedStarts :=
  stated_eq statedStart? element

theorem statedStops_eq (element : Element) : element.statedStops =
    (statedStop? element.head).toList ++ element.elements.flatMap statedStops :=
  stated_eq statedStop? element

theorem start?_eq (element : Element) :
    element.start? = if element.head.hasStart then some element.head.start else none :=
  rfl

theorem statedStop?_head {element : Element} (endless : element.statedStops = []) :
    statedStop? element.head = none := by
  rw [statedStops_eq, List.append_eq_nil_iff] at endless
  simpa using endless.1

end Element

/-! ### Stated positions -/

theorem number?_le {text : String} {number : Nat} (read : number? text = some number) :
    number ≤ Position.limit := by
  unfold number? at read
  dsimp only at read
  split at read
  all_goals
    simp only [Option.ite_none_left_eq_some, Option.ite_none_right_eq_some,
      Option.some.injEq] at read
    exact read.2.2 ▸ read.2.1

theorem statedStart?_le {head : Head} {start : Position} (stated : statedStart? head = some start) :
    start ≤ .unbounded := by
  rw [statedStart?, Option.or_eq_some_iff] at stated
  rcases stated with pair | ⟨_, whole⟩
  · simp only [Option.bind_eq_bind, Option.bind_eq_some_iff, Option.pure_def,
      Option.some.injEq] at pair
    obtain ⟨line, ⟨_, _, lineRead⟩, column, ⟨_, _, columnRead⟩, rfl⟩ := pair
    exact Position.le_unbounded (number?_le lineRead) (number?_le columnRead)
  · obtain ⟨text, _, read⟩ := Option.bind_eq_some_iff.mp whole
    unfold position? at read
    dsimp only at read
    split at read
    · simp at read
    · simp only [Option.bind_eq_bind, Option.bind_eq_some_iff, Option.pure_def,
        Option.some.injEq] at read
      obtain ⟨line, lineRead, column, columnRead, rfl⟩ := read
      exact Position.le_unbounded (number?_le lineRead) (number?_le columnRead)

theorem Head.statedPositions_make (qualified : String) (attributes : List (String × String))
    (locator : String) :
    let head := Head.make qualified attributes locator
    (if head.hasStart then some head.start else none) = statedStart? head ∧
      head.hasStop = (statedStop? head).isSome := by
  unfold Head.make
  dsimp only
  split
  all_goals
    refine ⟨?_, rfl⟩
    rw [statedStart?, statedStart?]
    dsimp only
    split
    next stated =>
      obtain ⟨start, same⟩ := Option.isSome_iff_exists.mp stated
      exact same ▸ rfl
    next none => exact (Option.not_isSome_iff_eq_none.mp none).symm

/-! ### Reading takes starts over -/

/-- The start of an element is the first that is stated at it or below, and a stop is its own. -/
inductive Anchored : Element → Prop
  | intro {element : Element} : element.start? = element.statedStarts.head? →
      element.head.hasStop = (statedStop? element.head).isSome →
      (∀ child ∈ element.elements, Anchored child) → Anchored element

namespace Anchored

variable {element : Element}

theorem start?_eq (anchored : Anchored element) :
    element.start? = element.statedStarts.head? := by
  cases anchored with
  | intro start _ _ => exact start

theorem hasStop (anchored : Anchored element) (endless : statedStop? element.head = none) :
    element.head.hasStop = false := by
  cases anchored with
  | intro _ stop _ => rw [stop, endless, Option.isSome_none]

end Anchored

theorem firstStart?_anchored {elements : List Element}
    (anchored : ∀ element ∈ elements, Anchored element) :
    firstStart? elements = (elements.flatMap Element.statedStarts).head? := by
  induction elements with
  | nil => rfl
  | cons element later ih =>
    have first := (anchored element List.mem_cons_self).start?_eq
    rw [Element.start?_eq] at first
    rw [firstStart?_cons, List.flatMap_cons, List.head?_append, ← first,
      ← ih fun other member => anchored other (List.mem_cons_of_mem _ member)]
    split
    · rfl
    · rfl

structure OpenElement.Anchors (element : OpenElement) : Prop where
  start : (if element.head.hasStart then some element.head.start else none) =
    statedStart? element.head
  stop : element.head.hasStop = (statedStop? element.head).isSome
  below : ∀ child ∈ element.elements, Anchored child

namespace OpenElement.Anchors

variable {element : OpenElement}

theorem retop (anchors : element.Anchors) {other : OpenElement} (head : other.head = element.head)
    (below : ∀ child ∈ other.elements, Anchored child) : other.Anchors := by
  refine ⟨?_, ?_, below⟩
  · rw [head]
    exact anchors.start
  · rw [head]
    exact anchors.stop

theorem close (anchors : element.Anchors) : Anchored element.close := by
  have first : Node.firstStart? element.content.reverse =
      (element.elements.flatMap Element.statedStarts).head? := by
    rw [← firstStart?_elements]
    exact firstStart?_anchored anchors.below
  have inside := element.closed_elements
  have stated := anchors.start
  refine .intro ?_ ?_ (by rw [inside]; exact anchors.below)
  · rw [Element.statedStarts_eq, inside, List.head?_append, Element.start?_eq]
    unfold OpenElement.close
    dsimp only
    split
    next has =>
      rw [if_pos has] at stated
      rw [← stated]
      rfl
    next lacks =>
      rw [if_neg lacks] at stated
      split
      next start found =>
        have same : statedStart? { element.head with start, hasStart := true } =
            statedStart? element.head := rfl
        rw [same, ← stated, ← first, found]
        rfl
      next none =>
        rw [← stated, ← first, none]
        exact if_neg lacks
  · have stop := anchors.stop
    unfold OpenElement.close
    dsimp only
    split
    · exact stop
    · split
      · exact stop
      · exact stop

end OpenElement.Anchors

theorem Reading.anchors_opened {reading : Reading} (all : ∀ element ∈ reading.stack, element.Anchors)
    (qualified : String) (attributes : List (String × String)) :
    ∀ element ∈ (reading.opened qualified attributes).stack, element.Anchors := by
  have fresh (locator : String) : (OpenElement.fresh qualified attributes locator).Anchors :=
    ⟨(Head.statedPositions_make qualified attributes locator).1,
      (Head.statedPositions_make qualified attributes locator).2,
      by simp [OpenElement.fresh, OpenElement.elements]⟩
  obtain ⟨stack, root⟩ := reading
  cases stack with
  | nil =>
    intro element member
    exact List.mem_singleton.mp member ▸ fresh _
  | cons parent others =>
    have around := all parent List.mem_cons_self
    have noted : (parent.noteChild qualified).Anchors := by
      unfold OpenElement.noteChild
      split
      · exact around
      · exact around.retop rfl around.below
    intro element member
    rcases List.mem_cons.mp member with rfl | member
    · exact fresh _
    · rcases List.mem_cons.mp member with rfl | member
      · exact noted
      · exact all element (List.mem_cons_of_mem _ member)

structure Reading.Anchors (reading : Reading) : Prop where
  stack : ∀ element ∈ reading.stack, element.Anchors
  root : ∀ root, reading.root = some root → Anchored root

namespace Reading.Anchors

variable {reading : Reading}

theorem addText (anchors : reading.Anchors) (text : String) : (reading.addText text).Anchors := by
  obtain ⟨stack, root⟩ := reading
  cases stack with
  | nil => exact anchors
  | cons inner others =>
    refine ⟨?_, anchors.root⟩
    intro element member
    rcases List.mem_cons.mp member with rfl | member
    · have own := anchors.stack inner List.mem_cons_self
      refine own.retop ((OpenElement.Gains.refl inner).addText text).head ?_
      rw [OpenElement.elements_addText]
      exact own.below
    · exact anchors.stack element (List.mem_cons_of_mem _ member)

theorem opened (anchors : reading.Anchors) (qualified : String)
    (attributes : List (String × String)) : (reading.opened qualified attributes).Anchors := by
  refine ⟨anchors_opened anchors.stack qualified attributes, ?_⟩
  have same : (reading.opened qualified attributes).root = reading.root := by
    unfold Reading.opened
    split
    · rfl
    · rfl
  rw [same]
  exact anchors.root

theorem closeTag (anchors : reading.Anchors) : reading.closeTag.Anchors := by
  obtain ⟨stack, root⟩ := reading
  match stack with
  | [] => exact anchors
  | [last] =>
    refine ⟨by simp [Reading.closeTag], ?_⟩
    intro closed same
    obtain rfl : last.close = closed := Option.some.inj same
    exact (anchors.stack last List.mem_cons_self).close
  | inner :: parent :: others =>
    have child := (anchors.stack inner List.mem_cons_self).close
    have around := anchors.stack parent (by simp)
    refine ⟨?_, anchors.root⟩
    intro element member
    rcases List.mem_cons.mp member with rfl | member
    · refine around.retop rfl ?_
      change ∀ other ∈ (parent.adopt inner.close).elements, Anchored other
      rw [OpenElement.elements_adopt]
      intro other inside
      rcases List.mem_append.mp inside with earlier | last
      · exact around.below other earlier
      · exact List.mem_singleton.mp last ▸ child
    · exact anchors.stack element (List.mem_cons_of_mem _ (List.mem_cons_of_mem _ member))

end Reading.Anchors

/-! ### Filling in -/

section Filling

variable {start stop inherited bound : Position} {children : List Element}

structure Element.Within (start stop : Position) (element : Element) : Prop where
  starts : start ≤ element.head.start
  forward : element.head.start ≤ element.head.stop
  stops : element.head.stop ≤ stop

/-- The children of an element lie within it, and one before another that has a start of its own or
below stops before that one begins. -/
structure Element.NestsChildren (element : Element) : Prop where
  within : ∀ child ∈ element.elements, child.Within element.head.start element.head.stop
  apart : element.elements.Pairwise fun earlier later =>
    later.statedStarts ≠ [] → earlier.head.stop ≤ later.head.start

section Stated

variable {stated : Head → Option Position}

mutual

theorem Node.stated_infer (keeps : ∀ head start stop, stated { head with start, stop } = stated head)
    (inherited bound : Position) : ∀ node : Node,
    (node.inferPositions inherited bound).heads.filterMap stated = node.heads.filterMap stated
  | .text _ => rfl
  | .element head children => by
    have below := fun start stop => stated_inferAll keeps start stop children
    simp only [Node.inferPositions, Node.heads, List.filterMap_cons, keeps, below]

theorem Node.stated_inferAll
    (keeps : ∀ head start stop, stated { head with start, stop } = stated head)
    (start stop : Position) : ∀ nodes : List Node,
    (Node.headsOf (Node.inferAll start stop nodes)).filterMap stated =
      (Node.headsOf nodes).filterMap stated
  | [] => rfl
  | node :: rest => by
    simp only [Node.inferAll, Node.headsOf, List.filterMap_append,
      stated_infer keeps start _ node, stated_inferAll keeps start stop rest]

end

end Stated

theorem statedStarts_placed (inherited bound : Position) (element : Element) :
    (element.placed inherited bound).statedStarts = element.statedStarts :=
  Node.stated_infer (fun _ _ _ => rfl) inherited bound element.toNode

theorem statedStops_placed (inherited bound : Position) (element : Element) :
    (element.placed inherited bound).statedStops = element.statedStops :=
  Node.stated_infer (fun _ _ _ => rfl) inherited bound element.toNode

theorem Element.placed_within {element : Element} (anchored : Anchored element)
    (endless : element.head.hasStop = false) (forward : inherited ≤ bound)
    (after : ∀ stated ∈ element.statedStarts, inherited ≤ stated)
    (before : ∀ stated ∈ element.statedStarts, stated ≤ bound) :
    (element.placed inherited bound).Within inherited bound ∧
      (element.placed inherited bound).head.stop = bound := by
  have stops : (element.placed inherited bound).head.stop = bound := by
    simp [placed, endless]
  refine ⟨?_, stops⟩
  have first := anchored.start?_eq
  rw [Element.start?_eq] at first
  by_cases has : element.head.hasStart = true
  · rw [if_pos has] at first
    have own : element.head.start ∈ element.statedStarts := List.mem_of_head? first.symm
    have starts : (element.placed inherited bound).head.start = element.head.start := by
      simp [placed, has]
    exact ⟨starts ▸ after _ own, by rw [starts, stops]; exact before _ own,
      by rw [stops]; exact Position.le_refl _⟩
  · have starts : (element.placed inherited bound).head.start = inherited := by
      simp [placed, has]
    exact ⟨by rw [starts]; exact Position.le_refl _, by rw [starts, stops]; exact forward,
      by rw [stops]; exact Position.le_refl _⟩

/-- Children whose stated starts ascend between a start and a stop: filled in, they lie between both
and follow each other, and each is bounded after all that is stated in it. -/
theorem placedAll_spans (anchored : ∀ child ∈ children, Anchored child)
    (endless : ∀ child ∈ children, child.head.hasStop = false) (forward : start ≤ stop)
    (ordered : (children.flatMap Element.statedStarts).Pairwise (· ≤ ·))
    (after : ∀ stated ∈ children.flatMap Element.statedStarts, start ≤ stated)
    (before : ∀ stated ∈ children.flatMap Element.statedStarts, stated ≤ stop) :
    (∀ filled ∈ placedAll start stop children, filled.Within start stop ∧
      ∃ child ∈ children, ∃ bound, filled = child.placed start bound ∧ start ≤ bound ∧
        ∀ stated ∈ child.statedStarts, stated ≤ bound) ∧
    (placedAll start stop children).Pairwise fun earlier later =>
      later.statedStarts ≠ [] → earlier.head.stop ≤ later.head.start := by
  induction children with
  | nil => simp [placedAll]
  | cons child later ih =>
    rw [List.flatMap_cons, List.pairwise_append] at ordered
    obtain ⟨_, orderedLater, across⟩ := ordered
    rw [List.flatMap_cons] at after before
    have anchoredLater : ∀ other ∈ later, Anchored other := fun other member =>
      anchored other (List.mem_cons_of_mem _ member)
    obtain ⟨within, apart⟩ := ih anchoredLater
      (fun other member => endless other (List.mem_cons_of_mem _ member)) orderedLater
      (fun stated member => after stated (List.mem_append_right _ member))
      (fun stated member => before stated (List.mem_append_right _ member))
    have next := firstStart?_anchored anchoredLater
    obtain ⟨bound, isBound⟩ : ∃ bound, (firstStart? later).getD stop = bound := ⟨_, rfl⟩
    have bounds : start ≤ bound ∧ bound ≤ stop ∧ (∀ stated ∈ child.statedStarts, stated ≤ bound) ∧
        ∀ stated ∈ later.flatMap Element.statedStarts, bound ≤ stated := by
      rw [next] at isBound
      cases listed : later.flatMap Element.statedStarts with
      | nil =>
        rw [listed] at isBound
        obtain rfl : stop = bound := isBound
        exact ⟨forward, Position.le_refl _,
          fun stated member => before stated (List.mem_append_left _ member), by simp⟩
      | cons first others =>
        rw [listed] at isBound across orderedLater after before
        obtain rfl : first = bound := isBound
        refine ⟨after first (by simp), before first (by simp),
          fun stated member => across stated member first List.mem_cons_self, ?_⟩
        intro stated member
        rcases List.mem_cons.mp member with rfl | member
        · exact Position.le_refl _
        · exact (List.pairwise_cons.mp orderedLater).1 stated member
    obtain ⟨forwardBound, belowStop, aboveOwn, belowLater⟩ := bounds
    obtain ⟨own, stops⟩ := Element.placed_within (anchored child List.mem_cons_self)
      (endless child List.mem_cons_self) forwardBound
      (fun stated member => after stated (List.mem_append_left _ member)) aboveOwn
    rw [placedAll, isBound]
    constructor
    · intro filled member
      rcases List.mem_cons.mp member with rfl | member
      · exact ⟨⟨own.starts, own.forward, Position.le_trans own.stops belowStop⟩, child,
          List.mem_cons_self, bound, rfl, forwardBound, aboveOwn⟩
      · obtain ⟨inside, other, among, rest⟩ := within filled member
        exact ⟨inside, other, List.mem_cons_of_mem _ among, rest⟩
    · refine .cons ?_ apart
      intro filled member stated
      obtain ⟨other, among, otherBound, rfl, _⟩ := (within filled member).2
      rw [statedStarts_placed] at stated
      have first := (anchoredLater other among).start?_eq
      rw [Element.start?_eq] at first
      split at first
      next has =>
        have starts : (other.placed start otherBound).head.start = other.head.start := by
          simp [Element.placed, has]
        rw [stops, starts]
        exact belowLater _ (List.mem_flatMap.mpr ⟨other, among, List.mem_of_head? first.symm⟩)
      next => exact absurd (List.head?_eq_none_iff.mp first.symm) stated

theorem Element.placed_begins {element : Element} (anchored : Anchored element)
    (forward : inherited ≤ bound) (ordered : element.statedStarts.Pairwise (· ≤ ·))
    (before : ∀ stated ∈ element.statedStarts, stated ≤ bound) :
    (element.placed inherited bound).head.start ≤ bound ∧
      ∀ stated ∈ element.elements.flatMap statedStarts,
        (element.placed inherited bound).head.start ≤ stated := by
  have first := anchored.start?_eq
  rw [Element.start?_eq] at first
  split at first
  next has =>
    have starts : (element.placed inherited bound).head.start = element.head.start := by
      simp [placed, has]
    obtain ⟨others, listed⟩ := List.head?_eq_some_iff.mp first.symm
    rw [starts]
    refine ⟨before _ (List.mem_of_head? first.symm), fun stated member => ?_⟩
    have among : stated ∈ element.statedStarts := by
      rw [statedStarts_eq]
      exact List.mem_append_right _ member
    rw [listed] at among ordered
    rcases List.mem_cons.mp among with rfl | later
    · exact Position.le_refl _
    · exact (List.pairwise_cons.mp ordered).1 stated later
  next lacks =>
    have starts : (element.placed inherited bound).head.start = inherited := by
      simp [placed, lacks]
    have none := List.head?_eq_none_iff.mp first.symm
    rw [statedStarts_eq, List.append_eq_nil_iff] at none
    rw [starts, none.2]
    exact ⟨forward, by simp⟩

theorem Element.placed_nests {element : Element} (anchored : Anchored element) :
    ∀ inherited bound, inherited ≤ bound → element.statedStops = [] →
      element.statedStarts.Pairwise (· ≤ ·) → (∀ stated ∈ element.statedStarts, stated ≤ bound) →
      ∀ address inner, (element.placed inherited bound).at? address = some inner →
        inner.NestsChildren := by
  induction anchored with
  | @intro element first stop below ih =>
    intro inherited bound forward endless ordered before
    have anchored := Anchored.intro first stop below
    obtain ⟨begins, after⟩ := placed_begins anchored forward ordered before
    rw [statedStops_eq, List.append_eq_nil_iff] at endless
    obtain ⟨own, endlessBelow⟩ := endless
    have stops : (element.placed inherited bound).head.stop = bound := by
      have lacks := anchored.hasStop (by simpa using own)
      simp [placed, lacks]
    have filled : (element.placed inherited bound).elements =
        placedAll (element.placed inherited bound).head.start bound element.elements := by
      rw [Element.elements, Element.placed, elements_inferAll, ← Element.placed]
      exact congrArg (placedAll _ · element.elements) stops
    have none : ∀ child ∈ element.elements, child.statedStops = [] :=
      List.flatMap_eq_nil_iff.mp endlessBelow
    rw [statedStarts_eq] at ordered before
    have orderedBelow := (List.pairwise_append.mp ordered).2.1
    have beforeBelow : ∀ stated ∈ element.elements.flatMap statedStarts, stated ≤ bound :=
      fun stated member => before stated (List.mem_append_right _ member)
    obtain ⟨within, apart⟩ := placedAll_spans below
      (fun child member => (below child member).hasStop (statedStop?_head (none child member)))
      begins orderedBelow after beforeBelow
    refine at?_induction.mpr ⟨⟨?_, ?_⟩, ?_⟩
    · intro child member
      rw [filled] at member
      rw [stops]
      exact (within child member).1
    · rw [filled]
      exact apart
    · intro inner member
      rw [filled] at member
      obtain ⟨child, among, childBound, rfl, forwardChild, beforeChild⟩ := (within inner member).2
      exact ih child among _ childBound forwardChild (none child among)
        ((List.pairwise_flatMap.mp orderedBelow).1 child among) beforeChild

end Filling

/-- In a document that states no stop and whose stated starts ascend, every element lies within the
one around it, and children that have a start of their own or below follow one another. -/
theorem spans_nest {text : String} {root : Element} (parsed : parseDocument text = .ok root)
    (endless : root.statedStops = []) (ordered : root.statedStarts.Pairwise (· ≤ ·))
    {address : List Nat} {element : Element} (here : root.at? address = some element) :
    element.NestsChildren := by
  obtain ⟨closed, read, rfl⟩ := parseDocument_ok_iff.mp parsed
  have begins : Reading.begin.Anchors := ⟨by simp [Reading.begin], by simp [Reading.begin]⟩
  have ends := Reading.run_induction (fun _ text anchors => anchors.addText text)
    (fun _ qualified attributes anchors => anchors.opened qualified attributes)
    (fun _ anchors => anchors.closeTag) begins read
  have anchored : Anchored closed := ends.root closed rfl
  rw [statedStops_placed] at endless
  rw [statedStarts_placed] at ordered
  have bounded : ∀ stated ∈ closed.statedStarts, stated ≤ .unbounded := by
    intro stated member
    obtain ⟨head, _, states⟩ := List.mem_filterMap.mp member
    exact statedStart?_le states
  exact closed.placed_nests anchored ⟨1, 1⟩ .unbounded (by decide) endless ordered bounded address
    element here

def spanned (name : String) (attributes : List (String × String)) (start : Position)
    (stop : Position) (locator : String) (hasStart : Bool) (children : List Element) : Element :=
  ⟨⟨name, none, attributes, start, stop, locator, hasStart, false⟩, children.map Element.toNode⟩

def partlyPlaced : Element :=
  spanned "u" [] ⟨1, 4⟩ .unbounded "/u" true
    [spanned "a" [] ⟨1, 4⟩ ⟨2, 3⟩ "/u/a[1]" true
      [spanned "b" [("pos:start", "1:4")] ⟨1, 4⟩ ⟨2, 3⟩ "/u/a[1]/b[1]" true []],
      spanned "c" [] ⟨1, 4⟩ ⟨2, 3⟩ "/u/c[1]" false [],
      spanned "d" [("pos:start", "2:3")] ⟨2, 3⟩ .unbounded "/u/d[1]" true []]

theorem spans_nest_partly_placed :
    let text := "<u><a><b pos:start=\"1:4\"/></a><c/><d pos:start=\"2:3\"/></u>"
    parseDocument text = .ok partlyPlaced ∧ partlyPlaced.statedStops = [] ∧
      partlyPlaced.statedStarts.Pairwise (· ≤ ·) ∧ partlyPlaced.NestsChildren := by
  intro text
  have parsed : parseDocument text = .ok partlyPlaced := by decide +kernel
  have endless : partlyPlaced.statedStops = [] := by rfl
  have starts : partlyPlaced.statedStarts = [⟨1, 4⟩, ⟨2, 3⟩] := by rfl
  have ordered : partlyPlaced.statedStarts.Pairwise (· ≤ ·) := by
    rw [starts]
    decide
  have here : partlyPlaced.at? [] = some partlyPlaced := by rw [Element.at?]
  exact ⟨parsed, endless, ordered, spans_nest parsed endless ordered here⟩

end Markup

end ScopeAtlas
