import ScopeAtlas.Proofs.ArchiveUnits
import ScopeAtlas.Proofs.Provenance
import Mathlib.Data.List.TakeWhile

/-!
Locators decide containment. An element is addressed by the numbers of the child elements on the
way down to it, so one element lies at or below another exactly when the address of the other is
the beginning of its own. Reading a document numbers the children of every element by name. Main
statement: in a document without a slash in a name and without a unit directly inside a unit, the
location of one element contains that of another exactly when the address of the first begins that
of the second.
-/

namespace ScopeAtlas.Markup

/-! ### Addresses -/

namespace Element

def qualifiedName (element : Element) : String := element.head.qualifiedName

def at? : Element → List Nat → Option Element
  | element, [] => some element
  | element, index :: rest => element.elements[index]?.bind fun child => child.at? rest

def SlashFree (root : Element) : Prop :=
  ∀ address element, root.at? address = some element → '/' ∉ element.qualifiedName.toList

def UnitsApart (root : Element) : Prop :=
  ∀ address element, root.at? address = some element → element.name = "unit" →
    ∀ child ∈ element.elements, child.qualifiedName ≠ "unit"

theorem at?_cons {element child : Element} {index : Nat} (here : element.elements[index]? = some child)
    (rest : List Nat) : element.at? (index :: rest) = child.at? rest := by
  rw [at?, here, Option.bind_some]

theorem at?_eq_some_cons {element inner : Element} {index : Nat} {rest : List Nat}
    (found : element.at? (index :: rest) = some inner) :
    ∃ child, element.elements[index]? = some child ∧ child.at? rest = some inner :=
  Option.bind_eq_some_iff.mp found

theorem at?_induction {property : Element → Prop} {root : Element} :
    (∀ address element, root.at? address = some element → property element) ↔
      property root ∧ ∀ child ∈ root.elements, ∀ address element,
        child.at? address = some element → property element := by
  constructor
  · intro all
    refine ⟨all [] root rfl, ?_⟩
    intro child member address element found
    obtain ⟨index, here⟩ := List.getElem?_of_mem member
    exact all (index :: address) element (at?_cons here address ▸ found)
  · rintro ⟨top, below⟩ address element found
    cases address with
    | nil => exact Option.some.inj found ▸ top
    | cons index rest =>
      obtain ⟨child, here, found⟩ := at?_eq_some_cons found
      exact below child (List.mem_of_getElem? here) rest element found

theorem slashFree_iff {root : Element} : root.SlashFree ↔
    '/' ∉ root.qualifiedName.toList ∧ ∀ child ∈ root.elements, child.SlashFree :=
  at?_induction

theorem unitsApart_iff {root : Element} : root.UnitsApart ↔
    (root.name = "unit" → ∀ child ∈ root.elements, child.qualifiedName ≠ "unit") ∧
      ∀ child ∈ root.elements, child.UnitsApart :=
  at?_induction

theorem SlashFree.child {root child : Element} {index : Nat} (free : root.SlashFree)
    (here : root.elements[index]? = some child) : child.SlashFree :=
  (slashFree_iff.mp free).2 child (List.mem_of_getElem? here)

theorem UnitsApart.child {root child : Element} {index : Nat} (apart : root.UnitsApart)
    (here : root.elements[index]? = some child) : child.UnitsApart :=
  (unitsApart_iff.mp apart).2 child (List.mem_of_getElem? here)

end Element

/-! ### Numbered children -/

def Head.childLocator (parent : Head) (earlier : List String) (qualified : String) : String :=
  if qualified == "unit" && parent.name == "unit" then "/unit"
  else parent.locator ++ "/" ++ qualified ++ "[" ++ toString (earlier.count qualified + 1) ++ "]"

def NumberedBelow (parent : Head) (children : List Element) : Prop :=
  ∀ index child, children[index]? = some child → child.head.locator =
    parent.childLocator ((children.take index).map Element.qualifiedName) child.qualifiedName

/-- The locators below an element number the children of every element. -/
inductive Numbered : Element → Prop
  | intro {element : Element} : NumberedBelow element.head element.elements →
      (∀ child ∈ element.elements, Numbered child) → Numbered element

theorem Head.SameTag.qualifiedName {first second : Head} (same : first.SameTag second) :
    first.qualifiedName = second.qualifiedName := by
  rw [Head.qualifiedName, Head.qualifiedName, same.1, same.2.1]

theorem Head.SameTag.childLocator {first second : Head} (same : first.SameTag second)
    (earlier : List String) (qualified : String) :
    first.childLocator earlier qualified = second.childLocator earlier qualified := by
  rw [Head.childLocator, Head.childLocator, same.1, same.2.2]

theorem NumberedBelow.nil (parent : Head) : NumberedBelow parent [] := by
  simp [NumberedBelow]

theorem NumberedBelow.congr {first second : Head} (same : first.SameTag second)
    {children : List Element} (numbered : NumberedBelow first children) :
    NumberedBelow second children :=
  fun index child here => (numbered index child here).trans (same.childLocator _ _)

theorem NumberedBelow.append {parent : Head} {children : List Element} {child : Element}
    (numbered : NumberedBelow parent children) (next : child.head.locator =
      parent.childLocator (children.map Element.qualifiedName) child.qualifiedName) :
    NumberedBelow parent (children ++ [child]) := by
  intro index other here
  rcases Nat.lt_trichotomy index children.length with early | last | late
  · rw [List.getElem?_append_left early] at here
    rw [List.take_append_of_le_length early.le]
    exact numbered index other here
  · rw [last, List.getElem?_concat_length, Option.some.injEq] at here
    rw [last, List.take_left, ← here]
    exact next
  · rw [List.getElem?_eq_none (by simp; omega)] at here
    simp at here

/-! ### Reading numbers the children -/

theorem Head.qualifiedName_make (qualified : String) (attributes : List (String × String))
    (locator : String) : (Head.make qualified attributes locator).qualifiedName = qualified := by
  have whole := List.prefix_iff_eq_append.mp (List.takeWhile_prefix (· != ':') (l := qualified.toList))
  have rest : qualified.toList.drop (qualified.toList.takeWhile (· != ':')).length =
      qualified.toList.dropWhile (· != ':') :=
    List.append_cancel_left (whole.trans List.takeWhile_append_dropWhile.symm)
  have stops := List.head?_dropWhile_not (· != ':') qualified.toList
  unfold Head.make
  dsimp only
  split
  · rfl
  · rename_i mark after shape
    rw [← rest, shape, List.head?_cons] at stops
    obtain rfl : mark = ':' := by simpa using stops
    rw [Head.qualifiedName, ← String.toList_inj]
    rw [shape] at whole
    simpa using whole

namespace OpenElement

def elements (element : OpenElement) : List Element :=
  element.content.reverse.filterMap Node.element?

def counts (element : OpenElement) (qualified : String) : Bool :=
  !(qualified == "unit" && element.head.name == "unit")

structure Numbers (element : OpenElement) (pending : List String) : Prop where
  numbered : NumberedBelow element.head element.elements
  below : ∀ child ∈ element.elements, Numbered child
  noted : element.childNames =
    (element.elements.map Element.qualifiedName ++ pending).filter element.counts

variable {element parent : OpenElement} {pending : List String}

theorem elements_addText (element : OpenElement) (text : String) :
    (element.addText text).elements = element.elements := by
  obtain ⟨qualified, head, content, childNames⟩ := element
  rcases content with _ | ⟨before | child, others⟩
  · rfl
  · simp only [elements, OpenElement.addText, List.reverse_cons, List.filterMap_append]
    rfl
  · simp only [elements, OpenElement.addText, List.reverse_cons, List.filterMap_append]
    exact List.append_nil _

theorem elements_adopt (parent : OpenElement) (child : Element) :
    (parent.adopt child).elements = parent.elements ++ [child] := by
  simp [elements, adopt, Element.toNode, Node.element?]

theorem closed_elements (element : OpenElement) : element.close.elements = element.elements := by
  unfold close
  dsimp only
  split
  · rfl
  · split
    · rfl
    · rfl

theorem Numbers.addText (numbers : element.Numbers pending) (text : String) :
    (element.addText text).head = element.head ∧ (element.addText text).Numbers pending := by
  have head : (element.addText text).head = element.head := by
    unfold OpenElement.addText
    split <;> rfl
  have names : (element.addText text).childNames = element.childNames := by
    unfold OpenElement.addText
    split <;> rfl
  have counted : (element.addText text).counts = element.counts := by
    funext qualified
    rw [counts, counts, head]
  refine ⟨head, ?_, ?_, ?_⟩
  · rw [elements_addText, head]
    exact numbers.numbered
  · rw [elements_addText]
    exact numbers.below
  · rw [elements_addText, names, counted]
    exact numbers.noted

theorem Numbers.childLocator_eq (numbers : parent.Numbers []) (qualified : String) :
    parent.childLocator qualified =
      parent.head.childLocator (parent.elements.map Element.qualifiedName) qualified := by
  rw [OpenElement.childLocator, Head.childLocator]
  split
  · rfl
  · rename_i other
    rw [Bool.not_eq_true] at other
    rw [numbers.noted, List.append_nil, List.count_filter (by rwa [counts, Bool.not_eq_true'])]

theorem Numbers.noteChild (numbers : parent.Numbers []) (qualified : String) :
    (parent.noteChild qualified).head = parent.head ∧
      (parent.noteChild qualified).Numbers [qualified] := by
  have noted := numbers.noted
  rw [List.append_nil] at noted
  unfold OpenElement.noteChild
  split
  · rename_i unit
    refine ⟨rfl, numbers.numbered, numbers.below, ?_⟩
    rw [List.filter_append, ← noted, List.filter_singleton]
    simp [counts, unit]
  · rename_i other
    refine ⟨rfl, numbers.numbered, numbers.below, ?_⟩
    rw [Bool.not_eq_true] at other
    have counted : parent.counts qualified = true := by rwa [counts, Bool.not_eq_true']
    change parent.childNames ++ [qualified] =
      (parent.elements.map Element.qualifiedName ++ [qualified]).filter parent.counts
    rw [List.filter_append, ← noted, List.filter_singleton, counted]
    rfl

theorem fresh_numbers (qualified : String) (attributes : List (String × String))
    (locator : String) : (fresh qualified attributes locator).Numbers [] :=
  ⟨.nil _, by simp [fresh, elements], by simp [fresh, elements]⟩

theorem Numbers.adopt {child : Element} (numbers : parent.Numbers [child.qualifiedName])
    (next : child.head.locator =
      parent.head.childLocator (parent.elements.map Element.qualifiedName) child.qualifiedName)
    (numbered : Numbered child) : (parent.adopt child).Numbers [] := by
  refine ⟨?_, ?_, ?_⟩
  · rw [elements_adopt]
    exact numbers.numbered.append next
  · rw [elements_adopt]
    intro other member
    rcases List.mem_append.mp member with earlier | last
    · exact numbers.below other earlier
    · rw [List.mem_singleton] at last
      exact last ▸ numbered
  · rw [elements_adopt, List.map_append, List.append_nil]
    exact numbers.noted

theorem Numbers.close (numbers : element.Numbers []) : Numbered element.close := by
  refine .intro ?_ ?_
  · rw [closed_elements]
    have same := element.close_sameTag
    exact numbers.numbered.congr ⟨same.1.symm, same.2.1.symm, same.2.2.symm⟩
  · rw [closed_elements]
    exact numbers.below

end OpenElement

/-- The open elements of a reading, innermost first: their children so far are numbered, and each
of them is numbered after the children that the element around it has so far. -/
inductive NumbersAll : List OpenElement → List String → Prop
  | nil {pending} : NumbersAll [] pending
  | outermost {element pending} : element.Numbers pending → NumbersAll [element] pending
  | inner {child parent others pending} : child.Numbers pending →
      child.head.locator = parent.head.childLocator (parent.elements.map Element.qualifiedName)
        child.head.qualifiedName →
      NumbersAll (parent :: others) [child.head.qualifiedName] →
      NumbersAll (child :: parent :: others) pending

namespace NumbersAll

variable {top other : OpenElement} {others : List OpenElement} {pending later : List String}

theorem top_numbers (all : NumbersAll (top :: others) pending) : top.Numbers pending := by
  cases all with
  | outermost numbers => exact numbers
  | inner numbers _ _ => exact numbers

theorem retop (all : NumbersAll (top :: others) pending) (same : other.head = top.head)
    (numbers : other.Numbers later) : NumbersAll (other :: others) later := by
  cases all with
  | outermost _ => exact .outermost numbers
  | inner _ located outer =>
    refine .inner numbers ?_ ?_
    · rw [same]
      exact located
    · rw [same]
      exact outer

end NumbersAll

namespace Reading

structure Numbers (reading : Reading) : Prop where
  stack : NumbersAll reading.stack []
  root : ∀ root, reading.root = some root → Numbered root

variable {reading : Reading}

theorem Numbers.addText (numbers : reading.Numbers) (text : String) :
    (reading.addText text).Numbers := by
  obtain ⟨stack, root⟩ := reading
  cases stack with
  | nil => exact numbers
  | cons top others =>
    obtain ⟨head, added⟩ := numbers.stack.top_numbers.addText text
    exact ⟨numbers.stack.retop head added, numbers.root⟩

theorem Numbers.opened (numbers : reading.Numbers) (qualified : String)
    (attributes : List (String × String)) : (reading.opened qualified attributes).Numbers := by
  obtain ⟨stack, root⟩ := reading
  cases stack with
  | nil => exact ⟨.outermost (OpenElement.fresh_numbers _ _ _), numbers.root⟩
  | cons parent others =>
    obtain ⟨head, noted⟩ := numbers.stack.top_numbers.noteChild qualified
    refine ⟨.inner (OpenElement.fresh_numbers _ _ _) ?_ ?_, numbers.root⟩
    · rw [OpenElement.fresh, Head.locator_make, Head.qualifiedName_make,
        numbers.stack.top_numbers.childLocator_eq, head]
      congr 2
      unfold OpenElement.noteChild
      split
      · rfl
      · rfl
    · rw [OpenElement.fresh, Head.qualifiedName_make]
      exact numbers.stack.retop head noted

theorem Numbers.closeTag (numbers : reading.Numbers) : reading.closeTag.Numbers := by
  obtain ⟨stack, root⟩ := reading
  cases numbers.stack with
  | nil => exact numbers
  | outermost last =>
    refine ⟨.nil, ?_⟩
    intro root closed
    exact Option.some.inj closed ▸ last.close
  | @inner child parent others _ closing located outer =>
    have same := child.close_sameTag
    have named : child.close.qualifiedName = child.head.qualifiedName := same.qualifiedName
    refine ⟨outer.retop (by rfl) (OpenElement.Numbers.adopt ?_ ?_ closing.close), numbers.root⟩
    · rw [named]
      exact outer.top_numbers
    · rw [same.2.2, named]
      exact located

end Reading

/-! ### Filling in positions -/

theorem placedAll_forall₂ (start stop : Position) (children : List Element) :
    List.Forall₂ (fun child filled => ∃ inherited bound, filled = child.placed inherited bound)
      children (placedAll start stop children) := by
  induction children with
  | nil => exact .nil
  | cons child rest ih => exact .cons ⟨start, _, rfl⟩ ih

theorem getElem?_placedAll {start stop : Position} {children : List Element} {index : Nat}
    {filled : Element} (here : (placedAll start stop children)[index]? = some filled) :
    ∃ child inherited bound, children[index]? = some child ∧
      filled = child.placed inherited bound := by
  have fills := placedAll_forall₂ start stop children
  obtain ⟨inside, rfl⟩ := List.getElem?_eq_some_iff.mp here
  have before : index < children.length := fills.length_eq ▸ inside
  obtain ⟨inherited, bound, same⟩ := (List.forall₂_iff_get.mp fills).2 index before inside
  exact ⟨children[index], inherited, bound, List.getElem?_eq_getElem before, same⟩

theorem qualifiedNames_placedAll (start stop : Position) (children : List Element) :
    (placedAll start stop children).map Element.qualifiedName =
      children.map Element.qualifiedName := by
  induction children with
  | nil => rfl
  | cons child rest ih =>
    rw [placedAll, List.map_cons, List.map_cons, ih]
    rfl

theorem NumberedBelow.placedAll {parent : Head} {children : List Element}
    (numbered : NumberedBelow parent children) (start stop : Position) :
    NumberedBelow parent (placedAll start stop children) := by
  intro index filled here
  obtain ⟨child, inherited, bound, before, rfl⟩ := getElem?_placedAll here
  rw [List.map_take, qualifiedNames_placedAll, ← List.map_take]
  exact numbered index child before

theorem Numbered.placed {element : Element} (numbered : Numbered element) :
    ∀ inherited bound, Numbered (element.placed inherited bound) := by
  induction numbered with
  | @intro element children _ ih =>
    intro inherited bound
    refine .intro ?_ ?_
    · rw [Element.elements, Element.placed, elements_inferAll]
      exact (children.placedAll _ _).congr ⟨rfl, rfl, rfl⟩
    · rw [Element.elements, Element.placed, elements_inferAll]
      intro filled member
      obtain ⟨index, here⟩ := List.getElem?_of_mem member
      obtain ⟨child, start, stop, before, rfl⟩ := getElem?_placedAll here
      exact ih child (List.mem_of_getElem? before) start stop

theorem numbered_of_parseDocument {text : String} {root : Element}
    (parsed : parseDocument text = .ok root) : Numbered root := by
  obtain ⟨closed, read, rfl⟩ := parseDocument_ok_iff.mp parsed
  have begins : Reading.begin.Numbers := ⟨.nil, by simp [Reading.begin]⟩
  have ends := Reading.run_induction (fun _ text numbers => numbers.addText text)
    (fun _ qualified attributes numbers => numbers.opened qualified attributes)
    (fun _ numbers => numbers.closeTag) begins read
  exact (ends.root closed rfl).placed ⟨1, 1⟩ .unbounded

/-! ### Locators as letters -/

def stepLetters (qualified : String) (number : Nat) : List Char :=
  qualified.toList ++ '[' :: (Nat.toDigits 10 number ++ [']'])

def LeadsOn (letters : List Char) : Prop := ∀ letter ∈ letters.head?, letter = '/'

theorem isDigit_of_mem_digits {number : Nat} {letter : Char}
    (member : letter ∈ Nat.toDigits 10 number) : letter.isDigit = true :=
  Nat.isDigit_of_mem_toDigits (by decide) (by decide) member

theorem toDigits_injective {first second : Nat}
    (same : Nat.toDigits 10 first = Nat.toDigits 10 second) : first = second := by
  have read := congrArg (Nat.ofDigitChars 10 · 0) same
  simpa [Nat.ofDigitChars_ten_toDigits] using read

theorem slash_not_mem_stepLetters {qualified : String} (free : '/' ∉ qualified.toList)
    (number : Nat) : '/' ∉ stepLetters qualified number := by
  have digits : '/' ∉ Nat.toDigits 10 number := by
    intro member
    have digit := isDigit_of_mem_digits member
    revert digit
    decide
  simp [stepLetters, free, digits]

/-- A step tells its name and number: the number stands behind the last bracket that opens. -/
theorem stepLetters_injective {first second : String} {firstNumber secondNumber : Nat}
    (same : stepLetters first firstNumber = stepLetters second secondNumber) :
    first = second ∧ firstNumber = secondNumber := by
  have cut (qualified : String) (number : Nat) :
      (stepLetters qualified number).reverse.takeWhile (· != '[') =
        ']' :: (Nat.toDigits 10 number).reverse := by
    have plain : ∀ letter ∈ ']' :: (Nat.toDigits 10 number).reverse, (letter != '[') = true := by
      intro letter member
      rcases List.mem_cons.mp member with rfl | digit
      · decide
      · rw [bne_iff_ne]
        rintro rfl
        have isDigit := isDigit_of_mem_digits (List.mem_reverse.mp digit)
        revert isDigit
        decide
    have shape : (stepLetters qualified number).reverse =
        (']' :: (Nat.toDigits 10 number).reverse) ++ '[' :: qualified.toList.reverse := by
      simp [stepLetters]
    rw [shape, List.takeWhile_append_of_pos plain]
    simp
  have tails := congrArg (fun letters => letters.reverse.takeWhile (· != '[')) same
  simp only [cut, List.cons.injEq, List.reverse_inj, true_and] at tails
  have numbers := toDigits_injective tails
  refine ⟨?_, numbers⟩
  rw [stepLetters, stepLetters, numbers] at same
  exact String.toList_inj.mp (List.append_cancel_right same)

theorem childLocator_letters {parent : Head} {qualified : String}
    (apart : parent.name = "unit" → qualified ≠ "unit") (earlier : List String) :
    (parent.childLocator earlier qualified).toList =
      parent.locator.toList ++ '/' :: stepLetters qualified (earlier.count qualified + 1) := by
  rw [Head.childLocator, if_neg (by simpa using fun unit inUnit => apart inUnit unit)]
  simp [stepLetters]

theorem locatorCovers_iff {outer inner : String} : Location.locatorCovers outer inner = true ↔
    ∃ rest, inner.toList = outer.toList ++ rest ∧ LeadsOn rest := by
  rw [Location.locatorCovers, Bool.or_eq_true, beq_iff_eq, List.isPrefixOf_iff_prefix]
  constructor
  · rintro (rfl | ⟨rest, same⟩)
    · exact ⟨[], by simp, by simp [LeadsOn]⟩
    · exact ⟨'/' :: rest, by simpa using same.symm, by simp [LeadsOn]⟩
  · rintro ⟨rest, same, leads⟩
    cases rest with
    | nil => exact .inl (String.toList_inj.mp (by simpa using same))
    | cons letter rest =>
      obtain rfl : letter = '/' := leads letter rfl
      exact .inr ⟨rest, by simpa using same.symm⟩

theorem takeWhile_step {letters rest : List Char} (free : '/' ∉ letters) (leads : LeadsOn rest) :
    (letters ++ rest).takeWhile (· != '/') = letters := by
  have plain : ∀ letter ∈ letters, (letter != '/') = true := by
    intro letter member
    rw [bne_iff_ne]
    rintro rfl
    exact free member
  rw [List.takeWhile_append_of_pos plain]
  cases rest with
  | nil => simp
  | cons letter rest =>
    obtain rfl : letter = '/' := leads letter rfl
    simp

theorem LeadsOn.append {first second : List Char} (left : LeadsOn first) (right : LeadsOn second) :
    LeadsOn (first ++ second) := by
  cases first with
  | nil => exact right
  | cons letter rest => exact left

/-! ### Containment -/

namespace Numbered

variable {root outer inner : Element} {index : Nat} {address first second : List Nat}

theorem numberedBelow (numbered : Numbered root) : NumberedBelow root.head root.elements := by
  cases numbered with
  | intro children _ => exact children

theorem child {inner : Element} (numbered : Numbered root)
    (here : root.elements[index]? = some inner) : Numbered inner := by
  cases numbered with
  | intro _ below => exact below inner (List.mem_of_getElem? here)

theorem locator_child {child : Element} (numbered : Numbered root) (apart : root.UnitsApart)
    (here : root.elements[index]? = some child) :
    child.head.locator.toList = root.head.locator.toList ++ '/' :: stepLetters child.qualifiedName
      (((root.elements.take index).map Element.qualifiedName).count child.qualifiedName + 1) := by
  rw [numbered.numberedBelow index child here]
  exact childLocator_letters
    (fun unit => apart [] root rfl unit child (List.mem_of_getElem? here)) _

theorem locator_below (numbered : Numbered root) (apart : root.UnitsApart)
    (found : root.at? address = some inner) : ∃ rest,
      inner.head.locator.toList = root.head.locator.toList ++ rest ∧ LeadsOn rest := by
  induction address generalizing root with
  | nil =>
    rw [Element.at?, Option.some.injEq] at found
    exact ⟨[], by simp [found], by simp [LeadsOn]⟩
  | cons index rest ih =>
    obtain ⟨child, here, found⟩ := Element.at?_eq_some_cons found
    obtain ⟨lower, located, _⟩ := ih (numbered.child here) (apart.child here) found
    rw [numbered.locator_child apart here, List.append_assoc, List.cons_append] at located
    exact ⟨_, located, by simp [LeadsOn]⟩

theorem index_unique {children : List Element} {left right : Nat} {first second : Element}
    (firstAt : children[left]? = some first) (secondAt : children[right]? = some second)
    (names : first.qualifiedName = second.qualifiedName)
    (numbers : ((children.take left).map Element.qualifiedName).count first.qualifiedName =
      ((children.take right).map Element.qualifiedName).count second.qualifiedName) :
    left = right := by
  have grows {before after : Nat} {child : Element} (here : children[before]? = some child)
      (order : before < after) :
      ((children.take before).map Element.qualifiedName).count child.qualifiedName <
        ((children.take after).map Element.qualifiedName).count child.qualifiedName := by
    have longer : children.take (before + 1) <+: children.take after :=
      List.take_prefix_take_left order
    rw [List.take_add_one, here] at longer
    have bound := (longer.map Element.qualifiedName).sublist.count_le child.qualifiedName
    simp only [Option.toList_some, List.map_append, List.map_cons, List.map_nil, List.count_append,
      List.count_singleton_self] at bound
    omega
  rcases Nat.lt_trichotomy left right with before | same | after
  · have fewer := grows firstAt before
    rw [names] at fewer numbers
    omega
  · exact same
  · have fewer := grows secondAt after
    rw [names] at numbers
    omega

theorem address_of_covers (numbered : Numbered root) (apart : root.UnitsApart)
    (free : root.SlashFree) (outerAt : root.at? first = some outer)
    (innerAt : root.at? second = some inner) {rest : List Char} (leads : LeadsOn rest)
    (covers : inner.head.locator.toList = outer.head.locator.toList ++ rest) :
    first <+: second := by
  induction first generalizing root second with
  | nil => exact List.nil_prefix
  | cons left first ih =>
    obtain ⟨outerChild, outerHere, outerBelow⟩ := Element.at?_eq_some_cons outerAt
    obtain ⟨outerRest, outerLocated, outerLeads⟩ :=
      (numbered.child outerHere).locator_below (apart.child outerHere) outerBelow
    rw [numbered.locator_child apart outerHere] at outerLocated
    cases second with
    | nil =>
      rw [Element.at?, Option.some.injEq] at innerAt
      have lengths := congrArg List.length covers
      rw [outerLocated, ← innerAt] at lengths
      simp only [List.length_append, List.length_cons] at lengths
      omega
    | cons right second =>
      obtain ⟨innerChild, innerHere, innerBelow⟩ := Element.at?_eq_some_cons innerAt
      obtain ⟨innerRest, innerLocated, innerLeads⟩ :=
        (numbered.child innerHere).locator_below (apart.child innerHere) innerBelow
      rw [numbered.locator_child apart innerHere] at innerLocated
      have outerFree := free [left] outerChild (by rw [Element.at?_cons outerHere, Element.at?])
      have innerFree := free [right] innerChild (by rw [Element.at?_cons innerHere, Element.at?])
      -- Both locators start with that of the root; the step behind it ends at the next slash.
      have tails := covers
      rw [innerLocated, outerLocated] at tails
      simp only [List.append_assoc, List.cons_append, List.append_cancel_left_eq,
        List.cons.injEq, true_and] at tails
      have steps := congrArg (List.takeWhile (· != '/')) tails
      rw [takeWhile_step (slash_not_mem_stepLetters innerFree _) innerLeads,
        takeWhile_step (slash_not_mem_stepLetters outerFree _) (outerLeads.append leads)] at steps
      obtain ⟨names, numbers⟩ := stepLetters_injective steps
      obtain rfl := index_unique innerHere outerHere names (Nat.succ.inj numbers)
      rw [innerHere, Option.some.injEq] at outerHere
      subst outerHere
      exact List.cons_prefix_cons.mpr ⟨rfl, ih (numbered.child innerHere) (apart.child innerHere)
        (free.child innerHere) outerBelow innerBelow⟩

theorem covers_of_address (numbered : Numbered root) (apart : root.UnitsApart)
    (outerAt : root.at? first = some outer) (innerAt : root.at? second = some inner)
    (begins : first <+: second) : Location.locatorCovers outer.head.locator inner.head.locator = true := by
  induction first generalizing root second with
  | nil =>
    rw [Element.at?, Option.some.injEq] at outerAt
    obtain ⟨rest, located, leads⟩ := numbered.locator_below apart innerAt
    exact locatorCovers_iff.mpr ⟨rest, outerAt ▸ located, leads⟩
  | cons left first ih =>
    obtain ⟨rest, rfl⟩ := begins
    obtain ⟨child, here, outerBelow⟩ := Element.at?_eq_some_cons outerAt
    rw [List.cons_append, Element.at?_cons here] at innerAt
    exact ih (numbered.child here) (apart.child here) outerBelow innerAt (List.prefix_append first rest)

end Numbered

/-- In a document without a slash in a name and without a unit directly inside a unit, the location
of an element contains that of another exactly when the other is the element itself or below it,
and no two elements have the same locator. -/
theorem location_contains_iff {text : String} {root : Element}
    (parsed : parseDocument text = .ok root) (free : root.SlashFree) (apart : root.UnitsApart)
    {first second : List Nat} {outer inner : Element} (outerAt : root.at? first = some outer)
    (innerAt : root.at? second = some inner) (file : String) :
    ((outer.location file).contains (inner.location file) = true ↔ first <+: second) ∧
      (outer.head.locator = inner.head.locator ↔ first = second) := by
  have numbered := numbered_of_parseDocument parsed
  have covering {first second : List Nat} {outer inner : Element}
      (outerAt : root.at? first = some outer) (innerAt : root.at? second = some inner) :
      Location.locatorCovers outer.head.locator inner.head.locator = true ↔ first <+: second := by
    constructor
    · intro covers
      obtain ⟨rest, located, leads⟩ := locatorCovers_iff.mp covers
      exact numbered.address_of_covers apart free outerAt innerAt leads located
    · exact numbered.covers_of_address apart outerAt innerAt
  constructor
  · have sameFile : (outer.location file).inFile (inner.location file).file = true :=
      Text.sameFolded_refl file
    rw [Location.contains, sameFile, Bool.true_and]
    exact covering outerAt innerAt
  · constructor
    · intro same
      have down := (covering outerAt innerAt).mp (by simp [Location.locatorCovers, same])
      have up := (covering innerAt outerAt).mp (by simp [Location.locatorCovers, same])
      exact down.eq_of_length (Nat.le_antisymm down.length_le up.length_le)
    · rintro rfl
      rw [outerAt, Option.some.injEq] at innerAt
      rw [innerAt]

def bareElement (name locator : String) (children : List Element) : Element :=
  ⟨⟨name, none, [], ⟨1, 1⟩, .unbounded, locator, false, false⟩, children.map Element.toNode⟩

theorem elements_bareElement (name locator : String) (children : List Element) :
    (bareElement name locator children).elements = children := by
  simp only [Element.elements, bareElement, List.filterMap_map]
  exact List.filterMap_some

theorem bareElement_slashFree {name : String} (locator : String) {children : List Element}
    (free : '/' ∉ name.toList) (below : ∀ child ∈ children, child.SlashFree) :
    (bareElement name locator children).SlashFree :=
  Element.slashFree_iff.mpr ⟨free, by rwa [elements_bareElement]⟩

theorem bareElement_unitsApart {name : String} (locator : String) {children : List Element}
    (other : name ≠ "unit") (below : ∀ child ∈ children, child.UnitsApart) :
    (bareElement name locator children).UnitsApart :=
  Element.unitsApart_iff.mpr ⟨fun unit => absurd unit other, by rwa [elements_bareElement]⟩

def likeNamed : Element :=
  bareElement "u" "/u" [bareElement "f" "/u/f[1]" [],
    bareElement "f[2]" "/u/f[2][1]" [bareElement "b" "/u/f[2][1]/b[1]" []],
    bareElement "f" "/u/f[2]" []]

/-- The second `f` does not contain what is in the element called `f[2]`. -/
theorem location_contains_iff_like_named :
    let text := "<u><f/><f[2]><b/></f[2]><f/></u>"
    parseDocument text = .ok likeNamed ∧ likeNamed.SlashFree ∧ likeNamed.UnitsApart ∧
      ∃ outer inner, likeNamed.at? [2] = some outer ∧ likeNamed.at? [1, 0] = some inner ∧
        ∀ file, ((outer.location file).contains (inner.location file) = true ↔ [2] <+: [1, 0]) ∧
          (outer.head.locator = inner.head.locator ↔ [2] = [1, 0]) := by
  intro text
  have parsed : parseDocument text = .ok likeNamed := by decide +kernel
  have free : likeNamed.SlashFree := by
    refine bareElement_slashFree _ (by decide) ?_
    simp only [List.forall_mem_cons, List.not_mem_nil, false_implies, implies_true, and_true]
    exact ⟨bareElement_slashFree _ (by decide) (by simp),
      bareElement_slashFree _ (by decide) (by simpa using bareElement_slashFree _ (by decide) (by simp)),
      bareElement_slashFree _ (by decide) (by simp)⟩
  have apart : likeNamed.UnitsApart := by
    refine bareElement_unitsApart _ (by decide) ?_
    simp only [List.forall_mem_cons, List.not_mem_nil, false_implies, implies_true, and_true]
    exact ⟨bareElement_unitsApart _ (by decide) (by simp),
      bareElement_unitsApart _ (by decide) (by simpa using bareElement_unitsApart _ (by decide) (by simp)),
      bareElement_unitsApart _ (by decide) (by simp)⟩
  exact ⟨parsed, free, apart, _, _, rfl, rfl,
    fun file => location_contains_iff parsed free apart rfl rfl file⟩

end ScopeAtlas.Markup
