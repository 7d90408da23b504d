import ScopeAtlas.Proofs.NestedReading

/-!
An archive is a unit around the units of several documents. Its units come out as they do from
the documents on their own but for what the archive's root adds: missing starts come from the
root, missing stops from the next unit with a start, and a prefixed unit is located below the
root. The main result says exactly when none of these shows.
-/

namespace ScopeAtlas.Markup

/-! ## Positions -/

def Element.placed (inherited bound : Position) (element : Element) : Element :=
  let start := if element.head.hasStart then element.head.start else inherited
  let stop := if element.head.hasStop then element.head.stop else bound
  ⟨{ element.head with start, stop }, Node.inferAll start stop element.children⟩

def firstStart? (elements : List Element) : Option Position :=
  Node.firstStart? (elements.map Element.toNode)

def placedAll (start stop : Position) : List Element → List Element
  | [] => []
  | element :: later =>
    element.placed start ((firstStart? later).getD stop) :: placedAll start stop later

theorem firstStart?_cons (element : Element) (later : List Element) :
    firstStart? (element :: later) =
      if element.head.hasStart then some element.head.start else firstStart? later := by
  simp only [firstStart?, Node.firstStart?, List.map_cons, List.findSome?_cons, Element.toNode,
    Node.start?]
  by_cases stated : element.head.hasStart = true
  · simp [stated]
  · simp [stated]

theorem elements_cons (head : Head) (children rest : List Node) :
    (Node.element head children :: rest).filterMap Node.element? =
      ⟨head, children⟩ :: rest.filterMap Node.element? :=
  rfl

theorem firstStart?_elements (nodes : List Node) :
    firstStart? (nodes.filterMap Node.element?) = Node.firstStart? nodes := by
  induction nodes with
  | nil => rfl
  | cons node rest ih =>
    cases node with
    | text content => exact ih
    | element head children =>
      rw [elements_cons, firstStart?_cons, ih]
      simp only [Node.firstStart?, List.findSome?_cons, Node.start?]
      by_cases stated : head.hasStart = true
      · simp [stated]
      · simp [stated]

theorem elements_inferAll (start stop : Position) (nodes : List Node) :
    (Node.inferAll start stop nodes).filterMap Node.element? =
      placedAll start stop (nodes.filterMap Node.element?) := by
  induction nodes with
  | nil => rfl
  | cons node rest ih =>
    cases node with
    | text content => exact ih
    | element head children =>
      rw [Node.inferAll, Node.inferPositions, elements_cons, elements_cons, placedAll, ih,
        firstStart?_elements]
      rfl

theorem firstStart?_placed (start stop : Position) (elements : List Element) :
    firstStart? (elements.map (Element.placed start stop)) = firstStart? elements := by
  induction elements with
  | nil => rfl
  | cons element later ih =>
    rw [List.map_cons, firstStart?_cons, firstStart?_cons, ih]
    by_cases stated : element.head.hasStart = true
    · simp [Element.placed, stated]
    · simp [Element.placed, stated]

theorem Element.placed_eq_iff (element : Element) (inherited bound start stop : Position) :
    element.placed inherited bound = element.placed start stop ↔
      (element.head.hasStart = true ∨ inherited = start) ∧
        (element.head.hasStop = true ∨ bound = stop) := by
  constructor
  · intro same
    have starts := congrArg (fun element => element.head.start) same
    have stops := congrArg (fun element => element.head.stop) same
    simp only [placed] at starts stops
    constructor
    · by_cases stated : element.head.hasStart = true
      · exact .inl stated
      · rw [if_neg stated, if_neg stated] at starts
        exact .inr starts
    · by_cases stated : element.head.hasStop = true
      · exact .inl stated
      · rw [if_neg stated, if_neg stated] at stops
        exact .inr stops
  · rintro ⟨starts, stops⟩
    have sameStart : (if element.head.hasStart then element.head.start else inherited) =
        if element.head.hasStart then element.head.start else start := by
      rcases starts with stated | rfl
      · rw [if_pos stated, if_pos stated]
      · rfl
    have sameStop : (if element.head.hasStop then element.head.stop else bound) =
        if element.head.hasStop then element.head.stop else stop := by
      rcases stops with stated | rfl
      · rw [if_pos stated, if_pos stated]
      · rfl
    simp only [placed, sameStart, sameStop]

theorem Reading.finish_root (root : Element) :
    finish ⟨[], some root⟩ = .ok (root.placed ⟨1, 1⟩ .unbounded) := by
  simp only [finish, List.isEmpty_nil, Bool.not_true, Bool.false_eq_true, ↓reduceIte,
    Element.toNode, Node.inferPositions, Element.placed]

/-! ## Documents and archives -/

structure UnitDocument where
  text : String
  unit : Element
  read : parseDocument text = .ok unit
  single : ∃ name, outermost 0 (eventsOf text) = [name]
  named : unit.name = "unit"

def archive (documents : List UnitDocument) : String :=
  "<unit>" ++ String.join (documents.map UnitDocument.text) ++ "</unit>"

theorem events_dropWhile (letters : List Char) :
    events letters = events (letters.dropWhile isPlain) ∨
      ∃ run, events letters = .text run :: events (letters.dropWhile isPlain) := by
  cases letters with
  | nil => exact .inl rfl
  | cons first rest =>
    by_cases plain : isPlain first = true
    · rw [List.dropWhile_cons_of_pos plain]
      exact .inr ⟨_, events_plain rest plain⟩
    · rw [List.dropWhile_cons_of_neg plain]
      exact .inl rfl

theorem eventsOf_cases (text : String) :
    eventsOf text = events text.toList ∨
      ∃ run rest, events text.toList = .text run :: rest ∧
        (eventsOf text = rest ∨ ∃ front, eventsOf text = .text front :: rest) := by
  unfold eventsOf
  split
  next rest shape =>
    right
    rw [shape, events_plain rest (by decide)]
    exact ⟨_, _, rfl, events_dropWhile rest⟩
  next => exact .inl rfl

theorem run_eventsOf (text : String) :
    (eventsOf text).foldlM Reading.step .begin = Reading.begin.through text.toList := by
  rw [Reading.through]
  rcases eventsOf_cases text with same | ⟨run, rest, whole, same | ⟨front, same⟩⟩
  · rw [same]
  · rw [whole, same]
    rfl
  · rw [whole, same]
    rfl

theorem outermost_eventsOf (text : String) :
    outermost 0 (eventsOf text) = outermost 0 (events text.toList) := by
  rcases eventsOf_cases text with same | ⟨run, rest, whole, same | ⟨front, same⟩⟩
  · rw [same]
  · rw [whole, same]
    rfl
  · rw [whole, same]
    rfl

theorem parseDocument_ok_iff {text : String} {element : Element} :
    parseDocument text = .ok element ↔
      ∃ root, Reading.begin.through text.toList = .ok ⟨[], some root⟩ ∧
        element = root.placed ⟨1, 1⟩ .unbounded := by
  unfold parseDocument
  rw [run_eventsOf]
  constructor
  · intro read
    cases through : Reading.begin.through text.toList with
    | error failure => simp [through, bind, Except.bind] at read
    | ok reading =>
      obtain ⟨stack, root⟩ := reading
      simp only [through, bind, Except.bind] at read
      cases stack with
      | cons inner others => simp [Reading.finish] at read
      | nil =>
        cases root with
        | none => simp [Reading.finish] at read
        | some root =>
          rw [Reading.finish_root, Except.ok.injEq] at read
          exact ⟨root, rfl, read.symm⟩
  · rintro ⟨root, through, rfl⟩
    simp only [through, bind, Except.bind, Reading.finish_root]

namespace UnitDocument

theorem run_nested (document : UnitDocument) {outer : OpenElement}
    (unit : outer.head.name = "unit") :
    ∃ (later : OpenElement) (root nested : Element),
      Reading.through ⟨[outer], none⟩ document.text.toList = .ok ⟨[later], none⟩ ∧
      outer.Gains [nested] later ∧ document.unit = root.placed ⟨1, 1⟩ .unbounded ∧
      root.NestedAs nested := by
  obtain ⟨root, through, same⟩ := parseDocument_ok_iff.mp document.read
  obtain ⟨name, single⟩ := document.single
  rw [outermost_eventsOf] at single
  have named : root.name = "unit" := by
    rw [← document.named, same]
    rfl
  obtain ⟨later, nested, run, gains, form⟩ := Reading.document_run unit single named through
  exact ⟨later, root, nested, run, gains, same, form⟩

theorem run_all_nested (documents : List UnitDocument) {outer : OpenElement}
    (unit : outer.head.name = "unit") :
    ∃ later roots nested,
      Reading.through ⟨[outer], none⟩ (String.join (documents.map text)).toList =
        .ok ⟨[later], none⟩ ∧
      outer.Gains nested.reverse later ∧
      documents.map UnitDocument.unit = roots.map (Element.placed ⟨1, 1⟩ .unbounded) ∧
      List.Forall₂ Element.NestedAs roots nested := by
  induction documents generalizing outer with
  | nil => exact ⟨outer, [], [], by simp, .refl outer, rfl, .nil⟩
  | cons document others ih =>
    obtain ⟨between, root, first, run, gains, same, form⟩ := document.run_nested unit
    obtain ⟨later, roots, rest, runs, gainsAll, sameAll, forms⟩ :=
      @ih between (by rw [gains.head, unit])
    refine ⟨later, root :: roots, first :: rest, ?_, ?_, ?_, .cons form forms⟩
    · rw [List.map_cons, String.join_cons, String.toList_append, Reading.through_append _ run, runs]
    · rw [List.reverse_cons]
      exact gains.trans gainsAll
    · rw [List.map_cons, List.map_cons, same, sameAll]

end UnitDocument

theorem OpenElement.elements_close {element : OpenElement} {children : List Element}
    (inherited bound : Position) (start : element.head.hasStart = false)
    (stop : element.head.hasStop = false)
    (shape : element.content.reverse.filterMap Node.element? = children) :
    (element.close.placed inherited bound).elements =
      placedAll ((firstStart? children).getD inherited) bound children := by
  have starts := firstStart?_elements element.content.reverse
  rw [shape] at starts
  rw [starts, ← shape]
  unfold close
  rw [if_neg (by simp [start])]
  split
  next first found =>
    rw [found]
    simp only [Element.placed, Element.elements, stop, Bool.false_eq_true, ↓reduceIte,
      Option.getD_some, elements_inferAll]
  next none =>
    rw [none]
    simp only [Element.placed, Element.elements, start, stop, Bool.false_eq_true, ↓reduceIte,
      Option.getD_none, elements_inferAll]

theorem parseDocument_archive (documents : List UnitDocument) :
    ∃ roots nested,
      documents.map UnitDocument.unit = roots.map (Element.placed ⟨1, 1⟩ .unbounded) ∧
      List.Forall₂ Element.NestedAs roots nested ∧
      ∃ root, parseDocument (archive documents) = .ok root ∧ root.name = "unit" ∧
        root.elements = placedAll ((firstStart? nested).getD ⟨1, 1⟩) .unbounded nested := by
  obtain ⟨later, roots, nested, run, gains, same, forms⟩ :=
    @UnitDocument.run_all_nested documents (.fresh "unit" [] "/unit") rfl
  have opens : Reading.begin.through "<unit>".toList = .ok ⟨[.fresh "unit" [] "/unit"], none⟩ := by
    decide +kernel
  have ending : events "</unit>".toList = [.finish "unit".toList] := by
    decide +kernel
  have closes : Reading.through ⟨[later], none⟩ "</unit>".toList = .ok ⟨[], some later.close⟩ := by
    rw [Reading.through, ending, Reading.run_cons]
    exact ⟨_, Reading.step_finish [] none (by rw [gains.qualified]; rfl), rfl⟩
  have through : Reading.begin.through (archive documents).toList = .ok ⟨[], some later.close⟩ := by
    rw [archive, String.append_assoc, String.toList_append, String.toList_append,
      Reading.through_append _ opens, Reading.through_append _ run, closes]
  have content : later.content.reverse.filterMap Node.element? = nested := by
    rw [List.filterMap_reverse, gains.elements]
    simp [OpenElement.fresh]
  refine ⟨roots, nested, same, forms, _, parseDocument_ok_iff.mpr ⟨_, through, rfl⟩, ?_, ?_⟩
  · have tag := later.close_sameTag.1
    rw [gains.head] at tag
    exact tag
  · exact OpenElement.elements_close ⟨1, 1⟩ .unbounded (by rw [gains.head]; rfl)
      (by rw [gains.head]; rfl) content

theorem length_placedAll (start stop : Position) (elements : List Element) :
    (placedAll start stop elements).length = elements.length := by
  induction elements with
  | nil => rfl
  | cons element later ih => rw [placedAll, List.length_cons, List.length_cons, ih]

theorem placedAll_named {roots nested : List Element} (start stop : Position)
    (forms : List.Forall₂ Element.NestedAs roots nested) :
    ∀ unit ∈ placedAll start stop nested, unit.name = "unit" := by
  induction forms with
  | nil => simp [placedAll]
  | cons form _ ih =>
    intro unit member
    rcases List.mem_cons.mp member with rfl | member
    · exact form.named
    · exact ih unit member

theorem parseUnits_eq_elements {text : String} {root : Element}
    (read : parseDocument text = .ok root) (named : root.name = "unit")
    (filled : root.elements ≠ []) (units : ∀ unit ∈ root.elements, unit.name = "unit") :
    parseUnits text = .ok root.elements := by
  have nested : (root.child? "unit").isNone = false := by
    obtain ⟨first, others, shape⟩ := List.exists_cons_of_ne_nil filled
    have unit := units first (by simp [shape])
    simp [Element.child?, shape, unit]
  have all : root.childrenNamed "unit" = root.elements :=
    List.filter_eq_self.mpr fun unit member => by simp [units unit member]
  simp [parseUnits, read, named, nested, all, bind, Except.bind, pure, Except.pure]

/-- What an archive gives: the roots of its documents, each bounded by the next start among the
later ones, and with the first start of all where it has none. -/
theorem parseUnits_archive {documents : List UnitDocument} (some : documents ≠ []) :
    ∃ roots nested,
      documents.map UnitDocument.unit = roots.map (Element.placed ⟨1, 1⟩ .unbounded) ∧
      List.Forall₂ Element.NestedAs roots nested ∧
      parseUnits (archive documents) =
        .ok (placedAll ((firstStart? nested).getD ⟨1, 1⟩) .unbounded nested) := by
  obtain ⟨roots, nested, same, forms, root, read, named, elements⟩ :=
    parseDocument_archive documents
  have filled : root.elements ≠ [] := by
    have counted := congrArg List.length same
    simp only [List.length_map, forms.length_eq] at counted
    rw [← List.length_pos_iff, elements, length_placedAll, ← counted]
    exact List.length_pos_iff.mpr some
  refine ⟨roots, nested, same, forms, ?_⟩
  rw [← elements]
  exact parseUnits_eq_elements read named filled (elements ▸ placedAll_named _ _ forms)

/-! ## When units are independent -/

/-- Inside an archive that starts at `start`, every unit has the start and the stop that it has
without the archive: what it does not state itself comes out the same. -/
def Settled (start : Position) : List Element → Prop
  | [] => True
  | unit :: later =>
    (unit.head.hasStart = true ∨ start = ⟨1, 1⟩) ∧
    (unit.head.hasStop = true ∨ (firstStart? later).getD .unbounded = .unbounded) ∧
    Settled start later

/-- Units that show nothing of the archive around them. -/
structure StandAlone (units : List Element) : Prop where
  bare : ∀ unit ∈ units, unit.head.space = none
  settled : Settled ((firstStart? units).getD ⟨1, 1⟩) units

theorem settled_placed_iff (start : Position) (roots : List Element) :
    Settled start (roots.map (Element.placed ⟨1, 1⟩ .unbounded)) ↔
      placedAll start .unbounded roots = roots.map (Element.placed ⟨1, 1⟩ .unbounded) := by
  induction roots with
  | nil => simp [Settled, placedAll]
  | cons root later ih =>
    rw [List.map_cons, Settled, ih, placedAll, List.cons.injEq, Element.placed_eq_iff,
      firstStart?_placed, and_assoc]
    rfl

theorem nested_eq {roots nested : List Element}
    (forms : List.Forall₂ Element.NestedAs roots nested)
    (bare : ∀ root ∈ roots, root.head.space = none) : nested = roots := by
  induction forms with
  | nil => rfl
  | cons form _ ih =>
    rw [form.plain (bare _ List.mem_cons_self),
      ih fun root member => bare root (List.mem_cons_of_mem _ member)]

theorem bare_of_placedAll_eq {roots nested : List Element} {start stop : Position}
    (forms : List.Forall₂ Element.NestedAs roots nested)
    (same : placedAll start stop nested = roots.map (Element.placed ⟨1, 1⟩ .unbounded)) :
    ∀ root ∈ roots, root.head.space = none := by
  induction forms with
  | nil => simp
  | @cons root nested roots others form _ ih =>
    rw [placedAll, List.map_cons, List.cons.injEq] at same
    intro other member
    rcases List.mem_cons.mp member with rfl | member
    · by_contra spaced
      exact form.spaced spaced (congrArg (fun element => element.head.locator) same.1)
    · exact ih same.2 other member

/-- The units of an archive are what their documents give on their own exactly if no unit has a
prefix, every unit has a start or the first start in the archive is that of a document, and every
unit states its stop or nothing after it bounds it. -/
theorem parseUnits_archive_iff (documents : List UnitDocument) (some : documents ≠ []) :
    parseUnits (archive documents) = .ok (documents.map UnitDocument.unit) ↔
      StandAlone (documents.map UnitDocument.unit) := by
  obtain ⟨roots, nested, same, forms, units⟩ := parseUnits_archive some
  rw [units, same, Except.ok.injEq]
  constructor
  · intro equal
    -- equal lists have equal locators, so every unit is read in the archive as it is alone
    have bare := bare_of_placedAll_eq forms equal
    rw [nested_eq forms bare] at equal
    refine ⟨?_, ?_⟩
    · intro unit member
      obtain ⟨root, present, rfl⟩ := List.mem_map.mp member
      exact bare root present
    · rw [firstStart?_placed]
      exact (settled_placed_iff _ roots).mpr equal
  · intro alone
    have bare : ∀ root ∈ roots, root.head.space = none := fun root member =>
      alone.bare (root.placed ⟨1, 1⟩ .unbounded) (List.mem_map_of_mem member)
    have settled := alone.settled
    rw [firstStart?_placed] at settled
    rw [nested_eq forms bare]
    exact (settled_placed_iff _ roots).mp settled

def emptyUnit (attributes : List (String × String)) (start : Option Position) : Element :=
  ⟨⟨"unit", none, attributes, start.getD ⟨1, 1⟩, .unbounded, "/unit", start.isSome, false⟩, []⟩

def firstLineDocument : UnitDocument where
  text := "<unit pos:start=\"1:1\"/>"
  unit := emptyUnit [("pos:start", "1:1")] (some ⟨1, 1⟩)
  read := by decide +kernel
  single := ⟨"unit", by decide +kernel⟩
  named := rfl

def secondLineDocument : UnitDocument where
  text := "<unit pos:start=\"2:1\"/>"
  unit := emptyUnit [("pos:start", "2:1")] (some ⟨2, 1⟩)
  read := by decide +kernel
  single := ⟨"unit", by decide +kernel⟩
  named := rfl

def unplacedDocument : UnitDocument where
  text := "<unit/>"
  unit := emptyUnit [] none
  read := by decide +kernel
  single := ⟨"unit", by decide +kernel⟩
  named := rfl

theorem parseUnits_archive_iff_unplaced_last :
    parseUnits (archive [firstLineDocument, unplacedDocument]) =
      .ok [firstLineDocument.unit, unplacedDocument.unit] := by
  refine (parseUnits_archive_iff [firstLineDocument, unplacedDocument] (by simp)).mpr ⟨?_, ?_⟩
  · intro unit member
    simp only [List.map_cons, List.map_nil, List.mem_cons, List.not_mem_nil, or_false] at member
    rcases member with rfl | rfl
    · rfl
    · rfl
  · exact ⟨.inl rfl, .inr rfl, .inr rfl, .inr rfl, trivial⟩

/-- A unit before one with a start stops there instead of being unbounded. -/
theorem parseUnits_archive_bounded_by_next :
    ¬ parseUnits (archive [firstLineDocument, secondLineDocument]) =
      .ok [firstLineDocument.unit, secondLineDocument.unit] := by
  have units : parseUnits (archive [firstLineDocument, secondLineDocument]) =
      .ok [firstLineDocument.unit.placed ⟨1, 1⟩ ⟨2, 1⟩, secondLineDocument.unit] := by
    decide +kernel
  rw [units, Except.ok.injEq, List.cons.injEq]
  rintro ⟨same, _⟩
  have stops := congrArg (fun unit => unit.head.stop) same
  exact absurd stops (by decide)

end ScopeAtlas.Markup
