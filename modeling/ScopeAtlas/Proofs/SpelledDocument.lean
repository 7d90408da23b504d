import ScopeAtlas.Proofs.Locators
import ScopeAtlas.Proofs.TagSpelling

/-!
Reading a tree back from any way to write it. Letters of a text may stand for themselves, in
character data or behind references, an element without children may be one tag or two, and comments
and processing instructions may stand between all of these. A reading passes them over and joins
texts that meet, so what comes out depends on the tree alone.

Main statement: `parseDocument_spelled`.
-/

namespace ScopeAtlas.Markup

/-! ### Trees and their spellings -/

inductive Content
  | text (content : String)
  | element (name : String) (attributes : List (String × String)) (children : List Content)

inductive Content.Spellable : Content → Prop
  | text {content : String} : content ≠ "" → Spellable (.text content)
  | element {name : String} {attributes : List (String × String)} {children : List Content} :
      IsName name → (∀ entry ∈ attributes, IsName entry.1) → (attributes.map Prod.fst).Nodup →
      (∀ child ∈ children, Spellable child) → Spellable (.element name attributes children)

inductive Aside : List Char → Prop
  | comment {body : List Char} : ¬ "-->".toList <:+: body →
      Aside ("<!--".toList ++ (body ++ "-->".toList))
  | instruction {body : List Char} : ¬ "?>".toList <:+: body → body.head? ≠ some '>' →
      Aside ("<?".toList ++ (body ++ "?>".toList))

inductive Piece : List Char → List Char → Prop
  | plain {run : List Char} : run ≠ [] → (∀ letter ∈ run, isPlain letter = true) → Piece run run
  | reference {letter : Char} {name : List Char} : Refers letter name →
      Piece [letter] ('&' :: (name ++ [';']))
  | characterData {body : List Char} : ¬ "]]>".toList <:+: body →
      Piece body ("<![CDATA[".toList ++ (body ++ "]]>".toList))

inductive SpelledText : List Char → List Char → Prop
  | nil : SpelledText [] []
  | piece {value piece text letters : List Char} : Piece value piece → SpelledText text letters →
      SpelledText (value ++ text) (piece ++ letters)
  | aside {aside text letters : List Char} : Aside aside → SpelledText text letters →
      SpelledText text (aside ++ letters)

/-- What stands inside an element. -/
inductive Spelled : List Content → List Char → Prop
  | nil : Spelled [] []
  | aside {aside letters : List Char} {nodes : List Content} : Aside aside →
      Spelled nodes letters → Spelled nodes (aside ++ letters)
  | text {content : String} {letters rest : List Char} {nodes : List Content} :
      SpelledText content.toList letters → Spelled nodes rest →
      Spelled (.text content :: nodes) (letters ++ rest)
  | whole {name : String} {attributes : List (String × String)} {letters rest : List Char}
      {nodes : List Content} : SpelledAttributes attributes letters → Spelled nodes rest →
      Spelled (.element name attributes [] :: nodes)
        ('<' :: (name.toList ++ (letters ++ '/' :: '>' :: rest)))
  | pair {name : String} {attributes : List (String × String)}
      {letters inside blanks rest : List Char} {children nodes : List Content} :
      SpelledAttributes attributes letters → Spelled children inside → Blank blanks →
      Spelled nodes rest →
      Spelled (.element name attributes children :: nodes)
        ('<' :: (name.toList ++ (letters ++ '>' ::
          (inside ++ '<' :: '/' :: (name.toList ++ (blanks ++ '>' :: rest))))))

inductive Balanced : List Char → Prop
  | nil : Balanced []
  | letter {letter : Char} {rest : List Char} : letter ≠ '<' → letter ≠ '>' → Balanced rest →
      Balanced (letter :: rest)
  | angles {inside rest : List Char} : Balanced inside → Balanced rest →
      Balanced ('<' :: (inside ++ '>' :: rest))

/-- What may stand around the root. Text is passed over there. -/
inductive Outside : List Char → Prop
  | nil : Outside []
  | letter {letter : Char} {rest : List Char} : isPlain letter = true → Outside rest →
      Outside (letter :: rest)
  | aside {aside rest : List Char} : Aside aside → Outside rest → Outside (aside ++ rest)
  | doctype {body rest : List Char} : Balanced body → ¬ Blank body → Outside rest →
      Outside ("<!DOCTYPE".toList ++ (body ++ '>' :: rest))

inductive SpelledDocument (root : Content) : List Char → Prop
  | intro {front inside back : List Char} : Outside front → Spelled [root] inside → Outside back →
      SpelledDocument root (front ++ (inside ++ back))

/-! ### What is read -/

structure Head.Named (head : Head) (name : String) : Prop where
  whole : head.qualifiedName = name
  first : ':' ∉ (head.space.getD head.name).toList

/-- Content as it is read: names are split, attributes stay in order, and texts that meet are one. -/
inductive Shows : List Content → List Node → Prop
  | nil : Shows [] []
  | joined {first second : String} {rest : List Content} {nodes : List Node} :
      Shows (.text (first ++ second) :: rest) nodes →
      Shows (.text first :: .text second :: rest) nodes
  | text {content : String} {rest : List Content} {nodes : List Node} :
      (∀ other, rest.head? ≠ some (.text other)) → Shows rest nodes →
      Shows (.text content :: rest) (.text content :: nodes)
  | element {name : String} {attributes : List (String × String)} {head : Head}
      {children rest : List Content} {inside nodes : List Node} :
      head.Named name → head.attributes = attributes → Shows children inside → Shows rest nodes →
      Shows (.element name attributes children :: rest) (.element head inside :: nodes)

theorem Head.named_make (name : String) (attributes : List (String × String)) (locator : String) :
    (Head.make name attributes locator).Named name := by
  refine ⟨Head.qualifiedName_make name attributes locator, ?_⟩
  have before : ':' ∉ name.toList.takeWhile (· != ':') := fun member =>
    absurd (List.all_eq_true.mp List.all_takeWhile _ member) (by decide)
  unfold Head.make
  dsimp only
  split
  next ends =>
    have whole := (List.takeWhile_prefix (· != ':') (l := name.toList)).eq_of_length_le
      (List.drop_eq_nil_iff.mp ends)
    rw [whole] at before
    exact before
  next => simpa using before

theorem Head.attributes_make (name : String) (attributes : List (String × String))
    (locator : String) : (Head.make name attributes locator).attributes = attributes := by
  unfold Head.make
  dsimp only
  split
  · rfl
  · rfl

/-! ### Asides and character data -/

def closing (count : Nat) (mark : Char) : List Char :=
  List.replicate count mark ++ ['>']

theorem not_prefix_closing {mark letter : Char} {count : Nat} {rest : List Char}
    (other : mark ≠ '>') (absent : ¬ closing count mark <:+: letter :: rest) (more : List Char) :
    ¬ closing count mark <+: (letter :: rest) ++ (closing count mark ++ more) := by
  intro here
  by_cases long : (closing count mark).length ≤ (letter :: rest).length
  · exact absent (List.prefix_of_prefix_length_le here (List.prefix_append _ _) long).isInfix
  · simp only [closing, List.length_append, List.length_replicate, List.length_singleton,
      not_le] at long
    have within : count - (letter :: rest).length < count := by
      simp only [List.length_cons] at long ⊢
      omega
    have marked : ((letter :: rest) ++ (closing count mark ++ more))[count]? = some mark := by
      rw [closing, List.append_assoc, List.getElem?_append_right (by omega),
        List.getElem?_append_left (by simpa using within), List.getElem?_replicate, if_pos within]
    have angle := List.prefix_iff_getElem?.mp here count (by simp [closing])
    rw [marked] at angle
    exact other (by simpa [closing] using angle)

theorem cutAt_closing {mark : Char} {count : Nat} {body : List Char} (other : mark ≠ '>')
    (absent : ¬ closing count mark <:+: body) (more : List Char) :
    cutAt (closing count mark) (body ++ (closing count mark ++ more)) = some (body, more) := by
  induction body with
  | nil =>
    obtain ⟨first, rest, shape⟩ : ∃ first rest, closing count mark = first :: rest :=
      List.exists_cons_of_ne_nil (by simp [closing])
    have here : (first :: rest).isPrefixOf (first :: (rest ++ more)) = true := by
      rw [List.isPrefixOf_iff_prefix, ← List.cons_append]
      exact List.prefix_append _ _
    rw [List.nil_append, shape, List.cons_append, cutAt, if_pos here]
    simp
  | cons letter rest ih =>
    have elsewhere := not_prefix_closing other absent more
    rw [← List.isPrefixOf_iff_prefix, List.cons_append] at elsewhere
    rw [List.cons_append, cutAt, if_neg elsewhere,
      ih fun inside => absent (inside.trans (List.suffix_cons letter rest).isInfix)]
    rfl

theorem cutReference_name {name : List Char} (plain : ∀ part ∈ name, part ∉ marks)
    (more : List Char) : cutReference (name ++ ';' :: more) = some (name, more) := by
  induction name with
  | nil => rw [List.nil_append, cutReference, if_pos (by decide)]
  | cons part rest ih =>
    obtain ⟨own, others⟩ := List.forall_mem_cons.mp plain
    simp only [marks, List.mem_cons, not_or] at own
    rw [List.cons_append, cutReference, if_neg (by simp [own]), if_neg (by simp [own]), ih others]
    rfl

theorem cutBalanced_balanced {body : List Char} (balanced : Balanced body) (depth : Nat)
    (rest : List Char) : cutBalanced depth (body ++ rest) =
      (cutBalanced depth rest).map fun (before, after) => (body ++ before, after) := by
  induction balanced generalizing depth rest with
  | nil => simp
  | @letter letter body opens closes _ ih =>
    rw [List.cons_append, cutBalanced.eq_def depth (letter :: _)]
    simp only [beq_iff_eq, opens, closes, ↓reduceIte, ih, Option.map_map]
    rfl
  | @angles inside body _ _ ihInside ihRest =>
    rw [List.cons_append, cutBalanced.eq_def depth ('<' :: _)]
    simp only [beq_self_eq_true, ↓reduceIte, List.append_assoc, List.cons_append, ihInside]
    rw [cutBalanced.eq_def (depth + 1) ('>' :: _)]
    simp only [Char.reduceBEq, Bool.false_eq_true, ↓reduceIte, ihRest, Option.map_map]
    simp [Function.comp_def]

theorem markupEvent_doctype {body : List Char} (balanced : Balanced body) (named : ¬ Blank body)
    (more : List Char) :
    markupEvent ('!' :: ("DOCTYPE".toList ++ (body ++ '>' :: more))) = (.passed, more) := by
  have whole : Balanced ("DOCTYPE".toList ++ body) := by
    simp only [String.reduceToList, List.cons_append, List.nil_append]
    repeat refine .letter (by decide) (by decide) ?_
    exact balanced
  have meant : (body.all isSpace) = false := by
    rw [Bool.eq_false_iff]
    exact fun blank => named (List.all_eq_true.mp blank)
  have event : doctypeEvent ("DOCTYPE".toList ++ body) = .passed := by
    have drops : ("DOCTYPE".toList ++ body).drop 7 = body := by simp
    rw [doctypeEvent, drops, meant]
    rfl
  have cut : cutBalanced 0 ("DOCTYPE".toList ++ (body ++ '>' :: more)) =
      some ("DOCTYPE".toList ++ body, more) := by
    rw [← List.append_assoc, cutBalanced_balanced whole, cutBalanced]
    simp
  exact (congrArg (closed .openDoctype doctypeEvent) cut).trans (congrArg (·, more) event)

namespace Reading

/-- The reading of a tree: nothing of how it is written enters. -/
def fill (reading : Reading) : List Content → Reading
  | [] => reading
  | .text content :: rest => (reading.addText content).fill rest
  | .element name attributes children :: rest =>
    (((reading.opened name attributes).fill children).closeTag).fill rest

variable {reading : Reading}

theorem through_markup {rest after : List Char} {event : Event} (cut : markupEvent rest = (event, after))
    (sound : ∀ cause, event ≠ .fault cause) :
    reading.through ('<' :: rest) = (reading.step event).bind (through · after) := by
  have next : nextEvent '<' rest = (event, after) := cut
  rw [through_cons (by simpa [next] using sound), next]

theorem openTag_spelled {name : String} {attributes : List (String × String)}
    {letters : List Char} (spelled : SpelledAttributes attributes letters) (isName : IsName name)
    (names : ∀ entry ∈ attributes, IsName entry.1) (distinct : (attributes.map Prod.fst).Nodup) :
    reading.openTag (name.toList ++ letters) = .ok (reading.opened name attributes) := by
  obtain ⟨stack, root⟩ := reading
  cases stack with
  | nil =>
    simp [openTag, opened, spelled.tagName_eq isName,
      spelled.tagAttributes_eq isName names distinct, bind, Except.bind, pure, Except.pure,
      OpenElement.fresh]
  | cons parent others =>
    simp [openTag, opened, spelled.tagName_eq isName,
      spelled.tagAttributes_eq isName names distinct, bind, Except.bind, pure, Except.pure,
      OpenElement.fresh]

theorem through_aside {aside : List Char} (isAside : Aside aside) (more : List Char) :
    reading.through (aside ++ more) = reading.through more := by
  cases isAside with
  | @comment body absent =>
    have cut : markupEvent ('!' :: '-' :: '-' :: (body ++ ("-->".toList ++ more))) =
        (.passed, more) := by
      have found := @cutAt_closing '-' 2 body (by decide) absent more
      exact congrArg (closed .openComment fun _ => .passed) found
    have shape : "<!--".toList ++ (body ++ "-->".toList) ++ more =
        '<' :: '!' :: '-' :: '-' :: (body ++ ("-->".toList ++ more)) := by simp
    rw [shape, through_markup cut (by simp)]
    rfl
  | @instruction body absent proper =>
    have cut : markupEvent ('?' :: (body ++ ("?>".toList ++ more))) = (.passed, more) := by
      have found := @cutAt_closing '?' 1 body (by decide) absent more
      change instructionEvent _ = _
      unfold instructionEvent
      split
      next shape =>
        cases body with
        | nil => simp at shape
        | cons letter rest => exact absurd (congrArg some (List.cons.inj shape).1) proper
      next => exact congrArg (closed .openInstruction fun _ => .passed) found
    have shape : "<?".toList ++ (body ++ "?>".toList) ++ more =
        '<' :: '?' :: (body ++ ("?>".toList ++ more)) := by simp
    rw [shape, through_markup cut (by simp)]
    rfl

theorem through_piece {value piece : List Char} (isPiece : Piece value piece) (more : List Char) :
    reading.through (piece ++ more) = (reading.addText (String.ofList value)).through more := by
  cases isPiece with
  | plain nonempty plain => exact through_text more nonempty plain
  | @reference letter name refers =>
    have next : nextEvent '&' (name ++ ';' :: more) = (.reference name, more) :=
      congrArg (closed .openReference .reference) (cutReference_name refers.not_mem_marks more)
    have shape : '&' :: (name ++ [';']) ++ more = '&' :: (name ++ ';' :: more) := by simp
    rw [shape, through_cons (by simp [next]), next]
    simp only [step, refers.resolveName, Except.bind]
    rfl
  | characterData absent =>
    have cut : markupEvent ("![CDATA[".toList ++ (value ++ ("]]>".toList ++ more))) =
        (.characterData value, more) := by
      have found := @cutAt_closing ']' 2 value (by decide) absent more
      exact congrArg (closed .openCharacterData .characterData) found
    have shape : "<![CDATA[".toList ++ (value ++ "]]>".toList) ++ more =
        '<' :: ("![CDATA[".toList ++ (value ++ ("]]>".toList ++ more))) := by simp
    rw [shape, through_markup cut (by simp)]
    rfl

theorem through_doctype {body : List Char} (balanced : Balanced body) (named : ¬ Blank body)
    (more : List Char) : reading.through ("<!DOCTYPE".toList ++ (body ++ '>' :: more)) =
      reading.through more := by
  have shape : "<!DOCTYPE".toList ++ (body ++ '>' :: more) =
      '<' :: '!' :: ("DOCTYPE".toList ++ (body ++ '>' :: more)) := by simp
  rw [shape, through_markup (markupEvent_doctype balanced named more) (by simp)]
  rfl

end Reading

namespace SpelledText

variable {text letters : List Char} {reading : Reading}

theorem through_behind (spelled : SpelledText text letters) (earlier : String) (more : List Char) :
    (reading.addText earlier).through (letters ++ more) =
      (reading.addText (earlier ++ String.ofList text)).through more := by
  induction spelled generalizing earlier with
  | nil => simp
  | piece isPiece _ ih =>
    rw [List.append_assoc, Reading.through_piece isPiece, Reading.addText_addText, ih,
      String.append_assoc, ← String.ofList_append]
  | aside isAside _ ih => rw [List.append_assoc, Reading.through_aside isAside, ih]

theorem through (spelled : SpelledText text letters) (nonempty : text ≠ []) (more : List Char) :
    reading.through (letters ++ more) = (reading.addText (String.ofList text)).through more := by
  induction spelled with
  | nil => exact absurd rfl nonempty
  | piece isPiece rest _ =>
    rw [List.append_assoc, Reading.through_piece isPiece, rest.through_behind,
      ← String.ofList_append]
  | aside isAside _ ih => rw [List.append_assoc, Reading.through_aside isAside, ih nonempty]

end SpelledText

/-! ### The tree that comes out -/

theorem OpenElement.close_eq (element : OpenElement) : ∃ start hasStart, element.close =
    ⟨{ element.head with start, hasStart }, element.content.reverse⟩ := by
  unfold close
  dsimp only
  split
  · exact ⟨element.head.start, element.head.hasStart, rfl⟩
  · split
    next start _ => exact ⟨start, true, rfl⟩
    next => exact ⟨element.head.start, element.head.hasStart, rfl⟩

theorem shows_close {name : String} {attributes : List (String × String)} {locator : String}
    {element : OpenElement} {children rest : List Content} {nodes : List Node}
    (head : element.head = .make name attributes locator)
    (inside : Shows children element.content.reverse) (shows : Shows rest nodes) :
    Shows (.element name attributes children :: rest) (element.close.toNode :: nodes) := by
  obtain ⟨start, hasStart, closed⟩ := element.close_eq
  have named := Head.named_make name attributes locator
  have kept := Head.attributes_make name attributes locator
  rw [closed, head]
  exact .element ⟨named.whole, named.first⟩ kept inside shows

/-- Text at the end of what is read so far, latest first, which further text is joined to; and what
stands before it. -/
def lastText : List Node → List Content × List Node
  | .text content :: others => ([.text content], others)
  | nodes => ([], nodes)

theorem shows_lastText {content : List Node} {rest : List Content} {nodes : List Node}
    (apart : ∀ other, rest.head? ≠ some (.text other)) (shows : Shows rest nodes) :
    ∃ gained, gained ++ (lastText content).2 = content ∧
      Shows ((lastText content).1 ++ rest) (gained.reverse ++ nodes) := by
  cases content with
  | nil => exact ⟨[], rfl, shows⟩
  | cons node others =>
    cases node with
    | text last => exact ⟨[.text last], rfl, .text apart shows⟩
    | element head children => exact ⟨[], rfl, shows⟩

theorem lastText_addText (parent : OpenElement) (text : String) {rest : List Content}
    {nodes : List Node} (shows : Shows ((lastText (parent.addText text).content).1 ++ rest) nodes) :
    (lastText (parent.addText text).content).2 = (lastText parent.content).2 ∧
      Shows ((lastText parent.content).1 ++ .text text :: rest) nodes := by
  obtain ⟨qualified, head, content, childNames⟩ := parent
  rcases content with _ | ⟨last | child, others⟩
  · exact ⟨rfl, shows⟩
  · exact ⟨rfl, .joined shows⟩
  · exact ⟨rfl, shows⟩

namespace Reading

theorem opened_stack (reading : Reading) (name : String) (attributes : List (String × String)) :
    ∃ locator others root, reading.opened name attributes =
      ⟨.fresh name attributes locator :: others, root⟩ := by
  obtain ⟨stack, root⟩ := reading
  cases stack with
  | nil => exact ⟨_, [], root, rfl⟩
  | cons parent others => exact ⟨_, _, root, rfl⟩

theorem fill_inside : ∀ (nodes : List Content) (parent : OpenElement) (others : List OpenElement)
    (root : Option Element), ∃ later gained,
    fill ⟨parent :: others, root⟩ nodes = ⟨later :: others, root⟩ ∧
      later.qualified = parent.qualified ∧ later.head = parent.head ∧
      later.content = gained ++ (lastText parent.content).2 ∧
      Shows ((lastText parent.content).1 ++ nodes) gained.reverse
  | [], parent, others, root => by
    obtain ⟨gained, whole, shows⟩ := @shows_lastText parent.content [] [] (by simp) .nil
    exact ⟨parent, gained, by rw [fill], rfl, rfl, whole.symm, by simpa using shows⟩
  | .text content :: rest, parent, others, root => by
    -- the text may join one that the element ends with, and then both are shown as one
    obtain ⟨later, gained, filled, qualified, head, inside, shows⟩ :=
      fill_inside rest (parent.addText content) others root
    obtain ⟨before, joined⟩ := lastText_addText parent content shows
    have added := (OpenElement.Gains.refl parent).addText content
    refine ⟨later, gained, ?_, qualified.trans added.qualified, head.trans added.head,
      before ▸ inside, joined⟩
    rw [fill]
    exact filled
  | .element name attributes children :: rest, parent, others, root => by
    obtain ⟨child, below, filledChild, _, headChild, insideChild, showsChild⟩ :=
      fill_inside children (.fresh name attributes (parent.childLocator name))
        (parent.noteChild name :: others) root
    obtain ⟨later, gained, filled, qualified, head, inside, shows⟩ :=
      fill_inside rest ((parent.noteChild name).adopt child.close) others root
    have noted := OpenElement.Gains.noteChild parent name
    have same : (parent.noteChild name).content = parent.content := by
      unfold OpenElement.noteChild
      split
      · rfl
      · rfl
    have showsElement : Shows (.element name attributes children :: rest)
        (child.close.toNode :: gained.reverse) := by
      refine shows_close headChild ?_ shows
      simpa [insideChild, OpenElement.fresh, lastText] using showsChild
    obtain ⟨before, whole, showsAll⟩ := @shows_lastText parent.content _ _ (by simp) showsElement
    refine ⟨later, gained ++ child.close.toNode :: before, ?_, qualified.trans noted.qualified,
      head.trans noted.head, ?_, ?_⟩
    · rw [fill, opened]
      dsimp only
      rw [filledChild]
      exact filled
    · rw [inside, List.append_assoc, List.cons_append, whole, ← same]
      rfl
    · simpa using showsAll

end Reading

theorem Reading.fill_root (name : String) (attributes : List (String × String))
    (children : List Content) : ∃ closed : Element,
      begin.fill [.element name attributes children] = ⟨[], some closed⟩ ∧
        Shows [.element name attributes children] [closed.toNode] := by
  obtain ⟨later, gained, filled, _, head, inside, shows⟩ :=
    fill_inside children (.fresh name attributes ("/" ++ name)) [] none
  refine ⟨later.close, ?_, shows_close head ?_ .nil⟩
  · rw [fill, fill, begin, opened]
    dsimp only
    rw [filled]
    rfl
  · simpa [inside, OpenElement.fresh, lastText] using shows

theorem Shows.inferAll {content : List Content} {nodes : List Node} (shows : Shows content nodes) :
    ∀ start stop, Shows content (Node.inferAll start stop nodes) := by
  induction shows with
  | nil => exact fun _ _ => .nil
  | joined _ ih => exact fun start stop => .joined (ih start stop)
  | text apart _ ih => exact fun start stop => .text apart (ih start stop)
  | element named kept _ _ ihInside ihRest =>
    intro start stop
    exact .element ⟨named.whole, named.first⟩ kept (ihInside _ _) (ihRest start stop)

namespace Reading

theorem through_spelled {nodes : List Content} {letters : List Char}
    (spelled : Spelled nodes letters) (spellable : ∀ node ∈ nodes, node.Spellable)
    (reading : Reading) (more : List Char) :
    reading.through (letters ++ more) = (reading.fill nodes).through more := by
  induction spelled generalizing reading more with
  | nil => simp [fill]
  | aside isAside _ ih => rw [List.append_assoc, through_aside isAside, ih spellable]
  | @text content letters rest nodes isText _ ih =>
    obtain ⟨own, others⟩ := List.forall_mem_cons.mp spellable
    have nonempty : content.toList ≠ [] := by
      cases own with
      | text nonempty => exact fun empty => nonempty (String.toList_eq_nil_iff.mp empty)
    rw [List.append_assoc, isText.through nonempty, ih others, fill, String.ofList_toList]
  | @whole name attributes letters rest nodes isTag _ ih =>
    obtain ⟨own, others⟩ := List.forall_mem_cons.mp spellable
    cases own with
    | element isName names distinct _ =>
      have shape : '<' :: (name.toList ++ (letters ++ '/' :: '>' :: rest)) ++ more =
          '<' :: (name.toList ++ (letters ++ '/' :: '>' :: (rest ++ more))) := by simp
      rw [shape, through_markup (markupEvent_whole isName names isTag _) (by simp), fill, ← ih others]
      simp only [step, openTag_spelled isTag isName names distinct, bind, Except.bind, pure,
        Except.pure, fill]
  | @pair name attributes letters inside blanks rest children nodes isTag _ blank _ ihInside ih =>
    obtain ⟨own, others⟩ := List.forall_mem_cons.mp spellable
    cases own with
    | element isName names distinct below =>
      have shape : '<' :: (name.toList ++ (letters ++ '>' ::
          (inside ++ '<' :: '/' :: (name.toList ++ (blanks ++ '>' :: rest))))) ++ more =
          '<' :: (name.toList ++ (letters ++ '>' :: (inside ++ '<' :: '/' ::
            (name.toList ++ (blanks ++ '>' :: (rest ++ more)))))) := by simp
      have closes : ∃ inner around root, (reading.opened name attributes).fill children =
          ⟨inner :: around, root⟩ ∧ inner.qualified = name := by
        obtain ⟨locator, around, root, opens⟩ := opened_stack reading name attributes
        obtain ⟨inner, _, filled, qualified, _⟩ := fill_inside children _ around root
        exact ⟨inner, around, root, opens ▸ filled, qualified⟩
      obtain ⟨inner, around, root, filled, qualified⟩ := closes
      rw [shape, through_markup (markupEvent_start isName names isTag _) (by simp), step,
        openTag_spelled isTag isName names distinct, Except.bind, ihInside below,
        through_markup (markupEvent_finish isName blank _) (by simp), filled, step_finish, Except.bind,
        ih others, fill, filled]
      rw [qualified, String.ofList_toList]

theorem through_outside {letters : List Char} (outside : Outside letters) (root : Option Element)
    (more : List Char) : through ⟨[], root⟩ (letters ++ more) = through ⟨[], root⟩ more := by
  induction outside with
  | nil => rfl
  | @letter letter rest plain _ ih =>
    have one := @through_text ⟨[], root⟩ [letter] (rest ++ more) (by simp) (by simpa using plain)
    rw [List.cons_append, ← List.singleton_append, one]
    exact ih
  | aside isAside _ ih => rw [List.append_assoc, through_aside isAside, ih]
  | @doctype body rest balanced named _ ih =>
    have shape : "<!DOCTYPE".toList ++ (body ++ '>' :: rest) ++ more =
        "<!DOCTYPE".toList ++ (body ++ '>' :: (rest ++ more)) := by
      simp only [List.append_assoc, List.cons_append]
    rw [shape, through_doctype balanced named, ih]

end Reading

/-! ### Every tree can be written -/

theorem exists_piece (letter : Char) : ∃ piece, Piece [letter] piece := by
  by_cases plain : isPlain letter = true
  · exact ⟨[letter], .plain (by simp) (by simpa using plain)⟩
  · have marking : letter = '<' ∨ letter = '&' := by
      simp only [isPlain, Bool.and_eq_true, bne_iff_ne, not_and_or, not_not] at plain
      exact plain
    rcases marking with rfl | rfl
    · have less : Refers '<' "lt".toList := .predefined (by simp)
      exact ⟨_, .reference less⟩
    · have ampersand : Refers '&' "amp".toList := .predefined (by simp)
      exact ⟨_, .reference ampersand⟩

theorem exists_spelledText (text : List Char) : ∃ letters, SpelledText text letters := by
  induction text with
  | nil => exact ⟨[], .nil⟩
  | cons letter rest ih =>
    obtain ⟨letters, spelled⟩ := ih
    obtain ⟨piece, isPiece⟩ := exists_piece letter
    exact ⟨piece ++ letters, .piece isPiece spelled⟩

theorem exists_spelledValue (value : List Char) : ∃ letters, SpelledValue '"' value letters := by
  induction value with
  | nil => exact ⟨[], .nil⟩
  | cons letter rest ih =>
    obtain ⟨letters, spelled⟩ := ih
    by_cases quote : letter = '"'
    · have refers : Refers letter "quot".toList := .predefined (by simp [quote])
      exact ⟨_, .reference refers spelled⟩
    · by_cases ampersand : letter = '&'
      · have refers : Refers letter "amp".toList := .predefined (by simp [ampersand])
        exact ⟨_, .reference refers spelled⟩
      · exact ⟨_, .letter quote ampersand spelled⟩

theorem exists_spelledAttributes (attributes : List (String × String)) :
    ∃ letters, SpelledAttributes attributes letters := by
  induction attributes with
  | nil => exact ⟨[], .nil .nil⟩
  | cons entry rest ih =>
    obtain ⟨others, spelled⟩ := ih
    obtain ⟨letters, value⟩ := exists_spelledValue entry.2.toList
    exact ⟨_, .cons (List.cons_ne_nil _ _) .space .nil .nil (by simp) value spelled⟩

theorem exists_spelled : ∀ nodes : List Content, ∃ letters, Spelled nodes letters
  | [] => ⟨[], .nil⟩
  | .text content :: rest => by
    obtain ⟨letters, text⟩ := exists_spelledText content.toList
    obtain ⟨others, spelled⟩ := exists_spelled rest
    exact ⟨_, .text text spelled⟩
  | .element name attributes children :: rest => by
    obtain ⟨letters, tag⟩ := exists_spelledAttributes attributes
    obtain ⟨inside, below⟩ := exists_spelled children
    obtain ⟨others, spelled⟩ := exists_spelled rest
    exact ⟨_, .pair tag below .nil spelled⟩

/-- Every tree can be written, and every way to write it is read as the same element, which shows
the tree. -/
theorem parseDocument_spelled {name : String} {attributes : List (String × String)}
    {children : List Content} (spellable : (Content.element name attributes children).Spellable) :
    (∃ text : String, SpelledDocument (.element name attributes children) text.toList) ∧
      ∃ root : Element, Shows [.element name attributes children] [root.toNode] ∧
        ∀ text : String, SpelledDocument (.element name attributes children) text.toList →
          parseDocument text = .ok root := by
  have all : ∀ node ∈ [Content.element name attributes children], node.Spellable := by
    simpa using spellable
  obtain ⟨letters, written⟩ := exists_spelled [.element name attributes children]
  obtain ⟨closed, filled, shows⟩ := Reading.fill_root name attributes children
  constructor
  · refine ⟨String.ofList letters, ?_⟩
    have document := SpelledDocument.intro .nil written .nil
    rwa [List.nil_append, List.append_nil, ← String.toList_ofList (l := letters)] at document
  · refine ⟨closed.placed ⟨1, 1⟩ .unbounded, shows.inferAll ⟨1, 1⟩ .unbounded, ?_⟩
    intro text spelled
    refine parseDocument_ok_iff.mpr ⟨closed, ?_, rfl⟩
    generalize text.toList = letters at spelled
    cases spelled with
    | intro front inside back =>
      have ending := Reading.through_outside back (some closed) []
      rw [List.append_nil, Reading.through_nil] at ending
      rw [Reading.begin, Reading.through_outside front, ← Reading.begin,
        Reading.through_spelled inside all, filled, ending]

def mixedTree : Content :=
  .element "a:b" [("k", "<")] [.text "x&", .text "y", .element "c" [] []]

theorem mixedTree_spellable : mixedTree.Spellable := by
  have root : IsName "a:b" := ⟨by decide, by simp [endsName, isSpace]⟩
  have key : IsName "k" := ⟨by decide, by simp [endsName, isSpace]⟩
  have child : IsName "c" := ⟨by decide, by simp [endsName, isSpace]⟩
  refine .element root (by simpa using key) (by simp) ?_
  simp only [List.forall_mem_cons, List.not_mem_nil, false_implies, implies_true, and_true]
  exact ⟨.text (by decide), .text (by decide), .element child (by simp) (by simp) (by simp)⟩

theorem parseDocument_spelled_two_ways :
    let first := "<?p?><a:b k='&lt;'>x&#38;<!--n--><![CDATA[y]]><c></c></a:b>"
    let second := "<a:b k=\"&#x3C;\" >x&amp;y<c/></a:b >"
    mixedTree.Spellable ∧ SpelledDocument mixedTree first.toList ∧
      SpelledDocument mixedTree second.toList ∧
      ∃ root : Element, Shows [mixedTree] [root.toNode] ∧
        parseDocument first = .ok root ∧ parseDocument second = .ok root := by
  intro first second
  have firstSpelled : SpelledDocument mixedTree first.toList := by
    have less : Refers '<' "lt".toList := .predefined (by simp)
    have ampersand : Refers '&' "#38".toList := .decimal (by simp) (by decide) (by decide)
    have attributes := @SpelledAttributes.cons "k" "<" '\'' [] [' '] [] [] _ [] (by simp)
      .space .nil .nil (by simp) (.reference less .nil) (.nil .nil)
    have x : SpelledText "x&".toList _ :=
      .piece (.plain (List.cons_ne_nil 'x' []) (by simp [isPlain])) (.piece (.reference ampersand) .nil)
    have y : SpelledText "y".toList _ := .piece (@Piece.characterData "y".toList (by decide)) .nil
    have comment : Aside _ := @Aside.comment "n".toList (by decide)
    have inside : Spelled [mixedTree] _ := .pair attributes
      (.text x (.aside comment (.text y (.pair (.nil .nil) .nil .nil .nil)))) .nil .nil
    have front : Outside _ := .aside (@Aside.instruction "p".toList (by decide) (by decide)) .nil
    simpa [first] using SpelledDocument.intro front inside .nil
  have secondSpelled : SpelledDocument mixedTree second.toList := by
    have less : Refers '<' "#x3C".toList := .hexadecimal (by simp) (by decide) (by decide)
    have ampersand : Refers '&' "amp".toList := .predefined (by simp)
    have attributes := @SpelledAttributes.cons "k" "<" '"' [] [' '] [] [] _ [' '] (by simp)
      .space .nil .nil (by simp) (.reference less .nil) (.nil .space)
    have x : SpelledText "x&".toList _ :=
      .piece (.plain (List.cons_ne_nil 'x' []) (by simp [isPlain])) (.piece (.reference ampersand) .nil)
    have y : SpelledText "y".toList _ :=
      .piece (.plain (List.cons_ne_nil 'y' []) (by simp [isPlain])) .nil
    have inside : Spelled [mixedTree] _ :=
      .pair attributes (.text x (.text y (.whole (.nil .nil) .nil))) .space .nil
    simpa [second] using SpelledDocument.intro .nil inside .nil
  obtain ⟨_, root, shows, reads⟩ := parseDocument_spelled mixedTree_spellable
  exact ⟨mixedTree_spellable, firstSpelled, secondSpelled, root, shows, reads first firstSpelled,
    reads second secondSpelled⟩

end ScopeAtlas.Markup
