import ScopeAtlas.Failure
import ScopeAtlas.Text.Blank

/-!
The first reading of a document: it is cut into tags, text, references and the things that
carry no content. The cut never fails as a whole; a fault is the last event of the list, so
that whatever is wrong earlier in the document is met first.
-/

namespace ScopeAtlas.Markup

def isSpace (letter : Char) : Bool :=
  letter == ' ' || letter == '\t' || letter == '\r' || letter == '\n'

inductive Event
  | start (content : List Char)
  | whole (content : List Char)
  | finish (name : List Char)
  | text (content : List Char)
  | reference (name : List Char)
  | characterData (content : List Char)
  | passed
  | fault (cause : MarkupFault)
  deriving DecidableEq, Repr

def cutAt (pattern : List Char) : List Char → Option (List Char × List Char)
  | [] => none
  | letter :: rest =>
    if pattern.isPrefixOf (letter :: rest) then some ([], (letter :: rest).drop pattern.length)
    else (cutAt pattern rest).map fun (before, after) => (letter :: before, after)

def cutTag : Option Char → List Char → Option (List Char × List Char)
  | _, [] => none
  | quote, letter :: rest =>
    let pass (next : Option Char) :=
      (cutTag next rest).map fun (before, after) => (letter :: before, after)
    match quote with
    | none =>
      if letter == '>' then some ([], rest)
      else if letter == '"' || letter == '\'' then pass (some letter)
      else pass none
    | some mark => if letter == mark then pass none else pass quote

def cutBalanced : Nat → List Char → Option (List Char × List Char)
  | _, [] => none
  | depth, letter :: rest =>
    let pass (next : Nat) :=
      (cutBalanced next rest).map fun (before, after) => (letter :: before, after)
    if letter == '<' then pass (depth + 1)
    else if letter == '>' then
      match depth with
      | 0 => some ([], rest)
      | outer + 1 => pass outer
    else pass depth

def cutReference : List Char → Option (List Char × List Char)
  | [] => none
  | letter :: rest =>
    if letter == ';' then some ([], rest)
    else if letter == '&' || letter == '<' then none
    else (cutReference rest).map fun (name, after) => (letter :: name, after)

def closed (missing : MarkupFault) (event : List Char → Event) :
    Option (List Char × List Char) → Event × List Char
  | some (content, rest) => (event content, rest)
  | none => (.fault missing, [])

/-- A name in an end tag loses the blanks at its end, unless it is nothing but blanks. -/
def endName (content : List Char) : List Char :=
  if content.all isSpace then content else (content.reverse.dropWhile isSpace).reverse

def tagEvent (content : List Char) : Event :=
  match content.getLast? with
  | some '/' => .whole content.dropLast
  | _ => .start content

/-- A document type must be spelled so, in any case, and say more than that. -/
def doctypeEvent (content : List Char) : Event :=
  if (content.take 7).map Char.toUpper = "DOCTYPE".toList then
    if (content.drop 7).all isSpace then .fault .namelessDoctype else .passed
  else .fault .openDoctype

def declarationEvent (rest : List Char) : Event × List Char :=
  match rest with
  | '[' :: _ =>
    if "[CDATA[".toList.isPrefixOf rest then
      closed .openCharacterData .characterData (cutAt "]]>".toList (rest.drop 7))
    else (.fault .openCharacterData, [])
  | '-' :: _ =>
    if "--".toList.isPrefixOf rest then
      closed .openComment (fun _ => .passed) (cutAt "-->".toList (rest.drop 2))
    else (.fault .openComment, [])
  | 'D' :: _ => closed .openDoctype doctypeEvent (cutBalanced 0 rest)
  | 'd' :: _ => closed .openDoctype doctypeEvent (cutBalanced 0 rest)
  | _ => (.fault .unknownDeclaration, [])

def instructionEvent (rest : List Char) : Event × List Char :=
  match rest with
  | '>' :: _ => (.fault .openInstruction, [])
  | _ => closed .openInstruction (fun _ => .passed) (cutAt "?>".toList rest)

def markupEvent (rest : List Char) : Event × List Char :=
  match rest with
  | '!' :: inner => declarationEvent inner
  | '?' :: inner => instructionEvent inner
  | '/' :: inner => closed .openTag (fun content => .finish (endName content)) (cutTag none inner)
  | _ => closed .openTag tagEvent (cutTag none rest)

def isPlain (letter : Char) : Bool :=
  letter != '<' && letter != '&'

def nextEvent (first : Char) (rest : List Char) : Event × List Char :=
  if first == '<' then markupEvent rest
  else if first == '&' then closed .openReference .reference (cutReference rest)
  else (.text (first :: rest.takeWhile isPlain), rest.dropWhile isPlain)

/-! Every event uses up part of the input. -/

theorem cutAt_length {pattern letters before after : List Char}
    (found : cutAt pattern letters = some (before, after)) : after.length ≤ letters.length := by
  induction letters generalizing before after with
  | nil => simp [cutAt] at found
  | cons letter rest ih =>
    unfold cutAt at found
    split at found
    · simp only [Option.some.injEq, Prod.mk.injEq] at found
      rw [← found.2]
      simp only [List.length_drop, List.length_cons]
      omega
    · obtain ⟨⟨left, right⟩, inner, shape⟩ := Option.map_eq_some_iff.mp found
      simp only [Prod.mk.injEq] at shape
      have shorter := ih inner
      rw [← shape.2]
      simp only [List.length_cons]
      omega

theorem cutTag_length {quote : Option Char} {letters before after : List Char}
    (found : cutTag quote letters = some (before, after)) : after.length ≤ letters.length := by
  induction letters generalizing quote before after with
  | nil => simp [cutTag] at found
  | cons letter rest ih =>
    have passed {next : Option Char}
        (inner : (cutTag next rest).map (fun (left, right) => (letter :: left, right)) =
          some (before, after)) : after.length ≤ (letter :: rest).length := by
      obtain ⟨⟨left, right⟩, inner, shape⟩ := Option.map_eq_some_iff.mp inner
      simp only [Prod.mk.injEq] at shape
      have shorter := ih inner
      rw [← shape.2]
      simp only [List.length_cons]
      omega
    unfold cutTag at found
    dsimp only at found
    split at found
    · split at found
      · simp only [Option.some.injEq, Prod.mk.injEq] at found
        simp [← found.2]
      · split at found
        · exact passed found
        · exact passed found
    · split at found
      · exact passed found
      · exact passed found

theorem cutBalanced_length {depth : Nat} {letters before after : List Char}
    (found : cutBalanced depth letters = some (before, after)) : after.length ≤ letters.length := by
  induction letters generalizing depth before after with
  | nil => simp [cutBalanced] at found
  | cons letter rest ih =>
    have passed {next : Nat}
        (inner : (cutBalanced next rest).map (fun (left, right) => (letter :: left, right)) =
          some (before, after)) : after.length ≤ (letter :: rest).length := by
      obtain ⟨⟨left, right⟩, inner, shape⟩ := Option.map_eq_some_iff.mp inner
      simp only [Prod.mk.injEq] at shape
      have shorter := ih inner
      rw [← shape.2]
      simp only [List.length_cons]
      omega
    unfold cutBalanced at found
    dsimp only at found
    split at found
    · exact passed found
    · split at found
      · split at found
        · simp only [Option.some.injEq, Prod.mk.injEq] at found
          simp [← found.2]
        · exact passed found
      · exact passed found

theorem cutReference_length {letters name after : List Char}
    (found : cutReference letters = some (name, after)) : after.length ≤ letters.length := by
  induction letters generalizing name after with
  | nil => simp [cutReference] at found
  | cons letter rest ih =>
    unfold cutReference at found
    split at found
    · simp only [Option.some.injEq, Prod.mk.injEq] at found
      simp [← found.2]
    · split at found
      · simp at found
      · obtain ⟨⟨left, right⟩, inner, shape⟩ := Option.map_eq_some_iff.mp found
        simp only [Prod.mk.injEq] at shape
        have shorter := ih inner
        rw [← shape.2]
        simp only [List.length_cons]
        omega

theorem closed_length {missing : MarkupFault} {event : List Char → Event} {bound : Nat}
    {cut : Option (List Char × List Char)}
    (shorter : ∀ before after, cut = some (before, after) → after.length ≤ bound) :
    (closed missing event cut).2.length ≤ bound := by
  cases cut with
  | none => simp [closed]
  | some pair => exact shorter pair.1 pair.2 rfl

theorem declarationEvent_length (rest : List Char) :
    (declarationEvent rest).2.length ≤ rest.length := by
  unfold declarationEvent
  split
  · split
    · apply closed_length
      intro before after found
      have := cutAt_length found
      simp only [List.length_drop] at this
      omega
    · simp
  · split
    · apply closed_length
      intro before after found
      have := cutAt_length found
      simp only [List.length_drop] at this
      omega
    · simp
  · exact closed_length fun before after found => cutBalanced_length found
  · exact closed_length fun before after found => cutBalanced_length found
  · simp

theorem markupEvent_length (rest : List Char) : (markupEvent rest).2.length ≤ rest.length := by
  unfold markupEvent
  split
  · rename_i inner
    have := declarationEvent_length inner
    simp only [List.length_cons]
    omega
  · rename_i inner
    unfold instructionEvent
    split
    · simp
    · apply closed_length
      intro before after found
      have := cutAt_length found
      simp only [List.length_cons]
      omega
  · rename_i inner
    apply closed_length
    intro before after found
    have := cutTag_length found
    simp only [List.length_cons]
    omega
  · exact closed_length fun before after found => cutTag_length found

theorem length_dropWhile_le (keep : Char → Bool) (letters : List Char) :
    (letters.dropWhile keep).length ≤ letters.length :=
  (List.dropWhile_suffix keep).length_le

theorem nextEvent_length (first : Char) (rest : List Char) :
    (nextEvent first rest).2.length ≤ rest.length := by
  unfold nextEvent
  split
  · exact markupEvent_length rest
  · split
    · exact closed_length fun before after found => cutReference_length found
    · exact length_dropWhile_le isPlain rest

/-- The events of a document in order; after a fault there are none. -/
def events (input : List Char) : List Event :=
  match input with
  | [] => []
  | first :: rest =>
    match (nextEvent first rest).1 with
    | .fault cause => [.fault cause]
    | event => event :: events (nextEvent first rest).2
termination_by input.length
decreasing_by
  have := nextEvent_length first rest
  simp only [List.length_cons]
  omega

def eventsOf (text : String) : List Event :=
  match text.toList with
  | '\uFEFF' :: rest => events rest
  | letters => events letters

end ScopeAtlas.Markup
