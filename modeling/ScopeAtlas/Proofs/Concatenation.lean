import ScopeAtlas.Markup.Document

/-!
Reading one text after another. A cut that finds its end does not look past it, so text written
behind a document changes nothing of what was read before; two runs of text that meet at the
seam are one run, and adding one run is adding its two halves.
-/

namespace ScopeAtlas.Markup

theorem further_append {letter : Char} {cut longer : Option (List Char × List Char)}
    {before after more : List Char}
    (same : ∀ left right, cut = some (left, right) → longer = some (left, right ++ more))
    (found : cut.map (fun (left, right) => (letter :: left, right)) = some (before, after)) :
    longer.map (fun (left, right) => (letter :: left, right)) = some (before, after ++ more) := by
  obtain ⟨⟨left, right⟩, inner, shape⟩ := Option.map_eq_some_iff.mp found
  simp only [Prod.mk.injEq] at shape
  simp only [same left right inner, Option.map_some, shape.1, shape.2]

theorem length_le_of_cutAt {pattern letters before after : List Char}
    (found : cutAt pattern letters = some (before, after)) : pattern.length ≤ letters.length := by
  induction letters generalizing before after with
  | nil => simp [cutAt] at found
  | cons letter rest ih =>
    unfold cutAt at found
    split at found
    next here => exact (List.isPrefixOf_iff_prefix.mp here).length_le
    next =>
      obtain ⟨⟨left, right⟩, inner, _⟩ := Option.map_eq_some_iff.mp found
      have shorter := ih inner
      simp only [List.length_cons]
      omega

theorem cutAt_append {pattern letters before after : List Char} (more : List Char)
    (found : cutAt pattern letters = some (before, after)) :
    cutAt pattern (letters ++ more) = some (before, after ++ more) := by
  induction letters generalizing before after with
  | nil => simp [cutAt] at found
  | cons letter rest ih =>
    have fits := length_le_of_cutAt found
    have same : pattern.isPrefixOf (letter :: (rest ++ more)) =
        pattern.isPrefixOf (letter :: rest) := by
      rw [Bool.eq_iff_iff, List.isPrefixOf_iff_prefix, List.isPrefixOf_iff_prefix,
        ← List.cons_append]
      exact ⟨fun longer => List.prefix_of_prefix_length_le longer (List.prefix_append _ _) fits,
        fun shorter => shorter.trans (List.prefix_append _ _)⟩
    rw [List.cons_append]
    unfold cutAt at found ⊢
    rw [same]
    split at found
    next here =>
      simp only [Option.some.injEq, Prod.mk.injEq] at found
      rw [if_pos here, ← List.cons_append, List.drop_append_of_le_length fits, found.2, ← found.1]
    next elsewhere =>
      rw [if_neg elsewhere]
      exact further_append (fun left right => ih) found

theorem cutTag_append {quote : Option Char} {letters before after : List Char} (more : List Char)
    (found : cutTag quote letters = some (before, after)) :
    cutTag quote (letters ++ more) = some (before, after ++ more) := by
  induction letters generalizing quote before after with
  | nil => simp [cutTag] at found
  | cons letter rest ih =>
    rw [List.cons_append]
    unfold cutTag at found ⊢
    dsimp only at found ⊢
    split at found
    · split at found
      next ends =>
        simp only [Option.some.injEq, Prod.mk.injEq] at found
        rw [if_pos ends, found.2, ← found.1]
      next goes =>
        rw [if_neg goes]
        split at found
        next opens =>
          rw [if_pos opens]
          exact further_append (fun left right => ih) found
        next plain =>
          rw [if_neg plain]
          exact further_append (fun left right => ih) found
    · split at found
      next closes =>
        rw [if_pos closes]
        exact further_append (fun left right => ih) found
      next inside =>
        rw [if_neg inside]
        exact further_append (fun left right => ih) found

theorem cutBalanced_append {depth : Nat} {letters before after : List Char} (more : List Char)
    (found : cutBalanced depth letters = some (before, after)) :
    cutBalanced depth (letters ++ more) = some (before, after ++ more) := by
  induction letters generalizing depth before after with
  | nil => simp [cutBalanced] at found
  | cons letter rest ih =>
    rw [List.cons_append]
    unfold cutBalanced at found ⊢
    dsimp only at found ⊢
    split at found
    next opens =>
      rw [if_pos opens]
      exact further_append (fun left right => ih) found
    next other =>
      rw [if_neg other]
      split at found
      next angle =>
        rw [if_pos angle]
        split at found
        · simp only [Option.some.injEq, Prod.mk.injEq] at found
          rw [found.2, ← found.1]
        · exact further_append (fun left right => ih) found
      next plain =>
        rw [if_neg plain]
        exact further_append (fun left right => ih) found

theorem cutReference_append {letters name after : List Char} (more : List Char)
    (found : cutReference letters = some (name, after)) :
    cutReference (letters ++ more) = some (name, after ++ more) := by
  induction letters generalizing name after with
  | nil => simp [cutReference] at found
  | cons letter rest ih =>
    rw [List.cons_append]
    unfold cutReference at found ⊢
    split at found
    next ends =>
      simp only [Option.some.injEq, Prod.mk.injEq] at found
      rw [if_pos ends, found.2, ← found.1]
    next goes =>
      rw [if_neg goes]
      split at found
      · simp at found
      next plain =>
        rw [if_neg plain]
        exact further_append (fun left right => ih) found

theorem closed_append {missing : MarkupFault} {event : List Char → Event}
    {cut longer : Option (List Char × List Char)} {more : List Char}
    (same : ∀ left right, cut = some (left, right) → longer = some (left, right ++ more))
    (sound : ∀ cause, (closed missing event cut).1 ≠ .fault cause) :
    closed missing event longer =
      ((closed missing event cut).1, (closed missing event cut).2 ++ more) := by
  cases found : cut with
  | none =>
    rw [found] at sound
    exact absurd rfl (sound missing)
  | some pair =>
    rw [same pair.1 pair.2 found]
    rfl

theorem declarationEvent_append {rest : List Char} (more : List Char)
    (sound : ∀ cause, (declarationEvent rest).1 ≠ .fault cause) :
    declarationEvent (rest ++ more) =
      ((declarationEvent rest).1, (declarationEvent rest).2 ++ more) := by
  have marked {marker : List Char} (here : marker.isPrefixOf rest = true) :
      marker.isPrefixOf (rest ++ more) = true ∧
        (rest ++ more).drop marker.length = rest.drop marker.length ++ more := by
    have here := List.isPrefixOf_iff_prefix.mp here
    exact ⟨List.isPrefixOf_iff_prefix.mpr (here.trans (List.prefix_append rest more)),
      List.drop_append_of_le_length here.length_le⟩
  unfold declarationEvent at sound ⊢
  split at sound
  · split at sound
    next here =>
      obtain ⟨prefixed, dropped⟩ := marked here
      rw [List.cons_append] at prefixed dropped ⊢
      rw [if_pos here, if_pos prefixed]
      exact closed_append (fun left right found => dropped ▸ cutAt_append more found) sound
    next => exact absurd rfl (sound .openCharacterData)
  · split at sound
    next here =>
      obtain ⟨prefixed, dropped⟩ := marked here
      rw [List.cons_append] at prefixed dropped ⊢
      rw [if_pos here, if_pos prefixed]
      exact closed_append (fun left right found => dropped ▸ cutAt_append more found) sound
    next => exact absurd rfl (sound .openComment)
  · exact closed_append (fun left right => cutBalanced_append more) sound
  · exact closed_append (fun left right => cutBalanced_append more) sound
  · exact absurd rfl (sound .unknownDeclaration)

theorem instructionEvent_append {rest : List Char} (more : List Char)
    (sound : ∀ cause, (instructionEvent rest).1 ≠ .fault cause) :
    instructionEvent (rest ++ more) =
      ((instructionEvent rest).1, (instructionEvent rest).2 ++ more) := by
  cases rest with
  | nil => exact absurd rfl (sound .openInstruction)
  | cons letter tail =>
    by_cases ends : letter = '>'
    · subst ends
      exact absurd rfl (sound .openInstruction)
    · have plain (others : List Char) : instructionEvent (letter :: others) =
          closed .openInstruction (fun _ => .passed) (cutAt "?>".toList (letter :: others)) := by
        unfold instructionEvent
        split
        next shape => exact absurd (List.cons.inj shape).1 ends
        next => rfl
      rw [List.cons_append, plain, plain]
      rw [plain] at sound
      exact closed_append (fun left right => cutAt_append more) sound

theorem markupEvent_append {rest : List Char} (more : List Char)
    (sound : ∀ cause, (markupEvent rest).1 ≠ .fault cause) :
    markupEvent (rest ++ more) = ((markupEvent rest).1, (markupEvent rest).2 ++ more) := by
  unfold markupEvent at sound ⊢
  split at sound
  · exact declarationEvent_append more sound
  · exact instructionEvent_append more sound
  · exact closed_append (fun left right => cutTag_append more) sound
  next notDeclaration notInstruction notEnd =>
    cases rest with
    | nil => exact absurd rfl (sound .openTag)
    | cons letter tail =>
      rw [List.cons_append]
      split
      next shape => exact absurd (by rw [(List.cons.inj shape).1]) (notDeclaration tail)
      next shape => exact absurd (by rw [(List.cons.inj shape).1]) (notInstruction tail)
      next shape => exact absurd (by rw [(List.cons.inj shape).1]) (notEnd tail)
      next => exact closed_append (fun left right => cutTag_append more) sound

theorem nextEvent_append {first : Char} {rest : List Char} (more : List Char)
    (marking : isPlain first = false) (sound : ∀ cause, (nextEvent first rest).1 ≠ .fault cause) :
    nextEvent first (rest ++ more) =
      ((nextEvent first rest).1, (nextEvent first rest).2 ++ more) := by
  unfold nextEvent at sound ⊢
  split at sound
  next opens =>
    rw [if_pos opens, if_pos opens]
    exact markupEvent_append more sound
  next other =>
    rw [if_neg other, if_neg other]
    split at sound
    next refers =>
      rw [if_pos refers, if_pos refers]
      exact closed_append (fun left right => cutReference_append more) sound
    next plain =>
      simp only [beq_iff_eq] at other plain
      simp [isPlain, other, plain] at marking

theorem nextEvent_plain {first : Char} (rest : List Char) (plain : isPlain first = true) :
    nextEvent first rest = (.text (first :: rest.takeWhile isPlain), rest.dropWhile isPlain) := by
  simp only [isPlain, Bool.and_eq_true, bne_iff_ne, ne_eq] at plain
  simp only [nextEvent, beq_iff_eq, plain.1, plain.2, ↓reduceIte]

theorem events_nil : events [] = [] := by
  unfold events
  rfl

theorem events_cons {first : Char} {rest : List Char}
    (sound : ∀ cause, (nextEvent first rest).1 ≠ .fault cause) :
    events (first :: rest) = (nextEvent first rest).1 :: events (nextEvent first rest).2 := by
  rw [events]
  split
  next cause fault => exact absurd fault (sound cause)
  next => rfl

theorem events_plain {first : Char} (rest : List Char) (plain : isPlain first = true) :
    events (first :: rest) =
      .text (first :: rest.takeWhile isPlain) :: events (rest.dropWhile isPlain) := by
  have next := nextEvent_plain rest plain
  rw [events_cons (by simp [next]), next]

theorem OpenElement.addText_addText (parent : OpenElement) (earlier later : String) :
    (parent.addText earlier).addText later = parent.addText (earlier ++ later) := by
  obtain ⟨qualified, head, content, childNames⟩ := parent
  rcases content with _ | ⟨before | child, others⟩
  · rfl
  · simp only [addText, String.append_assoc]
  · rfl

namespace Reading

def through (reading : Reading) (letters : List Char) : Except Failure Reading :=
  (events letters).foldlM step reading

@[simp]
theorem through_nil (reading : Reading) : reading.through [] = .ok reading := by
  simp [through, events_nil, pure, Except.pure]

theorem through_cons {reading : Reading} {first : Char} {rest : List Char}
    (sound : ∀ cause, (nextEvent first rest).1 ≠ .fault cause) :
    reading.through (first :: rest) =
      (reading.step (nextEvent first rest).1).bind (through · (nextEvent first rest).2) := by
  simp only [through, events_cons sound, List.foldlM_cons]
  rfl

theorem through_plain {reading : Reading} {first : Char} (rest : List Char)
    (plain : isPlain first = true) :
    reading.through (first :: rest) =
      (reading.addText (String.ofList (first :: rest.takeWhile isPlain))).through
        (rest.dropWhile isPlain) := by
  have next := nextEvent_plain rest plain
  rw [through_cons (by simp [next]), next]
  rfl

theorem addText_addText (reading : Reading) (earlier later : String) :
    (reading.addText earlier).addText later = reading.addText (earlier ++ later) := by
  obtain ⟨stack, root⟩ := reading
  cases stack with
  | nil => rfl
  | cons inner others =>
    simp only [addText, OpenElement.addText_addText]

theorem through_text {reading : Reading} {run : List Char} (more : List Char) (some : run ≠ [])
    (plain : ∀ letter ∈ run, isPlain letter = true) :
    reading.through (run ++ more) = (reading.addText (String.ofList run)).through more := by
  obtain ⟨first, tail, rfl⟩ := List.exists_cons_of_ne_nil some
  have plainTail : ∀ letter ∈ tail, isPlain letter = true :=
    fun letter member => plain letter (List.mem_cons_of_mem first member)
  rw [List.cons_append, through_plain (tail ++ more) (plain first List.mem_cons_self),
    List.takeWhile_append_of_pos plainTail, List.dropWhile_append_of_pos plainTail]
  cases more with
  | nil => simp
  | cons letter others =>
    by_cases more : isPlain letter = true
    · rw [through_plain others more, addText_addText, ← String.ofList_append,
        List.takeWhile_cons_of_pos more, List.dropWhile_cons_of_pos more, List.cons_append]
    · rw [List.takeWhile_cons_of_neg more, List.dropWhile_cons_of_neg more, List.append_nil]

/-- Whatever stands behind a text that can be read is read from where that text leads. -/
theorem through_append {reading next : Reading} {letters : List Char} (more : List Char)
    (read : reading.through letters = .ok next) :
    reading.through (letters ++ more) = next.through more := by
  induction letters using events.induct generalizing reading with
  | case1 =>
    rw [through_nil, Except.ok.injEq] at read
    rw [List.nil_append, read]
  | case2 first rest cause fault =>
    rw [through, events, fault] at read
    simp [step, bind, Except.bind] at read
  | case3 first rest sound ih =>
    by_cases plain : isPlain first = true
    · have run := nextEvent_plain rest plain
      rw [run] at ih
      rw [through_plain rest plain] at read
      have all : ∀ letter ∈ first :: rest.takeWhile isPlain, isPlain letter = true := by
        intro letter member
        rcases List.mem_cons.mp member with rfl | member
        · exact plain
        · exact List.all_eq_true.mp List.all_takeWhile letter member
      have split : first :: rest ++ more =
          (first :: rest.takeWhile isPlain) ++ (rest.dropWhile isPlain ++ more) := by
        simp [← List.append_assoc]
      rw [split, through_text _ (List.cons_ne_nil _ _) all]
      exact ih read
    · have same := nextEvent_append more (Bool.eq_false_iff.mpr plain) sound
      rw [through_cons sound] at read
      rw [List.cons_append, through_cons (by rw [same]; exact sound), same]
      cases moved : reading.step (nextEvent first rest).1 with
      | error failure => simp [moved, Except.bind] at read
      | ok between =>
        rw [moved] at read
        exact ih read

end Reading

end ScopeAtlas.Markup
