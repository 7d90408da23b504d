import ScopeAtlas.Markup.Attribute
import Mathlib.Data.List.TakeWhile

/-!
How a tag may be written. A value may be put into either quote, with references in the place of
letters, and blanks may stand around the parts of a tag. Reading gives the name and the attributes
back, whichever way was taken.

Main statements: `markupEvent_start`, `markupEvent_whole`, `markupEvent_finish` and
`SpelledAttributes.tagAttributes_eq`.
-/

namespace ScopeAtlas.Markup

/-! ### Names and blanks -/

def Blank (letters : List Char) : Prop :=
  ∀ letter ∈ letters, isSpace letter = true

def endsName (letter : Char) : Bool :=
  isSpace letter || ['<', '>', '/', '=', '"', '\'', '!', '?', '&'].contains letter

structure IsName (name : String) : Prop where
  nonempty : name ≠ ""
  letters : ∀ letter ∈ name.toList, endsName letter = false

namespace IsName

variable {name : String}

theorem ne (isName : IsName name) {letter mark : Char} (member : letter ∈ name.toList)
    (ends : endsName mark = true) : letter ≠ mark := by
  rintro rfl
  rw [isName.letters letter member] at ends
  exact absurd ends (by decide)

theorem isSpace_eq_false (isName : IsName name) {letter : Char} (member : letter ∈ name.toList) :
    isSpace letter = false :=
  (Bool.or_eq_false_iff.mp (isName.letters letter member)).1

theorem exists_cons (isName : IsName name) : ∃ first rest, name.toList = first :: rest :=
  List.exists_cons_of_ne_nil fun empty => isName.nonempty (String.toList_eq_nil_iff.mp empty)

end IsName

namespace Blank

variable {letters : List Char}

theorem nil : Blank [] := by
  simp [Blank]

theorem space : Blank [' '] := by
  simp [Blank, isSpace]

theorem ne (blank : Blank letters) {letter mark : Char} (member : letter ∈ letters)
    (other : isSpace mark = false) : letter ≠ mark := by
  rintro rfl
  rw [blank letter member] at other
  exact absurd other (by decide)

theorem dropWhile_append (blank : Blank letters) (more : List Char) :
    (letters ++ more).dropWhile isSpace = more.dropWhile isSpace :=
  List.dropWhile_append_of_pos blank

theorem dropWhile_cons (blank : Blank letters) {letter : Char} (other : isSpace letter = false)
    (more : List Char) : (letters ++ letter :: more).dropWhile isSpace = letter :: more := by
  rw [blank.dropWhile_append, List.dropWhile_cons_of_neg (by simp [other])]

end Blank

/-! ### References -/

def appendDigit (base number : Nat) (letter : Char) : Option Nat :=
  (digitValue? base letter).map (number * base + ·)

inductive Refers : Char → List Char → Prop
  | predefined {letter : Char} {name : String} :
      (letter, name) ∈ [('<', "lt"), ('>', "gt"), ('&', "amp"), ('\'', "apos"), ('"', "quot")] →
      Refers letter name.toList
  | decimal {letter : Char} {digits : List Char} : digits ≠ [] → letter.toNat ≠ 0 →
      digits.foldlM (appendDigit 10) 0 = some letter.toNat → Refers letter ('#' :: digits)
  | hexadecimal {letter : Char} {digits : List Char} : digits ≠ [] → letter.toNat ≠ 0 →
      digits.foldlM (appendDigit 16) 0 = some letter.toNat → Refers letter ('#' :: 'x' :: digits)

def marks : List Char := [';', '&', '<', '"', '\'']

theorem digitValue?_mark (base : Nat) {mark : Char} (member : mark ∈ marks) :
    digitValue? base mark = none := by
  simp only [marks, List.mem_cons, List.not_mem_nil, or_false] at member
  rcases member with rfl | rfl | rfl | rfl | rfl
  all_goals rfl

theorem appended_digits {base start number : Nat} {digits : List Char} (positive : 0 < base)
    (written : digits.foldlM (appendDigit base) start = some number) :
    start ≤ number ∧ ∀ letter ∈ digits, ∃ digit, digitValue? base letter = some digit := by
  induction digits generalizing start with
  | nil =>
    simp only [List.foldlM_nil, Option.pure_def, Option.some.injEq] at written
    exact ⟨written.le, by simp⟩
  | cons letter rest ih =>
    simp only [List.foldlM_cons, Option.bind_eq_bind, Option.bind_eq_some_iff, appendDigit,
      Option.map_eq_some_iff] at written
    obtain ⟨_, ⟨digit, value, rfl⟩, written⟩ := written
    obtain ⟨bound, others⟩ := ih written
    have grows : start ≤ start * base := Nat.le_mul_of_pos_right start positive
    refine ⟨by omega, ?_⟩
    intro other member
    rcases List.mem_cons.mp member with rfl | member
    · exact ⟨digit, value⟩
    · exact others other member

theorem readDigits_appended {base start number : Nat} {digits : List Char} (positive : 0 < base)
    (fits : number < 4294967296) (written : digits.foldlM (appendDigit base) start = some number) :
    readDigits base start digits = .ok number := by
  induction digits generalizing start with
  | nil =>
    simp only [List.foldlM_nil, Option.pure_def, Option.some.injEq] at written
    rw [readDigits, written]
  | cons letter rest ih =>
    simp only [List.foldlM_cons, Option.bind_eq_bind, Option.bind_eq_some_iff, appendDigit,
      Option.map_eq_some_iff] at written
    obtain ⟨_, ⟨digit, value, rfl⟩, written⟩ := written
    have bound := (appended_digits positive written).1
    simp only [readDigits, value]
    rw [if_pos (by omega)]
    exact ih written

theorem readNumber_appended {base number : Nat} {digits : List Char} (positive : 0 < base)
    (nonempty : digits ≠ []) (fits : number < 4294967296)
    (written : digits.foldlM (appendDigit base) 0 = some number) :
    readNumber base digits = .ok number := by
  obtain ⟨first, rest, rfl⟩ := List.exists_cons_of_ne_nil nonempty
  obtain ⟨digit, value⟩ := (appended_digits positive written).2 first List.mem_cons_self
  have unsigned : (first == '+' || first == '-') = false := by
    rw [Bool.or_eq_false_iff, beq_eq_false_iff_ne, beq_eq_false_iff_ne]
    constructor
    · rintro rfl
      exact absurd value (by simp [digitValue?])
    · rintro rfl
      exact absurd value (by simp [digitValue?])
  rw [readNumber, if_neg (by simp [unsigned])]
  exact readDigits_appended positive fits written

theorem isValidChar_toNat (letter : Char) :
    letter.toNat < 0xd800 ∨ 0xdfff < letter.toNat ∧ letter.toNat < 0x110000 :=
  letter.valid

theorem characterOf_toNat {letter : Char} (nonzero : letter.toNat ≠ 0) :
    characterOf letter.toNat = .ok letter := by
  have valid := isValidChar_toNat letter
  have scalar : (letter.toNat < 0xD800 || (0xE000 ≤ letter.toNat && letter.toNat ≤ 0x10FFFF)) =
      true := by
    simp only [Bool.or_eq_true, Bool.and_eq_true, decide_eq_true_eq]
    omega
  rw [characterOf, if_neg nonzero, if_pos scalar, Char.ofNat_toNat]

theorem readCode_decimal {number : Nat} {digits : List Char}
    (written : digits.foldlM (appendDigit 10) 0 = some number) :
    readCode digits = readNumber 10 digits := by
  unfold readCode
  split
  next hexadecimal =>
    obtain ⟨digit, value⟩ := (appended_digits (by decide) written).2 'x' List.mem_cons_self
    exact absurd value (by simp [digitValue?])
  next => rfl

namespace Refers

variable {letter : Char} {name : List Char}

theorem resolveName (refers : Refers letter name) (offset : Nat) :
    Markup.resolveName offset name = .ok letter := by
  have fits : letter.toNat < 4294967296 := by
    have valid := isValidChar_toNat letter
    omega
  cases refers with
  | predefined member =>
    simp only [List.mem_cons, Prod.mk.injEq, List.not_mem_nil, or_false] at member
    rcases member with ⟨rfl, rfl⟩ | ⟨rfl, rfl⟩ | ⟨rfl, rfl⟩ | ⟨rfl, rfl⟩ | ⟨rfl, rfl⟩
    all_goals rfl
  | decimal nonempty nonzero written =>
    have code := readNumber_appended (by decide) nonempty fits written
    rw [← readCode_decimal written] at code
    simp only [Markup.resolveName, code, bind, Except.bind, characterOf_toNat nonzero]
  | @hexadecimal digits nonempty nonzero written =>
    have code : readCode ('x' :: digits) = .ok letter.toNat :=
      readNumber_appended (by decide) nonempty fits written
    simp only [Markup.resolveName, code, bind, Except.bind, characterOf_toNat nonzero]

theorem not_mem_marks (refers : Refers letter name) : ∀ part ∈ name, part ∉ marks := by
  have digit {base : Nat} {digits : List Char} (positive : 0 < base)
      (written : digits.foldlM (appendDigit base) 0 = some letter.toNat) :
      ∀ part ∈ digits, part ∉ marks := by
    intro part member mark
    obtain ⟨value, isDigit⟩ := (appended_digits positive written).2 part member
    rw [digitValue?_mark base mark] at isDigit
    exact absurd isDigit (by simp)
  cases refers with
  | predefined member =>
    simp only [List.mem_cons, Prod.mk.injEq, List.not_mem_nil, or_false] at member
    rcases member with ⟨rfl, rfl⟩ | ⟨rfl, rfl⟩ | ⟨rfl, rfl⟩ | ⟨rfl, rfl⟩ | ⟨rfl, rfl⟩
    all_goals simp [marks]
  | decimal _ _ written =>
    exact List.forall_mem_cons.mpr ⟨by decide, digit (by decide) written⟩
  | hexadecimal _ _ written =>
    exact List.forall_mem_cons.mpr ⟨by decide,
      List.forall_mem_cons.mpr ⟨by decide, digit (by decide) written⟩⟩

end Refers

/-! ### Values -/

/-- A value between two quotes: each letter is there itself or a reference stands for it. -/
inductive SpelledValue (quote : Char) : List Char → List Char → Prop
  | nil : SpelledValue quote [] []
  | letter {letter : Char} {value letters : List Char} : letter ≠ quote → letter ≠ '&' →
      SpelledValue quote value letters → SpelledValue quote (letter :: value) (letter :: letters)
  | reference {letter : Char} {name value letters : List Char} : Refers letter name →
      SpelledValue quote value letters →
      SpelledValue quote (letter :: value) ('&' :: (name ++ ';' :: letters))

theorem splitReference_name {name : List Char} (plain : ∀ part ∈ name, part ∉ marks)
    (more : List Char) : splitReference (name ++ ';' :: more) = some (name, more) := by
  induction name with
  | nil => rw [List.nil_append, splitReference]
  | cons part rest ih =>
    obtain ⟨own, others⟩ := List.forall_mem_cons.mp plain
    have semicolon : part ≠ ';' := fun same => own (same ▸ by decide)
    have ampersand : part ≠ '&' := fun same => own (same ▸ by decide)
    rw [List.cons_append, splitReference]
    · rw [ih others]
      rfl
    · exact semicolon
    · exact ampersand

namespace SpelledValue

variable {quote : Char} {value letters : List Char}

theorem unescape (spelled : SpelledValue quote value letters) (total offset : Nat) :
    Markup.unescape total offset letters = .ok value := by
  induction spelled generalizing offset with
  | nil => rw [Markup.unescape]
  | letter _ plain _ ih =>
    rw [Markup.unescape, if_neg (by simpa using plain), ih]
    rfl
  | @reference letter name value letters refers _ ih =>
    rw [Markup.unescape, if_pos (by decide)]
    split
    next none => rw [splitReference_name refers.not_mem_marks] at none; simp at none
    next found =>
      rw [splitReference_name refers.not_mem_marks, Option.some.injEq, Prod.mk.injEq] at found
      obtain ⟨rfl, rfl⟩ := found
      rw [refers.resolveName, ih]
      rfl

theorem unescapeValue (spelled : SpelledValue quote value letters) :
    Markup.unescapeValue letters = .ok (String.ofList value) := by
  rw [Markup.unescapeValue, spelled.unescape]
  rfl

theorem ne_quote (spelled : SpelledValue quote value letters) (isQuote : quote ∈ ['"', '\'']) :
    ∀ letter ∈ letters, letter ≠ quote := by
  have mark : quote ∈ marks := by
    simp only [List.mem_cons, List.not_mem_nil, or_false] at isQuote
    rcases isQuote with rfl | rfl
    all_goals decide
  induction spelled with
  | nil => simp
  | letter other _ _ ih => exact List.forall_mem_cons.mpr ⟨other, ih⟩
  | @reference letter name value letters refers _ ih =>
    have plain : ∀ part ∈ name, part ≠ quote := by
      rintro part member rfl
      exact refers.not_mem_marks part member mark
    have others : quote ≠ '&' ∧ quote ≠ ';' := by
      simp only [List.mem_cons, List.not_mem_nil, or_false] at isQuote
      rcases isQuote with rfl | rfl
      all_goals decide
    simp only [List.forall_mem_cons, List.forall_mem_append]
    exact ⟨others.1.symm, plain, others.2.symm, ih⟩

end SpelledValue

/-! ### Attributes -/

inductive SpelledAttributes : List (String × String) → List Char → Prop
  | nil {blanks : List Char} : Blank blanks → SpelledAttributes [] blanks
  | cons {key value : String} {quote : Char} {others : List (String × String)}
      {front before after letters rest : List Char} :
      front ≠ [] → Blank front → Blank before → Blank after → quote ∈ ['"', '\''] →
      SpelledValue quote value.toList letters → SpelledAttributes others rest →
      SpelledAttributes ((key, value) :: others) (front ++ (key.toList ++ (before ++ '=' ::
        (after ++ quote :: (letters ++ quote :: rest)))))

theorem readAttributes_nil {size : Nat} {earlier : List RawAttribute} {letters : List Char}
    (blank : Blank letters) : readAttributes size earlier letters = .ok [] := by
  have none : letters.dropWhile isSpace = [] := List.dropWhile_eq_nil_iff.mpr blank
  rw [readAttributes]
  split
  next => rfl
  next some => rw [none] at some; simp at some

theorem readAttributes_cons {size : Nat} {earlier : List RawAttribute}
    {letters tail rest : List Char} {first : Char} {entry : RawAttribute} {value : String}
    (front : letters.dropWhile isSpace = first :: tail)
    (cut : cutAttribute size earlier first tail = .ok (entry, rest))
    (resolved : unescapeValue entry.value = .ok value) :
    readAttributes size earlier letters =
      (readAttributes size (earlier ++ [entry]) rest).map ((String.ofList entry.key, value) :: ·) := by
  rw [readAttributes]
  split
  next none => rw [front] at none; simp at none
  next shape =>
    rw [front, List.cons.injEq] at shape
    obtain ⟨rfl, rfl⟩ := shape
    split
    next fault => rw [cut] at fault; simp at fault
    next found =>
      rw [cut, Except.ok.injEq, Prod.mk.injEq] at found
      obtain ⟨rfl, rfl⟩ := found
      rw [resolved]
      rfl

theorem sameKey?_eq_none {earlier : List RawAttribute} {key : List Char}
    (fresh : ∀ entry ∈ earlier, entry.key ≠ key) : sameKey? earlier key = none := by
  rw [sameKey?, List.find?_eq_none]
  intro entry member
  simpa using fresh entry member

theorem cutEquals_blank {before rest : List Char} (blank : Blank before) (size : Nat) :
    cutEquals size (before ++ '=' :: rest) = .ok rest := by
  rw [cutEquals, blank.dropWhile_cons (by decide)]
  rfl

theorem cutValue_quoted {after letters rest : List Char} {quote : Char} (blank : Blank after)
    (isQuote : quote ∈ ['"', '\'']) (inside : ∀ letter ∈ letters, letter ≠ quote) (size : Nat) :
    cutValue size (after ++ quote :: (letters ++ quote :: rest)) = .ok (letters, rest) := by
  have other : isSpace quote = false := by
    simp only [List.mem_cons, List.not_mem_nil, or_false] at isQuote
    rcases isQuote with rfl | rfl
    all_goals decide
  have opens : (quote == '"' || quote == '\'') = true := by simpa using isQuote
  have passes : ∀ letter ∈ letters, (letter != quote) = true := by simpa using inside
  rw [cutValue, blank.dropWhile_cons other]
  dsimp only
  rw [if_pos opens, List.dropWhile_append_of_pos passes, List.takeWhile_append_of_pos passes,
    List.dropWhile_cons_of_neg (by simp), List.takeWhile_cons_of_neg (by simp), List.append_nil]

theorem cutAttribute_spelled {key : String} {quote first : Char} {earlier : List RawAttribute}
    {before after letters rest tail : List Char} (isName : IsName key)
    (fresh : ∀ entry ∈ earlier, entry.key ≠ key.toList) (blankBefore : Blank before)
    (blankAfter : Blank after) (isQuote : quote ∈ ['"', '\''])
    (inside : ∀ letter ∈ letters, letter ≠ quote) (named : key.toList = first :: tail)
    (size : Nat) : ∃ offset, cutAttribute size earlier first
      (tail ++ (before ++ '=' :: (after ++ quote :: (letters ++ quote :: rest)))) =
        .ok (⟨offset, key.toList, letters⟩, rest) := by
  have inKey : ∀ letter ∈ tail, isKeyPart letter = true := by
    intro letter member
    have among : letter ∈ key.toList := named ▸ List.mem_cons_of_mem first member
    simp [isKeyPart, isName.ne among (by decide : endsName '=' = true), isName.isSpace_eq_false among]
  have stops : ∀ more, (before ++ '=' :: more).takeWhile isKeyPart = [] ∧
      (before ++ '=' :: more).dropWhile isKeyPart = before ++ '=' :: more := by
    intro more
    cases before with
    | nil => simp [isKeyPart]
    | cons letter others =>
      have blank := blankBefore letter List.mem_cons_self
      simp [isKeyPart, blank]
  unfold cutAttribute
  simp only [List.takeWhile_append_of_pos inKey, List.dropWhile_append_of_pos inKey,
    (stops _).1, (stops _).2, List.append_nil, cutEquals_blank blankBefore, ← named,
    sameKey?_eq_none fresh, cutValue_quoted blankAfter isQuote inside, bind, Except.bind, pure,
    Except.pure]
  exact ⟨_, rfl⟩

theorem SpelledAttributes.read {attributes : List (String × String)} {letters : List Char}
    (spelled : SpelledAttributes attributes letters) (size : Nat) {earlier : List RawAttribute}
    (names : ∀ entry ∈ attributes, IsName entry.1)
    (fresh : ∀ entry ∈ attributes, ∀ before ∈ earlier, before.key ≠ entry.1.toList)
    (distinct : (attributes.map Prod.fst).Nodup) :
    readAttributes size earlier letters = .ok attributes := by
  induction spelled generalizing earlier with
  | nil blank => exact readAttributes_nil blank
  | @cons key value quote others front before after letters rest _ blankFront blankBefore
      blankAfter isQuote spelled _ ih =>
    obtain ⟨isName, namesOthers⟩ := List.forall_mem_cons.mp names
    obtain ⟨freshKey, freshOthers⟩ := List.forall_mem_cons.mp fresh
    rw [List.map_cons, List.nodup_cons] at distinct
    obtain ⟨first, tail, named⟩ := isName.exists_cons
    have start : isSpace first = false :=
      isName.isSpace_eq_false (named ▸ List.mem_cons_self)
    obtain ⟨offset, cut⟩ := cutAttribute_spelled isName freshKey blankBefore blankAfter isQuote
      (spelled.ne_quote isQuote) named size
    have known : ∀ entry ∈ others, ∀ known ∈ earlier ++ [⟨offset, key.toList, letters⟩],
        known.key ≠ entry.1.toList := by
      intro entry member known among
      rcases List.mem_append.mp among with before | new
      · exact freshOthers entry member known before
      · rw [List.mem_singleton.mp new]
        intro same
        exact distinct.1 (List.mem_map.mpr ⟨entry, member, (String.toList_inj.mp same).symm⟩)
    have front : (front ++ (key.toList ++ (before ++ '=' ::
        (after ++ quote :: (letters ++ quote :: rest))))).dropWhile isSpace =
          first :: (tail ++ (before ++ '=' :: (after ++ quote :: (letters ++ quote :: rest)))) := by
      rw [named, List.cons_append, blankFront.dropWhile_cons start]
    rw [readAttributes_cons front cut spelled.unescapeValue, ih namesOthers known distinct.2,
      String.ofList_toList, String.ofList_toList]
    rfl

namespace SpelledAttributes

variable {name : String} {attributes : List (String × String)} {letters : List Char}

theorem front (spelled : SpelledAttributes attributes letters) :
    ∀ letter ∈ letters.head?, isSpace letter = true := by
  intro letter first
  cases spelled with
  | nil blank => exact blank letter (List.mem_of_mem_head? first)
  | cons some blank _ _ _ _ _ =>
    obtain ⟨next, tail, rfl⟩ := List.exists_cons_of_ne_nil some
    obtain rfl : next = letter := Option.some.inj first
    exact blank next List.mem_cons_self

theorem name_cut (spelled : SpelledAttributes attributes letters) (isName : IsName name) :
    (name.toList ++ letters).takeWhile (fun letter => !isSpace letter) = name.toList ∧
      (name.toList ++ letters).dropWhile (fun letter => !isSpace letter) = letters := by
  have inName : ∀ letter ∈ name.toList, (!isSpace letter) = true := by
    intro letter member
    rw [isName.isSpace_eq_false member]
    rfl
  rw [List.takeWhile_append_of_pos inName, List.dropWhile_append_of_pos inName]
  cases letters with
  | nil => simp
  | cons letter rest =>
    have blank := spelled.front letter rfl
    simp [blank]

theorem tagName_eq (spelled : SpelledAttributes attributes letters) (isName : IsName name) :
    tagName (name.toList ++ letters) = name := by
  rw [tagName, (spelled.name_cut isName).1, String.ofList_toList]

theorem tagAttributes_eq (spelled : SpelledAttributes attributes letters) (isName : IsName name)
    (names : ∀ entry ∈ attributes, IsName entry.1) (distinct : (attributes.map Prod.fst).Nodup) :
    tagAttributes (name.toList ++ letters) = .ok attributes := by
  rw [tagAttributes, (spelled.name_cut isName).2]
  exact spelled.read _ names (by simp) distinct

theorem getLast?_ne_slash (spelled : SpelledAttributes attributes letters) :
    letters.getLast? ≠ some '/' := by
  induction spelled with
  | nil blank =>
    intro last
    exact blank.ne (List.mem_of_mem_getLast? last) (by decide : isSpace '/' = false) rfl
  | @cons key value quote others front before after letters rest _ _ _ _ isQuote _ _ ih =>
    have slash : quote ≠ '/' := by
      rintro rfl
      exact absurd isQuote (by decide)
    cases rest with
    | nil => simpa [List.getLast?_append, List.getLast?_cons] using slash
    | cons letter more => simpa [List.getLast?_append, List.getLast?_cons] using ih

end SpelledAttributes

/-! ### Tags -/

/-- Letters among which every quote is closed and no tag ends. -/
def Enclosed (letters : List Char) : Prop :=
  ∀ more, cutTag none (letters ++ more) =
    (cutTag none more).map fun (before, after) => (letters ++ before, after)

namespace Enclosed

variable {first second letters : List Char}

theorem nil : Enclosed [] := by
  intro more
  simp

theorem append (left : Enclosed first) (right : Enclosed second) : Enclosed (first ++ second) := by
  intro more
  rw [List.append_assoc, left, right, Option.map_map]
  simp [Function.comp_def]

theorem cons {letter : Char} (plain : letter ∉ ['>', '"', '\'']) (rest : Enclosed letters) :
    Enclosed (letter :: letters) := by
  intro more
  simp only [List.mem_cons, List.not_mem_nil, or_false, not_or] at plain
  rw [List.cons_append, cutTag]
  simp only [beq_iff_eq, plain, Bool.or_eq_true, or_self, ↓reduceIte, rest more, Option.map_map]
  rfl

theorem of_plain (plain : ∀ letter ∈ letters, letter ∉ ['>', '"', '\'']) : Enclosed letters := by
  induction letters with
  | nil => exact nil
  | cons letter rest ih =>
    obtain ⟨own, others⟩ := List.forall_mem_cons.mp plain
    exact cons own (ih others)

theorem of_name {name : String} (isName : IsName name) : Enclosed name.toList := by
  refine of_plain fun letter member mark => ?_
  have ends : endsName letter = true := by
    simp only [List.mem_cons, List.not_mem_nil, or_false] at mark
    rcases mark with rfl | rfl | rfl
    all_goals decide
  exact isName.ne member ends rfl

theorem of_blank (blank : Blank letters) : Enclosed letters := by
  refine of_plain fun letter member mark => ?_
  have other : isSpace letter = false := by
    simp only [List.mem_cons, List.not_mem_nil, or_false] at mark
    rcases mark with rfl | rfl | rfl
    all_goals decide
  exact blank.ne member other rfl

theorem cutTag_quoted {quote : Char} (inside : ∀ letter ∈ letters, letter ≠ quote)
    (more : List Char) : cutTag (some quote) (letters ++ quote :: more) =
      (cutTag none more).map fun (before, after) => (letters ++ quote :: before, after) := by
  induction letters with
  | nil =>
    rw [List.nil_append, cutTag]
    simp
  | cons letter rest ih =>
    obtain ⟨own, others⟩ := List.forall_mem_cons.mp inside
    rw [List.cons_append, cutTag]
    simp only [beq_iff_eq, own, ↓reduceIte, ih others, Option.map_map]
    rfl

theorem of_quoted {quote : Char} (isQuote : quote ∈ ['"', '\''])
    (inside : ∀ letter ∈ letters, letter ≠ quote) (rest : Enclosed second) :
    Enclosed (quote :: (letters ++ quote :: second)) := by
  intro more
  have opens : ¬ quote = '>' ∧ (quote = '"' ∨ quote = '\'') := by
    simp only [List.mem_cons, List.not_mem_nil, or_false] at isQuote
    refine ⟨?_, isQuote⟩
    rcases isQuote with rfl | rfl
    all_goals decide
  rw [List.cons_append, List.append_assoc, List.cons_append, cutTag]
  simp only [beq_iff_eq, opens, Bool.or_eq_true, ↓reduceIte, cutTag_quoted inside, rest more,
    Option.map_map]
  simp [Function.comp_def]

theorem of_attributes {attributes : List (String × String)}
    (spelled : SpelledAttributes attributes letters) (names : ∀ entry ∈ attributes, IsName entry.1) :
    Enclosed letters := by
  induction spelled with
  | nil blank => exact of_blank blank
  | cons _ blankFront blankBefore blankAfter isQuote value _ ih =>
    obtain ⟨isName, others⟩ := List.forall_mem_cons.mp names
    refine (of_blank blankFront).append ((of_name isName).append ((of_blank blankBefore).append ?_))
    exact cons (by decide) ((of_blank blankAfter).append
      (of_quoted isQuote (value.ne_quote isQuote) (ih others)))

theorem cut (enclosed : Enclosed letters) (more : List Char) :
    cutTag none (letters ++ '>' :: more) = some (letters, more) := by
  rw [enclosed, cutTag]
  simp

end Enclosed

section Tags

variable {name : String} {attributes : List (String × String)} {letters blanks : List Char}

theorem markupEvent_of_name (isName : IsName name) (more : List Char) :
    markupEvent (name.toList ++ more) = closed .openTag tagEvent (cutTag none (name.toList ++ more)) := by
  obtain ⟨first, rest, named⟩ := isName.exists_cons
  have among : first ∈ name.toList := named ▸ List.mem_cons_self
  rw [named, List.cons_append]
  unfold markupEvent
  split
  next shape => exact absurd (List.cons.inj shape).1 (isName.ne among (by decide))
  next shape => exact absurd (List.cons.inj shape).1 (isName.ne among (by decide))
  next shape => exact absurd (List.cons.inj shape).1 (isName.ne among (by decide))
  next => rfl

theorem markupEvent_start (isName : IsName name) (names : ∀ entry ∈ attributes, IsName entry.1)
    (spelled : SpelledAttributes attributes letters) (more : List Char) :
    markupEvent (name.toList ++ (letters ++ '>' :: more)) =
      (.start (name.toList ++ letters), more) := by
  have enclosed := (Enclosed.of_name isName).append (Enclosed.of_attributes spelled names)
  have last : (name.toList ++ letters).getLast? ≠ some '/' := by
    cases letters with
    | nil =>
      rw [List.append_nil]
      intro slash
      exact isName.ne (List.mem_of_mem_getLast? slash) (by decide : endsName '/' = true) rfl
    | cons letter others => simpa [List.getLast?_append] using spelled.getLast?_ne_slash
  rw [markupEvent_of_name isName, ← List.append_assoc, enclosed.cut, closed, tagEvent]
  split
  next slash => exact absurd slash last
  next => rfl

theorem markupEvent_whole (isName : IsName name) (names : ∀ entry ∈ attributes, IsName entry.1)
    (spelled : SpelledAttributes attributes letters) (more : List Char) :
    markupEvent (name.toList ++ (letters ++ '/' :: '>' :: more)) =
      (.whole (name.toList ++ letters), more) := by
  have enclosed := ((Enclosed.of_name isName).append (Enclosed.of_attributes spelled names)).append
    (Enclosed.cons (by decide : '/' ∉ ['>', '"', '\'']) Enclosed.nil)
  have shape : name.toList ++ (letters ++ '/' :: '>' :: more) =
      name.toList ++ letters ++ ['/'] ++ '>' :: more := by simp
  rw [markupEvent_of_name isName, shape, enclosed.cut, closed, tagEvent]
  simp

theorem endName_append (isName : IsName name) (blank : Blank blanks) :
    endName (name.toList ++ blanks) = name.toList := by
  obtain ⟨first, rest, named⟩ := isName.exists_cons
  have own : isSpace first = false := isName.isSpace_eq_false (named ▸ List.mem_cons_self)
  have blankReverse : Blank blanks.reverse := fun letter member =>
    blank letter (List.mem_reverse.mp member)
  have stops : name.toList.reverse.dropWhile isSpace = name.toList.reverse := by
    cases backward : name.toList.reverse with
    | nil => rfl
    | cons last others =>
      have among : last ∈ name.toList := List.mem_reverse.mp (backward ▸ List.mem_cons_self)
      rw [List.dropWhile_cons_of_neg (by simp [isName.isSpace_eq_false among])]
  rw [endName, if_neg (by simp [named, own]), List.reverse_append, blankReverse.dropWhile_append,
    stops, List.reverse_reverse]

theorem markupEvent_finish (isName : IsName name) (blank : Blank blanks) (more : List Char) :
    markupEvent ('/' :: (name.toList ++ (blanks ++ '>' :: more))) = (.finish name.toList, more) := by
  have enclosed := (Enclosed.of_name isName).append (Enclosed.of_blank blank)
  rw [markupEvent, ← List.append_assoc, enclosed.cut, closed, endName_append isName blank]

end Tags

end ScopeAtlas.Markup
