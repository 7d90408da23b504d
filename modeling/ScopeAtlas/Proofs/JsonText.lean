import ScopeAtlas.Json.Parse
import ScopeAtlas.Json.Print

/-!
The text of a JSON value spells that value and no other. A value is plain when text can spell it:
its numbers are spelled as numbers, its texts and keys are made of characters. Reading takes as
many steps as the text in front has letters, twice over, so it never runs out of them.

Main statement: `parse?_print`.
-/

namespace ScopeAtlas.Json

inductive Plain : Json → Prop
  | null : Plain .null
  | boolean (value : Bool) : Plain (.boolean value)
  | number {spelling : List Char} (letters : ∀ letter ∈ spelling, isNumberLetter letter = true)
      (spelled : isNumber spelling = true) : Plain (.number spelling)
  | text (value : String) : Plain (.text (some value))
  | array {values : List Json} (each : ∀ value ∈ values, Plain value) : Plain (.array values)
  | object {members : List (Option String × Json)} (keyed : ∀ member ∈ members, member.1.isSome)
      (each : ∀ member ∈ members, Plain member.2) : Plain (.object members)

/-! ### Texts -/

theorem unit?_hexDigit : ∀ code < 0x20,
    unit? '0' '0' (hexDigit (code / 16)) (hexDigit (code % 16)) = some code := by
  decide +kernel

theorem readLetters_unicode {code : Nat} (low : code < 0x20) (tail : List Char) :
    readLetters ('\\' :: 'u' :: '0' :: '0' :: hexDigit (code / 16) :: hexDigit (code % 16) :: tail) =
      (readLetters tail).map fun (letters, after) => (some (Char.ofNat code) :: letters, after) := by
  have notHigh : isHighSurrogate code = false := by simp [isHighSurrogate]; omega
  have notLow : isLowSurrogate code = false := by simp [isLowSurrogate]; omega
  rw [readLetters, unit?_hexDigit code low]
  cases readLetters tail with
  | none => rfl
  | some read => simp [notHigh, notLow, loneUnit]

theorem readLetters_plain {letter : Char} (notQuote : letter ≠ '"') (notSlash : letter ≠ '\\')
    (printable : ¬ letter.toNat < 0x20) (tail : List Char) :
    readLetters (letter :: tail) =
      (readLetters tail).map fun (letters, after) => (some letter :: letters, after) := by
  rw [readLetters]
  · cases readLetters tail with
    | none => simp [printable, notSlash]
    | some read => simp [printable, notSlash]
  all_goals simp_all

theorem readLetters_escaped (letter : Char) (tail : List Char) :
    readLetters (escaped letter ++ tail) =
      (readLetters tail).map fun (letters, after) => (some letter :: letters, after) := by
  unfold escaped
  split
  case h_8 notQuote notSlash _ _ _ _ _ =>
    split
    case isTrue low => simpa using readLetters_unicode low tail
    case isFalse high => exact readLetters_plain notQuote notSlash high tail
  all_goals
    simp only [List.cons_append, List.nil_append]
    rw [readLetters]
    · cases readLetters tail <;> rfl
    all_goals simp

theorem readLetters_foldr_escaped (letters rest : List Char) :
    readLetters (letters.foldr (fun letter tail => escaped letter ++ tail) ('"' :: rest)) =
      some (letters.map some, rest) := by
  induction letters with
  | nil => rw [List.foldr_nil, readLetters]; rfl
  | cons letter letters ih => rw [List.foldr_cons, readLetters_escaped, ih]; rfl

theorem readText_foldr_escaped (value : String) (rest : List Char) :
    readText (value.toList.foldr (fun letter tail => escaped letter ++ tail) ('"' :: rest)) =
      some (some value, rest) := by
  have whole : value.toList.mapM some = some value.toList := by
    simpa using List.mapM_pure (m := Option) (l := value.toList) (f := id)
  rw [readText, readLetters_foldr_escaped]
  simp [whole]

theorem lt_length_putText (value : String) (rest : List Char) :
    rest.length < (putText value rest).length := by
  have tail (letters : List Char) :
      rest.length < (letters.foldr (fun letter tail => escaped letter ++ tail) ('"' :: rest)).length := by
    induction letters with
    | nil => simp
    | cons letter letters ih => rw [List.foldr_cons, List.length_append]; omega
  have := tail value.toList
  rw [putText, List.length_cons]
  omega

/-! ### Numbers -/

def Ends (rest : List Char) : Prop :=
  ∀ letter ∈ rest.head?, isNumberLetter letter = false

theorem ends_nil : Ends [] := by simp [Ends]

theorem ends_cons {letter : Char} (other : isNumberLetter letter = false) (rest : List Char) :
    Ends (letter :: rest) := by
  simpa [Ends] using other

theorem start_of_isNumber {letters : List Char} (spelled : isNumber letters = true) :
    ∃ first tail, letters = first :: tail ∧ (first = '-' ∨ first.isDigit = true) := by
  match letters with
  | [] =>
    unfold isNumber at spelled
    simp [dropWhole?, dropDigits?] at spelled
  | first :: tail =>
    refine ⟨first, tail, rfl, ?_⟩
    by_cases sign : first = '-'
    · exact .inl sign
    · refine .inr (Decidable.byContradiction fun notDigit => ?_)
      have notZero : first ≠ '0' := by rintro rfl; exact notDigit rfl
      unfold isNumber at spelled
      simp [dropWhole?, dropDigits?, sign, notZero, notDigit] at spelled

theorem number_start_apart {first : Char} (start : first = '-' ∨ first.isDigit = true) :
    ∀ letter ∈ [']', '"', '[', '\x7b', 'n', 't', 'f', ' ', '\t', '\n', '\r'], first ≠ letter := by
  have apart : ∀ letter ∈ [']', '"', '[', '\x7b', 'n', 't', 'f', ' ', '\t', '\n', '\r'],
      ¬ (letter = '-' ∨ letter.isDigit = true) := by simp [Char.isDigit]
  rintro letter member rfl
  exact apart first member start

theorem readNumber_append {spelling rest : List Char}
    (letters : ∀ letter ∈ spelling, isNumberLetter letter = true) (spelled : isNumber spelling = true)
    (ends : Ends rest) : readNumber (spelling ++ rest) = some (.number spelling, rest) := by
  have stops : rest.takeWhile isNumberLetter = [] ∧ rest.dropWhile isNumberLetter = rest := by
    cases rest with
    | nil => exact ⟨rfl, rfl⟩
    | cons letter tail => simp [ends letter rfl]
  rw [readNumber, List.takeWhile_append_of_pos letters, List.dropWhile_append_of_pos letters,
    stops.1, stops.2, List.append_nil]
  simp [spelled]

/-! ### Values -/

theorem skipSpace_cons (first : Char) (solid : isSpace first = false) (tail : List Char) :
    skipSpace (first :: tail) = first :: tail := by
  simp [skipSpace, solid]

theorem Plain.put_start {json : Json} (plain : json.Plain) (rest : List Char) :
    ∃ first tail, json.put rest = first :: tail ∧ isSpace first = false ∧ first ≠ ']' := by
  cases plain with
  | null => exact ⟨_, _, by rw [put], by decide, by decide⟩
  | boolean value => cases value <;> exact ⟨_, _, by rw [put], by decide, by decide⟩
  | text value => exact ⟨_, _, by rw [put, putText], by decide, by decide⟩
  | array each => exact ⟨_, _, by rw [put], by decide, by decide⟩
  | object keyed each => exact ⟨_, _, by rw [put], by decide, by decide⟩
  | number letters spelled =>
    obtain ⟨first, tail, rfl, start⟩ := start_of_isNumber spelled
    have apart := number_start_apart start
    simp only [List.forall_mem_cons] at apart
    exact ⟨first, tail ++ rest, by rw [put]; rfl, by simp [isSpace, apart], apart.1⟩

theorem putValues_cons_cons (value next : Json) (values : List Json) (rest : List Char) :
    putValues (value :: next :: values) rest = value.put (',' :: putValues (next :: values) rest) := by
  rw [putValues]
  simp

theorem putMembers_cons_cons (key : Option String) (value : Json)
    (next : Option String × Json) (members : List (Option String × Json)) (rest : List Char) :
    putMembers ((key, value) :: next :: members) rest =
      putText (key.getD "") (':' :: value.put (',' :: putMembers (next :: members) rest)) := by
  rw [putMembers]
  simp

theorem le_length_putValues {values : List Json}
    (each : ∀ value ∈ values, ∀ rest, rest.length < (value.put rest).length) (rest : List Char) :
    rest.length ≤ (putValues values rest).length := by
  induction values with
  | nil => simp [putValues]
  | cons value values ih =>
    cases values with
    | nil =>
      rw [putValues]
      exact Nat.le_of_lt (each value (by simp) rest)
    | cons next values =>
      rw [putValues_cons_cons]
      have first := each value (by simp) (',' :: putValues (next :: values) rest)
      have others := ih fun other member => each other (List.mem_cons_of_mem _ member)
      rw [List.length_cons] at first
      omega

theorem le_length_putMembers {members : List (Option String × Json)}
    (each : ∀ member ∈ members, ∀ rest, rest.length < (member.2.put rest).length)
    (rest : List Char) : rest.length ≤ (putMembers members rest).length := by
  induction members with
  | nil => simp [putMembers]
  | cons member members ih =>
    obtain ⟨key, value⟩ := member
    cases members with
    | nil =>
      rw [putMembers]
      have named := lt_length_putText (key.getD "") (':' :: value.put rest)
      have valued := each (key, value) (by simp) rest
      simp only [List.length_cons] at named valued
      omega
    | cons next members =>
      rw [putMembers_cons_cons]
      have named := lt_length_putText (key.getD "")
        (':' :: value.put (',' :: putMembers (next :: members) rest))
      have valued := each (key, value) (by simp) (',' :: putMembers (next :: members) rest)
      have others := ih fun other member => each other (List.mem_cons_of_mem _ member)
      simp only [List.length_cons] at named valued
      omega

theorem Plain.lt_length_put {json : Json} (plain : json.Plain) :
    ∀ rest, rest.length < (json.put rest).length := by
  induction plain with
  | null => intro rest; simp only [put, List.length_cons]; omega
  | boolean value => intro rest; cases value <;> simp only [put, List.length_cons] <;> omega
  | text value => intro rest; rw [put]; exact lt_length_putText _ rest
  | number letters spelled =>
    intro rest
    obtain ⟨first, tail, rfl, _⟩ := start_of_isNumber spelled
    rw [put, List.length_append, List.length_cons]
    omega
  | array each ih =>
    intro rest
    have := le_length_putValues ih (']' :: rest)
    rw [List.length_cons] at this
    rw [put, List.length_cons]
    omega
  | object keyed each ih =>
    intro rest
    have := le_length_putMembers ih ('\x7d' :: rest)
    rw [List.length_cons] at this
    rw [put, List.length_cons]
    omega

/-- The value comes back from its text, whatever stands behind it, in as many steps as the text
has letters, twice over. -/
def ReadsBack (json : Json) : Prop :=
  ∀ fuel rest, Ends rest → 2 * (json.put rest).length ≤ fuel + 2 * rest.length →
    readValue fuel (json.put rest) = some (json, rest)

theorem ReadsBack.of_succ {json : Json} (plain : json.Plain)
    (read : ∀ fuel rest, Ends rest → 2 * (json.put rest).length ≤ fuel + 1 + 2 * rest.length →
      readValue (fuel + 1) (json.put rest) = some (json, rest)) : json.ReadsBack := by
  intro fuel rest ends enough
  cases fuel with
  | zero =>
    have := plain.lt_length_put rest
    omega
  | succ fuel => exact read fuel rest ends enough

theorem readValues_putValues {values : List Json} (filled : values ≠ [])
    (each : ∀ value ∈ values, value.Plain ∧ value.ReadsBack) (fuel : Nat) (rest : List Char)
    (enough : 2 * (putValues values (']' :: rest)).length ≤ fuel + 2 * rest.length) :
    readValues fuel (putValues values (']' :: rest)) = some (values, rest) := by
  induction values generalizing fuel with
  | nil => contradiction
  | cons value values ih =>
    obtain ⟨plain, back⟩ := each value (by simp)
    have others : ∀ other ∈ values, other.Plain ∧ other.ReadsBack :=
      fun other member => each other (List.mem_cons_of_mem _ member)
    cases values with
    | nil =>
      rw [putValues] at enough ⊢
      have longer := plain.lt_length_put (']' :: rest)
      obtain ⟨fuel, rfl⟩ : ∃ less, fuel = less + 1 := ⟨fuel - 1, by simp at longer; omega⟩
      rw [readValues, back fuel (']' :: rest) (ends_cons (by decide) rest) (by simp; omega)]
      simp [skipSpace_cons ']' (by decide)]
    | cons next values =>
      rw [putValues_cons_cons] at enough ⊢
      have longer := plain.lt_length_put (',' :: putValues (next :: values) (']' :: rest))
      have behind := le_length_putValues (fun other member => (others other member).1.lt_length_put)
        (']' :: rest)
      simp only [List.length_cons] at longer behind
      -- the value and the comma behind it are two letters, so two steps are paid for
      obtain ⟨fuel, rfl⟩ : ∃ less, fuel = less + 1 := ⟨fuel - 1, by omega⟩
      rw [readValues, back fuel _ (ends_cons (by decide) _) (by simp only [List.length_cons]; omega)]
      simp [skipSpace_cons ',' (by decide), ih (by simp) others fuel (by omega)]

theorem readMembers_putMembers {members : List (Option String × Json)} (filled : members ≠ [])
    (keyed : ∀ member ∈ members, member.1.isSome)
    (each : ∀ member ∈ members, member.2.Plain ∧ member.2.ReadsBack) (fuel : Nat) (rest : List Char)
    (enough : 2 * (putMembers members ('\x7d' :: rest)).length ≤ fuel + 2 * rest.length) :
    readMembers fuel (putMembers members ('\x7d' :: rest)) = some (members, rest) := by
  induction members generalizing fuel with
  | nil => contradiction
  | cons member members ih =>
    obtain ⟨key, value⟩ := member
    obtain ⟨name, rfl⟩ : ∃ name, key = some name := 
      Option.isSome_iff_exists.mp (keyed (key, value) (by simp))
    obtain ⟨plain, back⟩ := each (some name, value) (by simp)
    have others : ∀ other ∈ members, other.2.Plain ∧ other.2.ReadsBack :=
      fun other member => each other (List.mem_cons_of_mem _ member)
    cases members with
    | nil =>
      rw [putMembers] at enough ⊢
      have named := lt_length_putText name (':' :: value.put ('\x7d' :: rest))
      have longer := plain.lt_length_put ('\x7d' :: rest)
      simp only [List.length_cons, Option.getD_some] at named longer enough
      obtain ⟨fuel, rfl⟩ : ∃ less, fuel = less + 1 := ⟨fuel - 1, by omega⟩
      have valued := back fuel ('\x7d' :: rest) (ends_cons (by decide) rest)
        (by simp only [List.length_cons]; omega)
      simp only [readMembers, putText, Option.getD_some, skipSpace_cons '"' (by decide),
        readText_foldr_escaped, skipSpace_cons ':' (by decide), valued,
        skipSpace_cons '\x7d' (by decide)]
    | cons next members =>
      rw [putMembers_cons_cons] at enough ⊢
      have named := lt_length_putText name
        (':' :: value.put (',' :: putMembers (next :: members) ('\x7d' :: rest)))
      have longer := plain.lt_length_put (',' :: putMembers (next :: members) ('\x7d' :: rest))
      have behind := le_length_putMembers (fun other member => (others other member).1.lt_length_put)
        ('\x7d' :: rest)
      simp only [List.length_cons, Option.getD_some] at named longer behind enough
      obtain ⟨fuel, rfl⟩ : ∃ less, fuel = less + 1 := ⟨fuel - 1, by omega⟩
      have valued := back fuel (',' :: putMembers (next :: members) ('\x7d' :: rest))
        (ends_cons (by decide) _) (by simp only [List.length_cons]; omega)
      have following := ih (by simp) (fun other member => keyed other (List.mem_cons_of_mem _ member))
        others fuel (by omega)
      simp only [readMembers, putText, Option.getD_some, skipSpace_cons '"' (by decide),
        readText_foldr_escaped, skipSpace_cons ':' (by decide), valued,
        skipSpace_cons ',' (by decide), following, Option.map_some]

theorem readsBack_array {values : List Json}
    (each : ∀ value ∈ values, value.Plain ∧ value.ReadsBack) : (array values).ReadsBack := by
  refine .of_succ (.array fun value member => (each value member).1) fun fuel rest _ enough => ?_
  rw [put, List.length_cons] at enough
  rw [put, readValue, skipSpace_cons _ (by decide)]
  cases values with
  | nil => simp [putValues, skipSpace_cons ']' (by decide)]
  | cons value values =>
    have read := readValues_putValues (by simp) each fuel rest (by omega)
    obtain ⟨first, tail, start, solid, notEnd⟩ : ∃ first tail,
        putValues (value :: values) (']' :: rest) = first :: tail ∧ isSpace first = false ∧
          first ≠ ']' := by
      cases values with
      | nil => rw [putValues]; exact (each value (by simp)).1.put_start _
      | cons next values => rw [putValues_cons_cons]; exact (each value (by simp)).1.put_start _
    rw [start] at read ⊢
    simp [skipSpace_cons _ solid, notEnd, read]

theorem readsBack_object {members : List (Option String × Json)}
    (keyed : ∀ member ∈ members, member.1.isSome)
    (each : ∀ member ∈ members, member.2.Plain ∧ member.2.ReadsBack) :
    (object members).ReadsBack := by
  refine .of_succ (.object keyed fun member found => (each member found).1)
    fun fuel rest _ enough => ?_
  rw [put, List.length_cons] at enough
  rw [put, readValue, skipSpace_cons _ (by decide)]
  cases members with
  | nil => simp [putMembers, skipSpace_cons '\x7d' (by decide)]
  | cons member members =>
    have read := readMembers_putMembers (by simp) keyed each fuel rest (by omega)
    obtain ⟨tail, start⟩ : ∃ tail, putMembers (member :: members) ('\x7d' :: rest) = '"' :: tail := by
      cases members with
      | nil => rw [putMembers, putText]; exact ⟨_, rfl⟩
      | cons next members => rw [putMembers_cons_cons, putText]; exact ⟨_, rfl⟩
    rw [start] at read ⊢
    simp [skipSpace_cons '"' (by decide), read]

theorem readsBack_number {spelling : List Char}
    (letters : ∀ letter ∈ spelling, isNumberLetter letter = true)
    (spelled : isNumber spelling = true) : (number spelling).ReadsBack := by
  refine .of_succ (.number letters spelled) fun fuel rest ends _ => ?_
  have read := readNumber_append letters spelled ends
  obtain ⟨first, tail, rfl, start⟩ := start_of_isNumber spelled
  have other := number_start_apart start
  simp only [List.forall_mem_cons] at other
  have solid : isSpace first = false := by simp [isSpace, other]
  rw [put, List.cons_append] at *
  simp [readValue, skipSpace_cons _ solid, other, read]

theorem Plain.readsBack {json : Json} (plain : json.Plain) : json.ReadsBack := by
  induction plain with
  | null =>
    refine .of_succ .null fun fuel rest _ _ => ?_
    simp [put, readValue, skipSpace_cons 'n' (by decide), dropWord?]
  | boolean value =>
    refine .of_succ (.boolean value) fun fuel rest _ _ => ?_
    cases value with
    | true => simp [put, readValue, skipSpace_cons 't' (by decide), dropWord?]
    | false => simp [put, readValue, skipSpace_cons 'f' (by decide), dropWord?]
  | text value =>
    refine .of_succ (.text value) fun fuel rest _ _ => ?_
    rw [put, putText, readValue, skipSpace_cons _ (by decide)]
    simp only [Option.getD_some, readText_foldr_escaped, Option.map_some]
  | number letters spelled => exact readsBack_number letters spelled
  | array each ih => exact readsBack_array fun value member => ⟨each value member, ih value member⟩
  | object keyed each ih =>
    exact readsBack_object keyed fun member found => ⟨each member found, ih member found⟩

/-- The text of a plain value spells that value. -/
theorem parse?_print {json : Json} (plain : json.Plain) : parse? json.print = some json := by
  have read := plain.readsBack (2 * (json.put []).length + 2) [] ends_nil (by simp)
  simp [parse?, print, read, skipSpace]

/-! ### Natural numbers -/

theorem toDigits_head_ne_zero {value : Nat} (positive : 0 < value) :
    ∀ first ∈ (Nat.toDigits 10 value).head?, first ≠ '0' := by
  have small : ∀ digit < 10, 0 < digit → digit.digitChar ≠ '0' := by decide
  induction value using Nat.strongRecOn with
  | _ value ih =>
    rw [Nat.toDigits_eq_if (by decide)]
    split
    case isTrue less => simpa using small value less positive
    case isFalse more =>
      obtain ⟨first, tail, start⟩ := List.exists_cons_of_ne_nil
        (Nat.toDigits_ne_nil (n := value / 10) (b := 10))
      have earlier := ih (value / 10) (by omega) (by omega)
      simpa [start] using earlier

theorem isNumber_toDigits (value : Nat) : isNumber (Nat.toDigits 10 value) = true := by
  obtain rfl | positive := Nat.eq_zero_or_pos value
  · decide
  · obtain ⟨first, tail, spelled⟩ := List.exists_cons_of_ne_nil
      (Nat.toDigits_ne_nil (n := value) (b := 10))
    have digits : ∀ letter ∈ first :: tail, letter.isDigit = true := fun letter member =>
      Nat.isDigit_of_mem_toDigits (b := 10) (by decide) (by decide) (spelled ▸ member)
    have notZero : first ≠ '0' := toDigits_head_ne_zero positive first (by simp [spelled])
    have notSign : first ≠ '-' := by
      rintro rfl
      exact absurd (digits '-' (by simp)) (by decide)
    have rest : tail.dropWhile Char.isDigit = [] := by
      rw [← List.append_nil tail, List.dropWhile_append_of_pos fun letter member =>
        digits letter (List.mem_cons_of_mem _ member), List.dropWhile_nil]
    unfold isNumber
    simp [spelled, dropWhole?, dropDigits?, notSign, notZero, digits first (by simp), rest,
      dropFraction?, dropExponent?]

theorem ofNat_eq (value : Nat) : ofNat value = number (Nat.toDigits 10 value) := by
  simp [ofNat]

theorem plain_ofNat (value : Nat) : (ofNat value).Plain := by
  rw [ofNat_eq]
  refine .number (fun letter member => ?_) (isNumber_toDigits value)
  simp [isNumberLetter, Nat.isDigit_of_mem_toDigits (by decide) (by decide) member]

theorem naturalOfDigits_toDigits (value : Nat) :
    naturalOfDigits (Nat.toDigits 10 value) = value := by
  rw [naturalOfDigits, ← Nat.ofDigitChars_eq_foldl, Nat.ofDigitChars_ten_toDigits]

theorem natural?_ofNat (value : Nat) : (ofNat value).natural? = some value := by
  have digits : (Nat.toDigits 10 value).all Char.isDigit = true :=
    List.all_eq_true.mpr fun letter member =>
      Nat.isDigit_of_mem_toDigits (by decide) (by decide) member
  rw [ofNat_eq]
  simp [natural?, digits, naturalOfDigits_toDigits]

end ScopeAtlas.Json
