import ScopeAtlas.Failure
import ScopeAtlas.Text.Blank

/-!
Character and entity references: the five predefined names and code points in decimal or
hexadecimal. Attribute values are resolved as a whole, references in text one at a time.
-/

namespace ScopeAtlas.Markup

def digitValue? (base : Nat) (letter : Char) : Option Nat :=
  let code := letter.toNat
  let value :=
    if '0' ≤ letter ∧ letter ≤ '9' then some (code - '0'.toNat)
    else if 'a' ≤ letter ∧ letter ≤ 'f' then some (code - 'a'.toNat + 10)
    else if 'A' ≤ letter ∧ letter ≤ 'F' then some (code - 'A'.toNat + 10)
    else none
  value.filter (· < base)

def readDigits (base : Nat) : Nat → List Char → Except ReferenceFault Nat
  | number, [] => .ok number
  | number, letter :: rest =>
    match digitValue? base letter with
    | none => .error .badDigit
    | some digit =>
      let next := number * base + digit
      if next < 4294967296 then readDigits base next rest else .error .tooLarge

def readNumber (base : Nat) : List Char → Except ReferenceFault Nat
  | [] => .error .withoutDigits
  | first :: rest =>
    if first == '+' || first == '-' then .error .signed
    else readDigits base 0 (first :: rest)

/-- The character with a code point, which must be a scalar value and not zero. -/
def characterOf (code : Nat) : Except ReferenceFault Char :=
  if code = 0 then .error .zero
  else if code < 0xD800 || (0xE000 ≤ code && code ≤ 0x10FFFF) then .ok (Char.ofNat code)
  else .error (.notACharacter code)

def readCode : List Char → Except ReferenceFault Nat
  | 'x' :: digits => readNumber 16 digits
  | digits => readNumber 10 digits

def resolveName (offset : Nat) (name : List Char) : Except ReferenceFault Char :=
  match name with
  | '#' :: digits => do characterOf (← readCode digits)
  | _ =>
    match String.ofList name with
    | "lt" => .ok '<'
    | "gt" => .ok '>'
    | "amp" => .ok '&'
    | "apos" => .ok '\''
    | "quot" => .ok '"'
    | other => .error (.unrecognized offset (offset + Text.byteLength name) other)

def splitReference : List Char → Option (List Char × List Char)
  | [] => none
  | ';' :: rest => some ([], rest)
  | '&' :: _ => none
  | letter :: rest => (splitReference rest).map fun (name, after) => (letter :: name, after)

theorem splitReference_length {letters name after : List Char}
    (found : splitReference letters = some (name, after)) : after.length < letters.length := by
  induction letters generalizing name after with
  | nil => simp [splitReference] at found
  | cons letter rest ih =>
    unfold splitReference at found
    split at found
    · simp at found
    · rename_i same
      simp only [List.cons.injEq] at same
      simp only [Option.some.injEq, Prod.mk.injEq] at found
      simp [same.2, found.2]
    · simp at found
    · rename_i same
      simp only [List.cons.injEq] at same
      obtain ⟨⟨left, right⟩, inner, shape⟩ := Option.map_eq_some_iff.mp found
      simp only [Prod.mk.injEq] at shape
      rw [← same.2] at inner
      have shorter := ih inner
      simp only [List.length_cons]
      rw [← shape.2]
      omega

def unescape (total offset : Nat) (letters : List Char) : Except ReferenceFault (List Char) :=
  match letters with
  | [] => .ok []
  | letter :: rest =>
    if letter == '&' then
      match found : splitReference rest with
      | none => .error (.unterminated offset total)
      | some (name, after) => do
        let resolved ← resolveName (offset + 1) name
        let others ← unescape total (offset + 2 + Text.byteLength name) after
        return resolved :: others
    else do
      let others ← unescape total (offset + letter.utf8Size) rest
      return letter :: others
termination_by letters.length
decreasing_by
  · have := splitReference_length found
    simp only [List.length_cons]
    omega
  · simp

def unescapeValue (value : List Char) : Except ReferenceFault String :=
  (unescape (Text.byteLength value) 0 value).map String.ofList

end ScopeAtlas.Markup
