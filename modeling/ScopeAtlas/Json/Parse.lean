import ScopeAtlas.Json.Basic

/-!
Reading JSON text. Every reader takes the letters ahead and returns what it read with the letters
that remain.
-/

namespace ScopeAtlas.Json

def isSpace (letter : Char) : Bool :=
  letter == ' ' || letter == '\t' || letter == '\n' || letter == '\r'

def skipSpace (letters : List Char) : List Char :=
  letters.dropWhile isSpace

def hexValue? (letter : Char) : Option Nat :=
  if letter.isDigit then some (letter.toNat - '0'.toNat)
  else if 'a' ≤ letter && letter ≤ 'f' then some (letter.toNat - 'a'.toNat + 10)
  else if 'A' ≤ letter && letter ≤ 'F' then some (letter.toNat - 'A'.toNat + 10)
  else none

def unit? (first second third fourth : Char) : Option Nat := do
  let digits ← [first, second, third, fourth].mapM hexValue?
  return digits.foldl (fun value digit => 16 * value + digit) 0

def isHighSurrogate (code : Nat) : Bool := 0xD800 ≤ code && code ≤ 0xDBFF

def isLowSurrogate (code : Nat) : Bool := 0xDC00 ≤ code && code ≤ 0xDFFF

def loneUnit (code : Nat) : Option Char :=
  if isHighSurrogate code || isLowSurrogate code then none else some (Char.ofNat code)

def pairedUnits (high low : Nat) : Char :=
  Char.ofNat (0x10000 + (high - 0xD800) * 0x400 + (low - 0xDC00))

def shortEscape? : Char → Option Char
  | '"' => some '"'
  | '\\' => some '\\'
  | '/' => some '/'
  | 'b' => some '\x08'
  | 'f' => some '\x0c'
  | 'n' => some '\n'
  | 'r' => some '\r'
  | 't' => some '\t'
  | _ => none

/-- The characters of a text up to its closing quote; half of a surrogate pair is `none`. -/
def readLetters : List Char → Option (List (Option Char) × List Char)
  | [] => none
  | '"' :: rest => some ([], rest)
  | '\\' :: 'u' :: first :: second :: third :: fourth :: rest => do
    let code ← unit? first second third fourth
    let (letters, after) ← readLetters rest
    if isHighSurrogate code then
      match rest with
      | '\\' :: 'u' :: fifth :: sixth :: seventh :: eighth :: _ =>
        match unit? fifth sixth seventh eighth with
        | some low =>
          if isLowSurrogate low then
            return (some (pairedUnits code low) :: letters.tail, after)
          else return (none :: letters, after)
        | none => none
      | _ => return (none :: letters, after)
    else return (loneUnit code :: letters, after)
  | '\\' :: letter :: rest => do
    let short ← shortEscape? letter
    let (letters, after) ← readLetters rest
    return (some short :: letters, after)
  | letter :: rest =>
    if letter.toNat < 0x20 || letter == '\\' then none
    else do
      let (letters, after) ← readLetters rest
      return (some letter :: letters, after)

def readText (letters : List Char) : Option (Option String × List Char) := do
  let (content, after) ← readLetters letters
  return ((content.mapM id).map String.ofList, after)

def isNumberLetter (letter : Char) : Bool :=
  letter.isDigit || letter == '-' || letter == '+' || letter == '.' || letter == 'e' ||
    letter == 'E'

def dropDigits? (letters : List Char) : Option (List Char) :=
  match letters with
  | [] => none
  | first :: rest => if first.isDigit then some (rest.dropWhile Char.isDigit) else none

def dropWhole? : List Char → Option (List Char)
  | '0' :: rest => some rest
  | letters => dropDigits? letters

def dropFraction? : List Char → Option (List Char)
  | '.' :: rest => dropDigits? rest
  | letters => some letters

def dropExponent? : List Char → Option (List Char)
  | letter :: rest =>
    if letter == 'e' || letter == 'E' then
      match rest with
      | '+' :: digits | '-' :: digits => dropDigits? digits
      | digits => dropDigits? digits
    else some (letter :: rest)
  | [] => some []

def isNumber (letters : List Char) : Bool :=
  let unsigned := match letters with
    | '-' :: rest => rest
    | _ => letters
  (((dropWhole? unsigned).bind dropFraction?).bind dropExponent?) == some []

def dropWord? : List Char → List Char → Option (List Char)
  | [], letters => some letters
  | expected :: word, letter :: letters =>
    if expected == letter then dropWord? word letters else none
  | _ :: _, [] => none

def readNumber (letters : List Char) : Option (Json × List Char) :=
  let spelling := letters.takeWhile isNumberLetter
  if isNumber spelling then some (.number spelling, letters.dropWhile isNumberLetter) else none

mutual

def readValue : Nat → List Char → Option (Json × List Char)
  | 0, _ => none
  | fuel + 1, letters =>
    match skipSpace letters with
    | '"' :: rest => (readText rest).map fun (value, after) => (.text value, after)
    | '[' :: rest =>
      match skipSpace rest with
      | ']' :: after => some (.array [], after)
      | _ => (readValues fuel rest).map fun (values, after) => (.array values, after)
    | '\x7b' :: rest =>
      match skipSpace rest with
      | '\x7d' :: after => some (.object [], after)
      | _ => (readMembers fuel rest).map fun (members, after) => (.object members, after)
    | 'n' :: rest => (dropWord? ['u', 'l', 'l'] rest).map fun after => (.null, after)
    | 't' :: rest => (dropWord? ['r', 'u', 'e'] rest).map fun after => (.boolean true, after)
    | 'f' :: rest => (dropWord? ['a', 'l', 's', 'e'] rest).map fun after => (.boolean false, after)
    | ahead => readNumber ahead

def readValues : Nat → List Char → Option (List Json × List Char)
  | 0, _ => none
  | fuel + 1, letters =>
    match readValue fuel letters with
    | none => none
    | some (value, after) =>
      match skipSpace after with
      | ']' :: rest => some ([value], rest)
      | ',' :: rest => (readValues fuel rest).map fun (values, last) => (value :: values, last)
      | _ => none

def readMembers : Nat → List Char → Option (List (Option String × Json) × List Char)
  | 0, _ => none
  | fuel + 1, letters =>
    match skipSpace letters with
    | '"' :: keyLetters =>
      match readText keyLetters with
      | none => none
      | some (key, afterKey) =>
        match skipSpace afterKey with
        | ':' :: valueLetters =>
          match readValue fuel valueLetters with
          | none => none
          | some (value, after) =>
            match skipSpace after with
            | '\x7d' :: rest => some ([(key, value)], rest)
            | ',' :: rest =>
              (readMembers fuel rest).map fun (members, last) => ((key, value) :: members, last)
            | _ => none
        | _ => none
    | _ => none

end

/-- The value that a whole text spells. Every step takes a letter at the least every second time,
so twice the length is enough of them. -/
def parse? (text : String) : Option Json :=
  let letters := text.toList
  match readValue (2 * letters.length + 2) letters with
  | some (value, rest) => if (skipSpace rest).isEmpty then some value else none
  | none => none

end ScopeAtlas.Json
