import ScopeAtlas.Toml.Basic

/-!
The simple values of TOML: texts in quotes, numbers, truth values and moments of time. Every reader
takes the letters ahead and returns what it read with the letters that remain.
-/

namespace ScopeAtlas.Toml

def isSpace (letter : Char) : Bool := letter == ' ' || letter == '\t'

def skipSpace (letters : List Char) : List Char := letters.dropWhile isSpace

def isPlain (letter : Char) : Bool :=
  letter == '\t' || (0x20 ≤ letter.toNat && letter.toNat != 0x7F)

def newline? : List Char → Option (List Char)
  | '\n' :: rest => some rest
  | '\r' :: '\n' :: rest => some rest
  | _ => none

/-! ### Texts -/

def hexValue? (letter : Char) : Option Nat :=
  if letter.isDigit then some (letter.toNat - '0'.toNat)
  else if 'a' ≤ letter && letter ≤ 'f' then some (letter.toNat - 'a'.toNat + 10)
  else if 'A' ≤ letter && letter ≤ 'F' then some (letter.toNat - 'A'.toNat + 10)
  else none

def scalar? (code : Nat) : Option Char :=
  if code < 0xD800 || (0xDFFF < code && code < 0x110000) then some (Char.ofNat code) else none

def numbered? (digits : List Char) : Option Char := do
  let values ← digits.mapM hexValue?
  scalar? (values.foldl (fun value digit => 16 * value + digit) 0)

def shortEscape? : Char → Option Char
  | 'b' => some '\x08'
  | 't' => some '\t'
  | 'n' => some '\n'
  | 'f' => some '\x0c'
  | 'r' => some '\r'
  | '"' => some '"'
  | '\\' => some '\\'
  | _ => none

def basicLetters : List Char → Option (List Char × List Char)
  | [] => none
  | '"' :: rest => some ([], rest)
  | '\\' :: 'u' :: a :: b :: c :: d :: rest => do
    let letter ← numbered? [a, b, c, d]
    let (letters, after) ← basicLetters rest
    return (letter :: letters, after)
  | '\\' :: 'U' :: a :: b :: c :: d :: e :: f :: g :: h :: rest => do
    let letter ← numbered? [a, b, c, d, e, f, g, h]
    let (letters, after) ← basicLetters rest
    return (letter :: letters, after)
  | '\\' :: escape :: rest => do
    let letter ← shortEscape? escape
    let (letters, after) ← basicLetters rest
    return (letter :: letters, after)
  | letter :: rest =>
    if isPlain letter && letter != '\\' then do
      let (letters, after) ← basicLetters rest
      return (letter :: letters, after)
    else none

def literalLetters : List Char → Option (List Char × List Char)
  | [] => none
  | '\'' :: rest => some ([], rest)
  | letter :: rest =>
    if isPlain letter then do
      let (letters, after) ← literalLetters rest
      return (letter :: letters, after)
    else none

def leadingQuotes (quote : Char) (letters : List Char) : Nat :=
  (letters.takeWhile (· == quote)).length

/-- The end of a text in three quotes. Up to two more quotes in front of them belong to it; any
further ones stand behind it. -/
def closing? (quote : Char) (letters : List Char) : Option (List Char × List Char) :=
  let count := min 5 (leadingQuotes quote letters)
  if 3 ≤ count then some (List.replicate (count - 3) quote, letters.drop count) else none

def afterLineEnd? (letters : List Char) : Option (List Char) :=
  (newline? (skipSpace letters)).map fun rest =>
    rest.dropWhile fun letter => isSpace letter || letter == '\n' || letter == '\r'

def longBasicLetters : Nat → List Char → Option (List Char × List Char)
  | 0, _ => none
  | fuel + 1, letters =>
    match closing? '"' letters with
    | some found => some found
    | none =>
      match letters with
      | [] => none
      | '\r' :: '\n' :: rest | '\n' :: rest => push '\n' (longBasicLetters fuel rest)
      | '\\' :: rest =>
        match afterLineEnd? rest with
        | some after => longBasicLetters fuel after
        | none =>
          match rest with
          | 'u' :: a :: b :: c :: d :: after =>
            (numbered? [a, b, c, d]).bind fun letter => push letter (longBasicLetters fuel after)
          | 'U' :: a :: b :: c :: d :: e :: f :: g :: h :: after =>
            (numbered? [a, b, c, d, e, f, g, h]).bind fun letter =>
              push letter (longBasicLetters fuel after)
          | escape :: after =>
            (shortEscape? escape).bind fun letter => push letter (longBasicLetters fuel after)
          | [] => none
      | letter :: rest => if isPlain letter then push letter (longBasicLetters fuel rest) else none
where
  push (letter : Char) (read : Option (List Char × List Char)) : Option (List Char × List Char) :=
    read.map fun (letters, after) => (letter :: letters, after)

def longLiteralLetters : Nat → List Char → Option (List Char × List Char)
  | 0, _ => none
  | fuel + 1, letters =>
    match closing? '\'' letters with
    | some found => some found
    | none =>
      match letters with
      | [] => none
      | '\r' :: '\n' :: rest | '\n' :: rest =>
        (longLiteralLetters fuel rest).map fun (read, after) => ('\n' :: read, after)
      | letter :: rest =>
        if isPlain letter then
          (longLiteralLetters fuel rest).map fun (read, after) => (letter :: read, after)
        else none

def dropFirstNewline (letters : List Char) : List Char :=
  (newline? letters).getD letters

def shortText? : List Char → Option (String × List Char)
  | '"' :: rest => (basicLetters rest).map fun (letters, after) => (String.ofList letters, after)
  | '\'' :: rest => (literalLetters rest).map fun (letters, after) => (String.ofList letters, after)
  | _ => none

def text? : List Char → Option (String × List Char)
  | '"' :: '"' :: '"' :: rest =>
    (longBasicLetters (rest.length + 1) (dropFirstNewline rest)).map fun (letters, after) =>
      (String.ofList letters, after)
  | '\'' :: '\'' :: '\'' :: rest =>
    (longLiteralLetters (rest.length + 1) (dropFirstNewline rest)).map fun (letters, after) =>
      (String.ofList letters, after)
  | letters => shortText? letters

/-! ### Numbers -/

def digits? (isDigit : Char → Bool) : List Char → Option (List Char)
  | [] => none
  | [last] => if isDigit last then some [last] else none
  | first :: '_' :: rest =>
    if isDigit first then (digits? isDigit rest).map (first :: ·) else none
  | first :: rest => if isDigit first then (digits? isDigit rest).map (first :: ·) else none

def valueIn (base : Nat) (digits : List Char) : Nat :=
  digits.foldl (fun value digit => base * value + (hexValue? digit).getD 0) 0

def wholePart? (letters : List Char) : Option (List Char) :=
  match letters with
  | ['0'] => some ['0']
  | '0' :: _ => none
  | _ => digits? Char.isDigit letters

def leastInteger : Int := -9223372036854775808

def greatestInteger : Int := 9223372036854775807

def inRange? (number : Int) : Option Value :=
  if leastInteger ≤ number && number ≤ greatestInteger then some (.integer number) else none

def integer? (token : List Char) : Option Value :=
  match token with
  | '0' :: 'x' :: rest =>
    (digits? (fun letter => (hexValue? letter).isSome) rest).bind fun digits =>
      inRange? (valueIn 16 digits)
  | '0' :: 'o' :: rest =>
    (digits? (fun letter => '0' ≤ letter && letter ≤ '7') rest).bind fun digits =>
      inRange? (valueIn 8 digits)
  | '0' :: 'b' :: rest =>
    (digits? (fun letter => letter == '0' || letter == '1') rest).bind fun digits =>
      inRange? (valueIn 2 digits)
  | '+' :: rest => (wholePart? rest).bind fun digits => inRange? (valueIn 10 digits)
  | '-' :: rest => (wholePart? rest).bind fun digits => inRange? (-(valueIn 10 digits : Int))
  | rest => (wholePart? rest).bind fun digits => inRange? (valueIn 10 digits)

def isExponentMark (letter : Char) : Bool := letter == 'e' || letter == 'E'

def exponent? (letters : List Char) : Option Int :=
  match letters with
  | '-' :: rest => (digits? Char.isDigit rest).map fun digits => -(valueIn 10 digits : Int)
  | '+' :: rest => (digits? Char.isDigit rest).map fun digits => (valueIn 10 digits : Int)
  | rest => (digits? Char.isDigit rest).map fun digits => (valueIn 10 digits : Int)

/-- A number that is written with a fraction, an exponent or both: its digits, taken as an integer
and multiplied by ten to the power of `scale`. -/
structure Decimal where
  isNegative : Bool
  digits : List Char
  scale : Int

def fraction? (isNegative : Bool) (whole rest : List Char) : Option Decimal := do
  let fraction ← digits? Char.isDigit (rest.takeWhile fun letter => !isExponentMark letter)
  let exponent ← match rest.dropWhile fun letter => !isExponentMark letter with
    | [] => some 0
    | _ :: letters => exponent? letters
  return ⟨isNegative, whole ++ fraction, exponent - fraction.length⟩

def unsignedDecimal? (isNegative : Bool) (letters : List Char) : Option Decimal := do
  let isWhole := fun letter => letter != '.' && !isExponentMark letter
  let whole ← wholePart? (letters.takeWhile isWhole)
  match letters.dropWhile isWhole with
  | [] => none
  | '.' :: rest => fraction? isNegative whole rest
  | _ :: rest => (exponent? rest).map fun exponent => ⟨isNegative, whole, exponent⟩

def decimal? : List Char → Option Decimal
  | '-' :: rest => unsignedDecimal? true rest
  | '+' :: rest => unsignedDecimal? false rest
  | letters => unsignedDecimal? false letters

def overflowBound : Nat := Nat.pow 2 1024 - Nat.pow 2 970

/-- Whether the nearest double is positive infinity. A number of `order` digits before its point
is at least ten to the power of `order - 1` and less than ten to the power of `order`, so the
bound, which has 309 digits, has to be looked at for one order only. -/
def Decimal.overflows (number : Decimal) : Bool :=
  let digits := number.digits.dropWhile (· == '0')
  let order : Int := digits.length + number.scale
  if number.isNegative || digits.isEmpty || order < 309 then false
  else if 309 < order then true
  else decide (overflowBound * Nat.pow 10 (-number.scale).toNat ≤
    valueIn 10 digits * Nat.pow 10 number.scale.toNat)

def isSpecialFloat (token : List Char) : Bool :=
  let unsigned := match token with
    | '+' :: rest | '-' :: rest => rest
    | _ => token
  unsigned == ['i', 'n', 'f'] || unsigned == ['n', 'a', 'n']

/-! ### Moments of time -/

def fixedDigits? (count : Nat) (letters : List Char) : Option (Nat × List Char) :=
  let digits := letters.take count
  if digits.length == count && digits.all Char.isDigit then
    some (valueIn 10 digits, letters.drop count)
  else none

def isLeapYear (year : Nat) : Bool :=
  year % 4 == 0 && (year % 100 != 0 || year % 400 == 0)

def daysIn (year month : Nat) : Nat :=
  if month == 2 then (if isLeapYear year then 29 else 28)
  else if month == 4 || month == 6 || month == 9 || month == 11 then 30
  else 31

def date? (letters : List Char) : Option (List Char) := do
  let (year, rest) ← fixedDigits? 4 letters
  let '-' :: rest := rest | none
  let (month, rest) ← fixedDigits? 2 rest
  let '-' :: rest := rest | none
  let (day, rest) ← fixedDigits? 2 rest
  if 1 ≤ month && month ≤ 12 && 1 ≤ day && day ≤ daysIn year month then some rest else none

def time? (letters : List Char) : Option (List Char) := do
  let (hour, rest) ← fixedDigits? 2 letters
  let ':' :: rest := rest | none
  let (minute, rest) ← fixedDigits? 2 rest
  let ':' :: rest := rest | none
  let (second, rest) ← fixedDigits? 2 rest
  if hour ≤ 23 && minute ≤ 59 && second ≤ 60 then
    match rest with
    | '.' :: fraction =>
      if (fraction.head?.map Char.isDigit).getD false then some (fraction.dropWhile Char.isDigit)
      else none
    | _ => some rest
  else none

def isOffset : List Char → Bool
  | [] | ['Z'] | ['z'] => true
  | '+' :: rest | '-' :: rest =>
    match fixedDigits? 2 rest with
    | some (hours, ':' :: after) =>
      match fixedDigits? 2 after with
      | some (minutes, []) => hours ≤ 23 && minutes ≤ 59
      | _ => false
    | _ => false
  | _ => false

def isMoment (token : List Char) : Bool :=
  match date? token with
  | some [] => true
  | some (mark :: rest) =>
    (mark == 'T' || mark == 't' || mark == ' ') &&
      match time? rest with
      | some offset => isOffset offset
      | none => false
  | none => time? token == some []

/-! ### Tokens -/

def isTokenLetter (letter : Char) : Bool :=
  letter.isAlphanum || letter == '+' || letter == '-' || letter == '_' || letter == '.' ||
    letter == ':'

def token (letters : List Char) : List Char × List Char :=
  let first := letters.takeWhile isTokenLetter
  let rest := letters.dropWhile isTokenLetter
  match date? first, rest with
  | some [], ' ' :: after =>
    if (after.head?.map Char.isDigit).getD false then
      (first ++ ' ' :: after.takeWhile isTokenLetter, after.dropWhile isTokenLetter)
    else (first, rest)
  | _, _ => (first, rest)

def tokenValue? (letters : List Char) : Option Value :=
  if letters == ['t', 'r', 'u', 'e'] then some (.boolean true)
  else if letters == ['f', 'a', 'l', 's', 'e'] then some (.boolean false)
  else if isMoment letters then some .moment
  else if isSpecialFloat letters then some .float
  else match decimal? letters with
    | some number => if number.overflows then none else some .float
    | none => integer? letters

end ScopeAtlas.Toml
