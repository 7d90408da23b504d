import ScopeAtlas.Json.Basic

/-!
The compact text of a JSON value: no blanks, and of all characters only the quote, the backslash
and the control characters are escaped.
-/

namespace ScopeAtlas.Json

def hexDigit (value : Nat) : Char :=
  if value < 10 then Char.ofNat ('0'.toNat + value) else Char.ofNat ('a'.toNat + (value - 10))

def escaped (letter : Char) : List Char :=
  match letter with
  | '"' => ['\\', '"']
  | '\\' => ['\\', '\\']
  | '\x08' => ['\\', 'b']
  | '\t' => ['\\', 't']
  | '\n' => ['\\', 'n']
  | '\x0c' => ['\\', 'f']
  | '\r' => ['\\', 'r']
  | _ =>
    if letter.toNat < 0x20 then
      ['\\', 'u', '0', '0', hexDigit (letter.toNat / 16), hexDigit (letter.toNat % 16)]
    else [letter]

def putText (text : String) (rest : List Char) : List Char :=
  '"' :: text.toList.foldr (fun letter tail => escaped letter ++ tail) ('"' :: rest)

mutual

def put : Json → List Char → List Char
  | .null, rest => 'n' :: 'u' :: 'l' :: 'l' :: rest
  | .boolean true, rest => 't' :: 'r' :: 'u' :: 'e' :: rest
  | .boolean false, rest => 'f' :: 'a' :: 'l' :: 's' :: 'e' :: rest
  | .number spelling, rest => spelling ++ rest
  | .text value, rest => putText (value.getD "") rest
  | .array values, rest => '[' :: putValues values (']' :: rest)
  | .object members, rest => '\x7b' :: putMembers members ('\x7d' :: rest)

def putValues : List Json → List Char → List Char
  | [], rest => rest
  | [value], rest => put value rest
  | value :: values, rest => put value (',' :: putValues values rest)

def putMembers : List (Option String × Json) → List Char → List Char
  | [], rest => rest
  | [(key, value)], rest => putText (key.getD "") (':' :: put value rest)
  | (key, value) :: members, rest =>
    putText (key.getD "") (':' :: put value (',' :: putMembers members rest))

end

def print (json : Json) : String :=
  String.ofList (json.put [])

end ScopeAtlas.Json
