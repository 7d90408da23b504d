import ScopeAtlas.Toml.Basic

/-!
Writing TOML: texts in the plainest quotes that can hold them, and arrays of several elements over
several lines.
-/

namespace ScopeAtlas.Toml

structure TextTraits where
  singleQuotes : Nat
  doubleQuotes : Nat
  hasControl : Bool
  hasBackslash : Bool
  hasNewline : Bool

def longestRun (letter : Char) : List Char → Nat → Nat
  | [], _ => 0
  | first :: rest, run =>
    if first == letter then max (run + 1) (longestRun letter rest (run + 1))
    else longestRun letter rest 0

def isControl (letter : Char) : Bool :=
  (letter.toNat < 0x20 && letter != '\t' && letter != '\n') || letter.toNat == 0x7F

def TextTraits.of (letters : List Char) : TextTraits where
  singleQuotes := longestRun '\'' letters 0
  doubleQuotes := longestRun '"' letters 0
  hasControl := letters.any isControl
  hasBackslash := letters.contains '\\'
  hasNewline := letters.contains '\n'

inductive Quoting
  | basic
  | literal
  | longBasic
  | longLiteral
  deriving DecidableEq, Repr

def Quoting.of (traits : TextTraits) : Quoting :=
  if !traits.hasControl && !traits.hasBackslash && traits.doubleQuotes == 0 && !traits.hasNewline then
    .basic
  else if !traits.hasControl && traits.singleQuotes == 0 && !traits.hasNewline then .literal
  else if !traits.hasControl && !traits.hasBackslash && traits.doubleQuotes ≤ 2 then .longBasic
  else if !traits.hasControl && traits.singleQuotes ≤ 2 then .longLiteral
  else if traits.hasNewline then .longBasic
  else .basic

def upperHexDigit (value : Nat) : Char :=
  if value < 10 then Char.ofNat ('0'.toNat + value) else Char.ofNat ('A'.toNat + (value - 10))

def escaped (long : Bool) (letter : Char) : List Char :=
  match letter with
  | '\x08' => ['\\', 'b']
  | '\t' => ['\\', 't']
  | '\n' => if long then ['\n'] else ['\\', 'n']
  | '\x0c' => ['\\', 'f']
  | '\r' => ['\\', 'r']
  | '\\' => ['\\', '\\']
  | _ =>
    if letter.toNat < 0x20 || letter.toNat == 0x7F then
      ['\\', 'u', '0', '0', upperHexDigit (letter.toNat / 16), upperHexDigit (letter.toNat % 16)]
    else [letter]

/-- The letters between double quotes. Of the quotes among them, `allowed` in a row may stand bare;
`run` counts those just before. -/
def escapedLetters (long : Bool) (allowed : Nat) : Nat → List Char → List Char
  | _, [] => []
  | run, '"' :: rest =>
    if run < allowed then '"' :: escapedLetters long allowed (run + 1) rest
    else '\\' :: '"' :: escapedLetters long allowed 0 rest
  | _, letter :: rest => escaped long letter ++ escapedLetters long allowed 0 rest

def quoted (text : String) : String :=
  let letters := text.toList
  let traits := TextTraits.of letters
  let opening := if traits.hasNewline then "\n" else ""
  match Quoting.of traits with
  | .basic => "\"" ++ String.ofList (escapedLetters false 0 0 letters) ++ "\""
  | .literal => "'" ++ text ++ "'"
  | .longBasic =>
    "\"\"\"" ++ opening ++ String.ofList (escapedLetters true 2 0 letters) ++ "\"\"\""
  | .longLiteral => "'''" ++ opening ++ text ++ "'''"

def quotedList : List String → String
  | [] => "[]"
  | [single] => "[" ++ quoted single ++ "]"
  | texts => "[" ++ String.join (texts.map fun text => "\n    " ++ quoted text ++ ",") ++ "\n]"

def assignment (key value : String) : String :=
  key ++ " = " ++ value ++ "\n"

end ScopeAtlas.Toml
