import ScopeAtlas.Location
import ScopeAtlas.Storage.Path

/-!
The values of options and how they are written.
-/

namespace ScopeAtlas.CommandLine

def decimal? (text : String) : Option Nat :=
  let digits := match text.toList with
    | '+' :: rest => rest
    | letters => letters
  if digits.isEmpty || !digits.all Char.isDigit then none
  else some (digits.foldl (fun value digit => 10 * value + (digit.toNat - '0'.toNat)) 0)

/-- A line or column; a minus sign is allowed before zero. -/
def coordinate? (text : String) : Option Nat :=
  match text.toList with
  | '-' :: digits =>
    (decimal? (String.ofList ('+' :: digits))).filter (· == 0)
  | _ => (decimal? text).filter (· ≤ Position.limit)

def sizeLimit : Nat := 18446744073709551615

def size? (text : String) : Option Nat :=
  (decimal? text).filter (· ≤ sizeLimit)

def path? (text : String) : Option Path :=
  if text.isEmpty then none else some ⟨text⟩

inductive ValueKind
  | text
  | path
  | coordinate
  | size
  deriving DecidableEq, Repr

def ValueKind.accepts : ValueKind → String → Bool
  | .text, _ => true
  | .path, value => (path? value).isSome
  | .coordinate, value => (coordinate? value).isSome
  | .size, value => (size? value).isSome

end ScopeAtlas.CommandLine
