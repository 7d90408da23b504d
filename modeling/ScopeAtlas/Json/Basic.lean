import ScopeAtlas.Text.Blank

/-!
JSON values. Numbers keep their spelling. The members of an object keep their order and may
repeat a key. A text written with half of a surrogate pair has no characters to stand for it;
such a text is `none`, so that it can still be passed over.
-/

namespace ScopeAtlas

inductive Json
  | null
  | boolean (value : Bool)
  | number (spelling : List Char)
  | text (value : Option String)
  | array (values : List Json)
  | object (members : List (Option String × Json))

namespace Json

instance : Inhabited Json := ⟨.null⟩

def ofString (value : String) : Json := .text (some value)

def ofNat (value : Nat) : Json := .number (toString value).toList

def ofInt (value : Int) : Json := .number (toString value).toList

def ofList {α : Type} (encode : α → Json) (values : List α) : Json :=
  .array (values.map encode)

def ofOption {α : Type} (encode : α → Json) : Option α → Json
  | none => .null
  | some value => encode value

def record (members : List (String × Json)) : Json :=
  .object (members.map fun (key, value) => (some key, value))

def string? : Json → Option String
  | .text value => value
  | _ => none

def boolean? : Json → Option Bool
  | .boolean value => some value
  | _ => none

def list? : Json → Option (List Json)
  | .array values => some values
  | _ => none

def naturalOfDigits (digits : List Char) : Nat :=
  digits.foldl (fun value digit => 10 * value + (digit.toNat - '0'.toNat)) 0

def natural? : Json → Option Nat
  | .number spelling =>
    if !spelling.isEmpty && spelling.all Char.isDigit then some (naturalOfDigits spelling) else none
  | _ => none

def naturalUpTo? (limit : Nat) (json : Json) : Option Nat :=
  json.natural?.filter (· ≤ limit)

def optional? {α : Type} (decode : Json → Option α) : Option Json → Option (Option α)
  | none | some .null => some none
  | some json => (decode json).map some

def listOf? {α : Type} (decode : Json → Option α) (json : Json) : Option (List α) :=
  json.list?.bind fun values => values.mapM decode

def member? (key : String) (members : List (Option String × Json)) : Option Json :=
  (members.find? fun member => member.1 == some key).map (·.2)

/-- Whether a key of `names` stands twice among the members, or a key is no text at all. -/
def hasKeyFault (names : List String) (members : List (Option String × Json)) : Bool :=
  members.any (·.1.isNone) ||
    names.any fun name => decide (1 < members.countP fun member => member.1 == some name)

/-- The fields of a record in the order of `names`, an absent one as `none`. A record is an object,
in which other keys do not count and none of these may be repeated, or the array of all its
values. -/
def fields? (names : List String) : Json → Option (List (Option Json))
  | .object members =>
    if hasKeyFault names members then none else some (names.map fun name => member? name members)
  | .array values => if values.length = names.length then some (values.map some) else none
  | _ => none

def choice? : Json → Option (String × Option Json)
  | .text (some word) => some (word, none)
  | .object [(some word, content)] => some (word, some content)
  | _ => none

end Json

end ScopeAtlas
