/-!
TOML values and tables. Floating point numbers and moments of time are only told apart from other
values; nothing here needs to know which they are.
-/

namespace ScopeAtlas.Toml

/-- How a table came to be, which decides how it may grow. -/
inductive TableOrigin
  | stated
  | mentioned
  | dotted
  deriving DecidableEq, Repr

inductive Value
  | integer (number : Int)
  | float
  | boolean (flag : Bool)
  | text (content : String)
  | moment
  | array (values : List Value)
  | inline (entries : List (String × Value))
  | table (origin : TableOrigin) (entries : List (String × Value))
  | tables (elements : List (List (String × Value)))

abbrev Entries := List (String × Value)

namespace Entries

def get? (entries : Entries) (key : String) : Option Value :=
  (entries.find? fun entry => entry.1 == key).map (·.2)

def put (entries : Entries) (key : String) (value : Value) : Entries :=
  if entries.any fun entry => entry.1 == key then
    entries.map fun entry => if entry.1 == key then (key, value) else entry
  else entries ++ [(key, value)]

end Entries

end ScopeAtlas.Toml
