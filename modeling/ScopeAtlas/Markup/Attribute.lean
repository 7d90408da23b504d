import ScopeAtlas.Markup.Event
import ScopeAtlas.Markup.Reference

/-!
The inside of a tag: its name and its attributes. Faults name the byte offset in the tag at
which the reading stopped.
-/

namespace ScopeAtlas.Markup

structure RawAttribute where
  offset : Nat
  key : List Char
  value : List Char
  deriving DecidableEq, Repr

def isKeyPart (letter : Char) : Bool :=
  letter != '=' && !isSpace letter

def cutValue (size : Nat) (letters : List Char) :
    Except AttributeFault (List Char × List Char) :=
  match letters.dropWhile isSpace with
  | [] => .error (.expectedValue size)
  | quote :: body =>
    if quote == '"' || quote == '\'' then
      match body.dropWhile (· != quote) with
      | [] => .error (.openValue size quote)
      | _ :: after => .ok (body.takeWhile (· != quote), after)
    else .error (.unquotedValue (size - Text.byteLength (quote :: body)))

def cutEquals (size : Nat) (letters : List Char) : Except AttributeFault (List Char) :=
  match letters.dropWhile isSpace with
  | [] => .error (.expectedEquals size)
  | letter :: rest =>
    if letter == '=' then .ok rest
    else .error (.expectedEquals (size - Text.byteLength (letter :: rest)))

def sameKey? (earlier : List RawAttribute) (key : List Char) : Option RawAttribute :=
  earlier.find? fun entry => entry.key == key

/-- Reads the attribute that begins with `first`. The byte offset of any part is what is left of
`size` without the part and what follows it. -/
def cutAttribute (size : Nat) (earlier : List RawAttribute) (first : Char) (tail : List Char) :
    Except AttributeFault (RawAttribute × List Char) := do
  let offset := size - Text.byteLength (first :: tail)
  let key := first :: tail.takeWhile isKeyPart
  let afterEquals ← cutEquals size (tail.dropWhile isKeyPart)
  match sameKey? earlier key with
  | some same => .error (.repeatedKey offset same.offset)
  | none =>
    let (value, rest) ← cutValue size afterEquals
    return (⟨offset, key, value⟩, rest)

theorem cutEquals_length {size : Nat} {letters rest : List Char}
    (found : cutEquals size letters = .ok rest) : rest.length < letters.length := by
  unfold cutEquals at found
  have bound := length_dropWhile_le isSpace letters
  split at found
  · simp at found
  · rename_i shape
    rw [shape] at bound
    split at found
    · simp only [Except.ok.injEq] at found
      rw [← found]
      simp only [List.length_cons] at bound
      omega
    · simp at found

theorem cutValue_length {size : Nat} {letters value rest : List Char}
    (found : cutValue size letters = .ok (value, rest)) : rest.length < letters.length := by
  unfold cutValue at found
  have bound := length_dropWhile_le isSpace letters
  split at found
  · simp at found
  · rename_i quote body shape
    rw [shape] at bound
    split at found
    · have inner := length_dropWhile_le (· != quote) body
      split at found
      · simp at found
      · rename_i after shape
        rw [shape] at inner
        simp only [Except.ok.injEq, Prod.mk.injEq] at found
        rw [← found.2]
        simp only [List.length_cons] at bound inner
        omega
    · simp at found

theorem cutAttribute_length {size : Nat} {earlier : List RawAttribute} {first : Char}
    {tail rest : List Char} {entry : RawAttribute}
    (found : cutAttribute size earlier first tail = .ok (entry, rest)) :
    rest.length < tail.length := by
  unfold cutAttribute at found
  have bound := length_dropWhile_le isKeyPart tail
  cases equals : cutEquals size (tail.dropWhile isKeyPart) with
  | error fault => simp [equals, bind, Except.bind] at found
  | ok afterEquals =>
    have first := cutEquals_length equals
    simp only [equals, bind, Except.bind] at found
    split at found
    · simp at found
    · cases value : cutValue size afterEquals with
      | error fault => simp [value] at found
      | ok pair =>
        obtain ⟨text, after⟩ := pair
        have second := cutValue_length value
        simp only [value, pure, Except.pure, Except.ok.injEq, Prod.mk.injEq] at found
        rw [← found.2]
        omega

/-- Reads the attributes of a tag of `size` bytes from what is left of it. Each value is
resolved before the next attribute is read. -/
def readAttributes (size : Nat) (earlier : List RawAttribute) (letters : List Char) :
    Except Failure (List (String × String)) :=
  match _blank : letters.dropWhile isSpace with
  | [] => .ok []
  | first :: tail =>
    match _cut : cutAttribute size earlier first tail with
    | .error fault => .error (.attributes fault)
    | .ok (entry, rest) =>
      match unescapeValue entry.value with
      | .error fault => .error (.reference fault)
      | .ok value => do
        let others ← readAttributes size (earlier ++ [entry]) rest
        return (String.ofList entry.key, value) :: others
termination_by letters.length
decreasing_by
  have bound := length_dropWhile_le isSpace letters
  rw [_blank] at bound
  have := cutAttribute_length _cut
  simp only [List.length_cons] at bound
  omega

def tagName (content : List Char) : String :=
  String.ofList (content.takeWhile fun letter => !isSpace letter)

def tagAttributes (content : List Char) : Except Failure (List (String × String)) :=
  readAttributes (Text.byteLength content) [] (content.dropWhile fun letter => !isSpace letter)

end ScopeAtlas.Markup
