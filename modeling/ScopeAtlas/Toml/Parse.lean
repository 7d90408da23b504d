import ScopeAtlas.Toml.Scalar

/-!
Reading TOML documents. A document is a list of lines, each a table header or a key with its value,
which build up the root table from top to bottom. Neither the parts of a key nor the values inside
values may be as many as `depthLimit`.
-/

namespace ScopeAtlas.Toml

def depthLimit : Nat := 80

/-! ### Keys -/

def isBareKeyLetter (letter : Char) : Bool :=
  letter.isAlphanum || letter == '-' || letter == '_'

def simpleKey? (letters : List Char) : Option (String × List Char) :=
  match letters with
  | '"' :: _ | '\'' :: _ => shortText? letters
  | _ =>
    let key := letters.takeWhile isBareKeyLetter
    if key.isEmpty then none
    else some (String.ofList key, letters.dropWhile isBareKeyLetter)

def keyPath? : Nat → List Char → Option (List String × List Char)
  | 0, _ => none
  | fuel + 1, letters =>
    match simpleKey? (skipSpace letters) with
    | none => none
    | some (key, after) =>
      match skipSpace after with
      | '.' :: rest => (keyPath? fuel rest).map fun (keys, last) => (key :: keys, last)
      | rest => some ([key], rest)

def key? (letters : List Char) : Option (List String × List Char) :=
  (keyPath? (letters.length + 1) letters).filter fun (path, _) => path.length < depthLimit

/-! ### Tables that grow -/

/-- Changes the table at a path of dotted keys, which it creates when it is missing. A table with a
header of its own cannot be reached by a dotted key; of a list of tables the last one counts. -/
def changeDotted (change : TableOrigin → Entries → Option Entries) :
    List String → TableOrigin → Entries → Option Entries
  | [], origin, entries => change origin entries
  | key :: path, _, entries =>
    match entries.get? key with
    | none =>
      (changeDotted change path .dotted []).map fun inner =>
        entries.put key (.table .dotted inner)
    | some (.table .stated _) => none
    | some (.table origin inner) =>
      (changeDotted change path origin inner).map fun changed =>
        entries.put key (.table origin changed)
    | some (.tables elements) =>
      match elements.getLast? with
      | none => none
      | some last =>
        (changeDotted change path .stated last).map fun changed =>
          entries.put key (.tables (elements.dropLast ++ [changed]))
    | some _ => none

/-- Adds a key to a table. Keys without dots do not extend a table made by dotted keys, and the
other way round. -/
def addEntry (isDotted : Bool) (key : String) (value : Value) (origin : TableOrigin)
    (entries : Entries) : Option Entries :=
  if (origin == .dotted) != isDotted || (entries.get? key).isSome then none
  else some (entries ++ [(key, value)])

def addValue (path : List String) (value : Value) (origin : TableOrigin) (entries : Entries) :
    Option Entries :=
  match path.getLast? with
  | none => none
  | some key =>
    changeDotted (addEntry (1 < path.length) key value) path.dropLast origin entries

def changeAt (change : TableOrigin → Entries → Option Entries) :
    List String → TableOrigin → Entries → Option Entries
  | [], origin, entries => change origin entries
  | key :: path, _, entries =>
    match entries.get? key with
    | none =>
      (changeAt change path .mentioned []).map fun inner =>
        entries.put key (.table .mentioned inner)
    | some (.table origin inner) =>
      (changeAt change path origin inner).map fun changed =>
        entries.put key (.table origin changed)
    | some (.tables elements) =>
      match elements.getLast? with
      | none => none
      | some last =>
        (changeAt change path .stated last).map fun changed =>
          entries.put key (.tables (elements.dropLast ++ [changed]))
    | some _ => none

def openTable (key : String) (_ : TableOrigin) (entries : Entries) : Option Entries :=
  match entries.get? key with
  | none => some (entries.put key (.table .stated []))
  | some (.table .mentioned inner) => some (entries.put key (.table .stated inner))
  | some _ => none

def openElement (key : String) (_ : TableOrigin) (entries : Entries) : Option Entries :=
  match entries.get? key with
  | none => some (entries.put key (.tables [[]]))
  | some (.tables elements) => some (entries.put key (.tables (elements ++ [[]])))
  | some _ => none

/-! ### Values -/

def skipGap : Nat → List Char → Option (List Char)
  | 0, _ => none
  | fuel + 1, letters =>
    match skipSpace letters with
    | '#' :: rest =>
      match rest.dropWhile isPlain with
      | [] => some []
      | after => (newline? after).bind (skipGap fuel)
    | rest =>
      match newline? rest with
      | some after => skipGap fuel after
      | none => some rest

def inlineEntries? (pairs : List (List String × Value)) : Option Entries :=
  pairs.foldlM (fun entries (path, value) => addValue path value .stated entries) []

mutual

def value? : Nat → Nat → List Char → Option (Value × List Char)
  | 0, _, _ => none
  | fuel + 1, levels, letters =>
    match letters, levels with
    | '"' :: _, _ | '\'' :: _, _ =>
      (text? letters).map fun (content, after) => (.text content, after)
    | '[' :: _, 0 | '\x7b' :: _, 0 => none
    | '[' :: rest, inner + 1 =>
      (elements? fuel inner rest).map fun (values, after) => (.array values, after)
    | '\x7b' :: rest, inner + 1 =>
      match skipSpace rest with
      | '\x7d' :: after => some (.inline [], after)
      | ahead =>
        match pairs? fuel inner ahead with
        | none => none
        | some (pairs, after) => (inlineEntries? pairs).map fun entries => (.inline entries, after)
    | _, _ =>
      let (spelling, after) := token letters
      (tokenValue? spelling).map fun value => (value, after)

def elements? : Nat → Nat → List Char → Option (List Value × List Char)
  | 0, _, _ => none
  | fuel + 1, levels, letters =>
    match skipGap (letters.length + 1) letters with
    | none => none
    | some (']' :: after) => some ([], after)
    | some ahead =>
      match value? fuel levels ahead with
      | none => none
      | some (value, after) =>
        match skipGap (after.length + 1) after with
        | some (',' :: rest) =>
          (elements? fuel levels rest).map fun (values, last) => (value :: values, last)
        | some (']' :: rest) => some ([value], rest)
        | _ => none

def pairs? : Nat → Nat → List Char → Option (List (List String × Value) × List Char)
  | 0, _, _ => none
  | fuel + 1, levels, letters =>
    match key? letters with
    | some (path, '=' :: valueLetters) =>
      match value? fuel levels (skipSpace valueLetters) with
      | none => none
      | some (value, after) =>
        match skipSpace after with
        | ',' :: rest =>
          (pairs? fuel levels rest).map fun (pairs, last) => ((path, value) :: pairs, last)
        | '\x7d' :: rest => some ([(path, value)], rest)
        | _ => none
    | _ => none

end

/-! ### Documents -/

structure Progress where
  root : Entries
  current : List String

def lineEnd? (letters : List Char) : Option (List Char) :=
  match skipSpace letters with
  | '#' :: rest =>
    match rest.dropWhile isPlain with
    | [] => some []
    | after => newline? after
  | [] => some []
  | rest => newline? rest

def enter (progress : Progress) (path : List String)
    (openLast : String → TableOrigin → Entries → Option Entries) : Option Progress := do
  let key ← path.getLast?
  let root ← changeAt (openLast key) path.dropLast .stated progress.root
  return ⟨root, path⟩

def readLine (progress : Progress) (letters : List Char) : Option (Progress × List Char) :=
  match skipSpace letters with
  | '[' :: '[' :: rest => do
    let (path, after) ← key? rest
    let ']' :: ']' :: after := after | none
    return (← enter progress path openElement, ← lineEnd? after)
  | '[' :: rest => do
    let (path, after) ← key? rest
    let ']' :: after := after | none
    return (← enter progress path openTable, ← lineEnd? after)
  | '#' :: _ | '\n' :: _ | '\r' :: _ | [] => do return (progress, ← lineEnd? letters)
  | ahead => do
    let (path, after) ← key? ahead
    let '=' :: valueLetters := after | none
    let (value, after) ←
      value? (2 * valueLetters.length + 2) (depthLimit - 1) (skipSpace valueLetters)
    let root ← changeAt (addValue path value) progress.current .stated progress.root
    return (⟨root, progress.current⟩, ← lineEnd? after)

def readLines : Nat → Progress → List Char → Option Entries
  | _, progress, [] => some progress.root
  | 0, _, _ => none
  | fuel + 1, progress, letters =>
    match readLine progress letters with
    | some (next, rest) => readLines fuel next rest
    | none => none

def parse? (text : String) : Option Entries :=
  let letters := match text.toList with
    | '\uFEFF' :: rest => rest
    | all => all
  readLines (letters.length + 1) ⟨[], []⟩ letters

end ScopeAtlas.Toml
