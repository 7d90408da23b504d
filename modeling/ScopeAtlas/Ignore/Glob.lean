/-!
Glob patterns. `?` and `*` stand for one byte and any bytes within a step of a path, `**` for any
steps, `[…]` for one byte of a class, `\x7b…,…\x7d` for one of several patterns, and a backslash
takes the letter after it as it is.
-/

namespace ScopeAtlas.Ignore

inductive GlobToken
  | letter (value : Char)
  | any
  | star
  | leadingSteps
  | innerSteps
  | trailingSteps
  | oneOf (negated : Bool) (ranges : List (Char × Char))
  | alternatives (branches : List (List GlobToken))

namespace Glob

/-! ### Reading -/

structure Group where
  complete : List (List GlobToken)
  tokens : List GlobToken

structure Reading where
  current : Group
  outer : List Group
  before : Option Char
  /-- A class was opened and never closed; from there on brackets are letters. -/
  unclosed : Bool

namespace Reading

def begin : Reading := ⟨⟨[], []⟩, [], none, false⟩

def push (reading : Reading) (token : GlobToken) (last : Char) : Reading :=
  { reading with
    current := { reading.current with tokens := reading.current.tokens ++ [token] }
    before := some last }

def openGroup (reading : Reading) : Reading :=
  { reading with
    current := ⟨[], []⟩
    outer := reading.current :: reading.outer
    before := some '\x7b' }

def closeGroup? (reading : Reading) : Option Reading :=
  match reading.outer with
  | [] => none
  | parent :: outer =>
    let branches := reading.current.complete ++ [reading.current.tokens]
    some { reading with
      current := { parent with tokens := parent.tokens ++ [.alternatives branches] }
      outer
      before := some '\x7d' }

def comma (reading : Reading) : Reading :=
  if reading.outer.isEmpty then reading.push (.letter ',') ','
  else
    { reading with
      current := ⟨reading.current.complete ++ [reading.current.tokens], []⟩
      before := some ',' }

def replaceLast (reading : Reading) (token : GlobToken) (last : Char) : Reading :=
  let kept := match reading.current.tokens.getLast? with
    | some .leadingSteps => GlobToken.leadingSteps
    | some .trailingSteps => .trailingSteps
    | _ => token
  { reading with
    current :=
      { reading.current with tokens := reading.current.tokens.dropLast ++ [kept] }
    before := some last }

def doubleStar (reading : Reading) (rest : List Char) : Reading × List Char :=
  let plain := (reading.push .star '*').push .star '*'
  if reading.current.tokens.isEmpty then
    match rest with
    | [] => (reading.push .leadingSteps '*', [])
    | '/' :: after => (reading.push .leadingSteps '/', after)
    | _ => (plain, rest)
  else if reading.before != some '/' then (plain, rest)
  else match rest with
    | [] => (reading.replaceLast .trailingSteps '*', [])
    | '/' :: after => (reading.replaceLast .innerSteps '/', after)
    | letter :: _ =>
      if !reading.outer.isEmpty && (letter == ',' || letter == '\x7d') then
        (reading.replaceLast .trailingSteps '*', rest)
      else (plain, rest)

end Reading

structure ClassReading where
  ranges : List (Char × Char)
  inRange : Bool

namespace ClassReading

/-- Takes a letter as the end of the last range, or as a range of its own. A range that ends before
it starts is refused. -/
def add? (reading : ClassReading) (letter : Char) : Option ClassReading :=
  if reading.inRange then
    match reading.ranges.getLast? with
    | none => none
    | some (first, _) =>
      if letter < first then none
      else some ⟨reading.ranges.dropLast ++ [(first, letter)], false⟩
  else some ⟨reading.ranges ++ [(letter, letter)], false⟩

def finish (reading : ClassReading) : List (Char × Char) :=
  if reading.inRange then reading.ranges ++ [('-', '-')] else reading.ranges

end ClassReading

inductive ClassEnd
  | closed (ranges : List (Char × Char)) (rest : List Char)
  | unclosed
  | badRange

def readClass (first : Bool) (reading : ClassReading) : List Char → ClassEnd
  | [] => .unclosed
  | ']' :: rest =>
    if first then
      readClass false { reading with ranges := reading.ranges ++ [(']', ']')] } rest
    else .closed reading.finish rest
  | '-' :: rest =>
    if first then
      readClass false { reading with ranges := reading.ranges ++ [('-', '-')] } rest
    else if reading.inRange then
      match reading.add? '-' with
      | some next => readClass false next rest
      | none => .badRange
    else readClass false { reading with inRange := true } rest
  | letter :: rest =>
    match reading.add? letter with
    | some next => readClass false next rest
    | none => .badRange

def read : Nat → Reading → List Char → Option Reading
  | _, reading, [] => some reading
  | 0, _, _ => none
  | fuel + 1, reading, letter :: rest =>
    match letter with
    | '?' => read fuel (reading.push .any '?') rest
    | '*' =>
      match rest with
      | '*' :: after =>
        let (next, remaining) := reading.doubleStar after
        read fuel next remaining
      | _ => read fuel (reading.push .star '*') rest
    | '[' =>
      if reading.unclosed then read fuel (reading.push (.letter '[') '[') rest
      else
        let (negated, members) := match rest with
          | '!' :: after | '^' :: after => (true, after)
          | _ => (false, rest)
        match readClass true ⟨[], false⟩ members with
        | .closed ranges after => read fuel (reading.push (.oneOf negated ranges) ']') after
        | .unclosed => read fuel { reading.push (.letter '[') '[' with unclosed := true } rest
        | .badRange => none
    | '\x7b' => read fuel reading.openGroup rest
    | '\x7d' => (reading.closeGroup?).bind fun next => read fuel next rest
    | ',' => read fuel reading.comma rest
    | '\\' =>
      match rest with
      | [] => none
      | escaped :: after => read fuel (reading.push (.letter escaped) escaped) after
    | _ => read fuel (reading.push (.letter letter) letter) rest

def parse? (pattern : String) : Option (List GlobToken) :=
  let letters := pattern.toList
  match read (letters.length + 1) .begin letters with
  | some reading => if reading.outer.isEmpty then some reading.current.tokens else none
  | none => none

/-! ### Nesting

A pattern is a tree: a sequence of several items is a level of its own, and so are a group, the
choice between several branches in it, a repetition and a class. -/

def utf8 (letter : Char) : List UInt8 :=
  letter.toString.toUTF8.toList

structure Extent where
  items : Nat
  levels : Nat
  deriving DecidableEq, Repr

namespace Extent

def empty : Extent := ⟨0, 0⟩

def append (left right : Extent) : Extent :=
  ⟨left.items + right.items, max left.levels right.levels⟩

def sequenceLevels (extent : Extent) : Nat :=
  if 1 < extent.items then extent.levels + 1 else extent.levels

/-- The choice between two sets of branches, where the items count branches; a branch without items
is none. -/
def choice (branch others : Extent) : Extent :=
  if branch.items == 0 then others
  else ⟨others.items + 1, max branch.sequenceLevels others.levels⟩

def group (branches : Extent) : Extent :=
  if branches.items == 0 then empty else ⟨1, branches.sequenceLevels + 1⟩

end Extent

def rangeItems (range : Char × Char) : Nat :=
  if range.1 == range.2 then (utf8 range.1).length
  else (utf8 range.1).length + (utf8 range.2).length - 1

mutual

def extent : GlobToken → Extent
  | .letter value => ⟨(utf8 value).length, 0⟩
  | .any => ⟨1, 1⟩
  | .star => ⟨1, 2⟩
  | .leadingSteps => ⟨1, 4⟩
  | .innerSteps => ⟨1, 4⟩
  | .trailingSteps => ⟨2, 1⟩
  | .oneOf _ ranges => ⟨1, if 1 < (ranges.map rangeItems).sum then 2 else 1⟩
  | .alternatives branches => (extentEach branches).group

def extentEach : List (List GlobToken) → Extent
  | [] => .empty
  | branch :: branches => (extentAll branch).choice (extentEach branches)

def extentAll : List GlobToken → Extent
  | [] => .empty
  | token :: tokens => (extent token).append (extentAll tokens)

end

def isVoid (tokens : List GlobToken) : Bool :=
  (extentAll tokens).items == 0

/-- The levels of a whole pattern, whose two ends are items beside its tokens. -/
def nesting (tokens : List GlobToken) : Nat :=
  (extentAll tokens).levels + 1

def nestingLimit : Nat := 250

/-! ### Matching

A text is matched by marking its places, the end included: a mark says that the tokens so far can
come to that place. -/

def slash : UInt8 := 0x2F

/-- Whether a byte belongs to a range of letters, taken byte by byte: the bytes before the last of
the first letter and after the first of the last letter count on their own. -/
def byteInRange (byte : UInt8) (range : Char × Char) : Bool :=
  let first := utf8 range.1
  let last := utf8 range.2
  if range.1 == range.2 then first.contains byte
  else first.dropLast.contains byte || last.tail.contains byte ||
    match first.getLast?, last.head? with
    | some low, some high => low ≤ byte && byte ≤ high
    | _, _ => false

def oneByte (accepts : UInt8 → Bool) (bytes : List UInt8) (marks : List Bool) : List Bool :=
  false :: List.zipWith (fun byte mark => mark && accepts byte) bytes marks

def manyBytes (accepts : UInt8 → Bool) : Bool → List UInt8 → List Bool → List Bool
  | _, _, [] => []
  | carried, [], mark :: _ => [carried || mark]
  | carried, byte :: bytes, mark :: marks =>
    (carried || mark) :: manyBytes accepts ((carried || mark) && accepts byte) bytes marks

def union (left right : List Bool) : List Bool :=
  List.zipWith (· || ·) left right

def afterSlash (bytes : List UInt8) (marks : List Bool) : List Bool :=
  oneByte (· == slash) bytes marks

def afterAny (bytes : List UInt8) (marks : List Bool) : List Bool :=
  manyBytes (fun _ => true) false bytes marks

def afterSteps (bytes : List UInt8) (marks : List Bool) : List Bool :=
  union marks (afterSlash bytes (afterAny bytes marks))

mutual

def after (bytes : List UInt8) : GlobToken → List Bool → List Bool
  | .letter value, marks =>
    (utf8 value).foldl (fun reached expected => oneByte (· == expected) bytes reached) marks
  | .any, marks => oneByte (· != slash) bytes marks
  | .star, marks => manyBytes (· != slash) false bytes marks
  | .leadingSteps, marks => afterSteps bytes marks
  | .innerSteps, marks => afterSteps bytes (afterSlash bytes marks)
  | .trailingSteps, marks => afterAny bytes (afterSlash bytes marks)
  | .oneOf negated ranges, marks =>
    oneByte (fun byte => ranges.any (byteInRange byte) != negated) bytes marks
  | .alternatives branches, marks => (afterEach bytes branches marks).getD marks

/-- The marks after one of the branches that stand for something; `none` when none does. -/
def afterEach (bytes : List UInt8) : List (List GlobToken) → List Bool → Option (List Bool)
  | [], _ => none
  | branch :: branches, marks =>
    if isVoid branch then afterEach bytes branches marks
    else
      let own := afterAll bytes branch marks
      some (((afterEach bytes branches marks).map (union own)).getD own)

def afterAll (bytes : List UInt8) : List GlobToken → List Bool → List Bool
  | [], marks => marks
  | token :: tokens, marks => afterAll bytes tokens (after bytes token marks)

end

def isMatch (tokens : List GlobToken) (text : String) : Bool :=
  match tokens with
  | [.leadingSteps] => true
  | _ =>
    let bytes := text.toUTF8.toList
    (afterAll bytes tokens (true :: bytes.map fun _ => false)).getLast?.getD false

end Glob

end ScopeAtlas.Ignore
