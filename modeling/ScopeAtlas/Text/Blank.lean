/-!
White space as the Unicode property `White_Space` defines it, and the three cuts of a text
that are made at it: trimming both ends, the words between, and the pieces between chosen
separators.
-/

namespace ScopeAtlas.Text

def isBlank (letter : Char) : Bool :=
  let code := letter.toNat
  (9 ≤ code && code ≤ 13) || code == 0x20 || code == 0x85 || code == 0xA0 || code == 0x1680 ||
    (0x2000 ≤ code && code ≤ 0x200A) || code == 0x2028 || code == 0x2029 || code == 0x202F ||
    code == 0x205F || code == 0x3000

def trimLeft (letters : List Char) : List Char :=
  letters.dropWhile isBlank

def trimRight (letters : List Char) : List Char :=
  (letters.reverse.dropWhile isBlank).reverse

def trim (text : String) : String :=
  String.ofList (trimRight (trimLeft text.toList))

def pieces (separates : Char → Bool) : List Char → List (List Char)
  | [] => [[]]
  | letter :: rest =>
    if separates letter then [] :: pieces separates rest
    else match pieces separates rest with
      | [] => [[letter]]
      | piece :: later => (letter :: piece) :: later

def words (text : String) : List String :=
  ((pieces isBlank text.toList).filter fun piece => !piece.isEmpty).map String.ofList

/-- The lines of a text: each ends at a line feed, a carriage return just before it is
dropped, and a final line feed opens no further line. -/
def lines (text : String) : List String :=
  let cut := pieces (· == '\n') text.toList
  let kept := match cut.getLast? with
    | some [] => cut.dropLast
    | _ => cut
  let closed := if cut.getLast? == some [] then kept.length else kept.length - 1
  kept.mapIdx fun index line =>
    String.ofList (if index < closed && line.getLast? == some '\r' then line.dropLast else line)

def startsWith (text head : String) : Bool :=
  head.toList.isPrefixOf text.toList

def endsWith (text tail : String) : Bool :=
  tail.toList.isSuffixOf text.toList

def byteLength (letters : List Char) : Nat :=
  letters.foldr (fun letter bytes => letter.utf8Size + bytes) 0

end ScopeAtlas.Text
