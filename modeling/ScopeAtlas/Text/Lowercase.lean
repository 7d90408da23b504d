import ScopeAtlas.Text.CaseTable

/-!
Small letters. Two foldings are in use: of the ASCII letters only, for file names, and of the
whole of Unicode, for the order of locations and for words of the vocabulary.
-/

namespace ScopeAtlas.Text

def foldAscii (text : String) : String :=
  text.map Char.toLower

def sameFolded (left right : String) : Bool :=
  foldAscii left == foldAscii right

def inRanges (ranges : List (Nat × Nat)) (letter : Char) : Bool :=
  ranges.any fun (first, last) => first ≤ letter.toNat && letter.toNat ≤ last

def meetsCased : List Char → Bool
  | [] => false
  | letter :: rest =>
    if inRanges passedRanges letter then meetsCased rest else inRanges casedRanges letter

def smallLetter (letter : Char) : List Char :=
  if letter.toNat < 128 then [letter.toLower]
  else if letter == 'İ' then ['i', '\u0307']
  else match caseRuns.find? fun run => run.holds letter.toNat with
    | some run => [Char.ofNat (letter.toNat - run.first + run.small)]
    | none => [letter]

/-- Small letters of a text whose earlier characters, last one first, are `before`. A capital
sigma that ends a word becomes the final small sigma. -/
def lowercaseAfter : List Char → List Char → List Char
  | _, [] => []
  | before, letter :: rest =>
    let small :=
      if letter == 'Σ' then
        if meetsCased before && !meetsCased rest then ['ς'] else ['σ']
      else smallLetter letter
    small ++ lowercaseAfter (letter :: before) rest

def lowercase (text : String) : String :=
  String.ofList (lowercaseAfter [] text.toList)

end ScopeAtlas.Text
