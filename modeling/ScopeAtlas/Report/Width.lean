import ScopeAtlas.Report.WidthTable

/-!
The number of columns a text takes on a terminal. Every character counts on its own, so the parts
of a joined picture add up.
-/

namespace ScopeAtlas.Report

def inRanges (ranges : List (Nat × Nat)) (code : Nat) : Bool :=
  ranges.any fun (first, last) => first ≤ code && code ≤ last

def letterWidth (letter : Char) : Nat :=
  let code := letter.toNat
  if code < 0x20 then 0
  else if code < 0x7F then 1
  else if code < 0xA0 then 0
  else if inRanges markRanges code then 0
  else if inRanges wideRanges code then 2
  else 1

def width (text : String) : Nat :=
  text.toList.foldr (fun letter columns => letterWidth letter + columns) 0

end ScopeAtlas.Report
