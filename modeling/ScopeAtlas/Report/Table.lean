import ScopeAtlas.Report.Width
import ScopeAtlas.Text.Blank

/-!
Tables of two columns in a rounded box. Every cell is as wide as the widest line of its column,
and a cell of several lines makes its row as high.
-/

namespace ScopeAtlas.Report

structure Row where
  label : String
  value : String
  deriving DecidableEq, Repr

namespace Table

def headings : Row := ⟨"Metric", "Value"⟩

def cellLines (text : String) : List String :=
  (Text.pieces (· == '\n') text.toList).map String.ofList

def columnWidth (cells : List String) : Nat :=
  ((cells.flatMap cellLines).map width).foldl max 0

def repeated (count : Nat) (letter : Char) : String :=
  String.ofList (List.replicate count letter)

def padded (columns : Nat) (line : String) : String :=
  " " ++ line ++ repeated (columns - width line + 1) ' '

def rule (left right : Nat) (start cross finish : String) : String :=
  start ++ repeated (left + 2) '─' ++ cross ++ repeated (right + 2) '─' ++ finish

def rowLines (left right : Nat) (row : Row) : List String :=
  let labels := cellLines row.label
  let values := cellLines row.value
  (List.range (max labels.length values.length)).map fun index =>
    "│" ++ padded left (labels.getD index "") ++ "│" ++ padded right (values.getD index "") ++ "│"

def render (rows : List Row) : String :=
  if rows.isEmpty then ""
  else
    let all := headings :: rows
    let left := columnWidth (all.map Row.label)
    let right := columnWidth (all.map Row.value)
    "\n".intercalate (
      [rule left right "╭" "┬" "╮"] ++ rowLines left right headings ++
        [rule left right "├" "┼" "┤"] ++ rows.flatMap (rowLines left right) ++
        [rule left right "╰" "┴" "╯"])

end Table

end ScopeAtlas.Report
