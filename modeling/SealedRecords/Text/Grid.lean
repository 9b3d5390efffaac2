import SealedRecords.Text.Width

/-!
# Tables

A table with lines around its cells. A cell may have several lines; a column is as wide as its
widest line, measured in display columns, with a blank on both sides.
-/

namespace SealedRecords.Grid

open SealedRecords

/-- The lines of a cell. -/
def cellLines (s : String) : List String := s.splitOn "\n"

/-- The display columns that a cell takes. -/
def cellWidth (s : String) : Nat := ((cellLines s).map Width.ofText).foldl max 0

/-- The widths of the columns of rows. -/
def columnWidths (rows : List (List String)) : List Nat :=
  rows.foldl (fun ws row =>
    let cells := row.map cellWidth
    (List.range (max ws.length cells.length)).map fun i => max (ws.getD i 0) (cells.getD i 0)) []

/-- A line between rows: its ends, the strokes, and the crossings with the columns. -/
def rule (left stroke cross right : String) (widths : List Nat) : String :=
  left ++ cross.intercalate (widths.map fun w => String.join (List.replicate (w + 2) stroke)) ++
    right

/-- A text with blanks behind it up to a width. -/
def pad (w : Nat) (s : String) : String :=
  s ++ String.join (List.replicate (w - Width.ofText s) " ")

/-- The lines of a row. -/
def rowLines (widths : List Nat) (row : List String) : List String :=
  let cells := row.map cellLines
  let height := (cells.map List.length).foldl max 0
  (List.range height).map fun i =>
    "│" ++ "┆".intercalate ((widths.zip cells).map fun (w, c) =>
      " " ++ pad w (c.getD i "") ++ " ") ++ "│"

/-- The lines of rows, with a rule between them. -/
def bodyLines (widths : List Nat) : List (List String) → List String
  | [] => []
  | [row] => rowLines widths row
  | row :: rows => rowLines widths row ++ [rule "├" "╌" "┼" "┤" widths] ++ bodyLines widths rows

/-- A table with a row of headings, as wide as its cells. So it is printed to a file or a pipe; on a
terminal the cells would be wrapped. -/
def render (headings : List String) (rows : List (List String)) : String :=
  let widths := columnWidths (headings :: rows)
  "\n".intercalate ([rule "┌" "─" "┬" "┐" widths] ++ rowLines widths headings ++
    [rule "╞" "═" "╪" "╡" widths] ++ bodyLines widths rows ++ [rule "└" "─" "┴" "┘" widths])

end SealedRecords.Grid
