import Placeholders.Text.Width

/-!
Tables with a border around them and a double line under the head. A cell may have several lines;
columns are as wide as their widest line.
-/

namespace Placeholders.Text.Table

/-- The lines of a cell, each with a space on both sides. -/
def cellLines (cell : Text) : List Text :=
  (splitOn '\n' cell).map fun line => ' ' :: line ++ [' ']

def columnWidth (cells : List Text) : Nat :=
  (cells.flatMap cellLines).foldl (fun widest line => max widest line.width) 0

def columnWidths (columns : Nat) (rows : List (List Text)) : List Nat :=
  (List.range columns).map fun i => columnWidth (rows.map fun row => row.getD i [])

def fillLine (width : Nat) (line : Text) : Text := line ++ List.replicate (width - line.width) ' '

/-- The lines of a row between the side borders. -/
def rowLines (widths : List Nat) (row : List Text) : List Text :=
  let cells := row.map cellLines
  let height := cells.foldl (fun highest lines => max highest lines.length) 0
  (List.range height).map fun i =>
    let line := (cells.zip widths).map fun (lines, width) => fillLine width (lines.getD i [])
    '│' :: join [' '] line ++ ['│']

/-- A line across all columns and the spaces between them. -/
def rule (left middle right : Char) (widths : List Nat) : Text :=
  left :: List.replicate (widths.foldl (· + ·) 0 + (widths.length - 1)) middle ++ [right]

/-- A table with as many columns as its head has cells. -/
def draw (head : List Text) (rows : List (List Text)) : Text :=
  let widths := columnWidths head.length (head :: rows)
  join ['\n']
    (rule '┌' '─' '┐' widths :: rowLines widths head ++ rule '╞' '═' '╡' widths ::
      rows.flatMap (rowLines widths) ++ [rule '└' '─' '┘' widths])

end Placeholders.Text.Table
