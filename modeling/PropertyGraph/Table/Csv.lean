/-
Tables as comma-separated text.

Cells are separated by commas and every row ends with a line feed.  A cell that
holds a comma, a quote or a line break stands in quotes, its own quotes doubled.
A writer puts row behind row and refuses one that is not as wide as the first.
-/
namespace PropertyGraph.Csv

/-- Whether a cell has to stand in quotes. -/
def needsQuotes (cell : List Char) : Bool :=
  cell.any fun c => c = ',' || c = '"' || c = '\n' || c = '\r'

/-- A text with its quotes doubled. -/
def doubleQuotes (cell : List Char) : List Char :=
  cell.flatMap fun c => if c = '"' then ['"', '"'] else [c]

/-- The text of a cell. -/
def cellText (cell : List Char) : List Char :=
  if needsQuotes cell then '"' :: doubleQuotes cell ++ ['"'] else cell

/-- The text of a row. -/
def rowText (cells : List String) : List Char :=
  [','].intercalate (cells.map fun c => cellText c.toList) ++ ['\n']

/-- The text of a table. -/
def text (rows : List (List String)) : String := String.ofList (rows.flatMap rowText)

/-- A table as far as it is written: the width of its rows, once there is one, and
its text. -/
structure Writer where
  width : Option Nat := none
  text : String := ""

/-- Writes a row, which has to be as wide as the rows before it. -/
def Writer.write? (w : Writer) (cells : List String) : Option Writer :=
  if w.width.all (· = cells.length) then
    some { width := some cells.length, text := w.text ++ String.ofList (rowText cells) }
  else none

end PropertyGraph.Csv
