import Rollback.Text.Pieces
import Rollback.Text.Width

/-!
# Box tables

Tables drawn with lines around the cells. A cell has one space on either side, is as wide as the
longest line in its column, and may hold several lines.

- `BoxTable.render`: the lines of a table
-/

set_option autoImplicit false

namespace Rollback

/-- A table: the cells of its header and of its rows. -/
structure BoxTable where
  header : List String
  rows : List (List String)

/-- A horizontal line of a table: its left end, its strokes, its crossings and its right end. -/
structure Rule where
  left : String
  stroke : Char
  crossing : String
  right : String

/-- The line above a table. -/
def Rule.top : Rule := ⟨"╭", '─', "┬", "╮"⟩

/-- The line under the header. -/
def Rule.underHeader : Rule := ⟨"╞", '═', "╪", "╡"⟩

/-- The line between two rows. -/
def Rule.between : Rule := ⟨"├", '╌', "┼", "┤"⟩

/-- The line below a table. -/
def Rule.bottom : Rule := ⟨"╰", '─', "┴", "╯"⟩

/-- A horizontal line over columns of the given widths. -/
def Rule.draw (rule : Rule) (widths : List Nat) : String :=
  rule.left ++
    Text.join rule.crossing
      (widths.map fun width => String.ofList (List.replicate (width + 2) rule.stroke)) ++
    rule.right

/-- The lines of a cell. -/
def cellLines (cell : String) : List (List Char) :=
  Text.pieces '\n' cell.toList

/-- A line of a cell in a column of a given width. -/
def padLine (width : Nat) (line : List Char) : String :=
  String.ofList (' ' :: line ++ List.replicate (width - Text.width line + 1) ' ')

/-- One line across the cells of a row. -/
def drawLine (parts : List String) : String :=
  "│" ++ Text.join "┆" parts ++ "│"

/-- The lines of a row. -/
def drawRow (widths : List Nat) (row : List String) : List String :=
  let cells := row.map cellLines
  let height := (cells.map List.length).foldl max 0
  (List.range height).map fun n =>
    drawLine ((widths.zip cells).map fun (width, lines) => padLine width (lines[n]?.getD []))

/-- The width of the longest line of a cell. -/
def cellWidth (cell : String) : Nat :=
  ((cellLines cell).map Text.width).foldl max 0

namespace BoxTable

/-- The widths of the columns. -/
def widths (t : BoxTable) : List Nat :=
  t.rows.foldl (fun widths row => List.zipWith max widths (row.map cellWidth))
    (t.header.map cellWidth)

/-- The lines of the rows, with a horizontal line between rows. -/
def drawRows (widths : List Nat) : List (List String) → List String
  | [] => []
  | [row] => drawRow widths row
  | row :: rest => drawRow widths row ++ Rule.between.draw widths :: drawRows widths rest

/-- The lines of a table. -/
def render (t : BoxTable) : String :=
  let widths := t.widths
  Text.join "\n" <|
    Rule.top.draw widths :: drawRow widths t.header ++ Rule.underHeader.draw widths ::
      drawRows widths t.rows ++ [Rule.bottom.draw widths]

end BoxTable

end Rollback
