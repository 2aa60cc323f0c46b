import SymbolAtlas.Text.Search
import SymbolAtlas.Text.Width

/-!
# Grids

Tables drawn with box characters. The border has round corners; a double rule stands under the
headers and a dashed rule between rows. Every column is as wide as the widest line in it, with a
blank on either side.
-/

set_option autoImplicit false

namespace SymbolAtlas.Report

/-- A table of texts. -/
structure Grid where
  headers : Option (List String) := none
  rows : List (List String) := []
deriving DecidableEq, Repr

namespace Grid

/-- A cell as the list of its lines. -/
abbrev Cell := List (List Char)

/-- The lines of a text. -/
def cellOf (text : String) : Cell :=
  Text.splitAtChar '\n' text.toList

/-- The width of a cell: that of its widest line, and at least one. -/
def cellWidth (cell : Cell) : Nat :=
  (cell.map Text.width).foldl max 1

/-- The widths of columns from the cells of one more row. -/
def widen : List Nat → List Cell → List Nat
  | widths, [] => widths
  | [], cell :: cells => cellWidth cell :: widen [] cells
  | w :: widths, cell :: cells => max w (cellWidth cell) :: widen widths cells

/-- A line in a column, with a blank on either side. -/
def padded (width : Nat) (line : List Char) : List Char :=
  ' ' :: line ++ List.replicate (width - Text.width line) ' ' ++ [' ']

/-- A line of a row across all columns. -/
def rowLine (widths : List Nat) (cells : List Cell) (index : Nat) : List Char :=
  let column (position : Nat) (width : Nat) :=
    padded width ((cells.getD position []).getD index [])
  '│' :: List.intercalate ['┆'] (widths.mapIdx column) ++ ['│']

/-- The lines of a row: as many as its tallest cell has. A missing cell is an empty one. -/
def rowLines (widths : List Nat) (cells : List Cell) : List (List Char) :=
  let heights := widths.mapIdx fun position _ => ((cells[position]?).map List.length).getD 1
  (List.range (heights.foldl max 0)).map (rowLine widths cells)

/-- A horizontal rule. -/
def rule (left fill joint right : Char) (widths : List Nat) : List Char :=
  left :: List.intercalate [joint] (widths.map fun w => List.replicate (w + 2) fill) ++ [right]

/-- The lines of rows with rules between them. -/
def bodyLines (widths : List Nat) : List (List Cell) → List (List Char)
  | [] => []
  | [row] => rowLines widths row
  | row :: rest => rowLines widths row ++ rule '├' '╌' '┼' '┤' widths :: bodyLines widths rest

/-- The grid as text. -/
def render (g : Grid) : String :=
  let rows := g.rows.map fun row => row.map cellOf
  let headers := g.headers.map fun row => row.map cellOf
  let widths := (headers.toList ++ rows).foldl widen []
  let head :=
    match headers with
    | some cells => rowLines widths cells ++ [rule '╞' '═' '╪' '╡' widths]
    | none => []
  let lines := rule '╭' '─' '┬' '╮' widths :: head ++ bodyLines widths rows
    ++ [rule '╰' '─' '┴' '╯' widths]
  String.ofList (List.intercalate ['\n'] lines)

end Grid

end SymbolAtlas.Report
