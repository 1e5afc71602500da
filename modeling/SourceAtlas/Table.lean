import SourceAtlas.Text.Blank

/-!
# Tables

A table names its columns and has a cell for each column in each row. A cell shows a text on one
line or more.

* `Table.cell`: a text as a plain console shows it in a cell;
* `Table`, `Table.draw`: a table, and its drawing with aligned columns.
-/

namespace SourceAtlas

/-- The names of the columns, and the rows. -/
structure Table where
  header : List Text
  rows : List (List Text)
deriving DecidableEq

namespace Table

/-! ## Cells -/

/-- The columns between two tab stops. -/
def tabWidth : Nat := 8

/-- A text of blanks. -/
def blanks (n : Nat) : Text := List.replicate n ' '

/-- The line with blanks up to the next stop in place of each tab. -/
def expandTabs : (column : Nat) → Text → Text
  | _, [] => []
  | column, c :: t =>
    if c = '\t' then
      let width := tabWidth - column % tabWidth
      blanks width ++ expandTabs (column + width) t
    else c :: expandTabs (column + 1) t

/-- A point that would move the place where a terminal writes. -/
def isControl (p : Point) : Bool :=
  p.toNat = 7 || p.toNat = 8 || (11 ≤ p.toNat && p.toNat ≤ 13)

/-- The lines without the empty ones at the end. -/
def dropEmptyEnd (ls : List Text) : List Text := (ls.reverse.dropWhile List.isEmpty).reverse

/-- A text as a plain console shows it in a cell: without controls, its lines trimmed, no empty lines at
its end. -/
def cell (t : Text) : Text :=
  let shown := t.filter fun p => !isControl p
  Text.joinWith "\n" (dropEmptyEnd ((Text.splitOn '\n' shown).map fun l => (expandTabs 0 l).trim))

/-! ## Drawing -/

/-- The cells of a column. -/
def column (t : Table) (i : Nat) : List Text := (t.header :: t.rows).map fun row => row.getD i []

/-- The longest line of a column. -/
def width (t : Table) (i : Nat) : Nat :=
  ((t.column i).flatMap fun c => (Text.splitOn '\n' c).map List.length).foldl max 0

/-- The text with blanks after it up to a width. -/
def padded (n : Nat) (t : Text) : Text := t ++ blanks (n - t.length)

/-- A row, each of its lines with the columns at their places. -/
def drawRow (widths : List Nat) (row : List Text) : Text :=
  let cells := row.map fun c => Text.splitOn '\n' c
  let height := (cells.map List.length).foldl max 0
  (List.range height).flatMap fun n =>
    let line := Text.joinWith "  " ((widths.zip cells).map fun (w, ls) => padded w (ls.getD n []))
    line.trimEnd ++ "\n"

/-- The header and the rows with aligned columns. -/
def draw (t : Table) : Text :=
  let widths := (List.range t.header.length).map t.width
  (t.header :: t.rows).flatMap (drawRow widths)

end Table

end SourceAtlas
