import ControlFile.Table

/-!
# Tables as text

A table is shown as its title on a line of its own, or its header if it has no title, and then its
rows. The cells of a column start at one place: each but the last of a row is filled up with spaces
to the length of the longest in its column, and two spaces stand between cells.
-/

namespace ControlFile.Table

/-- The greater of the numbers at each place. -/
def greatest : List Nat → List Nat → List Nat
  | [], ns | ns, [] => ns
  | m :: ms, n :: ns => max m n :: greatest ms ns

/-- The lengths of the longest cells of the columns. -/
def widths (rows : List (List Text)) : List Nat :=
  rows.foldr (fun row ns => greatest (row.map List.length) ns) []

/-- A row whose cells are as wide as their columns. -/
def rowText : List Nat → List Text → Text
  | _, [] => []
  | _, [cell] => cell
  | [], cell :: cells => cell ++ ' ' :: ' ' :: rowText [] cells
  | n :: ns, cell :: cells => cell.rightpad n ' ' ++ ' ' :: ' ' :: rowText ns cells

/-- A table as text. -/
def text (t : Table) : Text :=
  let rows := if t.title.isSome then t.rows else t.header :: t.rows
  let lines := t.title.toList ++ rows.map (rowText (widths rows))
  lines.flatMap (· ++ ['\n'])

end ControlFile.Table
