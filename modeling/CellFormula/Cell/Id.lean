import CellFormula.Number.Decimal
/-!
# Cell ids

A cell is named by the letters of its column, an underscore and the digits of its row. Rows count
from 1, have no leading zeros and fit in 64 bits, so each cell has one name.
-/

namespace CellFormula

/-- A cell by its column and row. What is read has a column of capital letters and a row from 1 to
`lastRow`. -/
structure CellId where
  column : String
  row : Nat
  deriving DecidableEq

namespace CellId

/-- The largest row, with 64 bits all set. -/
def lastRow : Nat := 0xFFFFFFFFFFFFFFFF

/-- The name of the cell, as in `AB_12`. -/
def write (c : CellId) : String :=
  .join [c.column, "_", Nat.repr c.row]

/-- The digits of a row: the first is not zero, and the value is at most `lastRow`. -/
def readRow? (digits : List Char) : Option Nat :=
  if digits.head? ≠ some '0' then (Number.readDigits? digits).filter (· ≤ lastRow) else none

/-- Reads a name that `write` gives for letters and a row in bounds; all else is no cell. -/
def read? (id : String) : Option CellId :=
  let cs := id.toList
  let column := cs.takeWhile Char.isUpper
  match cs.dropWhile Char.isUpper with
  | '_' :: digits =>
    if column = [] then none else (readRow? digits).map fun row => ⟨String.ofList column, row⟩
  | _ => none

end CellId

end CellFormula
