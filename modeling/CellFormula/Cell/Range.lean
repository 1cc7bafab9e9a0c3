import CellFormula.Cell.Column
import CellFormula.Cell.Id
import CellFormula.Evaluation.Error
/-!
# Ranges

A range is named by two opposite corners in any order. `expandRange` lists its cells column by
column, and the rows of each column upwards.
-/

namespace CellFormula

/-- A corner of a range. -/
def readCorner (id : String) : Except EvalError CellId :=
  match CellId.read? id with
  | some c => .ok c
  | none => .error (.invalidReference id)

/-- The cells of the rectangle between two corners. -/
def rectangle (a b : CellId) : List CellId :=
  let (left, right) := if Column.order a.column b.column = .gt then (b, a) else (a, b)
  let columns :=
    Column.listFrom left.column (Column.number right.column + 1 - Column.number left.column)
  let top := min a.row b.row
  let rows := List.range' top (max a.row b.row + 1 - top)
  columns.flatMap fun column => rows.map fun row => ⟨column, row⟩

/-- The ids of the cells of a range. Of two malformed corners the first is reported. -/
def expandRange (first last : String) : Except EvalError (List String) := do
  let a ← readCorner first
  let b ← readCorner last
  return (rectangle a b).map CellId.write

theorem expandRange_eq (first last : String) : expandRange first last =
    match CellId.read? first, CellId.read? last with
    | none, _ => .error (.invalidReference first)
    | some _, none => .error (.invalidReference last)
    | some a, some b => .ok ((rectangle a b).map CellId.write) := by
  cases hfirst : CellId.read? first <;> cases hlast : CellId.read? last <;>
    simp [expandRange, readCorner, hfirst, hlast] <;> rfl

end CellFormula
