import CellFormula.Value.Basic
import Std.Data.TreeMap
/-!
# Cells

A finite map from ids to values, and the context that answers from it. Its answers do not depend on
earlier look-ups.
-/

namespace CellFormula

/-- A finite map from ids to values. An id can be any text, whether it names a cell or not. -/
structure Cells where
  entries : Std.TreeMap String Value

namespace Cells

/-- No cells. -/
def empty : Cells := ⟨∅⟩

/-- The value stored under the id. -/
def get? (cells : Cells) (id : String) : Option Value :=
  cells.entries[id]?

/-- Stores a value under the id, in place of the one that was there. -/
def insert (cells : Cells) (id : String) (v : Value) : Cells :=
  ⟨cells.entries.insert id v⟩

/-- Takes away what is stored under the id. -/
def erase (cells : Cells) (id : String) : Cells :=
  ⟨cells.entries.erase id⟩

/-- Whether something is stored under the id. -/
def contains (cells : Cells) (id : String) : Bool :=
  cells.entries.contains id

/-- How many ids have a value. -/
def size (cells : Cells) : Nat :=
  cells.entries.size

/-- The context that answers from these cells. -/
def context (cells : Cells) (key : Nat) : Context :=
  ⟨key, fun _ id => cells.get? id⟩

theorem get?_empty (id : String) : empty.get? id = none := by
  simp [empty, get?]

theorem get?_insert (cells : Cells) (id other : String) (v : Value) :
    (cells.insert id v).get? other = if id = other then some v else cells.get? other := by
  simp only [get?, insert, Std.TreeMap.getElem?_insert]
  by_cases h : id = other <;> simp [h]

theorem get?_erase (cells : Cells) (id other : String) :
    (cells.erase id).get? other = if id = other then none else cells.get? other := by
  simp only [get?, erase, Std.TreeMap.getElem?_erase]
  by_cases h : id = other <;> simp [h]

end Cells

end CellFormula
