import CellFormula.Value.Aggregate
import Std.Data.TreeMap
/-!
# Function registries

A registry maps names to functions on evaluated arguments. A later registration of a name replaces
the earlier one.
-/

namespace CellFormula

/-- A function on evaluated arguments. -/
abbrev Implementation := List Value → Value

/-- The functions that calls are evaluated with, under their names. -/
structure Registry where
  functions : Std.TreeMap String Implementation

namespace Registry

/-- No functions. -/
def empty : Registry := ⟨∅⟩

/-- Registers a function, in place of the one that had the name. -/
def register (r : Registry) (name : String) (f : Implementation) : Registry :=
  ⟨r.functions.insert name f⟩

/-- The function of this name; case matters. -/
def get? (r : Registry) (name : String) : Option Implementation :=
  r.functions[name]?

/-- Whether a function of this name is registered. -/
def contains (r : Registry) (name : String) : Bool :=
  r.functions.contains name

/-- The registered names in alphabetical order. -/
def names (r : Registry) : List String :=
  r.functions.keys

/-- The four aggregates under their names. -/
def builtin : Registry :=
  (((empty.register "SUM" Value.sum).register "AVERAGE" Value.average).register
    "MAX" Value.maximum).register "MIN" Value.minimum

theorem get?_register (r : Registry) (name other : String) (f : Implementation) :
    (r.register name f).get? other = if name = other then some f else r.get? other := by
  simp only [get?, register, Std.TreeMap.getElem?_insert]
  by_cases h : name = other <;> simp [h]

end Registry

end CellFormula
