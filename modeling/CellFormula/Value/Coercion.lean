import CellFormula.Expr.Printer
import CellFormula.Text.Blank
import CellFormula.Value.Basic
/-!
# Values as numbers and texts

`toNumber` is the number that arithmetic takes a value for, `toText` the text that concatenation
takes it for, and `display` the text that is shown.
-/

namespace CellFormula.Value

/-- Not a number. -/
def nan : Float := 0.0 / 0.0

/-- Blank text counts as zero and other text as the number it spells; what has no number is NaN. -/
def toNumber : Value → Float
  | number n => n
  | text s =>
    let trimmed := Text.trim s
    if trimmed = "" then 0.0 else (Number.parseNumber? trimmed).getD nan
  | boolean b => if b then 1.0 else 0.0
  | null => 0.0
  | error _ | collection _ | formula .. => nan

mutual

/-- The text of a value in a concatenation; collections join the texts of their items. -/
def toText : Value → String
  | number n => Number.formatNumber n
  | text s => s
  | boolean b => if b then "TRUE" else "FALSE"
  | null => ""
  | error message => message
  | collection items => ",".intercalate (toTexts items)
  | formula e _ _ => .join ["=", e.print]

/-- The texts of the values in a concatenation. -/
def toTexts : List Value → List String
  | [] => []
  | v :: vs => toText v :: toTexts vs

end

mutual

/-- The text that is shown: collections stand in braces, and null has a name. -/
def display : Value → String
  | collection items => .join ["\x7b", ", ".intercalate (displays items), "\x7d"]
  | null => "null"
  | v => toText v

/-- The values as they are shown. -/
def displays : List Value → List String
  | [] => []
  | v :: vs => display v :: displays vs

end

end CellFormula.Value
