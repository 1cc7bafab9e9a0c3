import CellFormula.Number.Shortest
/-!
# Writing numbers

A number is written with its shortest digits. Formulas use `formatNumber`: never an exponent, and
words for the values that are not finite. `parseNumber?` reads those texts back. Token texts write
infinity as `inf`, and outlines switch to an exponent for very large and very small numbers.
-/

namespace CellFormula.Number

/-! ## Layouts of a numeral -/

/-- All digits of the numeral without an exponent. -/
def Decimal.positional (d : Decimal) : List Char :=
  let digits := Nat.toDigits 10 d.coefficient
  if 0 ≤ d.exponent then digits ++ List.replicate d.exponent.toNat '0'
  else
    let places := (-d.exponent).toNat
    let padded := List.replicate (places + 1 - digits.length) '0' ++ digits
    padded.take (padded.length - places) ++ '.' :: padded.drop (padded.length - places)

/-- One digit before the point, and the exponent after an `e`. -/
def Decimal.scientific (d : Decimal) : List Char :=
  let digits := Nat.toDigits 10 d.coefficient
  let fraction := digits.drop 1
  let exponent := d.exponent + fraction.length
  digits.take 1 ++ (if fraction = [] then [] else '.' :: fraction) ++ 'e' :: (toString exponent).toList

/-! ## Number texts -/

/-- The texts of the numbers that are not finite, and the layout of the finite ones. -/
structure Style where
  infiniteText : List Char
  layout : Float → Decimal → List Char

/-- Writes a number in a style; NaN has no sign. -/
def Style.write (style : Style) (x : Float) : List Char :=
  if infinity < index x then ['N', 'a', 'N']
  else
    let body := if index x = infinity then style.infiniteText else style.layout x (shortest (index x))
    if isNegative x then '-' :: body else body

/-- The word for infinity in formulas. -/
def infinityWord : List Char := ['I', 'n', 'f', 'i', 'n', 'i', 't', 'y']

/-- The way formulas print numbers: positional, with infinity as a word. -/
def formulaStyle : Style := ⟨infinityWord, fun _ d => d.positional⟩

/-- The way token texts print numbers: positional, with infinity shortened. -/
def tokenStyle : Style := ⟨['i', 'n', 'f'], fun _ d => d.positional⟩

/-- Positional with at least one place for zero and magnitudes from 0.0001 up to below 10 ^ 16, else
with an exponent. -/
def outlineStyle : Style :=
  ⟨['i', 'n', 'f'], fun x d =>
    if x == 0.0 ∨ (1e-4 ≤ x.abs ∧ x.abs < 1e16) then
      if d.exponent < 0 then d.positional else d.positional ++ ['.', '0']
    else d.scientific⟩

/-- The text of a number in formulas. -/
def formatNumber (x : Float) : String :=
  String.ofList (formulaStyle.write x)

/-! ## Reading number texts -/

/-- Reads the whole text as an optional sign followed by a numeral or the word `Infinity`. -/
def parseNumber? (text : String) : Option Float :=
  let (negative, body) := splitSign text.toList
  if body = infinityWord then some (ofIndex negative infinity)
  else (Decimal.read? body).map (·.toFloat negative)

end CellFormula.Number
