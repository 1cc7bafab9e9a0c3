import CellFormula.Number.Grid
/-!
# Decimal numerals

A decimal numeral is a natural coefficient and a power of ten. `Decimal.read?` reads the unsigned
text form (digits with an optional point, then an optional exponent), and `Decimal.toFloat` rounds
to the nearest binary64 number in exact arithmetic.
-/

namespace CellFormula.Number

/-- The number `coefficient * 10 ^ exponent`. -/
structure Decimal where
  coefficient : Nat
  exponent : Int
  deriving DecidableEq

/-! ## Rounding -/

/-- The number of the nearest binary64 magnitude. Numerals that are out of range by their exponent
alone are answered without computing their power of ten. -/
def Decimal.index (d : Decimal) : Nat :=
  if d.coefficient = 0 then 0
  else if 310 ≤ d.exponent then infinity
  else if d.coefficient.log2 + d.exponent < -331 then 0
  else
    min infinity
      (nearest ((d.coefficient * Nat.pow 10 d.exponent.toNat) <<< 1074)
        (Nat.pow 10 (-d.exponent).toNat))

/-- Whether the numeral stays below infinity after rounding. -/
def Decimal.isFinite (d : Decimal) : Bool :=
  decide (d.index < infinity)

/-- The nearest binary64 number with the given sign. -/
def Decimal.toFloat (d : Decimal) (negative : Bool) : Float :=
  ofIndex negative d.index

/-! ## Reading -/

/-- The value of a run of digits. -/
def digitsValue (cs : List Char) : Nat :=
  cs.foldl (fun n c => 10 * n + (c.toNat - '0'.toNat)) 0

/-- Splits a leading `+` or `-` off; the flag tells a `-`. -/
def splitSign : List Char → Bool × List Char
  | '-' :: cs => (true, cs)
  | '+' :: cs => (false, cs)
  | cs => (false, cs)

/-- Reads digits that make up the whole text. -/
def readDigits? (cs : List Char) : Option Nat :=
  if cs ≠ [] ∧ cs.all Char.isDigit then some (digitsValue cs) else none

/-- Reads the text after the digits of the coefficient: nothing, or an exponent. -/
def readExponent? : List Char → Option Int
  | [] => some 0
  | c :: cs =>
    if c = 'e' ∨ c = 'E' then
      let (negative, digits) := splitSign cs
      (readDigits? digits).map fun n => if negative then -(n : Int) else n
    else none

/-- Splits the fraction digits off a text that starts with a point; other texts have none. -/
def splitFraction : List Char → List Char × List Char
  | '.' :: cs => (cs.takeWhile Char.isDigit, cs.dropWhile Char.isDigit)
  | cs => ([], cs)

/-- Reads an unsigned numeral: at least one digit before or after the optional point, then an
optional exponent. -/
def Decimal.read? (cs : List Char) : Option Decimal :=
  let whole := cs.takeWhile Char.isDigit
  let (fraction, afterFraction) := splitFraction (cs.dropWhile Char.isDigit)
  if whole = [] ∧ fraction = [] then none
  else
    (readExponent? afterFraction).map fun e =>
      ⟨digitsValue (whole ++ fraction), e - fraction.length⟩

end CellFormula.Number
