/-!
# The grid of binary64 magnitudes

The magnitudes of the binary64 format are numbered from zero upwards, in the order of their bit
patterns: `units i` is the `i`-th of them, counted in the least positive one, 2 ^ -1074. The number
after the last finite magnitude is `infinity`, so overflow is rounding to that number.
-/

namespace CellFormula.Number

/-! ## Magnitudes -/

/-- How many magnitudes share an exponent: 2 ^ 52. -/
def perExponent : Nat := 0x10000000000000

/-- The number of the infinite magnitude; all smaller numbers are finite magnitudes. -/
def infinity : Nat := 0x7FF0000000000000

/-- The magnitude numbered `i`, in units of 2 ^ -1074. -/
def units (i : Nat) : Nat :=
  let shift := i / perExponent - 1
  (i - shift * perExponent) <<< shift

/-- The number of the last magnitude of at most `n` units. -/
def lastBelow (n : Nat) : Nat :=
  let shift := n.log2 - 52
  shift * perExponent + n >>> shift

/-- Twice the midpoint between the magnitude numbered `i` and the next one, in units. -/
def twiceMidpoint (i : Nat) : Nat :=
  units i + units (i + 1)

/-- The number of the magnitude nearest to `num / den` units; halfway, the even number wins. -/
def nearest (num den : Nat) : Nat :=
  let i := lastBelow (num / den)
  if 2 * num < twiceMidpoint i * den then i
  else if 2 * num = twiceMidpoint i * den then i + i % 2
  else i + 1

/-! ## Sign and number of a float -/

/-- The highest of the 64 bits. -/
def signBit : Nat := 0x8000000000000000

/-- The float with a sign and the number of a magnitude. -/
def ofIndex (negative : Bool) (i : Nat) : Float :=
  Float.ofBits (UInt64.ofNat (if negative then signBit + i else i))

/-- The number of the float's magnitude; it is above `infinity` for no float but NaN. -/
def index (x : Float) : Nat :=
  x.toBits.toNat % signBit

/-- Whether the sign bit is set. -/
def isNegative (x : Float) : Bool :=
  decide (signBit ≤ x.toBits.toNat)

end CellFormula.Number
