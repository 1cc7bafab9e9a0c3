import CellFormula.Number.Decimal
/-!
# The shortest decimal of a magnitude

`shortest i` is the numeral with the fewest digits that rounds to the magnitude numbered `i`, and
of those the nearest one. Every magnitude is a whole number of 10 ^ -1074, so the search runs over
grids of 10 ^ j such units, from the coarsest to the finest, where the magnitude itself lies.
-/

namespace CellFormula.Number

/-- Whether `n` units of 10 ^ -1074 round to the magnitude numbered `i`. -/
def ReadsBack (i n : Nat) : Prop :=
  nearest n (Nat.pow 5 1074) = i

instance (i n : Nat) : Decidable (ReadsBack i n) :=
  inferInstanceAs (Decidable (_ = _))

/-- The neighbours of `w` on the grid of 10 ^ j units are tried for `j` downwards. Where both read
back the nearer is taken, and the upper one halfway. The answer is a coefficient and its `j`. -/
def searchGrids (i w : Nat) : Nat → Nat × Nat
  | 0 => (w, 0)
  | j + 1 =>
    let step := Nat.pow 10 (j + 1)
    let lower := w / step
    if ReadsBack i (lower * step) ∧ (2 * (w % step) < step ∨ ¬ReadsBack i ((lower + 1) * step)) then
      (lower, j + 1)
    else if ReadsBack i ((lower + 1) * step) then (lower + 1, j + 1)
    else searchGrids i w j

/-- The magnitude numbered `i`, in units of 10 ^ -1074. -/
def fineUnits (i : Nat) : Nat :=
  units i * Nat.pow 5 1074

/-- The `j` of a grid that is coarser than `w` units, because 2 ^ 93 is less than 10 ^ 28. -/
def coarsestGrid (w : Nat) : Nat :=
  w.log2 * 28 / 93 + 2

/-- The numeral of a coefficient on the grid of 10 ^ j units. -/
def Decimal.onGrid (found : Nat × Nat) : Decimal :=
  ⟨found.1, found.2 - 1074⟩

/-- The shortest numeral that rounds to the finite magnitude numbered `i`. -/
def shortest (i : Nat) : Decimal :=
  if i = 0 then ⟨0, 0⟩
  else .onGrid (searchGrids i (fineUnits i) (coarsestGrid (fineUnits i)))

end CellFormula.Number
